import Mathlib.Logic.Function.Basic
import WdmTest.Kernel
import WdmTest.Lib.Transition

/-!
`DriverEntry` of KernelThreadTest and the two system threads it starts, as
parties that take one step after the other in any order. The events are the
static ones of the driver; nothing else signals them. A wait of the first thread
has a timeout of 0 and so never blocks; the wait of the driver has none.

The statements of `DriverEntry` are an argument of the initial state. The pool
allocation is taken to succeed, as the source takes it, and the counter values
before and after the loop, which nothing reads, are left out.
-/
namespace WdmTest.KernelThread

/-- All are notification events: they stay signalled. -/
inductive Event where
  | eventNotify1
  | eventNotify2
  | eventDone1
  | eventDone2
deriving DecidableEq, Repr

def eventDone : List Event := [.eventDone1, .eventDone2]

inductive Thread where
  | threadFunction1
  | threadFunction2
deriving DecidableEq, Repr

inductive Stmt where
  | keInitializeEvent (e : Event)
  | psCreateSystemThread (t : Thread)
  | keSetEvent (e : Event)
  | keWaitForMultipleObjects (es : List Event)
deriving DecidableEq, Repr

def driverEntry : List Stmt :=
  [.keInitializeEvent .eventNotify1, .keInitializeEvent .eventNotify2,
    .keInitializeEvent .eventDone1, .keInitializeEvent .eventDone2,
    .psCreateSystemThread .threadFunction1, .psCreateSystemThread .threadFunction2,
    .keWaitForMultipleObjects eventDone]

/-- Where `ThreadFunction1` stands: it polls at the loop condition and samples in
the body of the loop. -/
inductive Thread1Pc where
  | allocating
  | polling
  | sampling
  | breaking
  | freeing
  | signalling
  | returned
deriving DecidableEq, Repr

inductive Thread2Pc where
  | signalling
  | returned
deriving DecidableEq, Repr

namespace Const
def maxSize : Nat := 1000000
end Const

/-- `driver` has the statements to come; a thread is none until it is created.
`counter` has the samples recorded so far, and none while there is no array. -/
structure State where
  signalled : Event → Bool
  driver : List Stmt
  thread1 : Option Thread1Pc
  thread2 : Option Thread2Pc
  counter : Option (List Int64)

def initial (program : List Stmt) : State where
  signalled _ := false
  driver := program
  thread1 := none
  thread2 := none
  counter := none

def State.signal (s : State) (e : Event) : State :=
  { s with signalled := Function.update s.signalled e true }

def State.create (s : State) : Thread → State
  | .threadFunction1 => { s with thread1 := some .allocating }
  | .threadFunction2 => { s with thread2 := some .signalling }

def record (counter : List Int64) (timestamp : Int64) : List Int64 :=
  if counter.length < Const.maxSize then counter ++ [timestamp] else counter

/-- The effect of a statement; a wait without timeout goes on only when all its
events are signalled. -/
def State.exec (createStatus : Thread → NtStatus) (s : State) : Stmt → Option State
  | .keInitializeEvent e => some { s with signalled := Function.update s.signalled e false }
  | .psCreateSystemThread t =>
      if ntSuccess (createStatus t) then some (s.create t) else some s
  | .keSetEvent e => some (s.signal e)
  | .keWaitForMultipleObjects es => if es.all s.signalled then some s else none

def threadFunction1 (timestamp : Int64) (s : State) : Thread1Pc → Option State
  | .allocating => some { s with counter := some [], thread1 := some .polling }
  | .polling =>
      if s.signalled .eventNotify1 then some { s with thread1 := some .breaking }
      else some { s with thread1 := some .sampling }
  | .sampling => some { s with
      counter := s.counter.map fun counter => record counter timestamp
      thread1 := some .polling }
  | .breaking => some { s with thread1 := some .freeing }
  | .freeing => some { s with counter := none, thread1 := some .signalling }
  | .signalling => some { s.signal .eventDone1 with thread1 := some .returned }
  | .returned => none

def threadFunction2 (s : State) : Thread2Pc → Option State
  | .signalling => some { s.signal .eventDone2 with thread2 := some .returned }
  | .returned => none

/-- The first thread reads the performance counter when it samples. -/
inductive Action where
  | driver
  | thread1 (timestamp : Int64)
  | thread2
deriving DecidableEq, Repr

def step (createStatus : Thread → NtStatus) (s : State) : Action → Option State
  | .driver =>
      match s.driver with
      | [] => none
      | stmt :: rest => (s.exec createStatus stmt).map fun t => { t with driver := rest }
  | .thread1 timestamp => s.thread1.bind (threadFunction1 timestamp s)
  | .thread2 => s.thread2.bind (threadFunction2 s)

end WdmTest.KernelThread
