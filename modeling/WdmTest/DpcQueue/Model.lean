import WdmTest.Lib.Transition

/-!
Test 1 of DpcQueueTest: one DPC object queued to three processors in turn, and
the pulse of the stop flag that ends it.

Time is counted in microseconds and passes in steps of its own. How long a stall
of an instance lasts and when a queued DPC starts is settled when the stall begins
and when the DPC is queued, and time does not pass what is due; a stall is never
shorter than asked for and everything may be delayed at will. `DriverEntry` may
come late at any statement. The state starts after the first `KeInitializeDpc`;
with no statement left, `DriverEntry` calls `KeInitializeDpc` for Test 2. Results
the driver stores and never reads are left out.
-/
namespace WdmTest.DpcQueue

inductive Stmt where
  | keRaiseIrql
  | keLowerIrql
  | dbgBreakPoint
  | keSetTargetProcessorDpcEx (number : Nat)
  | keInsertQueueDpc
  | keStallExecutionProcessor (microseconds : Nat)
  | setFlagStop (flag : Bool)
deriving DecidableEq, Repr

def fireOn (number : Nat) : List Stmt :=
  [.keSetTargetProcessorDpcEx number, .keInsertQueueDpc, .keStallExecutionProcessor 200]

def pulse : List Stmt :=
  [.setFlagStop true, .keStallExecutionProcessor 500, .setFlagStop false]

def test1 : List Stmt :=
  [.keRaiseIrql, .dbgBreakPoint] ++
    fireOn 1 ++ fireOn 2 ++ fireOn 3 ++ fireOn 1 ++ fireOn 2 ++ fireOn 3 ++
    [.dbgBreakPoint, .keLowerIrql] ++ pulse

/-- How long the kernel takes to start a DPC that is put into a queue, and the DPC
from there to its first read of the flag. -/
structure Delays where
  start : Nat := 0
  read : Nat := 0
deriving DecidableEq, Repr

/-- The place of the DPC in the queue of a processor. -/
structure QueueEntry where
  cpu : Nat
  startsAt : Nat
  readDelay : Nat
deriving DecidableEq, Repr

structure Dpc where
  number : Nat
  queue : Option QueueEntry
deriving DecidableEq, Repr

/-- An instance of `TestFunction` running on a processor is the time of its next
read of the flag. -/
structure State where
  now : Nat
  rest : List Stmt
  stalledUntil : Nat
  flagStop : Bool
  dpcTest : Dpc
  running : Nat → Option Nat

def initial : State where
  now := 0
  rest := test1
  stalledUntil := 0
  flagStop := false
  dpcTest := { number := 0, queue := none }
  running _ := none

/-- `KeInsertQueueDpc` for the queue of a processor. -/
def State.keInsertQueueDpc (s : State) (cpu : Nat) (k : Delays) : State :=
  if s.dpcTest.queue = none then
    { s with dpcTest := { s.dpcTest with
        queue := some { cpu, startsAt := s.now + k.start, readDelay := k.read } } }
  else s

/-- `retargets` says whether a new target takes effect on a queued DPC. -/
def State.exec (retargets : Bool) (k : Delays) (s : State) : Stmt → State
  | .keSetTargetProcessorDpcEx number =>
      if s.dpcTest.queue = none ∨ retargets = true then
        { s with dpcTest := { s.dpcTest with number } }
      else s
  | .keInsertQueueDpc => s.keInsertQueueDpc s.dpcTest.number k
  | .keStallExecutionProcessor microseconds => { s with stalledUntil := s.now + microseconds }
  | .setFlagStop flag => { s with flagStop := flag }
  | .keRaiseIrql | .keLowerIrql | .dbgBreakPoint => s

/-- One round of the loop of `TestFunction`, with a stall that lasts longer than
asked for. -/
def State.testFunction (s : State) (cpu overrun : Nat) : State :=
  if s.flagStop then { s with running := Function.update s.running cpu none }
  else { s with running := Function.update s.running cpu (some (s.now + 500 + overrun)) }

def State.queueOf (s : State) (cpu : Nat) : Option QueueEntry :=
  s.dpcTest.queue.filter fun entry => entry.cpu = cpu

/-- The time of what happens next on a processor. -/
def State.due (s : State) (cpu : Nat) : Option Nat :=
  match s.running cpu with
  | some read => some read
  | none => (s.queueOf cpu).map QueueEntry.startsAt

/-- Nothing falls due in between. Only the processors 0 to 3 are ever named. -/
def State.mayPass (s : State) (microseconds : Nat) : Bool :=
  (List.range 4).all fun cpu => (s.due cpu).all fun time => s.now + microseconds ≤ time

inductive Action where
  | tick (microseconds : Nat)
  | driver (k : Delays)
  | start (cpu : Nat)
  | poll (cpu overrun : Nat)
deriving DecidableEq, Repr

def step (retargets : Bool) (s : State) : Action → Option State
  | .tick microseconds =>
      if s.mayPass microseconds then some { s with now := s.now + microseconds } else none
  | .driver k =>
      match s.rest with
      | [] => none
      | stmt :: rest =>
          if s.stalledUntil ≤ s.now then some { s.exec retargets k stmt with rest } else none
  | .start cpu =>
      match s.dpcTest.queue with
      | some entry =>
          if entry.cpu = cpu ∧ s.running cpu = none ∧ entry.startsAt ≤ s.now then
            some { s with
              dpcTest := { s.dpcTest with queue := none }
              running := Function.update s.running cpu (some (s.now + entry.readDelay)) }
          else none
      | none => none
  | .poll cpu overrun =>
      match s.running cpu with
      | some read => if read ≤ s.now then some (s.testFunction cpu overrun) else none
      | none => none

end WdmTest.DpcQueue
