import WdmTest.Kernel
import WdmTest.Lib.Transition

/-!
`DoTest` of HarddiskDeviceTest, the device stack it sends its read to, and
`MyIoCompletion`. The stack completes the IRP at any time after `IoCallDriver`
was called, with any status, and the completion routine runs beside `DoTest` one
statement at a time. Time passes in steps of its own.

The allocations are taken to succeed, which the source takes for granted too;
the status the wait leaves behind is kept although nothing reads it.
-/
namespace WdmTest.Harddisk

inductive DoTestPc where
  | opening
  | preparing
  | calling
  | waiting (due : Int)
  | printing
  | freeing
  | returned
deriving DecidableEq, Repr

/-- Where `MyIoCompletion` stands; its last statement that acts sets the event. -/
inductive CompletionPc where
  | notCalled
  | freeingMdl
  | freeingIrp
  | settingEvent
  | returned
deriving DecidableEq, Repr

/-- The system time is in units of 100 ns since 1601. For the IRP, the MDL and
the buffer the state says whether they are allocated. -/
structure State where
  now : Int
  ioEvent : Bool
  doTest : DoTestPc
  completion : CompletionPc
  status : NtStatus
  irp : Bool
  mdl : Bool
  buffer : Bool
deriving DecidableEq

def initial (now : Int) : State where
  now := now
  ioEvent := false
  doTest := .opening
  completion := .notCalled
  status := NtStatus.success
  irp := false
  mdl := false
  buffer := false

namespace Const
/-- The wait is meant to last 15 seconds. -/
def wait : Int64 := 150000000
end Const

/-- What `DoTest` does next of itself; inside `IoCallDriver` and inside the wait
it does nothing. -/
def doTest (openStatus : NtStatus) (s : State) : Option State :=
  match s.doTest with
  | .opening =>
      if ntSuccess openStatus then
        some { s with ioEvent := false, status := openStatus, doTest := .preparing }
      else some { s with ioEvent := false, status := openStatus, doTest := .returned }
  | .preparing => some { s with irp := true, mdl := true, buffer := true, doTest := .calling }
  | .printing => some { s with doTest := .freeing }
  | .freeing => some { s with buffer := false, doTest := .returned }
  | .calling | .waiting _ | .returned => none

def myIoCompletion (s : State) : Option State :=
  match s.completion with
  | .freeingMdl => some { s with mdl := false, completion := .freeingIrp }
  | .freeingIrp => some { s with irp := false, completion := .settingEvent }
  | .settingEvent => some { s with ioEvent := true, completion := .returned }
  | .notCalled | .returned => none

inductive Action where
  | tick (time : Nat)
  | doTest
  | complete
  | completion
  | callReturns (status : NtStatus)
  | waitSatisfied
  | waitTimeout
deriving DecidableEq, Repr

/-- `openStatus` is what `IoGetDeviceObjectPointer` returns. -/
def step (openStatus : NtStatus) (s : State) : Action → Option State
  | .tick time => some { s with now := s.now + time }
  | .doTest => Harddisk.doTest openStatus s
  | .complete =>
      if s.irp = true ∧ s.completion = .notCalled then some { s with completion := .freeingMdl }
      else none
  | .completion => myIoCompletion s
  | .callReturns status =>
      if s.doTest = .calling ∧ (s.completion = .returned ∨ status = NtStatus.pending) then
        if status = NtStatus.pending then
          some { s with status, doTest := .waiting (waitDue s.now Const.wait) }
        else some { s with status, doTest := .printing }
      else none
  | .waitSatisfied =>
      match s.doTest with
      | .waiting _ =>
          if s.ioEvent then some { s with status := NtStatus.success, doTest := .printing } else none
      | _ => none
  | .waitTimeout =>
      match s.doTest with
      | .waiting due =>
          if due ≤ s.now then some { s with status := NtStatus.timeout, doTest := .printing }
          else none
      | _ => none

end WdmTest.Harddisk
