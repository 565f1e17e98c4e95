import WdmTest.Kernel
import WdmTest.Lib.Transition

/-!
`DriverEntry` of PtovTest and the system thread it starts. The thread is given a
context that points to a buffer and uses both for as long as it takes; the
driver waits ten seconds for it and then frees both. What the buffer holds and
the addresses it is mapped to play no part here.
-/
namespace WdmTest.Ptov

/-- The pool blocks the driver shares with the thread. -/
inductive Block where
  | ctx
  | buffer
deriving DecidableEq, Repr

/-- `ThreadFunction`, with `GetFirstPfnFromVirtAddr` and `CreateMdlByPfn` at the
places of their calls. -/
inductive WorkerStmt where
  | readBuffer
  | ioAllocateMdl
  | mmProbeAndLockPages
  | mmBuildMdlForNonPagedPool
  | ioFreeMdl
  | createMdlByPfn
  | mmAllocateMappingAddress
  | mmMapLockedPagesWithReservedMapping
  | dbgBreakPoint
  | mmUnmapReservedMapping
  | mmFreeMappingAddress
  | exFreePoolWithTag
  | readEventDone
  | keSetEvent
deriving DecidableEq, Repr

def threadFunction : List WorkerStmt :=
  [.readBuffer, .ioAllocateMdl, .mmProbeAndLockPages, .mmBuildMdlForNonPagedPool, .ioFreeMdl,
    .createMdlByPfn, .mmAllocateMappingAddress, .mmMapLockedPagesWithReservedMapping,
    .dbgBreakPoint, .mmUnmapReservedMapping, .mmFreeMappingAddress, .exFreePoolWithTag,
    .readEventDone, .keSetEvent]

/-- The blocks a statement accesses. The size in the context is read for each
call it is an argument of; a mapping of the buffer's pages is an access to it. -/
def WorkerStmt.accesses : WorkerStmt → List Block
  | .readBuffer | .createMdlByPfn | .mmAllocateMappingAddress | .readEventDone => [.ctx]
  | .mmProbeAndLockPages | .mmBuildMdlForNonPagedPool | .mmMapLockedPagesWithReservedMapping
  | .dbgBreakPoint | .mmUnmapReservedMapping => [.buffer]
  | .ioAllocateMdl | .ioFreeMdl | .mmFreeMappingAddress | .exFreePoolWithTag | .keSetEvent => []

inductive DriverPc where
  | allocating
  | creatingThread
  | closingHandle
  | notifying
  | startingWait
  | waiting (due : Int)
  | breaking
  | freeing (block : Block)
  | returned
deriving DecidableEq, Repr

/-- `worker` is the number of statements the thread has executed, if there is a
thread; `allocated` says which blocks are. -/
structure State where
  now : Int
  driver : DriverPc
  eventDone1 : Bool
  worker : Option Nat
  ctx : Bool
  buffer : Bool
deriving DecidableEq

def initial (now : Int) : State where
  now := now
  driver := .allocating
  eventDone1 := false
  worker := none
  ctx := false
  buffer := false

namespace Const
/-- Ten seconds from the start of the wait. -/
def delay : Int64 := -100000000
end Const

/-- `createStatus` is what `PsCreateSystemThread` returns; on success the thread
exists from then on. -/
def driverEntry (createStatus : NtStatus) (s : State) : Option State :=
  match s.driver with
  | .allocating => some { s with ctx := true, buffer := true, driver := .creatingThread }
  | .creatingThread =>
      if ntSuccess createStatus then some { s with worker := some 0, driver := .closingHandle }
      else some { s with driver := .breaking }
  | .closingHandle => some { s with driver := .notifying }
  | .notifying => some { s with driver := .startingWait }
  | .startingWait => some { s with driver := .waiting (waitDue s.now Const.delay) }
  | .breaking => some { s with driver := .freeing .ctx }
  | .freeing .ctx => some { s with ctx := false, driver := .freeing .buffer }
  | .freeing .buffer => some { s with buffer := false, driver := .returned }
  | .waiting _ | .returned => none

inductive Action where
  | tick (time : Nat)
  | driver
  | worker
  | waitSatisfied
  | waitTimeout
deriving DecidableEq, Repr

/-- The wait gives up only when its time is up before the event is signalled. -/
def step (createStatus : NtStatus) (s : State) : Action → Option State
  | .tick time => some { s with now := s.now + time }
  | .driver => driverEntry createStatus s
  | .worker =>
      match s.worker with
      | none => none
      | some k =>
          match threadFunction[k]? with
          | none => none
          | some stmt => some { s with
              worker := some (k + 1)
              eventDone1 := s.eventDone1 || decide (stmt = .keSetEvent) }
  | .waitSatisfied =>
      match s.driver with
      | .waiting _ => if s.eventDone1 then some { s with driver := .breaking } else none
      | _ => none
  | .waitTimeout =>
      match s.driver with
      | .waiting due =>
          if due ≤ s.now ∧ s.eventDone1 = false then some { s with driver := .breaking } else none
      | _ => none

end WdmTest.Ptov
