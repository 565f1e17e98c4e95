import WdmTest.Kernel

/-!
`DriverEntry` and `DriverUnload` of TimerCostTest. The answers of the kernel are
an argument: the number of processors, whether the pool block could be had, the
processor number for each index and the timer resolutions. The state has the
globals of the driver, the number of pool blocks it holds and the timer
resolution it has asked for.

The timer is never set: the source has that line commented out.
-/
namespace WdmTest.TimerCost

namespace Const
/-- The shortest period that is asked for, 500 us. -/
def minResolution : UInt32 := 5000
end Const

structure ProcessorNumber where
  group : UInt16
  number : UInt8
deriving DecidableEq, Repr

inductive DpcRoutine where
  | dummyDpcRoutine
  | timerDpcRoutine
deriving DecidableEq, Repr

/-- A deferred procedure call; zeroed memory has no routine and no target. -/
structure Dpc extends KDpc where
  routine : Option DpcRoutine := none
  target : Option ProcessorNumber := none
deriving DecidableEq, Repr

structure IndexAnswer where
  status : NtStatus
  number : ProcessorNumber

structure Answers where
  activeProcessorCountEx : UInt32
  allocated : Bool
  processorNumber : Nat → IndexAnswer
  minRes : UInt32
  setTimerResolution : UInt32 → UInt32

structure State where
  driverUnload : Bool := false
  myTimer : KTimer := {}
  timerDpc : Dpc := {}
  dummyDpcs : Option (List Dpc) := none
  cpuCount : UInt32 := 0
  timerInterval : Int64 := 0
  poolBlocks : Nat := 0
  resolution : Option UInt32 := none
  output : List (List Char) := []

def dummyDpc (k : Answers) (i : Nat) : Dpc where
  routine := some .dummyDpcRoutine
  target := some (k.processorNumber i).number

/-- The loop over the processors: the status it returns with, if it does, and the
array it leaves behind. -/
def initDummyDpcs (k : Answers) : Nat → Nat → List Dpc → Option NtStatus × List Dpc
  | 0, _, dpcs => (none, dpcs)
  | remaining + 1, i, dpcs =>
      if ntSuccess (k.processorNumber i).status then
        initDummyDpcs k remaining (i + 1) (dpcs.set i (dummyDpc k i))
      else (some (k.processorNumber i).status, dpcs)

def driverEntry (k : Answers) (s : State) : NtStatus × State :=
  let s := { s with
    driverUnload := true
    myTimer := {}
    timerDpc := { routine := some .timerDpcRoutine }
    cpuCount := k.activeProcessorCountEx }
  if k.allocated then
    let s := { s with poolBlocks := s.poolBlocks + 1 }
    let count := k.activeProcessorCountEx.toNat
    match initDummyDpcs k count 0 (List.replicate count {}) with
    | (some status, dpcs) =>
        (status, { s with
          dummyDpcs := some dpcs
          output := s.output ++ ["KeGetProcessorNumberFromIndex failed\n".toList] })
    | (none, dpcs) =>
        let minRes := if k.minRes < Const.minResolution then Const.minResolution else k.minRes
        (NtStatus.success, { s with
          dummyDpcs := some dpcs
          resolution := some minRes
          timerInterval := -1 * (k.setTimerResolution minRes).toUInt64.toInt64
          output := s.output ++ ["===> DriverEntry!\n".toList] })
  else (NtStatus.memoryNotAllocated, { s with dummyDpcs := none })

def keRemoveQueueDpc (d : Dpc) : Dpc := { d with queued := false }

def driverUnload (s : State) : State :=
  let s := { s with
    myTimer := {}
    timerDpc := keRemoveQueueDpc s.timerDpc
    resolution := none }
  let s := match s.dummyDpcs with
    | some dpcs => { s with
        dummyDpcs := some (dpcs.map keRemoveQueueDpc)
        poolBlocks := s.poolBlocks - 1 }
    | none => s
  { s with output := s.output ++ ["<=== DriverUnload!\n".toList] }

/-- The system unloads a driver only if its `DriverEntry` succeeded. -/
def loadAndUnload (k : Answers) (s : State) : State :=
  let r := driverEntry k s
  if ntSuccess r.1 then driverUnload r.2 else r.2

end WdmTest.TimerCost
