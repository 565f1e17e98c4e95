import WdmTest.Kernel
import WdmTest.Lib.Bytes
import WdmTest.Lib.Decimal
import WdmTest.Lib.Trace

/-!
`DetectBigNumaNode` of BigNumaNodeTest. What the kernel answers is an argument:
its counts, and the buffer and length `KeQueryLogicalProcessorRelationship`
leaves behind. The fields of a record are read at their offsets on x64, each
time the source names them; a read that leaves the allocated pages is undefined.

The walk over the buffer takes fuel, since nothing in the source bounds it; the
two cursors are 32-bit and wrap around.
-/
namespace WdmTest.NumaNode

namespace Const
def pageSize : Nat := 4096
def bufferSize : Nat := pageSize * 128
end Const

/-! Offsets in `SYSTEM_LOGICAL_PROCESSOR_INFORMATION_EX` of a NUMA node and in
the `GROUP_AFFINITY` entries at its end. -/

namespace Layout
def size : Nat := 4
def nodeNumber : Nat := 8
def groupCount : Nat := 30
def groupMasks : Nat := 32
def mask : Nat := 0
def group : Nat := 8
def affinitySize : Nat := 16
end Layout

/-- The pool block of 128 pages. -/
structure RelationBuffer where
  bytes : List UInt8
  size_eq : bytes.length = Const.bufferSize

/-- A read of some bytes at a position of the record at a buffer offset. -/
structure Read where
  record : Nat
  pos : Nat
  width : Nat
deriving DecidableEq, Repr

abbrev WalkTrace := Trace Read (List Char)

def RelationBuffer.field (buffer : RelationBuffer) (record pos width : Nat) : Nat :=
  Bytes.ofLE (Bytes.slice buffer.bytes (record + pos) width)

def read (record pos width : Nat) : WalkTrace where
  events := [⟨record, pos, width⟩]
  completes := decide (record + pos + width ≤ Const.bufferSize)

def kdPrintEx (text : List Char) : WalkTrace := { output := [text] }

def nodeLine (nodeNumber : UInt32) (groupCount : UInt16) : List Char :=
  "Node(".toList ++ Decimal.ofInt nodeNumber.toInt32.toInt ++ ") GroupCount(".toList ++
    Decimal.ofInt groupCount.toNat ++ ") ".toList

def maskLine (group : UInt16) (mask : UInt64) : List Char :=
  "\n\tGroup=".toList ++ Decimal.ofInt group.toNat ++ ", Mask=".toList ++ hexUpper 1 mask.toNat

/-- Print the `GROUP_AFFINITY` at a position of the record. -/
def printAffinity (buffer : RelationBuffer) (record pos : Nat) : WalkTrace :=
  Trace.seq [read record (pos + Layout.group) 2, read record (pos + Layout.mask) 8,
    kdPrintEx (maskLine (UInt16.ofNat (buffer.field record (pos + Layout.group) 2))
      (UInt64.ofNat (buffer.field record (pos + Layout.mask) 8)))]

/-- The loop over `GroupMasks`, whose condition reads `GroupCount` every time. -/
def printMasks (buffer : RelationBuffer) (record : Nat) (groupCount : UInt16) : WalkTrace :=
  (Trace.seq ((List.range groupCount.toNat).map fun j =>
    (read record Layout.groupCount 2).andThen
      (printAffinity buffer record (Layout.groupMasks + Layout.affinitySize * j)))).andThen
    (read record Layout.groupCount 2)

def printRecord (buffer : RelationBuffer) (record : Nat) : WalkTrace :=
  let nodeNumber := UInt32.ofNat (buffer.field record Layout.nodeNumber 4)
  let groupCount := UInt16.ofNat (buffer.field record Layout.groupCount 2)
  Trace.seq [kdPrintEx "[Roy Debug] NumaNode Relation=> ".toList,
    read record Layout.nodeNumber 4, read record Layout.groupCount 2,
    kdPrintEx (nodeLine nodeNumber groupCount), read record Layout.groupCount 2,
    if groupCount = 0 then printAffinity buffer record Layout.groupMasks
    else printMasks buffer record groupCount,
    kdPrintEx "\n".toList]

/-- The variables of the loop, with what it has read and printed so far. -/
structure Walk where
  offset : UInt32
  size : UInt32
  trace : WalkTrace

/-- One round: print the record at the offset and step over it. -/
def Walk.round (buffer : RelationBuffer) (w : Walk) : Walk :=
  let record := w.offset.toNat
  let recordSize := UInt32.ofNat (buffer.field record Layout.size 4)
  { offset := w.offset + recordSize
    size := w.size - recordSize
    trace := w.trace.andThen ((printRecord buffer record).andThen
      (Trace.seq [read record Layout.size 4, read record Layout.size 4])) }

/-- The states at each evaluation of the loop condition; none when the fuel runs
out before the loop does. -/
def walk (buffer : RelationBuffer) : Nat → Walk → Option (List Walk)
  | 0, _ => none
  | fuel + 1, w =>
      if 0 < w.size then (walk buffer fuel (w.round buffer)).map (w :: ·) else some [w]

def walkStart (size : UInt32) : Walk where
  offset := 0
  size := size
  trace := {}

/-- What the kernel answers; `buffer` and `size` are what the relationship query
leaves behind. -/
structure KernelAnswers where
  activeGroupCount : UInt16
  highestNodeNumber : UInt16
  activeProcessorCountEx : UInt16 → UInt32
  maximumProcessorCountEx : UInt16 → UInt32
  nodeActiveAffinityCount : UInt16 → UInt16
  status : NtStatus
  buffer : RelationBuffer
  size : UInt32

/-- One round of the loop over node numbers. -/
def nodeLines (k : KernelAnswers) (i : UInt16) : List (List Char) :=
  ["[Roy Debug] Logical Nodes[".toList ++ Decimal.ofInt i.toNat ++ "] Max CPUs=".toList ++
      Decimal.ofInt (k.maximumProcessorCountEx i).toInt32.toInt ++ ", Active CPUs=".toList ++
      Decimal.ofInt (k.activeProcessorCountEx i).toInt32.toInt ++ "\n".toList,
    "[Roy Debug] node[".toList ++ Decimal.ofInt i.toNat ++ "] has ".toList ++
      Decimal.ofInt (k.nodeActiveAffinityCount i).toNat ++ " cpus.\n".toList]

def perNodeLoop (k : KernelAnswers) : List (List Char) :=
  (List.range k.highestNodeNumber.toNat).flatMap fun i => nodeLines k (UInt16.ofNat i)

def summaryLine (k : KernelAnswers) : List Char :=
  "[Roy Debug] Max Logical Nodes=".toList ++ Decimal.ofInt k.highestNodeNumber.toNat ++
    ", Active Logical Nodes=".toList ++ Decimal.ofInt k.activeGroupCount.toNat ++ "\n".toList

def failureLine (status : NtStatus) : List Char :=
  "[Roy Debug] KeQueryLogicalProcessorRelationship failed. status = ".toList ++
    hexUpper 8 status.toUInt32.toNat ++ "\n".toList

/-- None when the fuel runs out before the walk ends. -/
def detectBigNumaNode (fuel : Nat) (k : KernelAnswers) : Option WalkTrace :=
  let nodes : WalkTrace := { output := summaryLine k :: perNodeLoop k }
  if ntSuccess k.status then
    (walk k.buffer fuel (walkStart k.size)).bind fun ws =>
      ws.getLast?.map fun w => nodes.andThen w.trace
  else some (nodes.andThen (kdPrintEx (failureLine k.status)))

end WdmTest.NumaNode
