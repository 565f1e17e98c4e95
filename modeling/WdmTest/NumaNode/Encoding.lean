import WdmTest.NumaNode.Model

/-!
How the kernel lays out the records of NUMA nodes, and what the fields the walk
reads are in such a record. The layout is the documented one on x64; bytes the
walk does not read are arbitrary, and a record may be longer than its entries.
-/
namespace WdmTest.NumaNode
open Bytes

structure GroupAffinity where
  mask : UInt64
  group : UInt16
  reserved : Vector UInt8 6

/-- A record for a NUMA node. A group count of 0 comes with one entry too. -/
structure NumaRecord where
  relationship : UInt32
  nodeNumber : UInt32
  reserved : Vector UInt8 18
  groupCount : UInt16
  groupMasks : List GroupAffinity
  padding : List UInt8
  masks_length : groupMasks.length = max groupCount.toNat 1

def GroupAffinity.encode (a : GroupAffinity) : List UInt8 :=
  le 8 a.mask.toNat ++ (le 2 a.group.toNat ++ a.reserved.toList)

namespace NumaRecord

def size (r : NumaRecord) : Nat :=
  Layout.groupMasks + Layout.affinitySize * r.groupMasks.length + r.padding.length

def encode (r : NumaRecord) : List UInt8 :=
  le 4 r.relationship.toNat ++ (le 4 r.size ++ (le 4 r.nodeNumber.toNat ++
    (r.reserved.toList ++ (le 2 r.groupCount.toNat ++
      (r.groupMasks.flatMap GroupAffinity.encode ++ r.padding)))))

end NumaRecord

def totalSize (rs : List NumaRecord) : Nat := (rs.map NumaRecord.size).sum

def encodeAll (rs : List NumaRecord) : List UInt8 := rs.flatMap NumaRecord.encode

/-- What the walk should print for a record. -/
def recordLines (r : NumaRecord) : List (List Char) :=
  ["[Roy Debug] NumaNode Relation=> ".toList, nodeLine r.nodeNumber r.groupCount] ++
    (r.groupMasks.map (fun a => maskLine a.group a.mask) ++ ["\n".toList])

theorem affinity_length (a : GroupAffinity) : a.encode.length = Layout.affinitySize := by
  simp [GroupAffinity.encode, Layout.affinitySize]

theorem affinities_length (as : List GroupAffinity) :
    (as.flatMap GroupAffinity.encode).length = Layout.affinitySize * as.length := by
  induction as with
  | nil => rfl
  | cons a as ih =>
      rw [List.flatMap_cons, List.length_append, affinity_length, ih, List.length_cons,
        Nat.mul_succ, Nat.add_comm]

section Record
variable (r : NumaRecord)

theorem encode_length : r.encode.length = r.size := by
  simp only [NumaRecord.encode, List.length_append, le_length, affinities_length,
    Vector.length_toList, NumaRecord.size, Layout.groupMasks]
  omega

theorem size_pos : 0 < r.size := by
  simp only [NumaRecord.size, Layout.groupMasks]
  omega

theorem entry_le_size {j : Nat} (hj : j < r.groupMasks.length) :
    Layout.groupMasks + Layout.affinitySize * j + Layout.affinitySize ≤ r.size := by
  simp only [NumaRecord.size]
  have h : Layout.affinitySize * (j + 1) ≤ Layout.affinitySize * r.groupMasks.length :=
    Nat.mul_le_mul_left _ hj
  rw [Nat.mul_succ] at h
  omega

theorem header_le_size {pos width : Nat}
    (h : pos + width ≤ Layout.groupMasks + Layout.affinitySize) : pos + width ≤ r.size := by
  have hpos : 0 < r.groupMasks.length := by
    rw [r.masks_length]
    exact Nat.lt_of_lt_of_le Nat.one_pos (Nat.le_max_right _ _)
  exact Nat.le_trans h (by simpa using entry_le_size r hpos)

theorem slice_size : slice r.encode Layout.size 4 = le 4 r.size := by
  rw [NumaRecord.encode]
  exact slice_field (le_length 4 _) (le_length 4 _)

theorem slice_nodeNumber : slice r.encode Layout.nodeNumber 4 = le 4 r.nodeNumber.toNat := by
  rw [NumaRecord.encode, ← List.append_assoc (le 4 _) (le 4 _)]
  exact slice_field (by simp [Layout.nodeNumber]) (le_length 4 _)

theorem slice_groupCount : slice r.encode Layout.groupCount 2 = le 2 r.groupCount.toNat := by
  rw [NumaRecord.encode, ← List.append_assoc (le 4 _) (le 4 _), ← List.append_assoc _ (le 4 _),
    ← List.append_assoc _ r.reserved.toList]
  exact slice_field (by simp [Layout.groupCount]) (le_length 2 _)

theorem slice_entry {j pos width : Nat} {a : GroupAffinity} (ha : r.groupMasks[j]? = some a)
    (h : pos + width ≤ Layout.affinitySize) :
    slice r.encode (Layout.groupMasks + Layout.affinitySize * j + pos) width =
      slice a.encode pos width := by
  have hj : j < r.groupMasks.length := (List.getElem?_eq_some_iff.mp ha).1
  have hentry : Layout.affinitySize * j + Layout.affinitySize ≤
      Layout.affinitySize * r.groupMasks.length := by
    rw [← Nat.mul_succ]
    exact Nat.mul_le_mul_left _ hj
  rw [NumaRecord.encode, ← List.append_assoc (le 4 _) (le 4 _), ← List.append_assoc _ (le 4 _),
    ← List.append_assoc _ r.reserved.toList, ← List.append_assoc _ (le 2 _), Nat.add_assoc]
  have hheader : (le 4 r.relationship.toNat ++ le 4 r.size ++ le 4 r.nodeNumber.toNat ++
      r.reserved.toList ++ le 2 r.groupCount.toNat).length = Layout.groupMasks := by
    simp [Layout.groupMasks]
  rw [← hheader, slice_append_right, slice_append_left, slice_flatMap affinity_length ha h]
  rw [affinities_length]
  omega

theorem slice_group (a : GroupAffinity) : slice a.encode Layout.group 2 = le 2 a.group.toNat := by
  rw [GroupAffinity.encode]
  exact slice_field (le_length 8 _) (le_length 2 _)

theorem slice_mask (a : GroupAffinity) : slice a.encode Layout.mask 8 = le 8 a.mask.toNat := by
  rw [GroupAffinity.encode, ← List.nil_append (le 8 _ ++ _)]
  exact slice_field rfl (le_length 8 _)

end Record

theorem encodeAll_length (rs : List NumaRecord) : (encodeAll rs).length = totalSize rs := by
  induction rs with
  | nil => rfl
  | cons r rs ih =>
      rw [encodeAll, List.flatMap_cons, List.length_append, encode_length]
      exact congrArg (r.size + ·) ih

theorem totalSize_append (rs qs : List NumaRecord) :
    totalSize (rs ++ qs) = totalSize rs + totalSize qs := by
  simp only [totalSize, List.map_append, List.sum_append]

end WdmTest.NumaNode
