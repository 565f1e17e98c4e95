import WdmTest.NumaNode.RelationshipWalk

/-!
What the relationship walk needs of the bytes it is given. The loop checks
neither a record's size nor its group count, so it is safe on some contents and
not on others. `RecordChain` says on which: the fields a round reads end inside
the returned length, and the sizes lead from the start exactly to that length.

Nothing is assumed about the contents here. That the kernel answers with a chain
is its own promise; records laid out back to back are one.
-/
namespace WdmTest.NumaNode
open Bytes

def Read.Below (limit : Nat) (e : Read) : Prop := e.record + e.pos + e.width ≤ limit

/-- The loop ends, and every byte it reads lies below the returned length. -/
def WalkSafe (buffer : RelationBuffer) (size : UInt32) : Prop :=
  ∃ fuel ws, walk buffer fuel (walkStart size) = some ws ∧
    ∀ w ∈ ws, w.trace.All (Read.Below size.toNat)

/-- Where the last field that a round reads ends: the group of the last entry. -/
def recordEnd (buffer : RelationBuffer) (record : Nat) : Nat :=
  let groupCount := UInt16.ofNat (buffer.field record Layout.groupCount 2)
  record + Layout.groupMasks + Layout.affinitySize * (max groupCount.toNat 1 - 1) +
    Layout.group + 2

def recordSize (buffer : RelationBuffer) (offset : UInt32) : UInt32 :=
  UInt32.ofNat (buffer.field offset.toNat Layout.size 4)

/-- From this offset the sizes lead to the limit, through records whose fields
end below it. -/
inductive RecordChain (buffer : RelationBuffer) (limit : UInt32) : UInt32 → Prop where
  | done : RecordChain buffer limit limit
  | record (offset : UInt32) : recordEnd buffer offset.toNat ≤ limit.toNat →
      RecordChain buffer limit (offset + recordSize buffer offset) →
      RecordChain buffer limit offset

/-! ## One round -/

section Round
variable {buffer : RelationBuffer} {limit record : Nat}

theorem read_guards (hlimit : limit ≤ Const.bufferSize) (record pos width : Nat) :
    (read record pos width).Guards (Read.Below limit) (record + pos + width ≤ limit) := by
  refine ⟨?_, ?_⟩
  · exact List.forall_mem_singleton
  · intro h
    exact decide_eq_true (Nat.le_trans h hlimit)

theorem kdPrintEx_guards (P : Read → Prop) (text : List Char) :
    (kdPrintEx text).Guards P True :=
  Trace.guards_silent [text]

theorem printAffinity_guards (hlimit : limit ≤ Const.bufferSize) (record pos : Nat) :
    (printAffinity buffer record pos).Guards (Read.Below limit)
      (record + pos + Layout.group + 2 ≤ limit) := by
  apply Trace.Guards.congr
  · apply Trace.Guards.seq_cons
    · exact read_guards hlimit _ _ _
    · apply Trace.Guards.seq_cons
      · exact read_guards hlimit _ _ _
      · exact (kdPrintEx_guards _ _).seq_cons Trace.guards_seq_nil
  · simp only [Layout.group, Layout.mask, and_true]
    omega

theorem printMasks_guards (hlimit : limit ≤ Const.bufferSize) {groupCount : UInt16}
    (hpos : 0 < groupCount.toNat) :
    (printMasks buffer record groupCount).Guards (Read.Below limit)
      (record + Layout.groupMasks + Layout.affinitySize * (groupCount.toNat - 1) +
        Layout.group + 2 ≤ limit) := by
  apply Trace.Guards.congr
  · apply Trace.Guards.andThen
    · apply Trace.guards_seq_map
      intro j _
      exact (read_guards hlimit _ _ _).andThen (printAffinity_guards hlimit _ _)
    · exact read_guards hlimit _ _ _
  · simp only [Layout.groupCount, Layout.groupMasks, Layout.affinitySize, Layout.group]
    refine ⟨?_, ?_⟩
    · intro h
      have hlast := (h.1 (groupCount.toNat - 1) (List.mem_range.mpr (by omega))).2
      omega
    · intro h
      refine ⟨?_, by omega⟩
      intro j hj
      have hle := List.mem_range.mp hj
      omega

theorem printEntries_guards (hlimit : limit ≤ Const.bufferSize) (groupCount : UInt16) :
    (if groupCount = 0 then printAffinity buffer record Layout.groupMasks
      else printMasks buffer record groupCount).Guards (Read.Below limit)
      (record + Layout.groupMasks + Layout.affinitySize * (max groupCount.toNat 1 - 1) +
        Layout.group + 2 ≤ limit) := by
  split
  · rename_i hzero
    rw [hzero]
    exact printAffinity_guards hlimit record Layout.groupMasks
  · rename_i hne
    have hpos : 0 < groupCount.toNat :=
      UInt16.lt_iff_toNat_lt.mp (UInt16.pos_iff_ne_zero.mpr hne)
    rw [Nat.max_eq_left hpos]
    exact printMasks_guards hlimit hpos

theorem printRecord_guards (hlimit : limit ≤ Const.bufferSize) :
    (printRecord buffer record).Guards (Read.Below limit) (recordEnd buffer record ≤ limit) := by
  have hcount := read_guards hlimit record Layout.groupCount 2
  apply Trace.Guards.congr
  · exact (kdPrintEx_guards _ _).seq_cons ((read_guards hlimit _ _ _).seq_cons
      (hcount.seq_cons ((kdPrintEx_guards _ _).seq_cons (hcount.seq_cons
        ((printEntries_guards hlimit _).seq_cons
          ((kdPrintEx_guards _ _).seq_cons Trace.guards_seq_nil))))))
  · simp only [recordEnd, Layout.nodeNumber, Layout.groupCount, Layout.groupMasks,
      Layout.affinitySize, Layout.group, and_true, true_and]
    omega

/-- The two reads of the size add nothing: the size stands in front of the entries. -/
theorem round_guards (hlimit : limit ≤ Const.bufferSize) :
    ((printRecord buffer record).andThen
      (Trace.seq [read record Layout.size 4, read record Layout.size 4])).Guards
      (Read.Below limit) (recordEnd buffer record ≤ limit) := by
  apply Trace.Guards.congr
  · exact (printRecord_guards hlimit).andThen ((read_guards hlimit _ _ _).seq_cons
      ((read_guards hlimit _ _ _).seq_cons Trace.guards_seq_nil))
  · simp only [recordEnd, Layout.size, Layout.groupMasks, and_true]
    omega

end Round

/-! ## The loop -/

/-- What the walk keeps as long as its reads are good: the two cursors add up to
the returned length modulo 2^32. -/
structure Walk.Sound (limit : UInt32) (w : Walk) : Prop where
  size : w.size = limit - w.offset
  completes : w.trace.completes = true
  below : w.trace.All (Read.Below limit.toNat)

section Loop
variable {buffer : RelationBuffer} {limit : UInt32} {w : Walk}

theorem walkStart_sound (size : UInt32) : (walkStart size).Sound size :=
  ⟨by simp [walkStart], rfl, Trace.all_silent _ _⟩

theorem Walk.Sound.size_pos_iff (h : w.Sound limit) : 0 < w.size ↔ w.offset ≠ limit := by
  rw [h.size, UInt32.pos_iff_ne_zero]
  grind

theorem Walk.Sound.round_below_iff (h : w.Sound limit) (hlimit : limit.toNat ≤ Const.bufferSize) :
    (w.round buffer).trace.All (Read.Below limit.toNat) ↔
      recordEnd buffer w.offset.toNat ≤ limit.toNat := by
  rw [Walk.round, Trace.all_andThen_iff fun _ => h.completes, (round_guards hlimit).all]
  exact and_iff_right h.below

theorem Walk.Sound.round (h : w.Sound limit) (hlimit : limit.toNat ≤ Const.bufferSize)
    (hend : recordEnd buffer w.offset.toNat ≤ limit.toNat) : (w.round buffer).Sound limit := by
  refine ⟨?_, ?_, (h.round_below_iff hlimit).mpr hend⟩
  · simp only [Walk.round, h.size]
    grind
  · rw [Walk.round, Trace.completes_andThen, h.completes, (round_guards hlimit).completes hend]
    rfl

theorem walk_head_mem {fuel : Nat} {ws : List Walk} (h : walk buffer fuel w = some ws) :
    w ∈ ws := by
  cases fuel with
  | zero => simp [walk] at h
  | succ fuel =>
      rw [walk] at h
      split at h
      · obtain ⟨rest, -, rfl⟩ := Option.map_eq_some_iff.mp h
        exact List.mem_cons_self
      · rw [← Option.some.inj h]
        exact List.mem_cons_self

theorem chain_of_walk {fuel : Nat} {ws : List Walk} (h : w.Sound limit)
    (hlimit : limit.toNat ≤ Const.bufferSize) (hws : walk buffer fuel w = some ws)
    (hbelow : ∀ v ∈ ws, v.trace.All (Read.Below limit.toNat)) :
    RecordChain buffer limit w.offset := by
  induction fuel generalizing w ws with
  | zero => simp [walk] at hws
  | succ fuel ih =>
      rw [walk] at hws
      split at hws
      · obtain ⟨rest, hrest, rfl⟩ := Option.map_eq_some_iff.mp hws
        have hlater : ∀ v ∈ rest, v.trace.All (Read.Below limit.toNat) :=
          fun v hv => hbelow v (List.mem_cons_of_mem w hv)
        have hend := (h.round_below_iff hlimit).mp (hlater _ (walk_head_mem hrest))
        apply RecordChain.record
        · exact hend
        · exact ih (h.round hlimit hend) hrest hlater
      · rename_i hstop
        have heq : w.offset = limit := not_not.mp fun hne => hstop (h.size_pos_iff.mpr hne)
        rw [heq]
        exact RecordChain.done

theorem walk_of_chain {offset : UInt32} (hchain : RecordChain buffer limit offset)
    (hlimit : limit.toNat ≤ Const.bufferSize) (h : w.Sound limit) (hoffset : w.offset = offset) :
    ∃ fuel ws, walk buffer fuel w = some ws ∧
      ∀ v ∈ ws, v.trace.All (Read.Below limit.toNat) := by
  induction hchain generalizing w with
  | done =>
      have hstop : ¬ 0 < w.size := fun hpos => h.size_pos_iff.mp hpos hoffset
      refine ⟨1, [w], by rw [walk, if_neg hstop], ?_⟩
      exact List.forall_mem_singleton.mpr h.below
  | record offset hend _ ih =>
      by_cases hpos : 0 < w.size
      · have hround : (w.round buffer).offset = offset + recordSize buffer offset := by
          rw [Walk.round, recordSize, ← hoffset]
        obtain ⟨fuel, ws, hws, hall⟩ := ih (h.round hlimit (hoffset ▸ hend)) hround
        refine ⟨fuel + 1, w :: ws, ?_, List.forall_mem_cons.mpr ⟨h.below, hall⟩⟩
        rw [walk, if_pos hpos, hws]
        rfl
      · refine ⟨1, [w], by rw [walk, if_neg hpos], ?_⟩
        exact List.forall_mem_singleton.mpr h.below

theorem chain_of_walkSafe {size : UInt32} (hlimit : size.toNat ≤ Const.bufferSize)
    (h : WalkSafe buffer size) : RecordChain buffer size 0 := by
  obtain ⟨fuel, ws, hws, hbelow⟩ := h
  exact chain_of_walk (walkStart_sound size) hlimit hws hbelow

end Loop

/-- Records laid out back to back form a chain, whatever follows them. -/
theorem recordChain_encodeAll {buffer : RelationBuffer} {rs : List NumaRecord} {post : List UInt8}
    {size : UInt32} (hbytes : buffer.bytes = encodeAll rs ++ post)
    (hsize : size.toNat = (encodeAll rs).length) : RecordChain buffer size 0 := by
  have hlimit : size.toNat ≤ Const.bufferSize := by
    rw [hsize, ← buffer.size_eq, hbytes, List.length_append]
    exact Nat.le_add_right _ _
  apply chain_of_walkSafe hlimit
  obtain ⟨ws, hws, hlen, hall, -⟩ := walk_start_passed hbytes hsize (Nat.lt_succ_self rs.length)
  refine ⟨rs.length + 1, ws, hws, ?_⟩
  intro w hw
  obtain ⟨k, hk, rfl⟩ := List.getElem_of_mem hw
  obtain ⟨v, hv, hpassed⟩ := hall k (by omega)
  rw [List.getElem?_eq_getElem hk, Option.some.injEq] at hv
  rw [hv]
  intro e he
  obtain ⟨front, r, back, hfront, hin⟩ := hpassed.does.good e he
  have htotal : totalSize rs = totalSize front + (r.size + totalSize back) +
      totalSize (rs.drop k) := by
    have hcons : totalSize (r :: back) = r.size + totalSize back := rfl
    rw [← hcons, ← totalSize_append, ← hfront, ← totalSize_append, List.take_append_drop]
  rw [encodeAll_length, htotal] at hsize
  have hrecord := hin.1
  have hpos := hin.2
  rw [Read.Below]
  omega

/-- The walk is safe on exactly the contents and lengths that form a chain, and records
laid out back to back do. -/
theorem walkSafe_iff_recordChain (buffer : RelationBuffer) (size : UInt32)
    (hsize : size.toNat ≤ Const.bufferSize) :
    (WalkSafe buffer size ↔ RecordChain buffer size 0) ∧
      ∀ rs post, buffer.bytes = encodeAll rs ++ post → size.toNat = (encodeAll rs).length →
        RecordChain buffer size 0 := by
  refine ⟨⟨?_, ?_⟩, ?_⟩
  · exact chain_of_walkSafe hsize
  · intro h
    exact walk_of_chain h hsize (walkStart_sound size) rfl
  · intro rs post hbytes hlength
    exact recordChain_encodeAll hbytes hlength

theorem twoNodes_walkSafe_iff :
    (WalkSafe twoNodesBuffer 128 ↔ RecordChain twoNodesBuffer 128 0) ∧
      RecordChain twoNodesBuffer 128 0 :=
  have hboth := walkSafe_iff_recordChain twoNodesBuffer 128 (by decide)
  ⟨hboth.1, hboth.2 twoNodes _ rfl twoNodes_length.symm⟩

/-! A buffer that the query left zeroed although it returned a length: the size
of the record is 0 and the loop stays where it is. -/

theorem ofLE_zeros (n : Nat) : ofLE (List.replicate n 0) = 0 := by
  induction n with
  | zero => rfl
  | succ n ih =>
      rw [List.replicate_succ, ofLE, ih]
      rfl

def zeroedBuffer : RelationBuffer where
  bytes := List.replicate Const.bufferSize 0
  size_eq := List.length_replicate

theorem zeroedBuffer_field (record pos width : Nat) :
    zeroedBuffer.field record pos width = 0 := by
  rw [RelationBuffer.field, slice, zeroedBuffer, List.drop_replicate, List.take_replicate]
  exact ofLE_zeros _

theorem walk_zeroed {w : Walk} (h : 0 < w.size) (fuel : Nat) :
    walk zeroedBuffer fuel w = none := by
  induction fuel generalizing w with
  | zero => rfl
  | succ fuel ih =>
      have hround : (w.round zeroedBuffer).size = w.size := by
        simp [Walk.round, zeroedBuffer_field]
      rw [walk, if_pos h, ih (by rw [hround]; exact h)]
      rfl

theorem zeroed_not_walkSafe :
    UInt32.toNat 64 ≤ Const.bufferSize ∧ ¬ WalkSafe zeroedBuffer 64 := by
  refine ⟨by decide, ?_⟩
  intro h
  obtain ⟨fuel, ws, hws, -⟩ := h
  have hpos : 0 < (walkStart 64).size := by decide
  rw [walk_zeroed hpos fuel] at hws
  exact Option.some_ne_none ws hws.symm

end WdmTest.NumaNode
