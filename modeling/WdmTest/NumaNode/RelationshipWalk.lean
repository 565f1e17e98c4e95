import WdmTest.NumaNode.Encoding

/-!
The relationship walk decodes what the kernel encodes. One round prints one
record and steps over it, so the offset and the remaining size stay the lengths
of the records done and to come. Only buffers that hold whole records back to
back are considered here; what the walk does to others is not claimed.
-/
namespace WdmTest.NumaNode
open Bytes

def RelationBuffer.HasRecord (buffer : RelationBuffer) (record : Nat) (r : NumaRecord) : Prop :=
  ∃ pre post, buffer.bytes = pre ++ (r.encode ++ post) ∧ pre.length = record

def Read.Inside (record : Nat) (r : NumaRecord) (e : Read) : Prop :=
  e.record = record ∧ e.pos + e.width ≤ r.size

section Fields
variable {buffer : RelationBuffer} {record : Nat} {r : NumaRecord}

theorem field_eq (h : buffer.HasRecord record r) {pos width : Nat}
    (hin : pos + width ≤ r.size) :
    buffer.field record pos width = ofLE (slice r.encode pos width) := by
  obtain ⟨pre, post, hbytes, rfl⟩ := h
  rw [RelationBuffer.field, hbytes, slice_append_right, slice_append_left]
  rw [encode_length]
  exact hin

theorem read_does (h : buffer.HasRecord record r) {pos width : Nat}
    (hin : pos + width ≤ r.size) : (read record pos width).Does (Read.Inside record r) [] := by
  obtain ⟨pre, post, hbytes, rfl⟩ := h
  have hlen := buffer.size_eq
  rw [hbytes, List.length_append, List.length_append, encode_length] at hlen
  refine ⟨decide_eq_true (by omega), rfl, ?_⟩
  intro e he
  rw [List.mem_singleton.mp he]
  exact ⟨rfl, hin⟩

theorem field_size (h : buffer.HasRecord record r) (hsize : r.size < 2 ^ 32) :
    buffer.field record Layout.size 4 = r.size := by
  rw [field_eq h (header_le_size r (by decide)), slice_size, ofLE_le hsize]

theorem field_nodeNumber (h : buffer.HasRecord record r) :
    UInt32.ofNat (buffer.field record Layout.nodeNumber 4) = r.nodeNumber := by
  rw [field_eq h (header_le_size r (by decide)), slice_nodeNumber,
    ofLE_le r.nodeNumber.toNat_lt, UInt32.ofNat_toNat]

theorem field_groupCount (h : buffer.HasRecord record r) :
    UInt16.ofNat (buffer.field record Layout.groupCount 2) = r.groupCount := by
  rw [field_eq h (header_le_size r (by decide)), slice_groupCount,
    ofLE_le r.groupCount.toNat_lt, UInt16.ofNat_toNat]

theorem kdPrintEx_does (P : Read → Prop) (text : List Char) : (kdPrintEx text).Does P [text] :=
  Trace.does_silent [text]

theorem printAffinity_does (h : buffer.HasRecord record r) {j : Nat} {a : GroupAffinity}
    (ha : r.groupMasks[j]? = some a) :
    (printAffinity buffer record (Layout.groupMasks + Layout.affinitySize * j)).Does
      (Read.Inside record r) [maskLine a.group a.mask] := by
  have hentry := entry_le_size r (List.getElem?_eq_some_iff.mp ha).1
  have hin {pos width : Nat} (hpos : pos + width ≤ Layout.affinitySize) :
      Layout.groupMasks + Layout.affinitySize * j + pos + width ≤ r.size := by
    omega
  have hgroup : Layout.group + 2 ≤ Layout.affinitySize := by decide
  have hmask : Layout.mask + 8 ≤ Layout.affinitySize := by decide
  unfold printAffinity
  rw [field_eq h (hin hgroup), field_eq h (hin hmask), slice_entry r ha hgroup,
    slice_entry r ha hmask, slice_group, slice_mask, ofLE_le a.group.toNat_lt,
    ofLE_le a.mask.toNat_lt, UInt16.ofNat_toNat, UInt64.ofNat_toNat]
  exact (read_does h (hin hgroup)).seq_cons ((read_does h (hin hmask)).seq_cons
    ((kdPrintEx_does _ _).seq_cons Trace.does_seq_nil))

theorem printMasks_does (h : buffer.HasRecord record r) (hcount : r.groupCount ≠ 0) :
    (printMasks buffer record r.groupCount).Does (Read.Inside record r)
      (r.groupMasks.map fun a => maskLine a.group a.mask) := by
  have hread : (read record Layout.groupCount 2).Does (Read.Inside record r) [] :=
    read_does h (header_le_size r (by decide))
  have hpos : 0 < r.groupCount.toNat := UInt16.lt_iff_toNat_lt.mp (UInt16.pos_iff_ne_zero.mpr hcount)
  have hlen : r.groupCount.toNat = r.groupMasks.length := by
    rw [r.masks_length]
    exact (Nat.max_eq_left hpos).symm
  have hloop : (Trace.seq ((List.range r.groupMasks.length).map fun j =>
      (read record Layout.groupCount 2).andThen
        (printAffinity buffer record (Layout.groupMasks + Layout.affinitySize * j)))).Does
      (Read.Inside record r) (r.groupMasks.flatMap fun a => [maskLine a.group a.mask]) := by
    apply Trace.does_seq_range
    intro j a ha
    exact hread.andThen (printAffinity_does h ha)
  have hall := hloop.andThen hread
  rw [List.append_nil, ← List.map_eq_flatMap] at hall
  rw [printMasks, hlen]
  exact hall

theorem printRecord_does (h : buffer.HasRecord record r) :
    (printRecord buffer record).Does (Read.Inside record r) (recordLines r) := by
  have hcount : (read record Layout.groupCount 2).Does (Read.Inside record r) [] :=
    read_does h (header_le_size r (by decide))
  have hnode : (read record Layout.nodeNumber 4).Does (Read.Inside record r) [] :=
    read_does h (header_le_size r (by decide))
  have hmasks : (if r.groupCount = 0 then printAffinity buffer record Layout.groupMasks
      else printMasks buffer record r.groupCount).Does (Read.Inside record r)
        (r.groupMasks.map fun a => maskLine a.group a.mask) := by
    split
    · rename_i hzero
      have hone : r.groupMasks.length = 1 := by
        rw [r.masks_length, hzero]
        rfl
      obtain ⟨a, ha⟩ := List.length_eq_one_iff.mp hone
      rw [ha]
      exact printAffinity_does (j := 0) h (by rw [ha]; rfl)
    · rename_i hne
      exact printMasks_does h hne
  unfold printRecord
  simp only [field_nodeNumber h, field_groupCount h]
  exact (kdPrintEx_does _ _).seq_cons (hnode.seq_cons (hcount.seq_cons
    ((kdPrintEx_does _ _).seq_cons (hcount.seq_cons (hmasks.seq_cons
      ((kdPrintEx_does _ _).seq_cons Trace.does_seq_nil))))))

end Fields

/-! ## The loop -/

/-- The loop has gone through these records and has these to come. -/
structure Walk.Passed (done todo : List NumaRecord) (w : Walk) : Prop where
  offset : w.offset.toNat = totalSize done
  size : w.size.toNat = totalSize todo
  does : w.trace.Does (fun e => ∃ front r back, done = front ++ r :: back ∧
    e.Inside (totalSize front) r) (done.flatMap recordLines)

theorem Read.inside_append {done : List NumaRecord} (r : NumaRecord) (e : Read)
    (h : ∃ front r' back, done = front ++ r' :: back ∧ e.Inside (totalSize front) r') :
    ∃ front r' back, done ++ [r] = front ++ r' :: back ∧ e.Inside (totalSize front) r' := by
  obtain ⟨front, r', back, rfl, hin⟩ := h
  exact ⟨front, r', back ++ [r], by simp, hin⟩

theorem Read.inside_last (done : List NumaRecord) (r : NumaRecord) (e : Read)
    (h : e.Inside (totalSize done) r) :
    ∃ front r' back, done ++ [r] = front ++ r' :: back ∧ e.Inside (totalSize front) r' :=
  ⟨done, r, [], rfl, h⟩

section Loop
variable {buffer : RelationBuffer} {done todo : List NumaRecord} {r : NumaRecord}
  {post : List UInt8} {w : Walk}

theorem walkStart_passed {size : UInt32} (h : size.toNat = totalSize todo) :
    (walkStart size).Passed [] todo :=
  ⟨rfl, h, Trace.does_silent []⟩

theorem hasRecord_of_bytes
    (hbytes : buffer.bytes = encodeAll done ++ (encodeAll (r :: todo) ++ post)) :
    buffer.HasRecord (totalSize done) r := by
  refine ⟨encodeAll done, encodeAll todo ++ post, ?_, encodeAll_length done⟩
  rw [hbytes, encodeAll, encodeAll, encodeAll, List.flatMap_cons, List.append_assoc]

theorem total_le_bufferSize
    (hbytes : buffer.bytes = encodeAll done ++ (encodeAll todo ++ post)) :
    totalSize done + totalSize todo ≤ Const.bufferSize := by
  have hlen := buffer.size_eq
  rw [hbytes, List.length_append, List.length_append, encodeAll_length, encodeAll_length] at hlen
  omega

/-- One round prints one record and steps over it, without wrapping around. -/
theorem Walk.Passed.round (h : w.Passed done (r :: todo))
    (hbytes : buffer.bytes = encodeAll done ++ (encodeAll (r :: todo) ++ post)) :
    (w.round buffer).Passed (done ++ [r]) todo := by
  have hrecord := hasRecord_of_bytes hbytes
  have hfit := total_le_bufferSize hbytes
  have hcap : Const.bufferSize < 2 ^ 32 := by decide
  have htotal : totalSize (r :: todo) = r.size + totalSize todo := rfl
  have hone : totalSize [r] = r.size := Nat.add_zero _
  have hsize : r.size < 2 ^ 32 := by omega
  have hround : (UInt32.ofNat r.size).toNat = r.size := UInt32.toNat_ofNat_of_lt' hsize
  have hoffset := h.offset
  have hremaining := h.size
  have hfield : buffer.field w.offset.toNat Layout.size 4 = r.size := by
    rw [hoffset, field_size hrecord hsize]
  refine ⟨?_, ?_, ?_⟩
  · simp only [Walk.round]
    rw [hfield, UInt32.toNat_add, hround, hoffset, totalSize_append, hone]
    exact Nat.mod_eq_of_lt (by omega)
  · simp only [Walk.round]
    rw [hfield, UInt32.toNat_sub_of_le, hround, hremaining, htotal]
    · omega
    · rw [UInt32.le_iff_toNat_le, hround, hremaining, htotal]
      omega
  · have hearlier := h.does.mono (Read.inside_append r)
    have hread : (read (totalSize done) Layout.size 4).Does (Read.Inside (totalSize done) r) [] :=
      read_does hrecord (header_le_size r (by decide))
    have hnow := ((printRecord_does hrecord).andThen
      (hread.seq_cons (hread.seq_cons Trace.does_seq_nil))).mono (Read.inside_last done r)
    have hall := hearlier.andThen hnow
    rw [List.append_nil, List.append_nil, List.append_nil] at hall
    rw [Walk.round, hoffset, List.flatMap_append, List.flatMap_singleton]
    exact hall

/-- The loop ends, and its conditions are evaluated in one state for each record
and in one more. -/
theorem walk_passed {fuel : Nat} (h : w.Passed done todo)
    (hbytes : buffer.bytes = encodeAll done ++ (encodeAll todo ++ post))
    (hfuel : todo.length < fuel) :
    ∃ ws, walk buffer fuel w = some ws ∧ ws.length = todo.length + 1 ∧
      ∀ k ≤ todo.length, ∃ v, ws[k]? = some v ∧
        v.Passed (done ++ todo.take k) (todo.drop k) := by
  induction todo generalizing done w fuel with
  | nil =>
      obtain ⟨fuel, rfl⟩ := Nat.exists_eq_succ_of_ne_zero (Nat.ne_of_gt hfuel)
      have hzero : ¬ 0 < w.size := by
        rw [UInt32.lt_iff_toNat_lt, h.size]
        exact Nat.lt_irrefl 0
      refine ⟨[w], by rw [walk, if_neg hzero], rfl, ?_⟩
      intro k hk
      rw [Nat.le_zero.mp hk]
      exact ⟨w, rfl, by simpa using h⟩
  | cons r todo ih =>
      obtain ⟨fuel, rfl⟩ := Nat.exists_eq_succ_of_ne_zero (Nat.ne_of_gt (Nat.zero_lt_of_lt hfuel))
      have hpos : 0 < w.size := by
        have htotal : totalSize (r :: todo) = r.size + totalSize todo := rfl
        have hsize := size_pos r
        rw [UInt32.lt_iff_toNat_lt, h.size, htotal]
        exact Nat.add_pos_left hsize _
      have hbytes' : buffer.bytes = encodeAll (done ++ [r]) ++ (encodeAll todo ++ post) := by
        simpa [encodeAll] using hbytes
      obtain ⟨ws, hws, hlen, hall⟩ := ih (h.round hbytes) hbytes' (Nat.lt_of_succ_lt_succ hfuel)
      refine ⟨w :: ws, ?_, ?_, ?_⟩
      · rw [walk, if_pos hpos, hws]
        rfl
      · rw [List.length_cons, hlen, List.length_cons]
      · intro k hk
        cases k with
        | zero => exact ⟨w, rfl, by simpa using h⟩
        | succ k =>
            obtain ⟨v, hv, hpassed⟩ := hall k (Nat.le_of_succ_le_succ hk)
            exact ⟨v, hv, by simpa using hpassed⟩

theorem walk_start_passed {rs : List NumaRecord} {size : UInt32} {fuel : Nat}
    (hbytes : buffer.bytes = encodeAll rs ++ post) (hsize : size.toNat = (encodeAll rs).length)
    (hfuel : rs.length < fuel) :
    ∃ ws, walk buffer fuel (walkStart size) = some ws ∧ ws.length = rs.length + 1 ∧
      (∀ k ≤ rs.length, ∃ w, ws[k]? = some w ∧ w.Passed (rs.take k) (rs.drop k)) ∧
      ∃ w, ws.getLast? = some w ∧ w.Passed rs [] := by
  rw [encodeAll_length] at hsize
  have hbytes' : buffer.bytes = encodeAll [] ++ (encodeAll rs ++ post) := hbytes
  obtain ⟨ws, hws, hlen, hall⟩ := walk_passed (walkStart_passed hsize) hbytes' hfuel
  refine ⟨ws, hws, hlen, hall, ?_⟩
  obtain ⟨w, hw, hpassed⟩ := hall rs.length (Nat.le_refl _)
  rw [List.nil_append, List.take_length, List.drop_length] at hpassed
  refine ⟨w, ?_, hpassed⟩
  rw [List.getLast?_eq_getElem?, hlen]
  exact hw

end Loop

/-- What the walk makes of these records: the states at its loop conditions, one
for each number of records passed, the last one with nothing left, the offsets
and remaining sizes always adding up to the returned length, and the reads and
lines of each record in order. -/
structure WalkDecodes (rs : List NumaRecord) (size : UInt32) (ws : List Walk) : Prop where
  length : ws.length = rs.length + 1
  passed : ∀ k ≤ rs.length, ∃ w, ws[k]? = some w ∧
    w.offset.toNat = totalSize (rs.take k) ∧ w.size.toNat = totalSize (rs.drop k) ∧
      w.offset.toNat + w.size.toNat = size.toNat ∧
      w.trace.output = (rs.take k).flatMap recordLines
  last : ∃ w, ws.getLast? = some w ∧ w.size = 0 ∧ w.trace.completes = true ∧
    w.trace.output = rs.flatMap recordLines ∧
    ∀ e ∈ w.trace.events, ∃ front r back, rs = front ++ r :: back ∧
      e.record = totalSize front ∧ e.pos + e.width ≤ r.size

theorem walk_decodes {buffer : RelationBuffer} {rs : List NumaRecord} {post : List UInt8}
    {size : UInt32} {fuel : Nat} (hbytes : buffer.bytes = encodeAll rs ++ post)
    (hsize : size.toNat = (encodeAll rs).length) (hfuel : rs.length < fuel) :
    ∃ ws, walk buffer fuel (walkStart size) = some ws ∧ WalkDecodes rs size ws := by
  obtain ⟨ws, hws, hlen, hall, w, hlast, hpassed⟩ := walk_start_passed hbytes hsize hfuel
  refine ⟨ws, hws, hlen, ?_, ?_⟩
  · intro k hk
    obtain ⟨v, hv, hvpassed⟩ := hall k hk
    refine ⟨v, hv, hvpassed.offset, hvpassed.size, ?_, hvpassed.does.output⟩
    rw [hvpassed.offset, hvpassed.size, hsize, encodeAll_length, ← totalSize_append,
      List.take_append_drop]
  · refine ⟨w, hlast, ?_, hpassed.does.completes, hpassed.does.output, hpassed.does.good⟩
    exact UInt32.toNat_inj.mp hpassed.size

/-- The whole function on a machine that answers the query with these records. -/
theorem detectBigNumaNode_prints {k : KernelAnswers} {rs : List NumaRecord} {post : List UInt8}
    {fuel : Nat} (hstatus : ntSuccess k.status = true)
    (hbytes : k.buffer.bytes = encodeAll rs ++ post)
    (hsize : k.size.toNat = (encodeAll rs).length) (hfuel : rs.length < fuel) :
    ∃ t, detectBigNumaNode fuel k = some t ∧ t.completes = true ∧
      t.output = summaryLine k :: perNodeLoop k ++ rs.flatMap recordLines := by
  obtain ⟨ws, hws, -, -, w, hlast, hpassed⟩ := walk_start_passed hbytes hsize hfuel
  have hnodes : Trace.Does (fun _ => True) (summaryLine k :: perNodeLoop k)
      ({ output := summaryLine k :: perNodeLoop k } : WalkTrace) := Trace.does_silent _
  have hall := hnodes.andThen (hpassed.does.mono fun _ _ => trivial)
  refine ⟨_, ?_, hall.completes, hall.output⟩
  simp only [detectBigNumaNode, hstatus, if_true, hws, Option.bind_some, hlast, Option.map_some]

def entry (group : UInt16) (mask : UInt64) : GroupAffinity :=
  { mask, group, reserved := Vector.replicate 6 0 }

/-- A node in the old format, without a group count, and one that spans two groups. -/
def twoNodes : List NumaRecord :=
  [{ relationship := 1, nodeNumber := 0, reserved := Vector.replicate 18 0, groupCount := 0,
     groupMasks := [entry 0 0xFF], padding := [], masks_length := rfl },
    { relationship := 1, nodeNumber := 1, reserved := Vector.replicate 18 0, groupCount := 2,
      groupMasks := [entry 0 0xFF00, entry 1 0x3], padding := List.replicate 16 0,
      masks_length := rfl }]

theorem twoNodes_length : (encodeAll twoNodes).length = 128 := by
  rw [encodeAll_length]
  rfl

def twoNodesBuffer : RelationBuffer where
  bytes := encodeAll twoNodes ++ List.replicate (Const.bufferSize - 128) 0
  size_eq := by
    rw [List.length_append, List.length_replicate, twoNodes_length]
    exact Nat.add_sub_cancel' (by decide)

theorem walk_decodes_twoNodes :
    ∃ ws, walk twoNodesBuffer 3 (walkStart 128) = some ws ∧ WalkDecodes twoNodes 128 ws :=
  walk_decodes rfl twoNodes_length.symm (by decide)

end WdmTest.NumaNode
