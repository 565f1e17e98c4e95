import WdmTest.Kernel
import WdmTest.Lib.Bytes
import WdmTest.Lib.Trace

/-!
`PrintBufferContent` of HarddiskDeviceTest. Each round of the loop reads sixteen
bytes, whatever is left of the buffer, and the index is a 32-bit integer that
steps over the end of its range. So the dump is the buffer's exactly for sizes
that are a multiple of sixteen; the loop never ends for the largest sizes.

The address of the buffer and its bytes are arguments, and a read outside the
buffer is undefined. In what order the arguments of one call are read is open in
C and plays no part.
-/
namespace WdmTest.Harddisk

namespace Const
def rowLength : Nat := 16
end Const

abbrev DumpTrace := Trace Nat (List Char)

def headerLine : List Char := "[Content of Buffer]\n".toList

def rowLine (address : UInt64) (row : List UInt8) : List Char :=
  hexUpper 16 address.toNat ++ " :\t".toList ++
    (row.flatMap fun b => ' ' :: hexUpper 2 b.toNat) ++ "\n".toList

def readByte (buffer : List UInt8) (index : Nat) : DumpTrace where
  events := [index]
  completes := decide (index < buffer.length)

def rowIndices (i : UInt32) : List Nat :=
  (List.range Const.rowLength).map fun j => (i + UInt32.ofNat j).toNat

def printRow (address : UInt64) (buffer : List UInt8) (i : UInt32) : DumpTrace :=
  (Trace.seq ((rowIndices i).map (readByte buffer))).andThen
    { output := [rowLine (address + i.toUInt64) ((rowIndices i).filterMap (buffer[·]?))] }

/-- The loop; none when the fuel runs out before it ends. -/
def dumpLoop (address : UInt64) (buffer : List UInt8) (size : UInt32) :
    Nat → UInt32 → Option DumpTrace
  | 0, _ => none
  | fuel + 1, i =>
      if i < size then
        (dumpLoop address buffer size fuel (i + 16)).map (printRow address buffer i).andThen
      else some {}

def printBufferContent (address : UInt64) (buffer : List UInt8) (size : UInt32) (fuel : Nat) :
    Option DumpTrace :=
  (dumpLoop address buffer size fuel 0).map (Trace.andThen { output := [headerLine] })

/-- The rows that show a buffer: sixteen bytes each, the last one what is left. -/
def bufferRows (address : UInt64) (buffer : List UInt8) : List (List Char) :=
  (List.range ((buffer.length + (Const.rowLength - 1)) / Const.rowLength)).map fun r =>
    rowLine (address + UInt64.ofNat (Const.rowLength * r))
      (Bytes.slice buffer (Const.rowLength * r) Const.rowLength)

/-- The loop ends, reads below the size only and prints the rows of the buffer. -/
def DumpsExactly (address : UInt64) {size : UInt32} (buffer : Vector UInt8 size.toNat) : Prop :=
  ∃ fuel t, printBufferContent address buffer.toList size fuel = some t ∧
    t.Does (fun index => index < size.toNat) (headerLine :: bufferRows address buffer.toList)

/-! ## One row -/

section Row
variable (address : UInt64) {buffer : List UInt8} {size i : UInt32}

theorem readByte_guards (hlen : buffer.length = size.toNat) (index : Nat) :
    (readByte buffer index).Guards (fun index => index < size.toNat) (index < size.toNat) := by
  refine ⟨List.forall_mem_singleton, ?_⟩
  intro h
  exact decide_eq_true (hlen ▸ h)

theorem row_index {j : Nat} (hi : i.toNat % Const.rowLength = 0) (hj : j < Const.rowLength) :
    (i + UInt32.ofNat j).toNat = i.toNat + j := by
  have hword := i.toNat_lt
  rw [Const.rowLength] at hi hj
  rw [UInt32.toNat_add, UInt32.toNat_ofNat_of_lt' (Nat.lt_trans hj (by decide))]
  exact Nat.mod_eq_of_lt (by omega)

theorem rowIndices_eq (hi : i.toNat % Const.rowLength = 0) :
    rowIndices i = (List.range Const.rowLength).map (i.toNat + ·) := by
  apply List.map_congr_left
  intro j hj
  exact row_index hi (List.mem_range.mp hj)

theorem printRow_guards (hlen : buffer.length = size.toNat)
    (hi : i.toNat % Const.rowLength = 0) :
    (printRow address buffer i).Guards (fun index => index < size.toNat)
      (i.toNat + Const.rowLength ≤ size.toNat) := by
  apply Trace.Guards.congr
  · apply Trace.Guards.andThen
    · apply Trace.guards_seq_map
      intro index _
      exact readByte_guards hlen index
    · exact Trace.guards_silent _
  · rw [and_true, rowIndices_eq hi, List.forall_mem_map]
    refine ⟨?_, ?_⟩
    · intro h
      exact h (Const.rowLength - 1) (List.mem_range.mpr (by decide))
    · intro h j hj
      have hlt := List.mem_range.mp hj
      omega

theorem printRow_does (hlen : buffer.length = size.toNat) (hi : i.toNat % Const.rowLength = 0)
    (hrow : i.toNat + Const.rowLength ≤ size.toNat) :
    (printRow address buffer i).Does (fun index => index < size.toNat)
      [rowLine (address + UInt64.ofNat i.toNat) (Bytes.slice buffer i.toNat Const.rowLength)] := by
  have hreads : (Trace.seq ((rowIndices i).map (readByte buffer))).Does
      (fun index => index < size.toNat) ((rowIndices i).flatMap fun _ => []) := by
    apply Trace.does_seq_map
    intro index hindex
    rw [rowIndices_eq hi] at hindex
    obtain ⟨j, hj, rfl⟩ := List.mem_map.mp hindex
    have hlt : i.toNat + j < size.toNat := by
      have hj' := List.mem_range.mp hj
      omega
    exact ⟨decide_eq_true (hlen ▸ hlt), rfl, List.forall_mem_singleton.mpr hlt⟩
  have hbytes : (rowIndices i).filterMap (buffer[·]?) =
      Bytes.slice buffer i.toNat Const.rowLength := by
    rw [rowIndices_eq hi, List.filterMap_map]
    exact Bytes.filterMap_getElem?_range buffer i.toNat Const.rowLength
  have hall := hreads.andThen (Trace.does_silent
    [rowLine (address + i.toUInt64) ((rowIndices i).filterMap (buffer[·]?))])
  rw [hbytes, ← UInt64.ofNat_uInt32ToNat, List.flatMap_eq_nil_iff.mpr fun _ _ => rfl,
    List.nil_append] at hall
  rw [printRow, hbytes, ← UInt64.ofNat_uInt32ToNat]
  exact hall

end Row

/-! ## The loop -/

section Loop
variable (address : UInt64) {buffer : List UInt8} {size i : UInt32}

theorem next_index (hi : i.toNat % Const.rowLength = 0)
    (hrow : i.toNat + Const.rowLength ≤ size.toNat) :
    (i + 16).toNat = i.toNat + Const.rowLength ∧ (i + 16).toNat % Const.rowLength = 0 := by
  have hword := size.toNat_lt
  have hnext : (i + 16).toNat = i.toNat + Const.rowLength := by
    rw [UInt32.toNat_add]
    exact Nat.mod_eq_of_lt (by rw [Const.rowLength] at hrow; exact Nat.lt_of_le_of_lt hrow hword)
  refine ⟨hnext, ?_⟩
  rw [hnext, Nat.add_mod_right, hi]

theorem dumpLoop_does {rows fuel : Nat} (hlen : buffer.length = size.toNat)
    (hi : i.toNat % Const.rowLength = 0)
    (hrows : i.toNat + Const.rowLength * rows = size.toNat) (hfuel : rows < fuel) :
    ∃ t, dumpLoop address buffer size fuel i = some t ∧
      t.Does (fun index => index < size.toNat) ((List.range rows).map fun r =>
        rowLine (address + UInt64.ofNat (i.toNat + Const.rowLength * r))
          (Bytes.slice buffer (i.toNat + Const.rowLength * r) Const.rowLength)) := by
  induction rows generalizing i fuel with
  | zero =>
      obtain ⟨fuel, rfl⟩ := Nat.exists_eq_succ_of_ne_zero (Nat.ne_of_gt hfuel)
      have hend : ¬ i < size := by
        rw [UInt32.lt_iff_toNat_lt, ← hrows]
        exact Nat.lt_irrefl _
      exact ⟨{}, by rw [dumpLoop, if_neg hend], Trace.does_silent []⟩
  | succ rows ih =>
      obtain ⟨fuel, rfl⟩ := Nat.exists_eq_succ_of_ne_zero (Nat.ne_of_gt (Nat.zero_lt_of_lt hfuel))
      rw [Nat.mul_succ] at hrows
      have hrow : i.toNat + Const.rowLength ≤ size.toNat := by omega
      have hlt : i < size := by
        rw [UInt32.lt_iff_toNat_lt]
        rw [Const.rowLength] at hrow
        omega
      have hnext := next_index hi hrow
      obtain ⟨t, ht, hdoes⟩ := ih hnext.2 (by rw [hnext.1]; omega) (Nat.lt_of_succ_lt_succ hfuel)
      refine ⟨(printRow address buffer i).andThen t, ?_, ?_⟩
      · rw [dumpLoop, if_pos hlt, ht]
        rfl
      · have hshift (r : Nat) : (i + 16).toNat + Const.rowLength * r =
            i.toNat + Const.rowLength * (r + 1) := by
          rw [hnext.1, Nat.mul_succ]
          omega
        simp only [hshift] at hdoes
        rw [List.range_succ_eq_map, List.map_cons, List.map_map]
        exact (printRow_does address hlen hi hrow).andThen hdoes

theorem size_mod_of_dumpLoop {fuel : Nat} {t : DumpTrace} (hlen : buffer.length = size.toNat)
    (hi : i.toNat % Const.rowLength = 0) (hle : i.toNat ≤ size.toNat)
    (ht : dumpLoop address buffer size fuel i = some t)
    (hgood : t.All fun index => index < size.toNat) : size.toNat % Const.rowLength = 0 := by
  induction fuel generalizing i t with
  | zero => contradiction
  | succ fuel ih =>
      rw [dumpLoop] at ht
      split at ht
      · obtain ⟨u, hu, rfl⟩ := Option.map_eq_some_iff.mp ht
        have hguards := printRow_guards address hlen hi
        have hrow := hguards.all.mp hgood.of_andThen
        have hlater := (Trace.all_andThen_iff fun _ => hguards.completes hrow).mp hgood
        have hnext := next_index hi hrow
        exact ih hnext.2 (by rw [hnext.1]; exact hrow) hu hlater.2
      · rename_i hend
        rw [UInt32.lt_iff_toNat_lt] at hend
        have heq : i.toNat = size.toNat := by omega
        rw [← heq]
        exact hi

end Loop

section Dump
variable (address : UInt64) {size : UInt32} (buffer : Vector UInt8 size.toNat)

theorem dumpsExactly_of_mod (h : size.toNat % Const.rowLength = 0) :
    DumpsExactly address buffer := by
  have hlen : buffer.toList.length = size.toNat := Vector.length_toList
  have hrows : size.toNat = Const.rowLength * (size.toNat / Const.rowLength) := by
    rw [Nat.mul_div_cancel' (Nat.dvd_of_mod_eq_zero h)]
  have hcount : (buffer.toList.length + (Const.rowLength - 1)) / Const.rowLength =
      size.toNat / Const.rowLength := by
    rw [hlen]
    rw [Const.rowLength] at h ⊢
    omega
  obtain ⟨t, ht, hdoes⟩ := dumpLoop_does address (i := 0) hlen rfl
    (Eq.trans (Nat.zero_add _) hrows.symm) (Nat.lt_succ_self _)
  refine ⟨size.toNat / Const.rowLength + 1, Trace.andThen { output := [headerLine] } t, ?_, ?_⟩
  · rw [printBufferContent, ht]
    rfl
  · rw [bufferRows, hcount]
    have hall := (Trace.does_silent [headerLine]).andThen hdoes
    simp only [UInt32.toNat_zero, Nat.zero_add] at hall
    exact hall

theorem mod_of_dumpsExactly (h : DumpsExactly address buffer) :
    size.toNat % Const.rowLength = 0 := by
  obtain ⟨fuel, t, ht, hdoes⟩ := h
  obtain ⟨u, hu, rfl⟩ := Option.map_eq_some_iff.mp ht
  have hgood := (Trace.all_andThen_iff fun _ => rfl).mp hdoes.good
  exact size_mod_of_dumpLoop address Vector.length_toList rfl (Nat.zero_le _) hu hgood.2

/-- The dump is the buffer's exactly for whole rows. -/
theorem dumpsExactly_iff :
    DumpsExactly address buffer ↔ size.toNat % Const.rowLength = 0 :=
  ⟨mod_of_dumpsExactly address buffer, dumpsExactly_of_mod address buffer⟩

theorem doTest_dumpsExactly (address : UInt64) (buffer : Vector UInt8 (UInt32.toNat 1024)) :
    DumpsExactly address buffer :=
  dumpsExactly_of_mod address buffer rfl

def eightBytes : Vector UInt8 (UInt32.toNat 8) := Vector.replicate _ 0xA5

/-- The one row reads eight bytes behind the buffer. -/
theorem eightBytes_not_dumped : ¬ DumpsExactly 0xFFFFA50000001000 eightBytes := by
  intro h
  exact absurd (mod_of_dumpsExactly _ eightBytes h) (by decide)

/-- Above the largest whole number of rows the index wraps around and the loop
never ends. -/
theorem dumpLoop_diverges {size i : UInt32} {buffer : List UInt8} (hsize : 0xFFFFFFF0 < size)
    (hi : i.toNat % Const.rowLength = 0) (fuel : Nat) :
    dumpLoop address buffer size fuel i = none := by
  induction fuel generalizing i with
  | zero => rfl
  | succ fuel ih =>
      have hword := i.toNat_lt
      rw [UInt32.lt_iff_toNat_lt] at hsize
      have hlarge : (0xFFFFFFF0 : UInt32).toNat = 4294967280 := rfl
      have hlt : i < size := by
        rw [UInt32.lt_iff_toNat_lt]
        rw [Const.rowLength] at hi
        omega
      have hnext : (i + 16).toNat % Const.rowLength = 0 := by
        rw [UInt32.toNat_add]
        rw [Const.rowLength] at hi ⊢
        have hsixteen : (16 : UInt32).toNat = 16 := rfl
        omega
      rw [dumpLoop, if_pos hlt, ih hnext]
      rfl

end Dump

end WdmTest.Harddisk
