import Mathlib.Algebra.Order.Ring.Nat

/-!
Blocks of memory as lists. A comparison measures the common prefix of two
blocks. A slice is what a read of some width at some position sees, and slices
of concatenations are slices of the parts; integers are stored with their low
byte first. Fields that end with a separator they do not contain can be told
apart again.
-/
namespace Bytes

universe u v

section Compare
variable {α : Type u} [DecidableEq α]

def commonPrefixLength : List α → List α → Nat
  | a :: as, b :: bs => if a = b then commonPrefixLength as bs + 1 else 0
  | _, _ => 0

/-- Blocks of one length agree in no element from the start on exactly when they
are empty or differ in the first. -/
theorem commonPrefixLength_eq_zero_iff {as bs : List α} (h : as.length = bs.length) :
    commonPrefixLength as bs = 0 ↔ as = [] ∨ as.head? ≠ bs.head? := by
  cases as with
  | nil => simp [commonPrefixLength]
  | cons a as =>
      cases bs with
      | nil => simp at h
      | cons b bs =>
          by_cases hab : a = b
          · simp [commonPrefixLength, hab]
          · simp [commonPrefixLength, hab]

end Compare

section Slices
variable {α : Type u} {β : Type v}

def slice (l : List α) (pos width : Nat) : List α := (l.drop pos).take width

theorem filterMap_getElem?_range (l : List α) (pos width : Nat) :
    (List.range width).filterMap (fun j => l[pos + j]?) = slice l pos width := by
  induction width with
  | zero => rfl
  | succ width ih =>
      rw [List.range_succ, List.filterMap_append, ih, slice, slice, List.take_add_one,
        List.getElem?_drop, List.append_cancel_left_eq]
      cases h : l[pos + width]? <;> simp [h]

theorem slice_append_left {l post : List α} {pos width : Nat} (h : pos + width ≤ l.length) :
    slice (l ++ post) pos width = slice l pos width := by
  rw [slice, slice, List.drop_append_of_le_length (by omega), List.take_append_of_le_length]
  rw [List.length_drop]
  omega

theorem slice_append_right (pre l : List α) (pos width : Nat) :
    slice (pre ++ l) (pre.length + pos) width = slice l pos width := by
  rw [slice, slice, List.drop_length_add_append]

theorem slice_field {pre field post : List α} {pos width : Nat} (hpos : pre.length = pos)
    (hwidth : field.length = width) : slice (pre ++ (field ++ post)) pos width = field := by
  subst hpos hwidth
  rw [slice, List.drop_left, List.take_left]

theorem slice_flatMap {f : β → List α} {size : Nat} (hf : ∀ b, (f b).length = size)
    {bs : List β} {j pos width : Nat} {b : β} (hb : bs[j]? = some b) (h : pos + width ≤ size) :
    slice (bs.flatMap f) (size * j + pos) width = slice (f b) pos width := by
  induction bs generalizing j with
  | nil => simp at hb
  | cons b' bs ih =>
      rw [List.flatMap_cons]
      cases j with
      | zero =>
          rw [List.getElem?_cons_zero, Option.some.injEq] at hb
          rw [hb, Nat.mul_zero, Nat.zero_add]
          exact slice_append_left (by rw [hf]; exact h)
      | succ j =>
          rw [List.getElem?_cons_succ] at hb
          have hpos : size * (j + 1) + pos = (f b').length + (size * j + pos) := by
            rw [hf, Nat.mul_succ]
            omega
          rw [hpos, slice_append_right, ih hb]

end Slices

section Separated
variable {α : Type u} {β : Type v} {sep : α} {pre x y : β → List α}

/-- A separator splits a text in one way. -/
theorem append_separator_inj {l m post rest : List α} (hl : sep ∉ l) (hm : sep ∉ m) :
    l ++ sep :: post = m ++ sep :: rest ↔ l = m ∧ post = rest := by
  induction l generalizing m with
  | nil =>
      cases m with
      | nil => simp
      | cons b m =>
          have hne : sep ≠ b := fun h => hm (h ▸ List.mem_cons_self)
          simp [hne]
  | cons a l ih =>
      cases m with
      | nil =>
          have hne : a ≠ sep := fun h => hl (h ▸ List.mem_cons_self)
          simp [hne]
      | cons b m =>
          have hl' : sep ∉ l := fun h => hl (List.mem_cons_of_mem a h)
          have hm' : sep ∉ m := fun h => hm (List.mem_cons_of_mem b h)
          rw [List.cons_append, List.cons_append, List.cons.injEq, ih hl' hm', List.cons.injEq,
            and_assoc]

/-- Two ways to fill the fields of a text agree when they agree in every field. -/
theorem flatMap_separated_inj {bs : List β} (hx : ∀ b ∈ bs, sep ∉ x b)
    (hy : ∀ b ∈ bs, sep ∉ y b) :
    (bs.flatMap fun b => pre b ++ (x b ++ [sep])) = (bs.flatMap fun b => pre b ++ (y b ++ [sep])) ↔
      ∀ b ∈ bs, x b = y b := by
  induction bs with
  | nil => simp
  | cons b bs ih =>
      rw [List.forall_mem_cons] at hx hy
      simp only [List.flatMap_cons, List.append_assoc, List.cons_append, List.nil_append]
      rw [List.append_cancel_left_eq, append_separator_inj hx.1 hy.1, List.forall_mem_cons,
        ← ih hx.2 hy.2]

end Separated

section Integers

/-- The low `width` bytes of a number, the lowest first. -/
def le : Nat → Nat → List UInt8
  | 0, _ => []
  | width + 1, n => UInt8.ofNat n :: le width (n / 256)

def ofLE : List UInt8 → Nat
  | [] => 0
  | b :: bs => b.toNat + 256 * ofLE bs

@[simp] theorem le_length (width n : Nat) : (le width n).length = width := by
  induction width generalizing n with
  | zero => rfl
  | succ width ih => rw [le, List.length_cons, ih]

theorem ofLE_le {width n : Nat} (h : n < 256 ^ width) : ofLE (le width n) = n := by
  induction width generalizing n with
  | zero =>
      rw [Nat.pow_zero, Nat.lt_one_iff] at h
      rw [h]
      rfl
  | succ width ih =>
      have hhigh : n / 256 < 256 ^ width := by
        rw [Nat.pow_succ] at h
        exact Nat.div_lt_of_lt_mul (by omega)
      have hlow : (UInt8.ofNat n).toNat = n % 256 := UInt8.toNat_ofNat'
      rw [le, ofLE, ih hhigh, hlow]
      omega

theorem ofLE_lt (bs : List UInt8) : ofLE bs < 256 ^ bs.length := by
  induction bs with
  | nil => exact Nat.one_pos
  | cons b bs ih =>
      have hb := b.toNat_lt
      rw [ofLE, List.length_cons, Nat.pow_succ]
      omega

theorem ofLE_injective {as bs : List UInt8} (hlen : as.length = bs.length)
    (h : ofLE as = ofLE bs) : as = bs := by
  induction as generalizing bs with
  | nil => exact (List.length_eq_zero_iff.mp hlen.symm).symm
  | cons a as ih =>
      cases bs with
      | nil => cases hlen
      | cons b bs =>
          have ha := a.toNat_lt
          have hb := b.toNat_lt
          rw [ofLE, ofLE] at h
          have hhead : a = b := UInt8.toNat_inj.mp (by omega)
          rw [hhead, ih (Nat.succ.inj hlen) (by omega)]

end Integers
end Bytes
