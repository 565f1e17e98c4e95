import Mathlib.Algebra.Order.Ring.Int

/-!
Decimal rendering of signed integers, as a print routine of C writes them. The
bounds are stated for a given number of digits and then for 64-bit values. What a
sequence of digits is worth is stated for any base and any way to show a digit.
-/
namespace Decimal

def ofInt (z : Int) : List Char :=
  if z < 0 then '-' :: Nat.toDigits 10 z.natAbs else Nat.toDigits 10 z.natAbs

theorem ofInt_length_pos (z : Int) : 0 < (ofInt z).length := by
  rw [ofInt]
  split
  · simp
  · exact Nat.length_toDigits_pos

theorem ofInt_length_le_of_neg {z : Int} {k : Nat} (hk : 0 < k) (hz : z < 0)
    (h : z.natAbs < 10 ^ k) : (ofInt z).length ≤ k + 1 := by
  rw [ofInt, if_pos hz, List.length_cons, Nat.add_le_add_iff_right]
  exact (Nat.length_toDigits_le_iff (by decide) hk).mpr h

theorem ofInt_length_le_of_nonneg {z : Int} {k : Nat} (hk : 0 < k) (hz : 0 ≤ z)
    (h : z.natAbs < 10 ^ k) : (ofInt z).length ≤ k := by
  rw [ofInt, if_neg (by omega)]
  exact (Nat.length_toDigits_le_iff (by decide) hk).mpr h

/-- A sign and 19 digits hold every signed 64-bit value. -/
theorem ofInt_int64_length_le (x : Int64) : (ofInt x.toInt).length ≤ 20 := by
  have hlow := x.le_toInt
  have hhigh := x.toInt_lt
  cases lt_or_ge x.toInt 0 with
  | inl hneg => exact ofInt_length_le_of_neg (k := 19) (by decide) hneg (by omega)
  | inr hpos =>
      apply Nat.le_succ_of_le
      exact ofInt_length_le_of_nonneg (k := 19) (by decide) hpos (by omega)

theorem mem_ofInt {c : Char} {z : Int} (h : c ∈ ofInt z) : c = '-' ∨ c.isDigit = true := by
  rw [ofInt] at h
  split at h
  · cases List.mem_cons.mp h with
    | inl hsign => exact Or.inl hsign
    | inr hc => exact Or.inr (Nat.isDigit_of_mem_toDigits (by decide) (by decide) hc)
  · exact Or.inr (Nat.isDigit_of_mem_toDigits (by decide) (by decide) h)

theorem notMem_ofInt {c : Char} (z : Int) (hsign : c ≠ '-') (hdigit : c.isDigit = false) :
    c ∉ ofInt z := by
  intro h
  cases mem_ofInt h with
  | inl hc => exact hsign hc
  | inr hc => simp [hdigit] at hc

theorem ofInt_injective : Function.Injective ofInt := by
  intro z w h
  have hsign (n : Nat) : Nat.toDigits 10 n ≠ '-' :: Nat.toDigits 10 z.natAbs ∧
      Nat.toDigits 10 n ≠ '-' :: Nat.toDigits 10 w.natAbs := by
    have hdigits (c : Char) (hc : c ∈ Nat.toDigits 10 n) : c.isDigit = true :=
      Nat.isDigit_of_mem_toDigits (by decide) (by decide) hc
    refine ⟨?_, ?_⟩ <;>
    · intro heq
      have hminus := hdigits '-' (heq ▸ List.mem_cons_self)
      exact absurd hminus (by decide)
  have habs (h : Nat.toDigits 10 z.natAbs = Nat.toDigits 10 w.natAbs) : z.natAbs = w.natAbs := by
    rw [← Nat.ofDigitChars_ten_toDigits (n := z.natAbs), h, Nat.ofDigitChars_ten_toDigits]
  simp only [ofInt] at h
  split at h
  · split at h
    · have := habs (List.cons_inj_right '-' |>.mp h)
      omega
    · exact absurd h.symm (hsign _).1
  · split at h
    · exact absurd h (hsign _).2
    · have := habs h
      omega

/-! ## Digits of any base -/

section Digits
variable {base : Nat} {worth : Char → Nat} {shown : Char → Char}

def valueOf (base : Nat) (worth : Char → Nat) (digits : List Char) : Nat :=
  digits.foldl (fun value c => base * value + worth c) 0

theorem valueOf_concat (digits : List Char) (c : Char) :
    valueOf base worth (digits ++ [c]) = base * valueOf base worth digits + worth c := by
  rw [valueOf, List.foldl_append]
  rfl

theorem valueOf_toDigits (hbase : 1 < base)
    (hworth : ∀ d, d < base → worth (shown d.digitChar) = d) (n : Nat) :
    valueOf base worth ((Nat.toDigits base n).map shown) = n := by
  have hlast (d : Nat) (hd : d < base) :
      valueOf base worth ([d.digitChar].map shown) = d := by
    simp [valueOf, hworth d hd]
  induction n using Nat.base_induction base hbase with
  | single m hm =>
      rw [Nat.toDigits_of_lt_base hm]
      exact hlast m hm
  | digit m k hk hm ih =>
      rw [← Nat.toDigits_append_toDigits hbase hm hk, Nat.toDigits_of_lt_base hk, List.map_append,
        List.map_singleton, valueOf_concat, ih, hworth k hk]

theorem mem_toDigits (hbase : 1 < base) {c : Char} {n : Nat} (h : c ∈ Nat.toDigits base n) :
    ∃ d, d < base ∧ c = d.digitChar := by
  induction n using Nat.base_induction base hbase with
  | single m hm =>
      rw [Nat.toDigits_of_lt_base hm, List.mem_singleton] at h
      exact ⟨m, hm, h⟩
  | digit m k hk hm ih =>
      rw [← Nat.toDigits_append_toDigits hbase hm hk, Nat.toDigits_of_lt_base hk] at h
      cases List.mem_append.mp h with
      | inl hc => exact ih hc
      | inr hc => exact ⟨k, hk, List.mem_singleton.mp hc⟩

/-- Leading zeros are worth nothing. -/
theorem valueOf_pad (hzero : worth '0' = 0) (k : Nat) (digits : List Char) :
    valueOf base worth (List.replicate k '0' ++ digits) = valueOf base worth digits := by
  have hpad : (List.replicate k '0').foldl (fun value c => base * value + worth c) 0 = 0 := by
    induction k with
    | zero => rfl
    | succ k ih => rw [List.replicate_succ, List.foldl_cons, hzero, Nat.mul_zero, Nat.add_zero, ih]
  rw [valueOf, List.foldl_append, hpad, valueOf]

end Digits

end Decimal
