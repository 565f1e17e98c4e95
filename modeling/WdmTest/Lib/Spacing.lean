import Mathlib.Algebra.Order.Ring.Int
import Mathlib.Data.List.Chain

/-!
Times that keep a distance from each other. In a window there is room for only so
many: one for each distance that fits, and one more. Times are integers and lists
of them are in order.
-/
namespace Spacing

def Spaced (d : Nat) (times : List Int) : Prop := times.IsChain fun (s t : Int) => s + d ≤ t

def Within (start : Int) (window : Nat) (times : List Int) : Prop :=
  ∀ t ∈ times, start ≤ t ∧ t ≤ start + window

variable {d window : Nat} {start t : Int} {times : List Int}

theorem Within.take (h : Within start window times) (k : Nat) :
    Within start window (times.take k) :=
  fun t ht => h t (List.mem_of_mem_take ht)

/-- The last time is a whole number of distances after the first. -/
theorem Spaced.le_getLast (h : Spaced d (t :: times)) (hne : t :: times ≠ []) :
    t + d * times.length ≤ (t :: times).getLast hne := by
  induction times generalizing t with
  | nil => simp
  | cons u times ih =>
      have hchain := List.isChain_cons_cons.mp h
      have hlast := ih hchain.2 (List.cons_ne_nil _ _)
      have hstep := hchain.1
      rw [List.getLast_cons_cons, List.length_cons, Nat.cast_add, Nat.cast_one, Int.mul_add,
        Int.mul_one]
      omega

theorem Spaced.length_le (hd : 0 < d) (h : Spaced d times) (hwithin : Within start window times) :
    times.length ≤ window / d + 1 := by
  cases times with
  | nil => exact Nat.zero_le _
  | cons t times =>
      have hlast := h.le_getLast (List.cons_ne_nil _ _)
      have hfirst := (hwithin t List.mem_cons_self).1
      have hend := (hwithin _ (List.getLast_mem (List.cons_ne_nil t times))).2
      have hroom : d * times.length ≤ window := by
        have hcast : (d : Int) * times.length ≤ window := by omega
        exact_mod_cast hcast
      rw [List.length_cons, Nat.add_le_add_iff_right, Nat.le_div_iff_mul_le hd, Nat.mul_comm]
      exact hroom

theorem Spaced.concat (h : Spaced d times) (hlast : ∀ s ∈ times.getLast?, s + d ≤ t) :
    Spaced d (times ++ [t]) := by
  apply List.isChain_append.mpr
  refine ⟨h, List.isChain_singleton t, ?_⟩
  intro s hs u hu
  rw [List.head?_cons, Option.mem_some_iff] at hu
  rw [← hu]
  exact hlast s hs

end Spacing
