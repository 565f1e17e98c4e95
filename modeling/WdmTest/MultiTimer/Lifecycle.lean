import Mathlib.Algebra.BigOperators.Group.Finset.Basic
import Mathlib.Algebra.BigOperators.Ring.Finset
import Mathlib.Algebra.Order.BigOperators.Group.Finset

/-!
What the timers are for, apart from the driver's fields: each is registered
once, then goes round between armed and queued, and stops for good. The moves
are all a timer can do. Without a rearm every move costs one unit of weight, so
a family of timers that no longer rearms runs out of moves.
-/
namespace WdmTest.MultiTimer

inductive Phase where
  | unregistered
  | armed
  | queued
  | stopped
deriving DecidableEq, Repr

namespace Phase

inductive Move : Phase → Phase → Prop where
  | register : Move .unregistered .armed
  | expire : Move .armed .queued
  | rearm : Move .queued .armed
  | stop : Move .queued .stopped

/-- Registration and the stop are passed once; a rearm stays in the stage. -/
def stage : Phase → Nat
  | .unregistered => 0
  | .armed | .queued => 1
  | .stopped => 2

/-- The moves a timer has left when it never rearms. -/
def weight : Phase → Nat
  | .unregistered => 3
  | .armed => 2
  | .queued => 1
  | .stopped => 0

theorem Move.stage_le {p q : Phase} (h : Move p q) : p.stage ≤ q.stage := by
  cases h <;> decide

theorem Move.weight_succ {p q : Phase} (h : Move p q) (stays : q = .armed → p = .unregistered) :
    q.weight + 1 = p.weight := by
  cases h with
  | register | expire | stop => rfl
  | rearm => cases stays rfl

theorem eq_stopped_of_stage_le {p q : Phase} (h : p.stage ≤ q.stage) (hp : p = .stopped) :
    q = .stopped := by
  subst hp
  cases q with
  | stopped => rfl
  | unregistered | armed | queued => exact absurd h (by decide)

end Phase

section Family
variable {ι : Type*} [DecidableEq ι]

def totalWeight (members : Finset ι) (phase : ι → Phase) : Nat :=
  ∑ i ∈ members, (phase i).weight

theorem totalWeight_update {members : Finset ι} (phase : ι → Phase) {i : ι}
    (hi : i ∈ members) (q : Phase) :
    totalWeight members (Function.update phase i q) + (phase i).weight =
      totalWeight members phase + q.weight := by
  have hweight (j : ι) : (Function.update phase i q j).weight =
      Function.update (fun j => (phase j).weight) i q.weight j :=
    Function.apply_update (fun _ => Phase.weight) phase i q j
  simp only [totalWeight, hweight]
  rw [Finset.sum_update_of_mem hi,
    Finset.sum_eq_add_sum_sdiff_singleton_of_mem hi (fun j => (phase j).weight)]
  omega

/-- Every move of a member except a rearm costs the family one unit. -/
theorem totalWeight_move {members : Finset ι} (phase : ι → Phase) {i : ι} (hi : i ∈ members)
    {q : Phase} (h : (phase i).Move q) (stays : q = .armed → phase i = .unregistered) :
    totalWeight members (Function.update phase i q) + 1 = totalWeight members phase := by
  have hupdate := totalWeight_update phase hi q
  have hcost := h.weight_succ stays
  omega

omit [DecidableEq ι] in
/-- The weight counts three for an unregistered timer, two for an armed one and
one for a queued one. -/
theorem totalWeight_eq_card (members : Finset ι) (phase : ι → Phase) :
    totalWeight members phase =
      3 * (members.filter fun i => phase i = .unregistered).card +
        2 * (members.filter fun i => phase i = .armed).card +
        (members.filter fun i => phase i = .queued).card := by
  have hweight (p : Phase) : p.weight =
      3 * (if p = .unregistered then 1 else 0) + 2 * (if p = .armed then 1 else 0) +
        (if p = .queued then 1 else 0) := by
    cases p <;> rfl
  simp only [totalWeight, Finset.card_filter, hweight, Finset.sum_add_distrib, Finset.mul_sum]

end Family
end WdmTest.MultiTimer
