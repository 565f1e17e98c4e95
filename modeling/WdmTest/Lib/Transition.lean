import Mathlib.Data.List.Basic
import Mathlib.Logic.Function.Basic

/-!
Transition systems given by a partial step function. An action carries every
choice its step leaves open, so a run is a list of actions and evaluates.

The invariant rule, its versions for runs whose steps meet a side condition, the
counting and progress rules for a measure that chosen actions lower, the
conservation rule and the rule for what a run leaves on record are stated once
here for every system. Nothing is assumed about the states or the actions.
-/
namespace Transition

universe u v w
variable {σ : Type u} {α : Type v}

/-- The state after the actions of a list, when each is enabled in its turn. -/
def run (step : σ → α → Option σ) (s : σ) : List α → Option σ
  | [] => some s
  | a :: as => (step s a).bind fun t => run step t as

/-- Every step of the run meets `C` in the state it is taken from. -/
def Along (step : σ → α → Option σ) (C : σ → α → Prop) : σ → List α → Prop
  | _, [] => True
  | s, a :: as => C s a ∧ ∀ t, step s a = some t → Along step C t as

instance decidableAlong (step : σ → α → Option σ) (C : σ → α → Prop)
    [∀ s a, Decidable (C s a)] : ∀ s as, Decidable (Along step C s as)
  | _, [] => isTrue trivial
  | s, a :: as =>
      match h : step s a with
      | none => decidable_of_iff (C s a) ⟨fun hc => ⟨hc, by simp [h]⟩, And.left⟩
      | some t =>
          have := decidableAlong step C t as
          decidable_of_iff (C s a ∧ Along step C t as)
            ⟨fun hc => ⟨hc.1, by rintro u hu; cases h.symm.trans hu; exact hc.2⟩,
              fun hc => ⟨hc.1, hc.2 t h⟩⟩

def Reachable (step : σ → α → Option σ) (init : σ → Prop) (s : σ) : Prop :=
  ∃ s₀ as, init s₀ ∧ run step s₀ as = some s

section Runs
variable {step : σ → α → Option σ}

@[simp] theorem run_nil (s : σ) : run step s [] = some s := rfl

theorem run_cons {s u : σ} {a : α} {as : List α} :
    run step s (a :: as) = some u ↔ ∃ t, step s a = some t ∧ run step t as = some u := by
  simp only [run, Option.bind_eq_some_iff]

theorem run_append {s u : σ} {as bs : List α} :
    run step s (as ++ bs) = some u ↔
      ∃ t, run step s as = some t ∧ run step t bs = some u := by
  induction as generalizing s with
  | nil => simp
  | cons a as ih =>
      simp only [List.cons_append, run_cons, ih]
      constructor
      · rintro ⟨t, ht, w, hw, hu⟩
        exact ⟨w, ⟨t, ht, hw⟩, hu⟩
      · rintro ⟨w, ⟨t, ht, hw⟩, hu⟩
        exact ⟨t, ht, w, hw, hu⟩

/-- Actions that leave the state as it is. -/
theorem run_still {s : σ} {as : List α} (h : ∀ a ∈ as, step s a = some s) :
    run step s as = some s := by
  induction as with
  | nil => rfl
  | cons a as ih =>
      rw [run, h a List.mem_cons_self]
      exact ih fun b hb => h b (List.mem_cons_of_mem a hb)

theorem exists_disabled_of_run_eq_none {s : σ} {as : List α} (h : run step s as = none) :
    ∃ bs a rest t, as = bs ++ a :: rest ∧ run step s bs = some t ∧ step t a = none := by
  induction as generalizing s with
  | nil => cases h
  | cons a as ih =>
      cases hstep : step s a with
      | none => exact ⟨[], a, as, s, rfl, rfl, hstep⟩
      | some w =>
          rw [run, hstep] at h
          obtain ⟨bs, b, rest, t, rfl, hrun, hnone⟩ := ih h
          exact ⟨a :: bs, b, rest, t, rfl, run_cons.mpr ⟨w, hstep, hrun⟩, hnone⟩

/-- The invariant rule for runs whose steps meet a side condition. -/
theorem run_invariant_along {P : σ → Prop} {C : σ → α → Prop}
    (preserves : ∀ s a t, P s → C s a → step s a = some t → P t)
    {s t : σ} {as : List α} (hrun : run step s as = some t)
    (hC : Along step C s as) (hs : P s) : P t := by
  induction as generalizing s with
  | nil =>
      cases hrun
      exact hs
  | cons a as ih =>
      obtain ⟨w, hw, hr⟩ := run_cons.mp hrun
      exact ih hr (hC.2 w hw) (preserves s a w hs hC.1 hw)

theorem along_of_invariant {P : σ → Prop} {C D : σ → α → Prop}
    (preserves : ∀ s a t, P s → C s a → step s a = some t → P t)
    (sound : ∀ s a, P s → C s a → D s a) {s : σ} {as : List α}
    (hC : Along step C s as) (hs : P s) : Along step D s as := by
  induction as generalizing s with
  | nil => trivial
  | cons a as ih =>
      refine ⟨sound s a hs hC.1, ?_⟩
      intro t ht
      exact ih (hC.2 t ht) (preserves s a t hs hC.1 ht)

theorem along_mono {C D : σ → α → Prop} (h : ∀ s a, C s a → D s a) {s : σ} {as : List α}
    (hC : Along step C s as) : Along step D s as :=
  along_of_invariant (P := fun _ => True) (fun _ _ _ _ _ _ => trivial) (fun s a _ => h s a) hC
    trivial

theorem along_trivial (s : σ) (as : List α) : Along step (fun _ _ => True) s as := by
  induction as generalizing s with
  | nil => trivial
  | cons a as ih => exact ⟨trivial, fun t _ => ih t⟩

theorem run_invariant {P : σ → Prop} (preserves : ∀ s a t, P s → step s a = some t → P t)
    {s t : σ} {as : List α} (hrun : run step s as = some t) (hs : P s) : P t :=
  run_invariant_along (fun s a t hP _ => preserves s a t hP) hrun (along_trivial s as) hs

theorem along_of_forall {c : α → Prop} (s : σ) {as : List α} (h : ∀ a ∈ as, c a) :
    Along step (fun _ a => c a) s as := by
  induction as generalizing s with
  | nil => trivial
  | cons a as ih =>
      exact ⟨h a List.mem_cons_self, fun t _ => ih t fun b hb => h b (List.mem_cons_of_mem a hb)⟩

theorem Reachable.extend {init : σ → Prop} {s t : σ} {as : List α}
    (h : Reachable step init s) (hrun : run step s as = some t) : Reachable step init t := by
  obtain ⟨s₀, bs, h₀, hs⟩ := h
  exact ⟨s₀, bs ++ as, h₀, run_append.mpr ⟨s, hs, hrun⟩⟩

theorem Reachable.invariant {init : σ → Prop} {P : σ → Prop}
    (initial : ∀ s, init s → P s) (preserves : ∀ s a t, P s → step s a = some t → P t)
    {s : σ} (h : Reachable step init s) : P s := by
  obtain ⟨s₀, as, h₀, hrun⟩ := h
  exact run_invariant preserves hrun (initial s₀ h₀)

end Runs

section Measures
variable {step : σ → α → Option σ} {P : σ → Prop} {C : σ → α → Prop} {μ : σ → Nat}
  {K : α → Bool}

/-- Each action counted by `K` costs one unit of `μ`, and no action adds any. -/
theorem run_count_le
    (costs : ∀ s a t, P s → C s a → step s a = some t →
      P t ∧ μ t + (if K a then 1 else 0) ≤ μ s)
    {s t : σ} {as : List α} (hrun : run step s as = some t) (hC : Along step C s as)
    (hs : P s) : as.countP K + μ t ≤ μ s := by
  induction as generalizing s with
  | nil =>
      cases hrun
      simp
  | cons a as ih =>
      obtain ⟨w, hw, hr⟩ := run_cons.mp hrun
      obtain ⟨hP, hcost⟩ := costs s a w hs hC.1 hw
      have htail := ih hr (hC.2 w hw) hP
      rw [List.countP_cons]
      omega

theorem no_infinite_run
    (costs : ∀ s a t, P s → C s a → step s a = some t → P t ∧ μ t + 1 ≤ μ s)
    (states : Nat → σ) (actions : Nat → α) (hs : P (states 0))
    (steps : ∀ k, C (states k) (actions k) ∧
      step (states k) (actions k) = some (states (k + 1))) : False := by
  have hbound (k : Nat) : P (states k) ∧ μ (states k) + k ≤ μ (states 0) := by
    induction k with
    | zero => exact ⟨hs, Nat.le_refl _⟩
    | succ k ih =>
        obtain ⟨hP, hcost⟩ := costs _ _ _ ih.1 (steps k).1 (steps k).2
        exact ⟨hP, by omega⟩
  have hlast := (hbound (μ (states 0) + 1)).2
  omega

/-- The progress rule: where every state short of the goal has a step that meets the
condition and lowers the measure, there is a run of such steps to the goal. -/
theorem exists_run_of_progress_along {Q : σ → Prop}
    (progress : ∀ s, P s → ¬ Q s → ∃ a t, C s a ∧ step s a = some t ∧ P t ∧ μ t < μ s) {s : σ}
    (hs : P s) : ∃ as t, run step s as = some t ∧ Along step C s as ∧ Q t := by
  induction hn : μ s using Nat.strongRecOn generalizing s with
  | ind n ih =>
      by_cases hQ : Q s
      · exact ⟨[], s, rfl, trivial, hQ⟩
      · obtain ⟨a, w, hC, hw, hP, hlt⟩ := progress s hs hQ
        obtain ⟨as, t, hrun, halong, ht⟩ := ih (μ w) (hn ▸ hlt) hP rfl
        refine ⟨a :: as, t, run_cons.mpr ⟨w, hw, hrun⟩, ⟨hC, ?_⟩, ht⟩
        intro u hu
        cases hw.symm.trans hu
        exact halong

theorem exists_run_of_progress {Q : σ → Prop}
    (progress : ∀ s, P s → ¬ Q s → ∃ a t, step s a = some t ∧ P t ∧ μ t < μ s) {s : σ}
    (hs : P s) : ∃ as t, run step s as = some t ∧ Q t := by
  have hany : ∀ s, P s → ¬ Q s → ∃ a t, True ∧ step s a = some t ∧ P t ∧ μ t < μ s := by
    intro s hP hQ
    obtain ⟨a, t, hstep⟩ := progress s hP hQ
    exact ⟨a, t, trivial, hstep⟩
  obtain ⟨as, t, hrun, -, ht⟩ := exists_run_of_progress_along (C := fun _ _ => True) hany hs
  exact ⟨as, t, hrun, ht⟩

end Measures

section Tallies

def tally (step : σ → α → Option σ) (f : σ → α → Nat) : σ → List α → Nat
  | _, [] => 0
  | s, a :: as => f s a + (step s a).elim 0 fun t => tally step f t as

variable {step : σ → α → Option σ} {μ : σ → Nat} {inflow outflow : σ → α → Nat}

/-- The conservation rule: what has flowed out and what is left is what was there
and what has flowed in. -/
theorem run_tally_of_invariant {P : σ → Prop}
    (conserved : ∀ s a t, P s → step s a = some t →
      P t ∧ μ t + outflow s a = μ s + inflow s a)
    {s t : σ} {as : List α} (hrun : run step s as = some t) (hs : P s) :
    μ t + tally step outflow s as = μ s + tally step inflow s as := by
  induction as generalizing s with
  | nil =>
      cases hrun
      rfl
  | cons a as ih =>
      obtain ⟨w, hw, hr⟩ := run_cons.mp hrun
      obtain ⟨hP, hstep⟩ := conserved s a w hs hw
      have htail := ih hr hP
      simp only [tally, hw, Option.elim_some]
      omega

theorem tally_zero (s : σ) (as : List α) : tally step (fun _ _ => 0) s as = 0 := by
  induction as generalizing s with
  | nil => rfl
  | cons a as ih =>
      rw [tally, Nat.zero_add]
      cases step s a with
      | none => rfl
      | some t => exact ih t

end Tallies

section Histories
variable {β : Type w}

/-- What the steps of a run add to a record, in order. -/
def history (step : σ → α → Option σ) (f : σ → α → List β) : σ → List α → List β
  | _, [] => []
  | s, a :: as => f s a ++ (step s a).elim [] fun t => history step f t as

variable {step : σ → α → Option σ} {f : σ → α → List β}

theorem history_cons {s t : σ} {a : α} (h : step s a = some t) (as : List α) :
    history step f s (a :: as) = f s a ++ history step f t as := by
  rw [history, h, Option.elim_some]

/-- The invariant rule for a state together with the record of the steps so far. -/
theorem run_history {P : σ → List β → Prop} {C : σ → α → Prop}
    (preserves : ∀ s l a t, P s l → C s a → step s a = some t → P t (l ++ f s a))
    {s t : σ} {as : List α} {l : List β} (hrun : run step s as = some t)
    (hC : Along step C s as) (hs : P s l) : P t (l ++ history step f s as) := by
  induction as generalizing s l with
  | nil =>
      cases hrun
      rw [history, List.append_nil]
      exact hs
  | cons a as ih =>
      obtain ⟨w, hw, hr⟩ := run_cons.mp hrun
      rw [history_cons hw, ← List.append_assoc]
      exact ih hr (hC.2 w hw) (preserves s l a w hs hC.1 hw)

/-- What the actions alone decide is recorded for each of them. -/
theorem history_of_actions {g : α → List β} {s t : σ} {as : List α}
    (hrun : run step s as = some t) : history step (fun _ => g) s as = as.flatMap g := by
  induction as generalizing s with
  | nil => rfl
  | cons a as ih =>
      obtain ⟨w, hw, hr⟩ := run_cons.mp hrun
      rw [history_cons hw, ih hr, List.flatMap_cons]

end Histories
end Transition
