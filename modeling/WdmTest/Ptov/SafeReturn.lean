import WdmTest.Ptov.ContextLifetime

/-!
PtovTest can always be ended well. A run in which the wait has not given up early
can go on, with the thread done first, until the driver has returned and both
blocks are freed, each after its last use.

Nothing makes the thread be that fast: that it can be too slow is shown with the
lifetime of the blocks.
-/
namespace WdmTest.Ptov
open Transition

/-- The driver has started a thread and not left its wait yet. -/
def DriverPc.awaiting : DriverPc → Bool
  | .closingHandle | .notifying | .startingWait | .waiting _ => true
  | .allocating | .creatingThread | .breaking | .freeing _ | .returned => false

/-- The statements left to the driver, with those of the thread it will create. -/
def DriverPc.rank : DriverPc → Nat
  | .allocating => 9 + threadFunction.length
  | .creatingThread => 8 + threadFunction.length
  | .closingHandle => 7
  | .notifying => 6
  | .startingWait => 5
  | .waiting _ => 4
  | .breaking => 3
  | .freeing .ctx => 2
  | .freeing .buffer => 1
  | .returned => 0

/-- The statements left to the driver and its thread. -/
def State.left (s : State) : Nat :=
  s.driver.rank + (threadFunction.length - s.worker.getD 0)

/-- Where the two parties can be. A thread that is through has set the event. -/
structure Live (s : State) : Prop where
  ended : ∀ k, s.worker = some k → threadFunction[k]? = none → s.eventDone1 = true
  created : s.driver.awaiting = true → s.worker ≠ none
  ctx : s.driver = .freeing .buffer ∨ s.driver = .returned → s.ctx = false
  buffer : s.driver = .returned → s.buffer = false

section Steps
variable {createStatus : NtStatus} {s t : State}

theorem initial_live (now : Int) : Live (initial now) where
  ended _ h := by cases h
  created h := by cases h
  ctx h := by simp [initial] at h
  buffer h := by cases h

theorem Live.driver (h : Live s) (hstep : driverEntry createStatus s = some t) : Live t := by
  simp only [driverEntry] at hstep
  cases hpc : s.driver with
  | creatingThread =>
      simp only [hpc] at hstep
      split at hstep <;> cases hstep
      · refine ⟨?_, by simp, by simp, by simp⟩
        intro k hk hnone
        cases hk
        cases hnone
      · exact ⟨h.ended, by simp [DriverPc.awaiting], by simp, by simp⟩
  | closingHandle | notifying | startingWait =>
      have hcreated := h.created (by rw [hpc]; rfl)
      simp only [hpc] at hstep
      cases hstep
      exact ⟨h.ended, fun _ => hcreated, by simp, by simp⟩
  | allocating | breaking =>
      simp only [hpc] at hstep
      cases hstep
      exact ⟨h.ended, by simp [DriverPc.awaiting], by simp, by simp⟩
  | freeing block =>
      cases block with
      | ctx =>
          simp only [hpc] at hstep
          cases hstep
          exact ⟨h.ended, by simp [DriverPc.awaiting], by simp, by simp⟩
      | buffer =>
          have hctx := h.ctx (Or.inl hpc)
          simp only [hpc] at hstep
          cases hstep
          exact ⟨h.ended, by simp [DriverPc.awaiting], fun _ => hctx, by simp⟩
  | waiting _ | returned => simp [hpc] at hstep

theorem keSetEvent_last : ∀ k < threadFunction.length, threadFunction[k + 1]? = none →
    threadFunction[k]? = some .keSetEvent := by
  decide

theorem Live.worker (h : Live s) (hstep : step createStatus s .worker = some t) : Live t := by
  simp only [Ptov.step] at hstep
  split at hstep
  · cases hstep
  · split at hstep
    · cases hstep
    · rename_i k hk _ stmt hstmt
      cases hstep
      refine ⟨?_, by simp, h.ctx, h.buffer⟩
      intro j hj hnone
      cases hj
      have hset := keSetEvent_last k (List.getElem?_eq_some_iff.mp hstmt).1 hnone
      cases hstmt.symm.trans hset
      simp

theorem Live.step {a : Action} (h : Live s) (hstep : step createStatus s a = some t) :
    Live t := by
  cases a with
  | tick time =>
      cases hstep
      exact ⟨h.ended, h.created, h.ctx, h.buffer⟩
  | driver => exact h.driver hstep
  | worker => exact h.worker hstep
  | waitSatisfied | waitTimeout =>
      simp only [Ptov.step] at hstep
      split at hstep
      · simp only [Option.ite_none_right_eq_some, Option.some.injEq] at hstep
        obtain ⟨-, rfl⟩ := hstep
        exact ⟨h.ended, by simp [DriverPc.awaiting], by simp, by simp⟩
      · cases hstep

theorem exists_driver (hpc : s.driver ≠ .returned) (hwait : ∀ due, s.driver ≠ .waiting due) :
    ∃ t, step createStatus s .driver = some t ∧ t.left < s.left := by
  simp only [step, driverEntry, State.left]
  cases hat : s.driver with
  | creatingThread =>
      dsimp only
      split
      · refine ⟨_, rfl, ?_⟩
        simp only [DriverPc.rank, Option.getD_some]
        omega
      · refine ⟨_, rfl, ?_⟩
        simp only [DriverPc.rank]
        omega
  | freeing block =>
      cases block with
      | ctx | buffer => exact ⟨_, rfl, by simp [DriverPc.rank]⟩
  | allocating | closingHandle | notifying | startingWait | breaking =>
      exact ⟨_, rfl, by simp [DriverPc.rank]⟩
  | waiting due => exact absurd hat (hwait due)
  | returned => exact absurd hat hpc

/-- The driver that waits is left alone until its thread has set the event. -/
theorem Live.exists_step (h : Live s) (hpc : s.driver ≠ .returned) :
    ∃ a t, a ≠ .waitTimeout ∧ Ptov.step createStatus s a = some t ∧ t.left < s.left := by
  by_cases hwait : ∃ due, s.driver = .waiting due
  · obtain ⟨due, hdue⟩ := hwait
    by_cases hevent : s.eventDone1 = true
    · refine ⟨.waitSatisfied, { s with driver := .breaking }, by decide, ?_, ?_⟩
      · simp [Ptov.step, hdue, hevent]
      · simp [State.left, hdue, DriverPc.rank]
    · obtain ⟨k, hk⟩ := Option.ne_none_iff_exists'.mp (h.created (by rw [hdue]; rfl))
      obtain ⟨stmt, hstmt⟩ := Option.ne_none_iff_exists'.mp fun hnone =>
        hevent (h.ended k hk hnone)
      refine ⟨.worker, { s with
        worker := some (k + 1)
        eventDone1 := s.eventDone1 || decide (stmt = .keSetEvent) }, by decide, ?_, ?_⟩
      · simp [Ptov.step, hk, hstmt]
      · have hlt := (List.getElem?_eq_some_iff.mp hstmt).1
        simp only [State.left, hk, Option.getD_some]
        omega
  · obtain ⟨t, ht, hlt⟩ := @exists_driver createStatus s hpc
      fun due hdue => hwait ⟨due, hdue⟩
    exact ⟨.driver, t, by decide, ht, hlt⟩

/-- A driver that has resumed only when the blocks are back frees them in time. -/
theorem freedAfterUse_of_released {a : Action} (h : s.driver.resumed = true → s.Released) :
    FreedAfterUse s a := by
  intro _
  refine ⟨?_, ?_⟩
  · intro hfree
    exact (h (by rw [hfree]; rfl)).2.1
  · intro hfree
    exact (h (by rw [hfree]; rfl)).2.2

end Steps

/-- A run without an early end of the wait can go on until the driver has returned and both
blocks are freed, each after the last access of the thread to it. -/
theorem exists_return_after_use {createStatus : NtStatus} {now : Int} {as : List Action}
    {s : State} (hrun : run (step createStatus) (initial now) as = some s)
    (htimely : Along (step createStatus) TimelyWorker (initial now) as) :
    ∃ bs t, run (step createStatus) s bs = some t ∧
      Along (step createStatus) FreedAfterUse s bs ∧ t.driver = .returned ∧ t.ctx = false ∧
      t.buffer = false := by
  have hsound := run_invariant_along
    (P := Handover.Sound State.ThreadCreated State.Released (fun s => s.eventDone1 = true)
      fun s => s.driver.resumed = true)
    (fun _ _ _ hs htimely hstep => hs.preserved (blockHandover createStatus) htimely hstep)
    hrun htimely ⟨fun _ => rfl, by simp [initial], by simp [initial, DriverPc.resumed]⟩
  have hlive : Live s := run_invariant (fun _ _ _ hs hstep => hs.step hstep) hrun (initial_live now)
  have hprogress : ∃ bs t, run (step createStatus) s bs = some t ∧
      Along (step createStatus) (fun _ a => a ≠ Action.waitTimeout) s bs ∧
      Live t ∧ t.driver = .returned := by
    refine exists_run_of_progress_along (P := Live) (μ := State.left) ?_ hlive
    intro u hu hnot
    obtain ⟨a, t, hne, ht, hlt⟩ := hu.exists_step fun hreturned => hnot ⟨hu, hreturned⟩
    exact ⟨a, t, hne, ht, hu.step ht, hlt⟩
  obtain ⟨bs, t, hbs, hnever, ht, hreturned⟩ := hprogress
  refine ⟨bs, t, hbs, ?_, hreturned, ht.ctx (Or.inr hreturned), ht.buffer hreturned⟩
  refine (blockHandover createStatus).along (fun _ _ => freedAfterUse_of_released) ?_ hsound
  exact along_mono (fun _ _ hne heq => absurd heq hne) hnever

/-- The thread stays at its breakpoint for ten seconds, and the wait does not give up. -/
def patient : List Action := startAndWait ++ List.replicate 8 .worker ++ [.tick 100000000]

theorem exists_return_after_use_patient :
    ∃ s, run (step NtStatus.success) (initial 0) patient = some s ∧
      ∃ bs t, run (step NtStatus.success) s bs = some t ∧
        Along (step NtStatus.success) FreedAfterUse s bs ∧ t.driver = .returned ∧
        t.ctx = false ∧ t.buffer = false :=
  ⟨_, rfl, @exists_return_after_use _ 0 patient _ rfl (by decide)⟩

end WdmTest.Ptov
