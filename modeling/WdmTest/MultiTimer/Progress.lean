import WdmTest.MultiTimer.Teardown

/-!
MultiTimerTest can always be torn down. However a run has gone, as long as the
wait loop has not exited the handlers can run until none is left, the loop then
exits after at most one more whole scan, and `DeInitDPC` returns with nothing
armed or queued.

That it can go wrong from some of these states as well is shown with the teardown.
Which of the two happens is up to the interleaving; no fairness is assumed of it.
-/
namespace WdmTest.MultiTimer
open Transition

/-- No step of the kernel or of a handler is left. -/
def Quiescent (n : Nat) (s : State) : Prop :=
  ∀ a : Action, a.isKernel = true → step n s a = none

/-- The steps left outside the wait loop. -/
def DeInitPc.rank (n : Nat) : DeInitPc → Nat
  | .delaying | .dumping => n + 2
  | .stopping i | .cancelling i => n - i + 1
  | .loopCond _ | .scanning _ _ | .returned => 0

section Outside
variable {n : Nat} {s t : State}

theorem deInit_enabled (h : s.deInit ≠ .returned) : ∃ t, step n s .deInit = some t := by
  simp only [step, deInitDpc]
  cases hpc : s.deInit with
  | delaying | dumping => exact ⟨_, rfl⟩
  | stopping i | loopCond running | scanning i running | cancelling i =>
      dsimp only
      split <;> exact ⟨_, rfl⟩
  | returned => exact absurd hpc h

theorem DeInitStep.rank_lt (h : DeInitStep n s t) (hloop : s.deInit.inWaitLoop = false) :
    t.deInit.rank n < s.deInit.rank n := by
  cases h with
  | stopReg hpc | dump hpc =>
      simp only [hpc, DeInitPc.rank]
      omega
  | stopTimer i hpc hi | cancel i hpc hi =>
      simp only [hpc, DeInitPc.rank]
      omega
  | enterLoop i hpc | finish i hpc =>
      simp only [hpc, DeInitPc.rank]
      omega
  | stay running hpc | exit running hpc | read i running hpc | delay i running hpc =>
      simp [hpc, DeInitPc.inWaitLoop] at hloop

/-- The stop flags are raised, whatever else goes on. -/
theorem exists_inWaitLoop (hbefore : s.deInit.beforeExit = true) :
    ∃ as t, run (step n) s as = some t ∧ t.deInit.inWaitLoop = true := by
  refine exists_run_of_progress (P := fun u => u.deInit.beforeExit = true)
    (μ := fun u => u.deInit.rank n) ?_ hbefore
  intro u hu hnot
  rw [Bool.not_eq_true] at hnot
  have hrunning : u.deInit ≠ .returned := by
    intro hreturned
    rw [hreturned] at hu
    cases hu
  obtain ⟨t, ht⟩ := deInit_enabled (n := n) hrunning
  have hstep := step_deInit ht
  refine ⟨.deInit, t, ht, ?_, hstep.rank_lt hnot⟩
  cases hstep with
  | stopReg hpc | stopTimer _ hpc | enterLoop _ hpc => rfl
  | stay _ hpc | exit _ hpc | read _ _ hpc | delay _ _ hpc =>
      simp [hpc, DeInitPc.inWaitLoop] at hnot
  | dump hpc | cancel _ hpc | finish _ hpc => simp [hpc, DeInitPc.beforeExit] at hu

/-- Behind the wait loop nothing can come in between. -/
theorem NothingPending.exists_returned (h : NothingPending n s)
    (hafter : s.deInit.beforeExit = false) :
    ∃ as t, run (MultiTimer.step n) s as = some t ∧ t.deInit = .returned ∧
      NothingPending n t := by
  refine exists_run_of_progress
    (P := fun u => NothingPending n u ∧ u.deInit.beforeExit = false)
    (μ := fun u => u.deInit.rank n) ?_ ⟨h, hafter⟩
  intro u hu hnot
  obtain ⟨t, ht⟩ := deInit_enabled (n := n) fun hreturned => hnot ⟨hreturned, hu.1⟩
  have hloop : u.deInit.inWaitLoop = false := by
    rw [Bool.eq_false_iff]
    intro hwait
    rw [DeInitPc.beforeExit_of_inWaitLoop hwait] at hu
    cases hu.2
  exact ⟨.deInit, t, ht, hu.1.step hu.2 ht, (step_deInit ht).rank_lt hloop⟩

end Outside

section Loop
variable {n : Nat} {s : State}

/-- The handlers can run until none is left: every step costs. -/
theorem Draining.exists_quiescent (h : Draining n s) :
    ∃ as t, run (MultiTimer.step n) s as = some t ∧ Draining n t ∧ Quiescent n t := by
  refine exists_run_of_progress (P := Draining n) (μ := stepsLeft n) ?_ h
  intro u hu hnot
  have hbusy : ∃ a : Action, a.isKernel = true ∧ MultiTimer.step n u a ≠ none := by
    by_contra hnone
    apply hnot
    refine ⟨hu, fun a ha => ?_⟩
    by_contra hsome
    exact hnone ⟨a, ha, hsome⟩
  obtain ⟨a, ha, hsome⟩ := hbusy
  obtain ⟨t, ht⟩ := Option.ne_none_iff_exists'.mp hsome
  obtain ⟨hd, heffect⟩ := hu.step ha ht
  exact ⟨a, t, ht, hd, hu.stepsLeft_lt ha heffect⟩

theorem Bookkept.nothingPending (h : Bookkept n s) (hquiet : Quiescent n s) :
    NothingPending n s := by
  refine ⟨fun i hi => ⟨?_, ?_⟩, ?_⟩
  · rw [Bool.eq_false_iff]
    intro harmed
    have hnone := hquiet (.expire i) rfl
    simp [MultiTimer.step, hi, harmed] at hnone
  · rw [Bool.eq_false_iff]
    intro hqueued
    have hnone := hquiet (.runTimer i ⟨0, 0⟩) rfl
    simp [MultiTimer.step, hi, hqueued] at hnone
  · rw [Bool.eq_false_iff]
    intro hqueued
    obtain ⟨readings, hsome⟩ := h.runReg_enabled hqueued
    rw [hquiet (.runReg readings) rfl] at hsome
    cases hsome

/-- A scan that was under way may have counted what ran then; the next one cannot. -/
theorem loopCond_exits {running : Int} (hzero : ∀ i, i < n → (s.timerCtx i).isRunning = 0)
    (hreg : s.regCtx.isRunning = 0) (hpc : s.deInit = .loopCond running) :
    ∃ as, run (step n) s as = some { s with deInit := .dumping } := by
  by_cases hcond : s.waitLoopCond running = true
  · refine ⟨.deInit :: fullScan n, run_cons.mpr ⟨{ s with deInit := .scanning 0 n }, ?_, ?_⟩⟩
    · simp [step, deInitDpc, hpc, hcond]
    · exact fullScan_exits hzero hreg
  · refine ⟨[.deInit], run_cons.mpr ⟨{ s with deInit := .dumping }, ?_, rfl⟩⟩
    simp [step, deInitDpc, hpc, hcond]

theorem Draining.exists_exit (h : Draining n s) (hquiet : Quiescent n s)
    (hscan : ScanBounded n s) :
    ∃ as, run (MultiTimer.step n) s as = some { s with deInit := .dumping } := by
  obtain ⟨hzero, hreg⟩ := h.bookkept.quiescent hquiet
  cases hpc : s.deInit with
  | loopCond running => exact loopCond_exits hzero hreg hpc
  | scanning i running =>
      have hi := hscan i running hpc
      have hread := scan_stopped hzero (n - i) i running hpc (by omega)
      obtain ⟨as, has⟩ := loopCond_exits (n := n)
        (s := { s with deInit := .loopCond (running - (n - i : Nat)) }) hzero hreg rfl
      refine ⟨List.replicate (n - i) .deInit ++ .deInit :: as, run_append.mpr ⟨_, hread, ?_⟩⟩
      refine run_cons.mpr ⟨{ s with deInit := .loopCond (running - (n - i : Nat)) }, ?_, has⟩
      simp [MultiTimer.step, deInitDpc]
  | delaying | stopping _ | dumping | cancelling _ | returned =>
      have hwait := h.waiting
      simp [hpc, DeInitPc.inWaitLoop] at hwait

/-- However far a run has come, as long as the wait loop has not exited `DeInitDPC` can
still return with no timer armed and no DPC queued. -/
theorem exists_safe_return (h : Reachable n s) (hbefore : s.deInit.beforeExit = true) :
    ∃ as t, run (step n) s as = some t ∧ t.deInit = .returned ∧ NothingPending n t := by
  obtain ⟨as, u, hu, hloop⟩ := exists_inWaitLoop (n := n) hbefore
  have hureach : Reachable n u := Transition.Reachable.extend h hu
  have hd : Draining n u :=
    ⟨reachable_bookkept hureach (DeInitPc.beforeExit_of_inWaitLoop hloop), hloop,
      reachable_stopRequested hureach hloop⟩
  obtain ⟨bs, v, hv, hvd, hquiet⟩ := hd.exists_quiescent
  have hvreach : Reachable n v := Transition.Reachable.extend hureach hv
  obtain ⟨cs, hcs⟩ := hvd.exists_exit hquiet (reachable_scanBounded hvreach)
  have hsafe : NothingPending n { v with deInit := .dumping } :=
    hvd.bookkept.nothingPending hquiet
  obtain ⟨ds, t, ht, hreturned, hdone⟩ := hsafe.exists_returned rfl
  refine ⟨as ++ (bs ++ (cs ++ ds)), t, ?_, hreturned, hdone⟩
  exact run_append.mpr ⟨u, hu, run_append.mpr ⟨v, hv, run_append.mpr ⟨_, hcs, ht⟩⟩⟩

/-- The scan has read the counter of a timer that is not registered yet. -/
theorem exists_safe_return_behindScan :
    ∃ s, run (step 1) (initDpc 1 halfMillisecond) (List.replicate 5 .deInit) = some s ∧
      ∃ as t, run (step 1) s as = some t ∧ t.deInit = .returned ∧ NothingPending 1 t :=
  ⟨_, rfl, exists_safe_return ⟨_, List.replicate 5 .deInit, ⟨halfMillisecond, rfl⟩, rfl⟩ rfl⟩

end Loop

end WdmTest.MultiTimer
