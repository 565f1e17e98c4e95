import WdmTest.MultiTimer.Bookkeeping
import Mathlib.Order.Interval.Finset.Nat

/-!
MultiTimerTest drains after a stop request. The registration goes on, but no
stopped timer rearms, so every step of the kernel and of the handlers costs a
unit of the weight of the timers, and a state without such a step has every
timer stopped. The bound counts these steps only; how long the teardown sleeps
between two scans does not matter.
-/
namespace WdmTest.MultiTimer
open Function Transition

def DeInitPc.inWaitLoop : DeInitPc → Bool
  | .loopCond _ | .scanning _ _ => true
  | _ => false

def Action.isKernel : Action → Bool
  | .deInit => false
  | _ => true

def Action.runsTimer (i : Nat) : Action → Bool
  | .runTimer j _ => j == i
  | _ => false

def armedTimers (n : Nat) (s : State) : Nat :=
  ((Finset.range n).filter fun i => (s.timer i).armed = true).card

def queuedTimerDpcs (n : Nat) (s : State) : Nat :=
  ((Finset.range n).filter fun i => (s.dpcTimer i).queued = true).card

def drainBound (n : Nat) (s : State) : Nat :=
  3 * (n - s.regCtx.regedDpc) + 2 * armedTimers n s + queuedTimerDpcs n s + 1

def StopRequested (n : Nat) (s : State) : Prop := ∀ i, i < n → (s.timerCtx i).stopFlag ≠ 0

instance (n : Nat) (s : State) : Decidable (StopRequested n s) :=
  inferInstanceAs (Decidable (∀ i, i < n → (s.timerCtx i).stopFlag ≠ 0))

def stepsLeft (n : Nat) (s : State) : Nat :=
  totalWeight (Finset.range n) s.phase + (if s.dpcReg.queued then 1 else 0)

/-- The executions left to a timer that no longer rearms. -/
def runsLeft (i : Nat) (s : State) : Nat := if s.phase i = .stopped then 0 else 1

/-- What the steps after a stop request rely on. -/
structure Draining (n : Nat) (s : State) : Prop where
  bookkept : Bookkept n s
  waiting : s.deInit.inWaitLoop = true
  stopped : StopRequested n s

theorem DeInitPc.beforeExit_of_inWaitLoop {pc : DeInitPc} (h : pc.inWaitLoop = true) :
    pc.beforeExit = true := by
  cases pc with
  | loopCond _ | scanning _ _ => rfl
  | delaying | stopping _ | dumping | cancelling _ | returned =>
      simp [DeInitPc.inWaitLoop] at h

section Drain
variable {n : Nat} {s t : State}

theorem Action.ne_deInit {a : Action} (h : a.isKernel = true) : a ≠ .deInit := by
  intro ha
  simp [ha, Action.isKernel] at h

theorem Draining.step (h : Draining n s) {a : Action} (ha : a.isKernel = true)
    (hstep : MultiTimer.step n s a = some t) : Draining n t ∧ PhaseEffect n s t a := by
  have hbefore := DeInitPc.beforeExit_of_inWaitLoop h.waiting
  obtain ⟨hpc, hflag⟩ := step_frame (Action.ne_deInit ha) hstep
  obtain ⟨hb, heffect⟩ := h.bookkept.step hbefore hstep
  refine ⟨⟨hb, hpc ▸ h.waiting, ?_⟩, heffect⟩
  intro i hi
  rw [hflag]
  exact h.stopped i hi

theorem Draining.runTimer_effect (h : Draining n s) {i : Nat} {c : CounterReading}
    (heffect : PhaseEffect n s t (.runTimer i c)) :
    i < n ∧ s.phase i = .queued ∧ t.phase = update s.phase i .stopped := by
  refine ⟨heffect.1, heffect.2.1, ?_⟩
  cases heffect.2.2.1 with
  | inl hrearm => exact absurd hrearm.1 (h.stopped i heffect.1)
  | inr hstop => exact hstop

/-! ## Every step costs -/

theorem Draining.stepsLeft_lt (h : Draining n s) {a : Action} (ha : a.isKernel = true)
    (heffect : PhaseEffect n s t a) : stepsLeft n t + 1 ≤ stepsLeft n s := by
  have hmove {i : Nat} {q : Phase} (hi : i < n) (hq : (s.phase i).Move q)
      (stays : q = .armed → s.phase i = .unregistered) (hupd : t.phase = update s.phase i q) :
      totalWeight (Finset.range n) t.phase + 1 = totalWeight (Finset.range n) s.phase := by
    rw [hupd]
    exact totalWeight_move s.phase (Finset.mem_range.mpr hi) hq stays
  have hqueued (hreg : t.registration = s.registration) : t.dpcReg.queued = s.dpcReg.queued :=
    (registration_eq_iff.mp hreg).2.2.2
  cases a with
  | expire i =>
      obtain ⟨hi, hp, hupd, hreg⟩ := heffect
      have hcost := hmove hi (hp ▸ .expire) (by simp) hupd
      simp only [stepsLeft, hqueued hreg]
      omega
  | runTimer i c =>
      have hreg := heffect.2.2.2
      obtain ⟨hi, hp, hupd⟩ := h.runTimer_effect heffect
      have hcost := hmove hi (hp ▸ .stop) (by simp) hupd
      simp only [stepsLeft, hqueued hreg]
      omega
  | runReg readings =>
      cases heffect.2 with
      | inl hdone => simp [stepsLeft, heffect.1, hdone]
      | inr hnext =>
          have hcost := hmove hnext.1 (hnext.2.1 ▸ .register) (fun _ => hnext.2.1) hnext.2.2.1
          simp only [stepsLeft, heffect.1, if_true]
          split <;> omega
  | deInit => simp [Action.isKernel] at ha

theorem Draining.runsLeft_le (h : Draining n s) (i : Nat) {a : Action}
    (heffect : PhaseEffect n s t a) :
    runsLeft i t + (if a.runsTimer i then 1 else 0) ≤ runsLeft i s := by
  have hkeep : runsLeft i t ≤ runsLeft i s := by
    have hstage := heffect.stage_le i
    simp only [runsLeft]
    split
    · exact Nat.zero_le _
    · rename_i ht
      rw [if_neg]
      exact fun hs => ht (Phase.eq_stopped_of_stage_le hstage hs)
  cases a with
  | runTimer j c =>
      by_cases hj : j = i
      · subst hj
        obtain ⟨-, hp, hupd⟩ := h.runTimer_effect heffect
        simp [runsLeft, hupd, hp, Action.runsTimer]
      · simpa [Action.runsTimer, hj] using hkeep
  | expire _ | runReg _ | deInit => simpa [Action.runsTimer] using hkeep

theorem Bookkept.stepsLeft_le (h : Bookkept n s) : stepsLeft n s ≤ drainBound n s := by
  have harmed : ((Finset.range n).filter fun i => s.phase i = .armed).card = armedTimers n s :=
    congrArg Finset.card (Finset.filter_congr fun i _ => h.phase_armed_iff i)
  have hqueued : ((Finset.range n).filter fun i => s.phase i = .queued).card =
      queuedTimerDpcs n s :=
    congrArg Finset.card (Finset.filter_congr fun i _ => h.phase_queued_iff i)
  have hunreg : ((Finset.range n).filter fun i => s.phase i = .unregistered).card =
      n - s.regCtx.regedDpc := by
    simp only [h.phase_unregistered_iff]
    have hset : ((Finset.range n).filter fun i => s.regCtx.regedDpc ≤ i) =
        Finset.Ico s.regCtx.regedDpc n := by
      ext i
      simp only [Finset.mem_filter, Finset.mem_range, Finset.mem_Ico]
      omega
    rw [hset, Nat.card_Ico]
  have hflag : (if s.dpcReg.queued = true then 1 else 0) ≤ 1 := by
    split <;> omega
  simp only [stepsLeft, drainBound, totalWeight_eq_card, harmed, hqueued, hunreg]
  omega

theorem Draining.run_le (h : Draining n s) {as : List Action}
    (has : ∀ a ∈ as, a.isKernel = true)
    (hrun : Transition.run (MultiTimer.step n) s as = some t) :
    Draining n t ∧ as.length ≤ stepsLeft n s ∧
      ∀ i, as.countP (Action.runsTimer i) ≤ 1 := by
  have hC : Along (MultiTimer.step n) (fun _ a => a.isKernel = true) s as :=
    along_of_forall s has
  refine ⟨?_, ?_, ?_⟩
  · exact run_invariant_along (fun s a t hP ha hstep => (hP.step ha hstep).1) hrun hC h
  · have hcount := run_count_le (K := fun _ => true) (μ := stepsLeft n)
      (fun s a t hP ha hstep =>
        ⟨(hP.step ha hstep).1, hP.stepsLeft_lt ha (hP.step ha hstep).2⟩) hrun hC h
    simp only [List.countP_true] at hcount
    omega
  · intro i
    have hcount := run_count_le (K := Action.runsTimer i) (μ := runsLeft i)
      (fun s a t hP ha hstep =>
        ⟨(hP.step ha hstep).1, hP.runsLeft_le i (hP.step ha hstep).2⟩) hrun hC h
    have hone : runsLeft i s ≤ 1 := by
      simp only [runsLeft]
      split <;> omega
    omega

/-! ## Where it ends -/

theorem stall_ends (ticks : Int64) (counter : CounterReading) :
    stallDpcExecution ticks [⟨0, 0⟩, ⟨ticks, 0⟩, counter] = some [counter] := by
  simp [stallDpcExecution, stallLoop]

/-- A queued registration DPC can run: some counter readings end its stall. -/
theorem Bookkept.runReg_enabled (h : Bookkept n s) (hq : s.dpcReg.queued = true) :
    ∃ readings, (MultiTimer.step n s (.runReg readings)).isSome = true := by
  refine ⟨[⟨0, 0⟩, ⟨s.regCtx.interval, 0⟩, ⟨0, 0⟩], ?_⟩
  have htotal := h.total
  simp only [MultiTimer.step, hq, if_true, regFunction, State.dequeueReg_regCtx, stall_ends]
  by_cases hdone : s.regCtx.totalDpc ≤ s.regCtx.regedDpc
  · simp [hdone]
  · have hi : s.regCtx.regedDpc < n := by omega
    simp [hdone, DpcRegCtx.logReading, hi]

/-- Without a step of the kernel or a handler every timer has stopped. -/
theorem Bookkept.quiescent (h : Bookkept n s)
    (hstuck : ∀ a : Action, a.isKernel = true → MultiTimer.step n s a = none) :
    (∀ i, i < n → (s.timerCtx i).isRunning = 0) ∧ s.regCtx.isRunning = 0 := by
  have hreg : s.regCtx.isRunning = 0 ∧ s.regCtx.regedDpc = n := by
    cases h.running with
    | inl hrunning =>
        obtain ⟨readings, hsome⟩ := h.runReg_enabled hrunning.2
        simp [hstuck (.runReg readings) rfl] at hsome
    | inr hdone => exact ⟨hdone.1, hdone.2.2⟩
  refine ⟨?_, hreg.1⟩
  intro i hi
  rw [← h.phase_eq_stopped_iff (by omega)]
  cases hp : s.phase i with
  | stopped => rfl
  | unregistered => exact absurd ((h.phase_unregistered_iff i).mp hp) (by omega)
  | armed =>
      have harmed := (h.phase_armed_iff i).mp hp
      have hnone := hstuck (.expire i) rfl
      simp [MultiTimer.step, hi, harmed] at hnone
  | queued =>
      have hqueued := (h.phase_queued_iff i).mp hp
      have hnone := hstuck (.runTimer i ⟨0, 0⟩) rfl
      simp [MultiTimer.step, hi, hqueued] at hnone

theorem scan_stopped (hzero : ∀ i, i < n → (s.timerCtx i).isRunning = 0) (k i : Nat)
    (running : Int) (hpc : s.deInit = .scanning i running) (hk : i + k = n) :
    Transition.run (step n) s (List.replicate k .deInit) =
      some { s with deInit := .scanning n (running - k) } := by
  induction k generalizing s i running with
  | zero =>
      have hi : i = n := by omega
      subst hi
      simp [← hpc]
  | succ k ih =>
      have hi : i < n := by omega
      have hread := hzero i hi
      rw [List.replicate_succ, run_cons]
      refine ⟨{ s with deInit := .scanning (i + 1) (running - 1) }, ?_, ?_⟩
      · simp [step, deInitDpc, hpc, hi, hread]
      · rw [ih (s := { s with deInit := .scanning (i + 1) (running - 1) }) hzero (i + 1)
          (running - 1) rfl (by omega)]
        simp only [Option.some.injEq, State.mk.injEq, true_and, and_true, DeInitPc.scanning.injEq]
        omega

end Drain

/-- `n` reads, the delay and the loop condition: one whole pass of the wait loop. -/
def fullScan (n : Nat) : List Action := List.replicate n .deInit ++ [.deInit, .deInit]

theorem fullScan_exits {n : Nat} {s : State}
    (hzero : ∀ i, i < n → (s.timerCtx i).isRunning = 0) (hreg : s.regCtx.isRunning = 0) :
    Transition.run (step n) { s with deInit := .scanning 0 n } (fullScan n) =
      some { s with deInit := .dumping } := by
  rw [fullScan, run_append]
  refine ⟨_, scan_stopped (s := { s with deInit := .scanning 0 n }) hzero n 0 n rfl (by omega), ?_⟩
  rw [run_cons]
  refine ⟨{ s with deInit := .loopCond 0 }, by simp [step, deInitDpc], ?_⟩
  simp [run_cons, step, deInitDpc, State.waitLoopCond, hreg]

/-- Draining after a stop request: the steps of the kernel and of the handlers
run out within the bound, each timer's handler runs at most once more, and then
the next full scan leaves the wait loop. -/
structure Drains (n : Nat) (s : State) : Prop where
  bounded : ∀ as t, (∀ a ∈ as, a.isKernel = true) → Transition.run (step n) s as = some t →
    as.length ≤ drainBound n s ∧ ∀ i, as.countP (Action.runsTimer i) ≤ 1
  finite : ∀ (states : Nat → State) (actions : Nat → Action), states 0 = s →
    ¬ ∀ k, (actions k).isKernel = true ∧ step n (states k) (actions k) = some (states (k + 1))
  exits : ∀ as t, (∀ a ∈ as, a.isKernel = true) → Transition.run (step n) s as = some t →
    (∀ a : Action, a.isKernel = true → step n t a = none) →
      (∀ i, i < n → (t.timerCtx i).isRunning = 0) ∧ t.regCtx.isRunning = 0 ∧
        Transition.run (step n) { t with deInit := .scanning 0 n } (fullScan n) =
          some { t with deInit := .dumping }

theorem drains {n : Nat} {s : State} (h : Reachable n s) (hwait : s.deInit.inWaitLoop = true)
    (hstop : StopRequested n s) : Drains n s := by
  have hb := reachable_bookkept h (DeInitPc.beforeExit_of_inWaitLoop hwait)
  have hd : Draining n s := ⟨hb, hwait, hstop⟩
  refine ⟨?_, ?_, ?_⟩
  · intro as t has hrun
    obtain ⟨-, hlen, hcount⟩ := hd.run_le has hrun
    exact ⟨hlen.trans hb.stepsLeft_le, hcount⟩
  · intro states actions hfirst hsteps
    exact no_infinite_run (P := Draining n) (C := fun _ a => a.isKernel = true)
      (μ := stepsLeft n)
      (fun s a t hP ha hstep =>
        ⟨(hP.step ha hstep).1, hP.stepsLeft_lt ha (hP.step ha hstep).2⟩)
      states actions (hfirst ▸ hd) hsteps
  · intro as t has hrun hstuck
    obtain ⟨hzero, hreg⟩ := (hd.run_le has hrun).1.bookkept.quiescent hstuck
    exact ⟨hzero, hreg, fullScan_exits hzero hreg⟩

/-- The teardown of two timers reaches its wait loop with one armed and one left. -/
def stopRequested : List Action :=
  .runReg [⟨0, 1⟩, ⟨1000, 1⟩, ⟨1001, 1⟩] :: List.replicate 4 .deInit

theorem drains_stopRequested :
    ∃ s, Transition.run (step 2) (initDpc 2 halfMillisecond) stopRequested = some s ∧ Drains 2 s :=
  ⟨_, rfl, drains (reachable_of_run halfMillisecond stopRequested rfl) rfl (by decide)⟩

end WdmTest.MultiTimer
