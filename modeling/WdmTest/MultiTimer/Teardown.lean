import WdmTest.MultiTimer.Drain

/-!
The exit of the wait loop of MultiTimerTest. The loop condition combines a count
taken by the previous scan with a later read of `RegCtx.IsRunning`. A timer that
is registered after the scan has read its counter is missed by the count, and
once the registration is complete nothing else holds the loop back.

Runs without such a late registration exit with nothing pending; each late
registration can be continued to an exit with a timer armed.
-/
namespace WdmTest.MultiTimer
open Function Transition

def NothingPending (n : Nat) (s : State) : Prop :=
  (∀ i, i < n → (s.timer i).armed = false ∧ (s.dpcTimer i).queued = false) ∧
    s.dpcReg.queued = false

instance (n : Nat) (s : State) : Decidable (NothingPending n s) :=
  inferInstanceAs (Decidable (_ ∧ _))

/-- The counters the current pass has read and its count of running timers. -/
def DeInitPc.pass (n : Nat) : DeInitPc → Option (Nat × Int)
  | .scanning i running => some (i, running)
  | .loopCond running => some (n, running)
  | _ => none

/-- The registering DPC runs when the current pass has already read the counter
of the timer it is about to register, and has found no running timer so far. -/
def LateRegistration (n : Nat) (s : State) : Action → Prop
  | .runReg _ => ∃ p ∈ s.deInit.pass n, s.regCtx.regedDpc < p.1 ∧ p.2 = n - p.1
  | _ => False

instance (n : Nat) (s : State) (a : Action) : Decidable (LateRegistration n s a) :=
  match a with
  | .runReg _ =>
      inferInstanceAs (Decidable (∃ p ∈ s.deInit.pass n, s.regCtx.regedDpc < p.1 ∧ p.2 = n - p.1))
  | .expire _ | .runTimer _ _ | .deInit => isFalse id

/-- While a pass has counted out every timer it read, those it read and that are
registered have stopped. -/
structure PassSound (n : Nat) (s : State) : Prop where
  read_le : ∀ i running, s.deInit.pass n = some (i, running) → i ≤ n ∧ (n - i : Int) ≤ running
  counted_out : ∀ i running, s.deInit.pass n = some (i, running) → running = n - i →
    ∀ k, k < i → k < s.regCtx.regedDpc → (s.timerCtx k).isRunning = 0

structure TeardownInv (n : Nat) (s : State) : Prop where
  before : s.deInit.beforeExit = true → Bookkept n s ∧ PassSound n s
  after : s.deInit.beforeExit = false → NothingPending n s

section Teardown
variable {n : Nat} {s t : State}

theorem PassSound.of_no_pass (h : s.deInit.pass n = none) : PassSound n s :=
  ⟨by simp [h], by simp [h]⟩

theorem PassSound.of_pass {i : Nat} {running : Int} (hpass : s.deInit.pass n = some (i, running))
    (hle : i ≤ n) (hlow : (n - i : Int) ≤ running)
    (hout : running = n - i → ∀ k, k < i → k < s.regCtx.regedDpc → (s.timerCtx k).isRunning = 0) :
    PassSound n s := by
  refine ⟨?_, ?_⟩
  · intro j count hj
    cases hpass.symm.trans hj
    exact ⟨hle, hlow⟩
  · intro j count hj
    cases hpass.symm.trans hj
    exact hout

theorem TeardownInv.of_before (hb : Bookkept n s) (hp : PassSound n s)
    (hbefore : s.deInit.beforeExit = true) : TeardownInv n s :=
  ⟨fun _ => ⟨hb, hp⟩, by simp [hbefore]⟩

theorem Bookkept.stopped_stays (hs : Bookkept n s) (ht : Bookkept n t) {a : Action}
    (heffect : PhaseEffect n s t a) {k : Nat} (hk : k < s.regCtx.regedDpc)
    (hzero : (s.timerCtx k).isRunning = 0) : (t.timerCtx k).isRunning = 0 := by
  have hstopped : t.phase k = .stopped :=
    Phase.eq_stopped_of_stage_le (heffect.stage_le k) ((hs.phase_eq_stopped_iff hk).mpr hzero)
  exact congrArg View.isRunning (ht.view_eq hstopped)

theorem PassSound.kernel (hp : PassSound n s) (hs : Bookkept n s) (ht : Bookkept n t)
    {a : Action} (heffect : PhaseEffect n s t a) (hpc : t.deInit = s.deInit)
    (hlate : ¬ LateRegistration n s a) : PassSound n t := by
  refine ⟨by rw [hpc]; exact hp.read_le, ?_⟩
  intro i running hpass hall k hk hreg
  rw [hpc] at hpass
  have hold (hk' : k < s.regCtx.regedDpc) : (t.timerCtx k).isRunning = 0 :=
    hs.stopped_stays ht heffect hk' (hp.counted_out i running hpass hall k hk hk')
  cases a with
  | expire j => exact hold ((registration_eq_iff.mp heffect.2.2.2).2.1 ▸ hreg)
  | runTimer j c => exact hold ((registration_eq_iff.mp heffect.2.2.2).2.1 ▸ hreg)
  | deInit => exact hold ((registration_eq_iff.mp heffect.2).2.1 ▸ hreg)
  | runReg readings =>
      cases heffect.2 with
      | inl hdone => exact hold (hdone.2.1 ▸ hreg)
      | inr hnext =>
          have hreged := hnext.2.2.2
          apply hold
          by_contra hge
          exact hlate ⟨(i, running), hpass, by simp only; omega, hall⟩

theorem PassSound.exit_safe (hp : PassSound n s) (hb : Bookkept n s) {running : Int}
    (hpc : s.deInit = .loopCond running) (hcond : s.waitLoopCond running = false) :
    NothingPending n s := by
  simp only [State.waitLoopCond, Bool.or_eq_false_iff, decide_eq_false_iff_not] at hcond
  obtain ⟨hcount, hrunning⟩ := hcond
  have hpass : s.deInit.pass n = some (n, running) := by rw [hpc]; rfl
  have hlow := (hp.read_le n running hpass).2
  have hreg : s.dpcReg.queued = false ∧ s.regCtx.regedDpc = n := by
    cases hb.running with
    | inl hrun => simp [hrun.1] at hrunning
    | inr hdone => exact hdone.2
  refine ⟨?_, hreg.1⟩
  intro i hi
  have hzero := hp.counted_out n running hpass (by omega) i hi (by omega)
  exact (hb.counted (by omega)).2.2.mp hzero

theorem PassSound.deInit (hp : PassSound n s) (hb : Bookkept n s) (ht : Bookkept n t)
    (hbefore : s.deInit.beforeExit = true) (hstep : step n s .deInit = some t) :
    TeardownInv n t := by
  cases step_deInit hstep with
  | stopReg | stopTimer => exact .of_before ht (.of_no_pass rfl) rfl
  | enterLoop i hpc hi =>
      refine .of_before ht (.of_pass rfl (Nat.le_refl n) (by omega) ?_) rfl
      intro hall k hk
      omega
  | stay running hpc hcond =>
      refine .of_before ht (.of_pass rfl (Nat.zero_le n) (by omega) ?_) rfl
      intro hall k hk
      exact absurd hk (Nat.not_lt_zero k)
  | exit running hpc hcond =>
      exact ⟨by simp [DeInitPc.beforeExit], fun _ => hp.exit_safe hb hpc hcond⟩
  | read i running hpc hi =>
      have hpass : s.deInit.pass n = some (i, running) := by rw [hpc]; rfl
      have hlow := (hp.read_le i running hpass).2
      refine .of_before ht (.of_pass rfl hi ?_ ?_) rfl
      · split <;> omega
      · intro hall k hk hreg
        split at hall
        · rename_i hzero
          by_cases hki : k = i
          · rw [hki]
            exact hzero.symm
          · exact hp.counted_out i running hpass (by omega) k (by omega) hreg
        · omega
  | delay i running hpc hi =>
      have hpass : s.deInit.pass n = some (i, running) := by rw [hpc]; rfl
      have hread := hp.read_le i running hpass
      have hni : i = n := by omega
      subst hni
      exact .of_before ht
        (.of_pass rfl (Nat.le_refl i) hread.2 (hp.counted_out i running hpass)) rfl
  | dump hpc | cancel _ hpc | finish _ hpc => simp [hpc, DeInitPc.beforeExit] at hbefore

theorem NothingPending.step (h : NothingPending n s) (hafter : s.deInit.beforeExit = false)
    {a : Action} (hstep : step n s a = some t) :
    NothingPending n t ∧ t.deInit.beforeExit = false := by
  cases a with
  | expire i =>
      obtain ⟨hi, harmed, -⟩ := expire_effect hstep
      simp [(h.1 i hi).1] at harmed
  | runTimer i c =>
      obtain ⟨hi, hqueued, -⟩ := runTimer_effect hstep
      simp [(h.1 i hi).2] at hqueued
  | runReg readings =>
      have hqueued := (runReg_effect hstep).1
      simp [h.2] at hqueued
  | deInit =>
      cases step_deInit hstep with
      | dump | finish => exact ⟨h, rfl⟩
      | cancel i _ _ =>
          refine ⟨⟨?_, h.2⟩, rfl⟩
          intro j hj
          by_cases hji : j = i
          · subst hji
            simpa using (h.1 j hj).2
          · simpa [hji] using h.1 j hj
      | stopReg hpc | stopTimer _ hpc | enterLoop _ hpc | stay _ hpc | exit _ hpc
      | read _ _ hpc | delay _ _ hpc => simp [hpc, DeInitPc.beforeExit] at hafter

theorem TeardownInv.step (h : TeardownInv n s) {a : Action} (hlate : ¬ LateRegistration n s a)
    (hstep : step n s a = some t) : TeardownInv n t := by
  cases hexit : s.deInit.beforeExit with
  | false =>
      obtain ⟨hsafe, hafter⟩ := (h.after hexit).step hexit hstep
      exact ⟨by simp [hafter], fun _ => hsafe⟩
  | true =>
      obtain ⟨hb, hp⟩ := h.before hexit
      obtain ⟨ht, heffect⟩ := hb.step hexit hstep
      by_cases ha : a = .deInit
      · subst ha
        exact hp.deInit hb ht hexit hstep
      · have hpc := (step_frame ha hstep).1
        exact .of_before ht (hp.kernel hb ht heffect hpc hlate) (by rw [hpc, hexit])

theorem initDpc_teardownInv (n : Nat) (res : TimerResolution) : TeardownInv n (initDpc n res) :=
  .of_before (initDpc_bookkept n res) (.of_no_pass (by rw [initDpc_deInit]; rfl))
    (by rw [initDpc_deInit]; rfl)

/-- A run in which no timer is registered behind the scan exits with nothing
pending, and nothing becomes pending afterwards. -/
theorem teardown_safe (res : TimerResolution) (as : List Action)
    (hrun : Transition.run (step n) (initDpc n res) as = some s)
    (hlate : Along (step n) (fun u a => ¬ LateRegistration n u a) (initDpc n res) as)
    (hexit : s.deInit.beforeExit = false) : NothingPending n s := by
  have hinv : TeardownInv n s :=
    run_invariant_along (fun _ _ _ hP hC hstep => TeardownInv.step hP hC hstep) hrun hlate
      (initDpc_teardownInv n res)
  exact hinv.after hexit

/-! ## Every late registration can break the teardown -/

def DeInitPc.stopsDone (n : Nat) : DeInitPc → Nat
  | .delaying => 0
  | .stopping i => i
  | _ => n

def StopFlagsRaised (n : Nat) (s : State) : Prop :=
  ∀ j, j < n → (j < s.deInit.stopsDone n → (s.timerCtx j).stopFlag = 1) ∧
    (s.deInit.stopsDone n ≤ j → (s.timerCtx j).stopFlag = 0)

theorem StopFlagsRaised.step (h : StopFlagsRaised n s) {a : Action}
    (hstep : step n s a = some t) : StopFlagsRaised n t := by
  by_cases ha : a = .deInit
  · subst ha
    cases step_deInit hstep with
    | stopTimer i hpc hi =>
        simp only [StopFlagsRaised, hpc, DeInitPc.stopsDone] at h
        intro j hj
        by_cases hji : j = i
        · subst hji
          simp [DeInitPc.stopsDone, (h j hj).2 (Nat.le_refl j)]
        · simp only [DeInitPc.stopsDone, update_of_ne hji]
          exact ⟨fun hlt => (h j hj).1 (by omega), fun hge => (h j hj).2 (by omega)⟩
    | enterLoop i hpc hi =>
        simp only [StopFlagsRaised, hpc, DeInitPc.stopsDone] at h
        intro j hj
        exact ⟨fun _ => (h j hj).1 (by omega), fun hge => absurd hj (Nat.not_lt.mpr hge)⟩
    | stopReg hpc | stay _ hpc | exit _ hpc | read _ _ hpc | delay _ _ hpc | dump hpc
    | cancel _ hpc | finish _ hpc =>
        simp only [StopFlagsRaised, hpc] at h
        exact h
  · obtain ⟨hpc, hflag⟩ := step_frame ha hstep
    intro j hj
    rw [hflag, hpc]
    exact h j hj

theorem reachable_stopRequested (h : Reachable n s) (hwait : s.deInit.inWaitLoop = true) :
    StopRequested n s := by
  have hraised : StopFlagsRaised n s := by
    refine h.invariant ?_ (fun _ _ _ hP hstep => StopFlagsRaised.step hP hstep)
    rintro u ⟨res, rfl⟩ j hj
    rw [initDpc_timerCtx, initDpc_deInit, if_pos hj]
    exact ⟨fun hlt => absurd hlt (Nat.not_lt_zero j), fun _ => rfl⟩
  have hdone : s.deInit.stopsDone n = n := by
    cases hpc : s.deInit with
    | loopCond _ | scanning _ _ => rfl
    | delaying | stopping _ | dumping | cancelling _ | returned =>
        simp [hpc, DeInitPc.inWaitLoop] at hwait
  intro i hi
  rw [(hraised i hi).1 (by rw [hdone]; exact hi)]
  decide

def ScanBounded (n : Nat) (s : State) : Prop :=
  ∀ i running, s.deInit = .scanning i running → i ≤ n

theorem ScanBounded.step (h : ScanBounded n s) {a : Action} (hstep : step n s a = some t) :
    ScanBounded n t := by
  by_cases ha : a = .deInit
  · subst ha
    intro j count hj
    cases step_deInit hstep with
    | stay =>
        cases hj
        exact Nat.zero_le n
    | read i running hpc hi =>
        cases hj
        exact hi
    | stopReg | stopTimer | enterLoop | exit | delay | dump | cancel | finish => cases hj
  · obtain ⟨hpc, -⟩ := step_frame ha hstep
    rw [ScanBounded, hpc]
    exact h

theorem reachable_scanBounded (h : Reachable n s) : ScanBounded n s := by
  refine h.invariant ?_ (fun _ _ _ hP hstep => ScanBounded.step hP hstep)
  rintro u ⟨res, rfl⟩ i running hpc
  simp [initDpc_deInit] at hpc

/-- A draining state with a timer armed that nobody is going to wait for. -/
structure Doomed (n k : Nat) (s : State) : Prop where
  draining : Draining n s
  bound : k < n
  armed : s.phase k = .armed

theorem Doomed.step {k : Nat} (h : Doomed n k s) {a : Action} (ha : a.isKernel = true)
    (hstep : step n s a = some t) (hk : t.phase k = s.phase k) : Doomed n k t :=
  ⟨(h.draining.step ha hstep).1, h.bound, hk.trans h.armed⟩

theorem Doomed.register_all {k : Nat} (h : Doomed n k s) :
    ∃ as u, Transition.run (MultiTimer.step n) s as = some u ∧ Doomed n k u ∧
      u.deInit = s.deInit ∧ u.regCtx.regedDpc = n ∧ u.regCtx.isRunning = 0 := by
  induction hsteps : stepsLeft n s using Nat.strong_induction_on generalizing s with
  | _ steps ih =>
      have hb := h.draining.bookkept
      cases hb.running with
      | inr hdone => exact ⟨[], s, rfl, h, rfl, hdone.2.2, hdone.1⟩
      | inl hrunning =>
          obtain ⟨readings, hsome⟩ := hb.runReg_enabled hrunning.2
          obtain ⟨t, hstep⟩ := Option.isSome_iff_exists.mp hsome
          obtain ⟨-, heffect⟩ := h.draining.step rfl hstep
          have hk : t.phase k = s.phase k := by
            cases heffect.2 with
            | inl hdone => rw [hdone.1]
            | inr hnext =>
                have hne : k ≠ s.regCtx.regedDpc := by
                  intro hk
                  simp [← hk, h.armed] at hnext
                rw [hnext.2.2.1, update_of_ne hne]
          obtain ⟨as, u, hrun, hu, hpc, hreg⟩ :=
            ih _ (hsteps ▸ h.draining.stepsLeft_lt rfl heffect) (h.step rfl hstep hk) rfl
          exact ⟨.runReg readings :: as, u, run_cons.mpr ⟨t, hstep, hrun⟩, hu,
            hpc.trans (step_frame (by simp) hstep).1, hreg⟩

theorem Doomed.run_queued {k j : Nat} (h : Doomed n k s) (hjk : j ≠ k)
    (hj : j < n) (hp : s.phase j = .queued) :
    ∃ as u, Transition.run (MultiTimer.step n) s as = some u ∧ Doomed n k u ∧
      u.deInit = s.deInit ∧ u.registration = s.registration ∧ u.phase j = .stopped := by
  have hqueued := (h.draining.bookkept.phase_queued_iff j).mp hp
  have hstep : MultiTimer.step n s (.runTimer j ⟨0, 0⟩) =
      some (timerFunction j ⟨0, 0⟩ (s.dequeueTimer j)) := by
    simp [MultiTimer.step, hj, hqueued]
  obtain ⟨-, heffect⟩ := h.draining.step rfl hstep
  obtain ⟨-, -, hupd⟩ := h.draining.runTimer_effect heffect
  refine ⟨[.runTimer j ⟨0, 0⟩], _, run_cons.mpr ⟨_, hstep, rfl⟩, h.step rfl hstep ?_,
    (step_frame (by simp) hstep).1, heffect.2.2.2, ?_⟩
  · rw [hupd, update_of_ne (Ne.symm hjk)]
  · rw [hupd, update_self]

theorem Doomed.stop_other {k j : Nat} (h : Doomed n k s) (hjk : j ≠ k) (hj : j < n)
    (hreg : s.regCtx.regedDpc = n) :
    ∃ as u, Transition.run (MultiTimer.step n) s as = some u ∧ Doomed n k u ∧
      u.deInit = s.deInit ∧ u.registration = s.registration ∧ u.phase j = .stopped := by
  have hb := h.draining.bookkept
  cases hp : s.phase j with
  | unregistered => exact absurd ((hb.phase_unregistered_iff j).mp hp) (by omega)
  | stopped => exact ⟨[], s, rfl, h, rfl, rfl, hp⟩
  | queued => exact h.run_queued hjk hj hp
  | armed =>
      have harmed := (hb.phase_armed_iff j).mp hp
      have hstep : MultiTimer.step n s (.expire j) = some (s.expire j) := by
        simp [MultiTimer.step, hj, harmed]
      obtain ⟨-, -, -, hupd, hsame⟩ := h.draining.step rfl hstep
      have hk : (s.expire j).phase k = s.phase k := by rw [hupd, update_of_ne (Ne.symm hjk)]
      obtain ⟨as, u, hrun, hu, hpc, hureg, hstopped⟩ :=
        (h.step rfl hstep hk).run_queued hjk hj (by rw [hupd, update_self])
      exact ⟨.expire j :: as, u, run_cons.mpr ⟨_, hstep, hrun⟩, hu, hpc,
        hureg.trans hsame, hstopped⟩

theorem Doomed.deInit {k : Nat} (h : Doomed n k s)
    (hstep : MultiTimer.step n s .deInit = some t) (hwait : t.deInit.inWaitLoop = true)
    (hctx : t.timerCtx = s.timerCtx) : Doomed n k t ∧ t.registration = s.registration := by
  obtain ⟨hb, hphase, hreg⟩ := h.draining.bookkept.deInit
    (DeInitPc.beforeExit_of_inWaitLoop h.draining.waiting) hstep
  refine ⟨⟨⟨hb, hwait, ?_⟩, h.bound, by rw [hphase]; exact h.armed⟩, hreg⟩
  intro i hi
  rw [hctx]
  exact h.draining.stopped i hi

/-- At the loop condition, a complete registration and a count of zero end the
loop, whatever timer `k` is doing. -/
theorem Doomed.exit {k : Nat} (h : Doomed n k s) (hpc : s.deInit = .loopCond 0)
    (hidle : s.regCtx.isRunning = 0) :
    ∃ as u, Transition.run (MultiTimer.step n) s as = some u ∧ u.deInit = .dumping ∧
      ¬ NothingPending n u := by
  refine ⟨[.deInit], { s with deInit := .dumping }, ?_, rfl, ?_⟩
  · simp [run_cons, MultiTimer.step, deInitDpc, hpc, State.waitLoopCond, hidle]
  · intro hsafe
    have harmed := (h.draining.bookkept.phase_armed_iff k).mp h.armed
    have hnot := (hsafe.1 k h.bound).1
    simp [harmed] at hnot

theorem Doomed.scan {k : Nat} (h : Doomed n k s) (left i : Nat) (hleft : i + left = n)
    (hki : k < i) (hpc : s.deInit = .scanning i (n - i)) (hreg : s.regCtx.regedDpc = n)
    (hidle : s.regCtx.isRunning = 0) :
    ∃ as u, Transition.run (MultiTimer.step n) s as = some u ∧ u.deInit = .dumping ∧
      ¬ NothingPending n u := by
  induction left generalizing s i with
  | zero =>
      have hin : i = n := by omega
      subst hin
      have hstep : MultiTimer.step i s .deInit = some { s with deInit := .loopCond 0 } := by
        simp [MultiTimer.step, deInitDpc, hpc]
      obtain ⟨hd, -⟩ := h.deInit hstep rfl rfl
      obtain ⟨as, u, hrun, hu⟩ := hd.exit rfl hidle
      exact ⟨.deInit :: as, u, run_cons.mpr ⟨_, hstep, hrun⟩, hu⟩
  | succ left ih =>
      have hi : i < n := by omega
      obtain ⟨as, t, hrun, ht, htpc, htreg, hstopped⟩ := h.stop_other (by omega) hi hreg
      obtain ⟨-, htreged, htidle, -⟩ := registration_eq_iff.mp htreg
      have hzero : (t.timerCtx i).isRunning = 0 :=
        (ht.draining.bookkept.phase_eq_stopped_iff (by omega)).mp hstopped
      have hstep : MultiTimer.step n t .deInit =
          some { t with deInit := .scanning (i + 1) (n - (i + 1 : Nat)) } := by
        simp only [MultiTimer.step, deInitDpc, htpc, hpc, hi, if_true, hzero, Option.some.injEq,
          State.mk.injEq, true_and, and_true, DeInitPc.scanning.injEq]
        omega
      obtain ⟨hd, -⟩ := ht.deInit hstep rfl rfl
      obtain ⟨bs, u, hrun', hu⟩ :=
        ih hd (i + 1) (by omega) (by omega) rfl (htreged.trans hreg) (htidle.trans hidle)
      exact ⟨as ++ .deInit :: bs, u,
        run_append.mpr ⟨t, hrun, run_cons.mpr ⟨_, hstep, hrun'⟩⟩, hu⟩

/-- From a loop condition or a scan that has passed timer `k` without finding a
running timer, the wait loop can exit with the timer armed. -/
theorem Doomed.exits {k i : Nat} {running : Int} (h : Doomed n k s)
    (hpass : s.deInit.pass n = some (i, running)) (hki : k < i) (hin : i ≤ n)
    (hcount : running = n - i) :
    ∃ as u, Transition.run (MultiTimer.step n) s as = some u ∧ u.deInit = .dumping ∧
      ¬ NothingPending n u := by
  obtain ⟨as, u, hrun, hu, hupc, hreg, hidle⟩ := h.register_all
  have hrest : ∃ bs w, Transition.run (MultiTimer.step n) u bs = some w ∧
      w.deInit = .dumping ∧ ¬ NothingPending n w := by
    cases hpc : s.deInit with
    | loopCond count =>
        simp only [hpc, DeInitPc.pass, Option.some.injEq, Prod.mk.injEq] at hpass
        have hzero : count = 0 := by omega
        exact hu.exit (by rw [hupc, hpc, hzero]) hidle
    | scanning j count =>
        simp only [hpc, DeInitPc.pass, Option.some.injEq, Prod.mk.injEq] at hpass
        obtain ⟨rfl, rfl⟩ := hpass
        exact hu.scan (n - j) j (by omega) hki (by rw [hupc, hpc, hcount]) hreg hidle
    | delaying | stopping _ | dumping | cancelling _ | returned =>
        simp [hpc, DeInitPc.pass] at hpass
  obtain ⟨bs, w, hrun', hw⟩ := hrest
  exact ⟨as ++ bs, w, run_append.mpr ⟨u, hrun, hrun'⟩, hw⟩

theorem ScanBounded.of_pass (h : ScanBounded n s) {i : Nat} {running : Int}
    (hpass : s.deInit.pass n = some (i, running)) : s.deInit.inWaitLoop = true ∧ i ≤ n := by
  cases hpc : s.deInit with
  | loopCond count =>
      simp only [hpc, DeInitPc.pass, Option.some.injEq, Prod.mk.injEq] at hpass
      exact ⟨rfl, Nat.le_of_eq hpass.1.symm⟩
  | scanning j count =>
      simp only [hpc, DeInitPc.pass, Option.some.injEq, Prod.mk.injEq] at hpass
      exact ⟨rfl, hpass.1 ▸ h j count hpc⟩
  | delaying | stopping _ | dumping | cancelling _ | returned =>
      simp [hpc, DeInitPc.pass] at hpass

/-- After any late registration the wait loop can exit while a timer is armed. It need
not: what comes after the registration decides. -/
theorem lateRegistration_breaks (h : Reachable n s) {a : Action}
    (hlate : LateRegistration n s a) (hstep : MultiTimer.step n s a = some t) :
    ∃ as u, Transition.run (MultiTimer.step n) t as = some u ∧ u.deInit = .dumping ∧
      ¬ NothingPending n u := by
  cases a with
  | expire _ | runTimer _ _ | deInit => exact hlate.elim
  | runReg readings =>
      obtain ⟨⟨i, running⟩, hpass, hbehind, hcount⟩ := hlate
      simp only at hbehind hcount
      obtain ⟨hwait, hin⟩ := (reachable_scanBounded h).of_pass hpass
      have hd : Draining n s :=
        ⟨reachable_bookkept h (DeInitPc.beforeExit_of_inWaitLoop hwait), hwait,
          reachable_stopRequested h hwait⟩
      obtain ⟨hdt, heffect⟩ := hd.step rfl hstep
      have hpc := (step_frame (by simp) hstep).1
      have hdoomed : Doomed n s.regCtx.regedDpc t := by
        refine ⟨hdt, by omega, ?_⟩
        cases heffect.2 with
        | inl hsame =>
            have hdone := hdt.bookkept.running
            simp only [hsame.2.2, Bool.false_eq_true, and_false, false_or, true_and] at hdone
            omega
        | inr hnext => rw [hnext.2.2.1, update_self]
      exact hdoomed.exits (by rw [hpc]; exact hpass) hbehind hin hcount

end Teardown

def oneRegistration : Action := .runReg [⟨0, 1⟩, ⟨1000, 1⟩, ⟨1001, 1⟩]

/-- One timer, registered before the first scan and drained before its read. -/
def timelyRegistration : List Action :=
  List.replicate 3 .deInit ++ [oneRegistration, .expire 0, .runTimer 0 ⟨2000, 1⟩] ++
    List.replicate 4 .deInit

theorem teardown_safe_timelyRegistration :
    ∃ s, Transition.run (step 1) (initDpc 1 halfMillisecond) timelyRegistration = some s ∧
      s.deInit = .dumping ∧ NothingPending 1 s :=
  ⟨_, rfl, rfl, teardown_safe halfMillisecond timelyRegistration rfl (by decide) rfl⟩

/-- The only counter has been read when the timer is registered. -/
theorem lateRegistration_breaks_behindScan :
    ∃ s t, Transition.run (step 1) (initDpc 1 halfMillisecond) (List.replicate 5 .deInit) =
        some s ∧
      step 1 s oneRegistration = some t ∧
      ∃ as u, Transition.run (step 1) t as = some u ∧ u.deInit = .dumping ∧
        ¬ NothingPending 1 u :=
  ⟨_, _, rfl, rfl, lateRegistration_breaks (n := 1)
    ⟨_, List.replicate 5 .deInit, ⟨halfMillisecond, rfl⟩, rfl⟩ (a := oneRegistration)
    (by decide) rfl⟩

/-- The first scan runs before the registering DPC, which then registers all five
timers before the loop condition is evaluated. -/
def lateRegistrations : List Action :=
  List.replicate 13 .deInit ++ List.replicate 5 oneRegistration ++ List.replicate 2 .deInit

/-- The first timer expires before it is cancelled; its DPC outlives `DeInitDPC`. -/
def expiredBeforeCancel : List Action := .expire 0 :: List.replicate 7 .deInit

theorem lateRegistrations_unsafe :
    ∃ s t, Transition.run (step Const.timerCount) (initDpc Const.timerCount halfMillisecond)
        lateRegistrations = some s ∧
      s.deInit = .dumping ∧ ¬ NothingPending Const.timerCount s ∧
      Transition.run (step Const.timerCount) s expiredBeforeCancel = some t ∧
      t.deInit = .returned ∧ (t.dpcTimer 0).queued = true :=
  ⟨_, _, rfl, rfl, by decide, rfl, rfl, rfl⟩

end WdmTest.MultiTimer
