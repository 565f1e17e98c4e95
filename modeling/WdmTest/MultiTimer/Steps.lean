import WdmTest.MultiTimer.Model

/-!
What a step of the system can do. Each kind of step is inverted once, with its
guards, so that an invariant is proved without unfolding the handlers or the
teardown again. The counter readings of a handler survive only in what it logs.
-/
namespace WdmTest.MultiTimer
open Function

/-! ## The handlers -/

@[simp] theorem doLog_isRunning (ctx : TimerDpcCtx) (c : CounterReading) :
    (doLog ctx c).2.isRunning = ctx.isRunning := by
  simp only [doLog]
  split <;> rfl

@[simp] theorem doLog_stopFlag (ctx : TimerDpcCtx) (c : CounterReading) :
    (doLog ctx c).2.stopFlag = ctx.stopFlag := by
  simp only [doLog]
  split <;> rfl

/-- How a handler run leaves the state. It rearms the timer, which it never does
for a stopped one, or cancels it and counts it out. -/
inductive TimerReturn (i : Nat) (s : State) : State → Prop where
  | rearm (ctx : TimerDpcCtx) (hstop : (s.timerCtx i).stopFlag = 0)
      (hrun : ctx.isRunning = (s.timerCtx i).isRunning)
      (hflag : ctx.stopFlag = (s.timerCtx i).stopFlag) :
      TimerReturn i s
        (((s.setTimerCtx i ctx).request (.rearm i (s.timerPending i))).keSetTimer i ctx.interval)
  | stop (ctx : TimerDpcCtx) (hrun : ctx.isRunning = (s.timerCtx i).isRunning - 1)
      (hflag : ctx.stopFlag = (s.timerCtx i).stopFlag) :
      TimerReturn i s ((s.keCancelTimer i).setTimerCtx i ctx)

theorem timerFunction_returns {i : Nat} {c : CounterReading} {s t : State}
    (h : t = timerFunction i c s) : TimerReturn i s t := by
  rw [h]
  by_cases hstop : 0 = (s.timerCtx i).stopFlag
  · cases hlog : (doLog (s.timerCtx i) c).1 with
    | true =>
        simp only [timerFunction, if_pos hstop, hlog, if_true]
        exact .rearm _ hstop.symm (doLog_isRunning _ _) (doLog_stopFlag _ _)
    | false =>
        simp only [timerFunction, if_pos hstop, hlog, Bool.false_eq_true, if_false]
        refine .stop _ ?_ (doLog_stopFlag _ _)
        rw [doLog_isRunning]
  · simp only [timerFunction, if_neg hstop, Bool.false_eq_true, if_false]
    exact .stop _ rfl rfl

@[simp] theorem nextRegistration_timer (s : State) : s.nextRegistration.timer = s.timer := by
  simp only [State.nextRegistration]
  split <;> rfl

@[simp] theorem nextRegistration_dpcTimer (s : State) :
    s.nextRegistration.dpcTimer = s.dpcTimer := by
  simp only [State.nextRegistration]
  split <;> rfl

@[simp] theorem nextRegistration_timerCtx (s : State) :
    s.nextRegistration.timerCtx = s.timerCtx := by
  simp only [State.nextRegistration]
  split <;> rfl

@[simp] theorem nextRegistration_regedDpc (s : State) :
    s.nextRegistration.regCtx.regedDpc = s.regCtx.regedDpc + 1 := by
  simp only [State.nextRegistration]
  split <;> rfl

@[simp] theorem nextRegistration_log (s : State) :
    s.nextRegistration.regCtx.log = s.regCtx.log := by
  simp only [State.nextRegistration]
  split <;> rfl

@[simp] theorem nextRegistration_deInit (s : State) :
    s.nextRegistration.deInit = s.deInit := by
  simp only [State.nextRegistration]
  split <;> rfl

@[simp] theorem nextRegistration_output (s : State) :
    s.nextRegistration.output = s.output := by
  simp only [State.nextRegistration]
  split <;> rfl

section Inversion
variable {n : Nat} {s t : State}

/-- How a handler run of the registering DPC leaves the state. -/
inductive RegReturn (n : Nat) (s : State) : State → Prop where
  | done (hdone : s.regCtx.totalDpc ≤ s.regCtx.regedDpc) :
      RegReturn n s { s with regCtx := { s.regCtx with isRunning := 0 } }
  | registered (counter : CounterReading) (hleft : s.regCtx.regedDpc < s.regCtx.totalDpc)
      (hi : s.regCtx.regedDpc < n) :
      RegReturn n s (State.registerTimer { s with regCtx := s.regCtx.logReading counter }
        s.regCtx.regedDpc).nextRegistration

theorem regFunction_returns {readings : List CounterReading}
    (h : regFunction n readings s = .returned t) : RegReturn n s t := by
  simp only [regFunction] at h
  split at h
  · rename_i hdone
    cases h
    exact .done hdone
  · rename_i hleft
    split at h
    · cases h
    · cases h
    · rename_i counter rest _
      split at h
      · rename_i hi
        cases h
        exact .registered counter (Nat.lt_of_not_le hleft) hi
      · cases h

/-! ## Steps of the kernel and the handlers -/

theorem step_expire {i : Nat} (h : step n s (.expire i) = some t) :
    i < n ∧ (s.timer i).armed = true ∧ t = s.expire i := by
  simp only [step, Option.ite_none_right_eq_some, Option.some.injEq] at h
  exact ⟨h.1.1, h.1.2, h.2.symm⟩

theorem step_runTimer {i : Nat} {c : CounterReading} (h : step n s (.runTimer i c) = some t) :
    i < n ∧ (s.dpcTimer i).queued = true ∧ t = timerFunction i c (s.dequeueTimer i) := by
  simp only [step, Option.ite_none_right_eq_some, Option.some.injEq] at h
  exact ⟨h.1.1, h.1.2, h.2.symm⟩

theorem step_runReg {readings : List CounterReading} (h : step n s (.runReg readings) = some t) :
    s.dpcReg.queued = true ∧ regFunction n readings s.dequeueReg = .returned t := by
  simp only [step, Option.ite_none_right_eq_some] at h
  refine ⟨h.1, ?_⟩
  have hreg := h.2
  split at hreg
  · rename_i u hu
    cases hreg
    exact hu
  · cases hreg
  · cases hreg

theorem TimerReturn.frame {i : Nat} (h : TimerReturn i s t) :
    t.deInit = s.deInit ∧ ∀ j, (t.timerCtx j).stopFlag = (s.timerCtx j).stopFlag := by
  cases h with
  | rearm ctx _ _ hflag | stop ctx _ hflag =>
      refine ⟨rfl, ?_⟩
      intro j
      by_cases hj : j = i
      · subst hj
        simpa using hflag
      · simp [hj]

/-- The kernel and the handlers leave the teardown and its stop requests alone. -/
theorem step_frame {a : Action} (hkernel : a ≠ .deInit) (h : step n s a = some t) :
    t.deInit = s.deInit ∧ ∀ j, (t.timerCtx j).stopFlag = (s.timerCtx j).stopFlag := by
  cases a with
  | expire i =>
      obtain ⟨-, -, rfl⟩ := step_expire h
      exact ⟨rfl, fun _ => rfl⟩
  | runTimer i c => exact (timerFunction_returns (step_runTimer h).2.2).frame
  | runReg readings =>
      cases regFunction_returns (step_runReg h).2 with
      | done => exact ⟨rfl, fun _ => rfl⟩
      | registered counter =>
          refine ⟨by simp, ?_⟩
          intro j
          by_cases hj : j = s.regCtx.regedDpc
          · subst hj
            simp
          · simp [hj]
  | deInit => exact absurd rfl hkernel

/-! ## Steps of the teardown -/

/-- The steps of `DeInitDPC`, each with where it is taken from. -/
inductive DeInitStep (n : Nat) (s : State) : State → Prop where
  | stopReg (hpc : s.deInit = .delaying) :
      DeInitStep n s { s with
        regCtx := { s.regCtx with stopFlag := s.regCtx.stopFlag + 1 }, deInit := .stopping 0 }
  | stopTimer (i : Nat) (hpc : s.deInit = .stopping i) (hi : i < n) :
      DeInitStep n s { s with
        timerCtx := update s.timerCtx i
          { s.timerCtx i with stopFlag := (s.timerCtx i).stopFlag + 1 }
        deInit := .stopping (i + 1) }
  | enterLoop (i : Nat) (hpc : s.deInit = .stopping i) (hi : n ≤ i) :
      DeInitStep n s { s with deInit := .loopCond n }
  | stay (running : Int) (hpc : s.deInit = .loopCond running)
      (hcond : s.waitLoopCond running = true) : DeInitStep n s { s with deInit := .scanning 0 n }
  | exit (running : Int) (hpc : s.deInit = .loopCond running)
      (hcond : s.waitLoopCond running = false) : DeInitStep n s { s with deInit := .dumping }
  | read (i : Nat) (running : Int) (hpc : s.deInit = .scanning i running) (hi : i < n) :
      DeInitStep n s { s with
        deInit :=
          .scanning (i + 1) (if 0 = (s.timerCtx i).isRunning then running - 1 else running) }
  | delay (i : Nat) (running : Int) (hpc : s.deInit = .scanning i running) (hi : n ≤ i) :
      DeInitStep n s { s with deInit := .loopCond running }
  | dump (hpc : s.deInit = .dumping) :
      DeInitStep n s { s with output := s.output ++ dumpLines n s, deInit := .cancelling 0 }
  | cancel (i : Nat) (hpc : s.deInit = .cancelling i) (hi : i < n) :
      DeInitStep n s { s with
        timer := update s.timer i { due := none }, deInit := .cancelling (i + 1) }
  | finish (i : Nat) (hpc : s.deInit = .cancelling i) (hi : n ≤ i) :
      DeInitStep n s { s with deInit := .returned }

theorem step_deInit (h : step n s .deInit = some t) : DeInitStep n s t := by
  simp only [step, deInitDpc] at h
  cases hpc : s.deInit with
  | delaying =>
      simp only [hpc] at h
      cases h
      exact .stopReg hpc
  | stopping i =>
      simp only [hpc] at h
      split at h <;> cases h
      · exact .stopTimer i hpc ‹_›
      · exact .enterLoop i hpc (Nat.le_of_not_lt ‹_›)
  | loopCond running =>
      simp only [hpc] at h
      split at h <;> cases h
      · exact .stay running hpc ‹_›
      · exact .exit running hpc (Bool.eq_false_of_not_eq_true ‹_›)
  | scanning i running =>
      simp only [hpc] at h
      split at h <;> cases h
      · exact .read i running hpc ‹_›
      · exact .delay i running hpc (Nat.le_of_not_lt ‹_›)
  | dumping =>
      simp only [hpc] at h
      cases h
      exact .dump hpc
  | cancelling i =>
      simp only [hpc] at h
      split at h <;> cases h
      · exact .cancel i hpc ‹_›
      · exact .finish i hpc (Nat.le_of_not_lt ‹_›)
  | returned => simp [hpc] at h

end Inversion

/-! ## After `InitDPC` -/

section Init
variable (n : Nat) (res : TimerResolution)

/-- The loop of `InitDPC` touches the timers, their DPCs and contexts only. -/
theorem initTimers_frame (is : List Nat) (s : State) :
    is.foldl initTimer s =
      { s with
        timer := (is.foldl initTimer s).timer
        dpcTimer := (is.foldl initTimer s).dpcTimer
        timerCtx := (is.foldl initTimer s).timerCtx } := by
  induction is generalizing s with
  | nil => rfl
  | cons i is ih =>
      rw [List.foldl_cons, ih]
      rfl

theorem initTimers_idle (is : List Nat) (s : State)
    (ht : ∀ j, s.timer j = {}) (hd : ∀ j, s.dpcTimer j = {}) :
    (∀ j, (is.foldl initTimer s).timer j = {}) ∧
      ∀ j, (is.foldl initTimer s).dpcTimer j = {} := by
  induction is generalizing s with
  | nil => exact ⟨ht, hd⟩
  | cons i is ih =>
      apply ih
      · intro j
        by_cases hj : j = i
        · subst hj
          simp [initTimer]
        · simpa [initTimer, hj] using ht j
      · intro j
        by_cases hj : j = i
        · subst hj
          simp [initTimer]
        · simpa [initTimer, hj] using hd j

/-- A context after the loop: its own initial values, and what `InitTimer` sets
when its index was visited. -/
theorem initTimers_timerCtx (is : List Nat) (s : State) (j : Nat) :
    (is.foldl initTimer s).timerCtx j =
      if j ∈ is then
        { s.timerCtx j with
          interval := s.minTimerInterval, maxLogSize := Int32.ofNat Const.logSize }
      else s.timerCtx j := by
  induction is generalizing s with
  | nil => simp
  | cons i is ih =>
      rw [List.foldl_cons, ih]
      by_cases hj : j = i
      · subst hj
        simp [initTimer]
      · simp [initTimer, hj]

theorem initDpc_timerCtx (j : Nat) :
    (initDpc n res).timerCtx j =
      if j < n then
        { staticTimerCtx with
          interval := -res.newRes.toUInt64.toInt64, maxLogSize := Int32.ofNat Const.logSize }
      else staticTimerCtx := by
  simp only [initDpc, State.keInsertReg_timerCtx, initTimers_timerCtx, List.mem_range,
    setTimerResolution, staticState]

theorem initDpc_deInit : (initDpc n res).deInit = .delaying := by
  simp only [initDpc, State.keInsertReg_deInit]
  rw [initTimers_frame]
  rfl

theorem initDpc_output : (initDpc n res).output = [some (resolutionLine res)] := by
  simp only [initDpc, State.keInsertReg_output]
  rw [initTimers_frame]
  rfl

end Init
end WdmTest.MultiTimer
