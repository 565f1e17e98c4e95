import WdmTest.MultiTimer.Teardown
import WdmTest.MultiTimer.TimerLog

/-!
What the logs of MultiTimerTest say about a whole run. The handlers of different
timers interleave in any order, and what a handler runs with is gone when it
returns; the readings of a run are therefore collected beside it. Up to the exit
of the wait loop the log of each timer is the text of its own readings, whatever
the other timers do, and the registering DPC has one line for each timer it has
registered.

That log has room for the lines of 122 timers. Beyond that it is cut off, which is
not followed here.
-/
namespace WdmTest.MultiTimer
open CString Function Transition

/-- The reading that a step adds to the log of a timer. -/
def loggedReadings (i : Nat) (s : State) : Action → List CounterReading
  | .runTimer j r =>
      if j = i ∧ 0 = (s.timerCtx i).stopFlag ∧ (doLog (s.timerCtx i) r).1 = true then [r] else []
  | .expire _ | .runReg _ | .deInit => []

/-- The reading with which a step registers a timer. -/
def registrations (s : State) : Action → List CounterReading
  | .runReg readings =>
      if s.regCtx.totalDpc ≤ s.regCtx.regedDpc then []
      else ((stallDpcExecution s.regCtx.interval readings).bind List.head?).toList
  | .expire _ | .runTimer _ _ | .deInit => []

/-! ## The log of a timer -/

/-- The log of a timer is the text of these readings, and as long as the timer may
run again its last timestamp is the last of them. -/
structure LogHistory (i : Nat) (s : State) (rs : List CounterReading) : Prop where
  sound : LogSound (s.timerCtx i)
  log : (s.timerCtx i).log.contents = (logLines 0 rs).flatten
  last : s.deInit.beforeExit = true → s.phase i ≠ .stopped →
    (s.timerCtx i).lastTimestamp = lastReading 0 rs

section Timers
variable {n i : Nat} {s t : State} {rs : List CounterReading}

theorem LogHistory.frame (h : LogHistory i s rs) (hlog : (t.timerCtx i).log = (s.timerCtx i).log)
    (hsize : (t.timerCtx i).logSize = (s.timerCtx i).logSize)
    (hlimit : (t.timerCtx i).maxLogSize = (s.timerCtx i).maxLogSize)
    (hlast : t.deInit.beforeExit = true → t.phase i ≠ .stopped →
      (t.timerCtx i).lastTimestamp = (s.timerCtx i).lastTimestamp ∧
        s.deInit.beforeExit = true ∧ s.phase i ≠ .stopped) : LogHistory i t rs := by
  refine ⟨h.sound.of_eq hlog hsize hlimit, ?_, ?_⟩
  · rw [hlog]
    exact h.log
  · intro hbefore hrunning
    obtain ⟨hsame, hbefore', hrunning'⟩ := hlast hbefore hrunning
    rw [hsame]
    exact h.last hbefore' hrunning'

/-- An execution of the handler that adds no line ends the timer. -/
theorem timerFunction_silent (r : CounterReading)
    (hsilent : ¬ (0 = (s.timerCtx i).stopFlag ∧ (doLog (s.timerCtx i) r).1 = true)) :
    ((timerFunction i r s).timerCtx i).log = (s.timerCtx i).log ∧
      ((timerFunction i r s).timerCtx i).logSize = (s.timerCtx i).logSize ∧
      ((timerFunction i r s).timerCtx i).maxLogSize = (s.timerCtx i).maxLogSize ∧
      ((timerFunction i r s).timer i).armed = false := by
  by_cases hstop : 0 = (s.timerCtx i).stopFlag
  · have hfull : (doLog (s.timerCtx i) r).1 = false :=
      Bool.eq_false_iff.mpr fun hlog => hsilent ⟨hstop, hlog⟩
    obtain ⟨hlog, hsize⟩ := doLog_false hfull
    simp [timerFunction, ← hstop, hfull, hlog, hsize]
  · simp [timerFunction, hstop]

theorem timerFunction_logged {r : CounterReading} (hstop : 0 = (s.timerCtx i).stopFlag)
    (hlog : (doLog (s.timerCtx i) r).1 = true) :
    (timerFunction i r s).timerCtx i = (doLog (s.timerCtx i) r).2 := by
  simp [timerFunction, ← hstop, hlog]

theorem PhaseEffect.running {a : Action} (h : PhaseEffect n s t a) (ht : t.phase i ≠ .stopped) :
    s.phase i ≠ .stopped := by
  intro hs
  exact ht (Phase.eq_stopped_of_stage_le (h.stage_le i) hs)

theorem LogHistory.runTimer {r : CounterReading} (h : LogHistory i s rs) (hs : Bookkept n s)
    (hbefore : s.deInit.beforeExit = true) (hstep : step n s (.runTimer i r) = some t) :
    LogHistory i t (rs ++ loggedReadings i s (.runTimer i r)) := by
  obtain ⟨ht, heffect⟩ := hs.step hbefore hstep
  obtain ⟨-, hqueued, hreturn⟩ := step_runTimer hstep
  have hphase : s.phase i ≠ .stopped := by
    rw [heffect.2.1]
    exact nofun
  by_cases hlogged : 0 = (s.timerCtx i).stopFlag ∧ (doLog (s.timerCtx i) r).1 = true
  · obtain ⟨hstop, hlog⟩ := hlogged
    have hctx : t.timerCtx i = (doLog (s.timerCtx i) r).2 := by
      rw [hreturn]
      exact timerFunction_logged (s := s.dequeueTimer i) hstop hlog
    rw [loggedReadings, if_pos ⟨rfl, hstop, hlog⟩]
    refine ⟨?_, ?_, ?_⟩
    · rw [hctx]
      exact h.sound.doLog r
    · rw [hctx, (h.sound.doLog_true hlog).1, h.log, logLines_concat, List.flatten_append,
        TimerDpcCtx.nextLine, h.last hbefore hphase]
      simp only [List.flatten_cons, List.flatten_nil, List.append_nil]
    · intro _ _
      rw [hctx, doLog_lastTimestamp, lastReading_concat]
  · obtain ⟨hlog, hsize, hlimit, harmed⟩ := timerFunction_silent (s := s.dequeueTimer i) r hlogged
    rw [← hreturn] at hlog hsize hlimit harmed
    rw [loggedReadings, if_neg (fun hall => hlogged hall.2), List.append_nil]
    apply h.frame hlog hsize hlimit
    intro _ hrunning
    have hnotArmed : t.phase i ≠ .armed := by
      rw [Ne, ht.phase_armed_iff, harmed]
      exact Bool.false_ne_true
    cases heffect.2.2.1 with
    | inl hrearm =>
        rw [hrearm.2, update_self] at hnotArmed
        exact absurd rfl hnotArmed
    | inr hstopped =>
        rw [hstopped, update_self] at hrunning
        exact absurd rfl hrunning

/-- A step of another party leaves the log and the last timestamp alone. -/
theorem step_otherLog {a : Action} (hother : ∀ r, a ≠ .runTimer i r)
    (hstep : step n s a = some t) :
    (t.timerCtx i).log = (s.timerCtx i).log ∧ (t.timerCtx i).logSize = (s.timerCtx i).logSize ∧
      (t.timerCtx i).maxLogSize = (s.timerCtx i).maxLogSize ∧
      (t.timerCtx i).lastTimestamp = (s.timerCtx i).lastTimestamp := by
  cases a with
  | expire j =>
      obtain ⟨-, -, rfl⟩ := step_expire hstep
      exact ⟨rfl, rfl, rfl, rfl⟩
  | runTimer j r =>
      obtain ⟨-, -, hreturn⟩ := step_runTimer hstep
      have hne : i ≠ j := by
        intro hij
        exact hother r (by rw [hij])
      rw [(timerFunction_returns hreturn).timerCtx_of_ne hne]
      exact ⟨rfl, rfl, rfl, rfl⟩
  | runReg readings =>
      cases regFunction_returns (step_runReg hstep).2 with
      | done => exact ⟨rfl, rfl, rfl, rfl⟩
      | registered counter =>
          by_cases hi : i = s.regCtx.regedDpc
          · subst hi
            simp
          · simp [hi]
  | deInit =>
      cases step_deInit hstep with
      | stopReg | enterLoop | stay | exit | read | delay | dump | cancel | finish =>
          exact ⟨rfl, rfl, rfl, rfl⟩
      | stopTimer j =>
          by_cases hi : i = j
          · subst hi
            simp
          · simp [hi]

theorem loggedReadings_other {a : Action} (hother : ∀ r, a ≠ .runTimer i r) :
    loggedReadings i s a = [] := by
  cases a with
  | runTimer j r =>
      rw [loggedReadings, if_neg]
      intro h
      exact hother r (by rw [h.1])
  | expire | runReg | deInit => rfl

theorem LogHistory.step {a : Action} (h : LogHistory i s rs) (hs : Bookkept n s)
    (hbefore : s.deInit.beforeExit = true) (hstep : step n s a = some t) :
    LogHistory i t (rs ++ loggedReadings i s a) := by
  by_cases hother : ∀ r, a ≠ .runTimer i r
  · obtain ⟨hlog, hsize, hlimit, hlast⟩ := step_otherLog hother hstep
    rw [loggedReadings_other hother, List.append_nil]
    apply h.frame hlog hsize hlimit
    intro _ hrunning
    exact ⟨hlast, hbefore, (hs.step hbefore hstep).2.running hrunning⟩
  · obtain ⟨r, hr⟩ := not_forall.mp hother
    rw [not_not.mp hr] at hstep ⊢
    exact h.runTimer hs hbefore hstep

theorem initDpc_logHistory {n i : Nat} (res : TimerResolution) (hi : i < n) :
    LogHistory i (initDpc n res) [] := by
  have hfresh := (initDpc_freshLog res hi).logExact
  exact ⟨hfresh.toLogSound, hfresh.log, fun _ _ => hfresh.last⟩

end Timers

/-- Whatever the interleaving, the log of a timer is the text of its own readings. -/
theorem timerLog_of_run {n i : Nat} {res : TimerResolution} {as : List Action} {s : State} (hi : i < n)
    (hrun : run (step n) (initDpc n res) as = some s) (hbefore : s.deInit.beforeExit = true) :
    LogHistory i s (history (step n) (loggedReadings i) (initDpc n res) as) := by
  have hinv := run_history (f := loggedReadings i) (C := fun _ _ => True)
    (P := fun u rs => u.deInit.beforeExit = true → Bookkept n u ∧ LogHistory i u rs) ?_ hrun
    (along_trivial _ _) fun _ => ⟨initDpc_bookkept n res, initDpc_logHistory res hi⟩
  · exact (hinv hbefore).2
  · intro u rs a w hu _ hstep hw
    have hbefore' := step_beforeExit hstep hw
    obtain ⟨hb, hlog⟩ := hu hbefore'
    exact ⟨(hb.step hbefore' hstep).1, hlog.step hb hbefore' hstep⟩

/-- Two timers, the first of which executes twice around the registration of the second. -/
def interleavedTimers : List Action :=
  [oneRegistration, .expire 0, .runTimer 0 ⟨2000, 1⟩, oneRegistration, .expire 1, .expire 0,
    .runTimer 1 ⟨2100, 1⟩, .runTimer 0 ⟨2200, 1⟩]

theorem timerLog_interleavedTimers :
    ∃ s, run (step 2) (initDpc 2 halfMillisecond) interleavedTimers = some s ∧
      LogHistory 0 s (history (step 2) (loggedReadings 0) (initDpc 2 halfMillisecond) interleavedTimers) :=
  ⟨_, rfl, timerLog_of_run (by decide) rfl rfl⟩

/-! ## The log of the registering DPC -/

theorem regLine_length_le (current freq : Int64) : (regLine current freq).length ≤ 67 := by
  have hcurrent := Decimal.ofInt_int64_length_le current
  have hfreq := Decimal.ofInt_int64_length_le freq
  unfold regLine
  simp only [List.length_append]
  change 17 + _ + (8 + _ + 2) ≤ 67
  omega

def regText (rs : List CounterReading) : List Char := rs.flatMap fun r => regLine r.timestamp r.freq

theorem regText_length_le (rs : List CounterReading) : (regText rs).length ≤ 67 * rs.length := by
  induction rs with
  | nil => exact Nat.le_refl 0
  | cons r rs ih =>
      have hline := regLine_length_le r.timestamp r.freq
      rw [regText] at ih
      rw [regText, List.flatMap_cons, List.length_append, List.length_cons, Nat.mul_succ]
      omega

theorem regText_concat (rs : List CounterReading) (r : CounterReading) :
    regText (rs ++ [r]) = regText rs ++ regLine r.timestamp r.freq := by
  rw [regText, regText, List.flatMap_append, List.flatMap_singleton]

/-- The registering DPC has logged these readings, one for each registered timer. -/
structure RegHistory (s : State) (rs : List CounterReading) : Prop where
  log : s.regCtx.log.contents = regText rs
  count : rs.length = s.regCtx.regedDpc

section Registering
variable {n : Nat} {s t : State} {rs : List CounterReading}

/-- A line that fits is logged whole. -/
theorem logReading_contents {ctx : DpcRegCtx} (r : CounterReading)
    (hfits : ctx.log.contents.length + 67 < Const.logSize) :
    (ctx.logReading r).log.contents = ctx.log.contents ++ regLine r.timestamp r.freq := by
  have hline := regLine_length_le r.timestamp r.freq
  have htemp : (regLine r.timestamp r.freq).length < Const.tempStrSize := by
    rw [Const.tempStrSize]
    omega
  have hnul := (regLine_verbatim r.timestamp r.freq).1
  simp only [DpcRegCtx.logReading]
  rw [contents_printLine _ hnul htemp]
  exact Buffer.contents_append_of_fits _ (Nat.le_refl _) (by omega) hnul

theorem regFunction_registers {readings : List CounterReading}
    (h : regFunction n readings s = .returned t) :
    (registrations s (.runReg readings) = [] ∧
        t = { s with regCtx := { s.regCtx with isRunning := 0 } }) ∨
      ∃ counter, registrations s (.runReg readings) = [counter] ∧
        t = (State.registerTimer { s with regCtx := s.regCtx.logReading counter }
          s.regCtx.regedDpc).nextRegistration := by
  rw [regFunction] at h
  split at h
  · rename_i hdone
    cases h
    exact Or.inl ⟨if_pos hdone, rfl⟩
  · rename_i hleft
    split at h
    · cases h
    · cases h
    · rename_i counter rest hstall
      dsimp only at h
      split at h
      · cases h
        refine Or.inr ⟨counter, ?_, rfl⟩
        rw [registrations, if_neg hleft, hstall]
        rfl
      · cases h

theorem RegHistory.frame (h : RegHistory s rs) (hlog : t.regCtx.log = s.regCtx.log)
    (hreged : t.regCtx.regedDpc = s.regCtx.regedDpc) : RegHistory t rs := by
  refine ⟨?_, ?_⟩
  · rw [hlog]
    exact h.log
  · rw [hreged]
    exact h.count

theorem RegHistory.runReg {readings : List CounterReading} (h : RegHistory s rs)
    (hroom : 67 * n < Const.logSize) (ht : t.regCtx.regedDpc ≤ n)
    (hreg : regFunction n readings s = .returned t) :
    RegHistory t (rs ++ registrations s (.runReg readings)) := by
  cases regFunction_registers hreg with
  | inl hdone =>
      obtain ⟨hnone, rfl⟩ := hdone
      rw [hnone, List.append_nil]
      exact h.frame rfl rfl
  | inr hnext =>
      obtain ⟨counter, hcounter, rfl⟩ := hnext
      rw [hcounter]
      rw [nextRegistration_regedDpc] at ht
      have hcount : rs.length + 1 ≤ n := by
        rw [h.count]
        exact ht
      refine ⟨?_, ?_⟩
      · have hlength := regText_length_le rs
        rw [nextRegistration_log, regText_concat, ← h.log]
        apply logReading_contents counter
        rw [h.log]
        omega
      · rw [nextRegistration_regedDpc, List.length_append, h.count]
        rfl

theorem step_otherReg {a : Action} (hother : ∀ readings, a ≠ .runReg readings)
    (hstep : step n s a = some t) :
    registrations s a = [] ∧ t.regCtx.log = s.regCtx.log ∧
      t.regCtx.regedDpc = s.regCtx.regedDpc ∧ t.regCtx.interval = s.regCtx.interval := by
  cases a with
  | expire j =>
      obtain ⟨-, -, rfl⟩ := step_expire hstep
      exact ⟨rfl, rfl, rfl, rfl⟩
  | runTimer j r =>
      cases timerFunction_returns (step_runTimer hstep).2.2 with
      | rearm | stop => exact ⟨rfl, rfl, rfl, rfl⟩
  | runReg readings => exact absurd rfl (hother readings)
  | deInit =>
      cases step_deInit hstep with
      | stopReg | stopTimer | enterLoop | stay | exit | read | delay | dump | cancel | finish =>
          exact ⟨rfl, rfl, rfl, rfl⟩

theorem RegHistory.step {a : Action} (h : RegHistory s rs) (hroom : 67 * n < Const.logSize)
    (hs : Bookkept n s) (hbefore : s.deInit.beforeExit = true) (hstep : step n s a = some t) :
    RegHistory t (rs ++ registrations s a) := by
  by_cases hother : ∀ readings, a ≠ .runReg readings
  · obtain ⟨hnone, hlog, hreged, -⟩ := step_otherReg hother hstep
    rw [hnone, List.append_nil]
    exact h.frame hlog hreged
  · obtain ⟨readings, hr⟩ := not_forall.mp hother
    rw [not_not.mp hr] at hstep ⊢
    have hdequeued : RegHistory s.dequeueReg rs := h.frame rfl rfl
    exact hdequeued.runReg hroom (hs.step hbefore hstep).1.reged_le (step_runReg hstep).2

theorem initDpc_regHistory (n : Nat) (res : TimerResolution) : RegHistory (initDpc n res) [] := by
  have hframe := initTimers_frame (List.range n)
    (setTimerResolution res)
  refine ⟨?_, ?_⟩
  · simp only [initDpc, State.keInsertReg_regCtx]
    rw [hframe]
    exact Buffer.contents_zeroed (by decide)
  · simp only [initDpc, State.keInsertReg_regCtx]
    rw [hframe]
    rfl

end Registering

theorem regLog_of_run {n : Nat} {res : TimerResolution} {as : List Action} {s : State}
    (hroom : 67 * n < Const.logSize) (hrun : run (step n) (initDpc n res) as = some s)
    (hbefore : s.deInit.beforeExit = true) :
    RegHistory s (history (step n) registrations (initDpc n res) as) := by
  have hinv := run_history (f := registrations) (C := fun _ _ => True)
    (P := fun u rs => u.deInit.beforeExit = true → Bookkept n u ∧ RegHistory u rs) ?_ hrun
    (along_trivial _ _) fun _ => ⟨initDpc_bookkept n res, initDpc_regHistory n res⟩
  · exact (hinv hbefore).2
  · intro u rs a w hu _ hstep hw
    have hbefore' := step_beforeExit hstep hw
    obtain ⟨hb, hlog⟩ := hu hbefore'
    exact ⟨(hb.step hbefore' hstep).1, hlog.step hroom hb hbefore' hstep⟩

theorem regLog_interleavedTimers :
    ∃ s, run (step 2) (initDpc 2 halfMillisecond) interleavedTimers = some s ∧
      RegHistory s (history (step 2) registrations (initDpc 2 halfMillisecond) interleavedTimers) :=
  ⟨_, rfl, regLog_of_run (by decide) rfl rfl⟩

end WdmTest.MultiTimer
