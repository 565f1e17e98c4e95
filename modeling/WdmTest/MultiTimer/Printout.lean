import WdmTest.MultiTimer.Histories

/-!
What MultiTimerTest prints: the timer resolutions, and the logs in the end. In a run without a late registration no
handler runs once the wait loop is left, so the logs that are dumped are the ones
the handlers have finished: the lines of all registrations, then for each timer
the lines of its own executions, nothing twice and nothing cut off.

For other runs nothing is said about the printout; there a handler may still write
to a log behind its dump.
-/
namespace WdmTest.MultiTimer
open Function Transition

/-- The text for the resolutions and given readings of the registering DPC and of the
timers. -/
def printout (n : Nat) (res : TimerResolution) (regs : List CounterReading) (rs : Nat → List CounterReading) :
    List (List Char) :=
  [resolutionLine res, regText regs, "\n\n".toList] ++ (List.range n).flatMap fun (i : Nat) =>
    ["[Timer-".toList ++ Decimal.ofInt (i : Int) ++ "]==>\n".toList,
      (logLines 0 (rs i)).flatten, "\n\n".toList]

def DeInitPc.dumped : DeInitPc → Bool
  | .cancelling _ | .returned => true
  | .delaying | .stopping _ | .loopCond _ | .scanning _ _ | .dumping => false

section Steps
variable {n : Nat} {res : TimerResolution} {s t : State}

/-- Behind the wait loop of a safe teardown only `DeInitDPC` goes on, and it leaves
the contexts alone. -/
theorem NothingPending.contexts (h : NothingPending n s) (hafter : s.deInit.beforeExit = false)
    {a : Action} (hstep : MultiTimer.step n s a = some t) :
    a = .deInit ∧ t.timerCtx = s.timerCtx ∧ t.regCtx = s.regCtx := by
  cases a with
  | expire i =>
      obtain ⟨hi, harmed, -⟩ := step_expire hstep
      simp [(h.1 i hi).1] at harmed
  | runTimer i r =>
      obtain ⟨hi, hqueued, -⟩ := step_runTimer hstep
      simp [(h.1 i hi).2] at hqueued
  | runReg readings =>
      have hqueued := (step_runReg hstep).1
      simp [h.2] at hqueued
  | deInit =>
      cases step_deInit hstep with
      | dump | cancel | finish => exact ⟨rfl, rfl, rfl⟩
      | stopReg hpc | stopTimer _ hpc | enterLoop _ hpc | stay _ hpc | exit _ hpc
      | read _ _ hpc | delay _ _ hpc => simp [hpc, DeInitPc.beforeExit] at hafter

theorem dumpLines_congr (htimer : t.timerCtx = s.timerCtx) (hreg : t.regCtx = s.regCtx) :
    dumpLines n t = dumpLines n s := by
  rw [dumpLines, dumpLines, htimer, hreg]

/-- Before the dump only the resolutions are printed, from then on the logs of the state
besides. -/
def DumpExact (n : Nat) (res : TimerResolution) (s : State) : Prop :=
  s.output = some (resolutionLine res) :: if s.deInit.dumped then dumpLines n s else []

theorem step_output {a : Action} (hkernel : a ≠ .deInit) (hstep : step n s a = some t) :
    t.output = s.output := by
  cases a with
  | expire i =>
      obtain ⟨-, -, rfl⟩ := step_expire hstep
      rfl
  | runTimer i r =>
      cases timerFunction_returns (step_runTimer hstep).2.2 with
      | rearm | stop => rfl
  | runReg readings =>
      cases regFunction_returns (step_runReg hstep).2 with
      | done => rfl
      | registered counter => rw [nextRegistration_output]; rfl
  | deInit => exact absurd rfl hkernel

theorem DumpExact.before (h : DumpExact n res s) (hbefore : s.deInit.beforeExit = true) {a : Action}
    (hstep : MultiTimer.step n s a = some t) : DumpExact n res t := by
  have hempty : s.output = [some (resolutionLine res)] := by
    rw [DumpExact] at h
    cases hpc : s.deInit with
    | delaying | stopping _ | loopCond _ | scanning _ _ => simpa [hpc, DeInitPc.dumped] using h
    | dumping | cancelling _ | returned => simp [hpc, DeInitPc.beforeExit] at hbefore
  by_cases ha : a = .deInit
  · subst ha
    cases step_deInit hstep with
    | stopReg | stopTimer | enterLoop | stay | exit | read | delay => exact hempty
    | dump hpc | cancel _ hpc | finish _ hpc => simp [hpc, DeInitPc.beforeExit] at hbefore
  · have hpc := (step_frame ha hstep).1
    rw [DumpExact, hpc, step_output ha hstep, hempty]
    cases hs : s.deInit with
    | delaying | stopping _ | loopCond _ | scanning _ _ => rfl
    | dumping | cancelling _ | returned => simp [hs, DeInitPc.beforeExit] at hbefore

theorem DumpExact.after (h : DumpExact n res s) (hsafe : NothingPending n s)
    (hafter : s.deInit.beforeExit = false) {a : Action} (hstep : step n s a = some t) :
    DumpExact n res t := by
  obtain ⟨rfl, htimer, hreg⟩ := hsafe.contexts hafter hstep
  rw [DumpExact, dumpLines_congr htimer hreg]
  rw [DumpExact] at h
  cases step_deInit hstep with
  | dump hpc =>
      have hbefore : s.output = [some (resolutionLine res)] := by
        simpa [hpc, DeInitPc.dumped] using h
      simp [DeInitPc.dumped, hbefore]
  | cancel i hpc => simpa [hpc, DeInitPc.dumped] using h
  | finish i hpc => simpa [hpc, DeInitPc.dumped] using h
  | stopReg hpc | stopTimer _ hpc | enterLoop _ hpc | stay _ hpc | exit _ hpc
  | read _ _ hpc | delay _ _ hpc => simp [hpc, DeInitPc.beforeExit] at hafter

theorem TeardownInv.step_dumpExact (hinv : TeardownInv n s) (h : DumpExact n res s) {a : Action}
    (hstep : MultiTimer.step n s a = some t) : DumpExact n res t := by
  cases hexit : s.deInit.beforeExit with
  | true => exact h.before hexit hstep
  | false => exact h.after (hinv.after hexit) hexit hstep

/-- The wait loop is left only when every timer has been registered. -/
theorem TeardownInv.step_registered (hinv : TeardownInv n s) {a : Action}
    (h : s.deInit.beforeExit = false → s.regCtx.regedDpc = n)
    (hstep : MultiTimer.step n s a = some t) (hafter : t.deInit.beforeExit = false) :
    t.regCtx.regedDpc = n := by
  cases hexit : s.deInit.beforeExit with
  | false =>
      obtain ⟨-, -, hreg⟩ := (hinv.after hexit).contexts hexit hstep
      rw [hreg]
      exact h hexit
  | true =>
      obtain ⟨hb, -⟩ := hinv.before hexit
      by_cases ha : a = .deInit
      · subst ha
        cases step_deInit hstep with
        | exit running hpc hcond =>
            simp only [State.waitLoopCond, Bool.or_eq_false_iff, decide_eq_false_iff_not] at hcond
            cases hb.running with
            | inl hrun => simp [hrun.1] at hcond
            | inr hdone => exact hdone.2.2
        | stopReg | stopTimer | enterLoop | stay | read | delay =>
            simp [DeInitPc.beforeExit] at hafter
        | dump hpc | cancel _ hpc | finish _ hpc => simp [hpc, DeInitPc.beforeExit] at hexit
      · rw [(step_frame ha hstep).1, hexit] at hafter
        cases hafter

end Steps

/-! ## Safe runs -/

section Runs
variable {n : Nat} {res : TimerResolution} {as : List Action} {s : State}

theorem dumpExact_of_run (hrun : run (step n) (initDpc n res) as = some s)
    (hlate : Along (step n) (fun u a => ¬ LateRegistration n u a) (initDpc n res) as) :
    DumpExact n res s := by
  have hstart : DumpExact n res (initDpc n res) := by
    rw [DumpExact, initDpc_deInit, initDpc_output]
    rfl
  have hinv : TeardownInv n s ∧ DumpExact n res s := by
    refine run_invariant_along (P := fun u => TeardownInv n u ∧ DumpExact n res u) ?_ hrun hlate
      ⟨initDpc_teardownInv n res, hstart⟩
    intro u a w hu hnotLate hstep
    exact ⟨hu.1.step hnotLate hstep, hu.1.step_dumpExact hu.2 hstep⟩
  exact hinv.2

/-- The history of a timer is kept to the end of a safe run. -/
theorem timerLog_of_safeRun {i : Nat} (hi : i < n)
    (hrun : run (step n) (initDpc n res) as = some s)
    (hlate : Along (step n) (fun u a => ¬ LateRegistration n u a) (initDpc n res) as) :
    LogHistory i s (history (step n) (loggedReadings i) (initDpc n res) as) := by
  have hinv := run_history (f := loggedReadings i)
    (P := fun u rs => TeardownInv n u ∧ LogHistory i u rs) ?_ hrun hlate
    ⟨initDpc_teardownInv n res, initDpc_logHistory res hi⟩
  · exact hinv.2
  · intro u rs a w hu hnotLate hstep
    obtain ⟨hteardown, hlog⟩ := hu
    refine ⟨hteardown.step hnotLate hstep, ?_⟩
    cases hexit : u.deInit.beforeExit with
    | true => exact hlog.step (hteardown.before hexit).1 hexit hstep
    | false =>
        have hsafe := hteardown.after hexit
        obtain ⟨rfl, htimer, -⟩ := hsafe.contexts hexit hstep
        have hafter := (hsafe.step hexit hstep).2
        rw [loggedReadings, List.append_nil]
        apply hlog.frame
        · rw [htimer]
        · rw [htimer]
        · rw [htimer]
        · intro hbefore
          simp [hafter] at hbefore

theorem regLog_of_safeRun (hroom : 67 * n < Const.logSize)
    (hrun : run (step n) (initDpc n res) as = some s)
    (hlate : Along (step n) (fun u a => ¬ LateRegistration n u a) (initDpc n res) as) :
    RegHistory s (history (step n) registrations (initDpc n res) as) := by
  have hinv := run_history (f := registrations)
    (P := fun u rs => TeardownInv n u ∧ RegHistory u rs) ?_ hrun hlate
    ⟨initDpc_teardownInv n res, initDpc_regHistory n res⟩
  · exact hinv.2
  · intro u rs a w hu hnotLate hstep
    obtain ⟨hteardown, hlog⟩ := hu
    refine ⟨hteardown.step hnotLate hstep, ?_⟩
    cases hexit : u.deInit.beforeExit with
    | true => exact hlog.step hroom (hteardown.before hexit).1 hexit hstep
    | false =>
        obtain ⟨rfl, -, hreg⟩ := (hteardown.after hexit).contexts hexit hstep
        rw [registrations, List.append_nil]
        apply hlog.frame <;> rw [hreg]

theorem registered_of_safeRun (hrun : run (step n) (initDpc n res) as = some s)
    (hlate : Along (step n) (fun u a => ¬ LateRegistration n u a) (initDpc n res) as)
    (hafter : s.deInit.beforeExit = false) : s.regCtx.regedDpc = n := by
  have hinv : TeardownInv n s ∧ (s.deInit.beforeExit = false → s.regCtx.regedDpc = n) := by
    refine run_invariant_along
      (P := fun u => TeardownInv n u ∧ (u.deInit.beforeExit = false → u.regCtx.regedDpc = n))
      ?_ hrun hlate ⟨initDpc_teardownInv n res, ?_⟩
    · intro u a w hu hnotLate hstep
      exact ⟨hu.1.step hnotLate hstep, hu.1.step_registered hu.2 hstep⟩
    · rw [initDpc_deInit]
      exact nofun
  exact hinv.2 hafter

theorem dbgPrintEx_of_verbatim {format : List Char} (h : '%' ∉ format) :
    dbgPrintEx format = some format := if_neg h

theorem percent_notMem_regText (rs : List CounterReading) : '%' ∉ regText rs := by
  rw [regText, List.mem_flatMap]
  rintro ⟨r, -, hr⟩
  exact (regLine_verbatim r.timestamp r.freq).2 hr

theorem dumpLines_eq_printout {regs : List CounterReading} {rs : Nat → List CounterReading}
    (hreg : RegHistory s regs) (htimers : ∀ i, i < n → LogHistory i s (rs i)) :
    some (resolutionLine res) :: dumpLines n s = (printout n res regs rs).map some := by
  have hregText : dbgPrintEx s.regCtx.log.contents = some (regText regs) := by
    rw [hreg.log]
    exact dbgPrintEx_of_verbatim (percent_notMem_regText regs)
  have htimerText : ∀ i ∈ List.range n,
      dbgPrintEx (s.timerCtx i).log.contents = some (logLines 0 (rs i)).flatten := by
    intro i hi
    have hlog := htimers i (List.mem_range.mp hi)
    rw [dbgPrintEx_of_verbatim hlog.sound.verbatim, hlog.log]
  have htimerLines := List.flatMap_congr fun (i : Nat) hi =>
    congrArg (fun text => [some ("[Timer-".toList ++ Decimal.ofInt (i : Int) ++ "]==>\n".toList),
      text, some "\n\n".toList]) (htimerText i hi)
  rw [dumpLines, printout, List.map_append, List.map_flatMap, hregText, htimerLines]
  rfl

theorem output_of_safeRun (hroom : 67 * n < Const.logSize)
    (hrun : run (step n) (initDpc n res) as = some s)
    (hlate : Along (step n) (fun u a => ¬ LateRegistration n u a) (initDpc n res) as)
    (hreturned : s.deInit = .returned) :
    s.output = (printout n res (history (step n) registrations (initDpc n res) as) fun i =>
      history (step n) (loggedReadings i) (initDpc n res) as).map some := by
  have hreg := regLog_of_safeRun hroom hrun hlate
  have hdump := dumpExact_of_run hrun hlate
  rw [DumpExact, hreturned, DeInitPc.dumped, if_pos rfl] at hdump
  rw [hdump]
  exact dumpLines_eq_printout hreg fun i hi => timerLog_of_safeRun hi hrun hlate

end Runs

/-- Once `DeInitDPC` has returned from a safe run, the output is the text of the
resolutions, of the readings with which the timers were registered, one for each, and
of the readings of each timer, in the order of the timers. The log of the registrations
has room for that many. -/
theorem printed_output {n : Nat} {res : TimerResolution} {as : List Action} {s : State}
    (hroom : 67 * n < Const.logSize) (hrun : run (step n) (initDpc n res) as = some s)
    (hlate : Along (step n) (fun u a => ¬ LateRegistration n u a) (initDpc n res) as)
    (hreturned : s.deInit = .returned) :
    s.output = (printout n res (history (step n) registrations (initDpc n res) as) fun i =>
        history (step n) (loggedReadings i) (initDpc n res) as).map some ∧
      (history (step n) registrations (initDpc n res) as).length = n := by
  refine ⟨output_of_safeRun hroom hrun hlate hreturned, ?_⟩
  rw [(regLog_of_safeRun hroom hrun hlate).count]
  exact registered_of_safeRun hrun hlate (by rw [hreturned]; rfl)

theorem printed_output_loggedOnce :
    ∃ s, run (step 1) (initDpc 1 halfMillisecond) loggedOnce = some s ∧ s.deInit = .returned ∧
      s.output = (printout 1 halfMillisecond
        (history (step 1) registrations (initDpc 1 halfMillisecond) loggedOnce) fun i =>
          history (step 1) (loggedReadings i) (initDpc 1 halfMillisecond) loggedOnce).map some ∧
      (history (step 1) registrations (initDpc 1 halfMillisecond) loggedOnce).length = 1 :=
  ⟨_, rfl, rfl, printed_output (by decide) rfl (by decide) rfl⟩

end WdmTest.MultiTimer
