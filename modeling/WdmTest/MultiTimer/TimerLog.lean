import WdmTest.MultiTimer.Bookkeeping

/-!
The log of one timer over whole runs of its handler.

`DoLog` measures a line under one limit, checks it under a second and appends it
under a third. The lines are short enough for the first whatever the counter
reads, and the check is strict enough for the third, so the separately counted
size is the length of the log and nothing is cut off. Readings are arbitrary:
nothing is assumed of a clock.
-/
namespace WdmTest.MultiTimer
open CString Function Transition

/-- The line each execution adds, when the first starts from the timestamp `last`. -/
def logLines (last : Int64) : List CounterReading → List (List Char)
  | [] => []
  | r :: rs => logLine last r.timestamp r.freq :: logLines r.timestamp rs

def lastReading (last : Int64) : List CounterReading → Int64
  | [] => last
  | r :: rs => lastReading r.timestamp rs

theorem logLines_concat (last : Int64) (rs : List CounterReading) (r : CounterReading) :
    logLines last (rs ++ [r]) =
      logLines last rs ++ [logLine (lastReading last rs) r.timestamp r.freq] := by
  induction rs generalizing last with
  | nil => rfl
  | cons r' rs ih => simp only [List.cons_append, logLines, lastReading, ih]

theorem lastReading_concat (last : Int64) (rs : List CounterReading) (r : CounterReading) :
    lastReading last (rs ++ [r]) = r.timestamp := by
  induction rs generalizing last with
  | nil => rfl
  | cons r' rs ih => exact ih r'.timestamp

/-! ## One line -/

section Line
variable (last current freq : Int64)

theorem logLine_length :
    (logLine last current freq).length =
      49 + (Decimal.ofInt last.toInt).length + (Decimal.ofInt current.toInt).length +
        (Decimal.ofInt freq.toInt).length := by
  unfold logLine
  simp only [List.length_append]
  change 26 + _ + (13 + _ + (8 + _ + 2)) = _
  omega

theorem logLine_length_le : (logLine last current freq).length ≤ 109 := by
  have hlast := Decimal.ofInt_int64_length_le last
  have hcurrent := Decimal.ofInt_int64_length_le current
  have hfreq := Decimal.ofInt_int64_length_le freq
  rw [logLine_length]
  omega

theorem le_logLine_length : 52 ≤ (logLine last current freq).length := by
  have hlast := Decimal.ofInt_length_pos last.toInt
  have hcurrent := Decimal.ofInt_length_pos current.toInt
  have hfreq := Decimal.ofInt_length_pos freq.toInt
  rw [logLine_length]
  omega

theorem nul_notMem_logLine : nul ∉ logLine last current freq := by
  unfold logLine
  simp [nul, Decimal.notMem_ofInt]

theorem percent_notMem_logLine : '%' ∉ logLine last current freq := by
  unfold logLine
  simp [Decimal.notMem_ofInt]

end Line

/-! ## One execution of `DoLog` -/

/-- What `DoLog` relies on and keeps. -/
structure LogSound (ctx : TimerDpcCtx) : Prop where
  size : ctx.logSize.toNat = ctx.log.contents.length
  bound : ctx.log.contents.length ≤ Const.logSize - 2
  limit : ctx.maxLogSize = Int32.ofNat Const.logSize
  verbatim : '%' ∉ ctx.log.contents

section DoLog
variable {ctx : TimerDpcCtx} {r : CounterReading}

def TimerDpcCtx.nextLine (ctx : TimerDpcCtx) (r : CounterReading) : List Char :=
  logLine ctx.lastTimestamp r.timestamp r.freq

theorem contents_printLine (b : TempBuffer) {line : List Char} (hnul : nul ∉ line)
    (hlen : line.length < Const.tempStrSize) :
    ((b.clear Const.tempStrSize).print Const.tempStrSize (by decide) line).contents = line := by
  rw [Buffer.contents_print _ _ (by decide) hnul]
  exact List.take_of_length_le (Nat.le_pred_of_lt hlen)

theorem nextLine_length_lt (ctx : TimerDpcCtx) (r : CounterReading) :
    (ctx.nextLine r).length < Const.tempStrSize := by
  have h := logLine_length_le ctx.lastTimestamp r.timestamp r.freq
  simp only [TimerDpcCtx.nextLine, Const.tempStrSize]
  omega

@[simp] theorem doLog_lastTimestamp (ctx : TimerDpcCtx) (r : CounterReading) :
    (doLog ctx r).2.lastTimestamp = r.timestamp := by
  simp only [doLog]
  split <;> rfl

@[simp] theorem doLog_maxLogSize (ctx : TimerDpcCtx) (r : CounterReading) :
    (doLog ctx r).2.maxLogSize = ctx.maxLogSize := by
  simp only [doLog]
  split <;> rfl

theorem doLog_false (h : (doLog ctx r).1 = false) :
    (doLog ctx r).2.log = ctx.log ∧ (doLog ctx r).2.logSize = ctx.logSize := by
  simp only [doLog] at h ⊢
  split at h
  · cases h
  · rename_i hfull
    simp only [if_neg hfull, and_self]

theorem LogSound.of_eq {ctx ctx' : TimerDpcCtx} (h : LogSound ctx) (hlog : ctx'.log = ctx.log)
    (hsize : ctx'.logSize = ctx.logSize) (hlimit : ctx'.maxLogSize = ctx.maxLogSize) :
    LogSound ctx' := by
  refine ⟨?_, ?_, ?_, ?_⟩
  · rw [hlog, hsize]
    exact h.size
  · rw [hlog]
    exact h.bound
  · rw [hlimit]
    exact h.limit
  · rw [hlog]
    exact h.verbatim

theorem LogSound.logSize_add (h : LogSound ctx) (r : CounterReading) :
    (ctx.logSize + UInt64.ofNat (ctx.nextLine r).length).toNat =
      ctx.log.contents.length + (ctx.nextLine r).length := by
  have hline := nextLine_length_lt ctx r
  have hbound := h.bound
  have hcap : Const.logSize = 8192 := rfl
  have htemp : Const.tempStrSize = 128 := rfl
  have hsize : (ctx.nextLine r).length < UInt64.size := by
    exact Nat.lt_trans hline (by decide)
  rw [UInt64.toNat_add, UInt64.toNat_ofNat_of_lt' hsize, h.size]
  exact Nat.mod_eq_of_lt (by omega)

theorem doLog_eq (ctx : TimerDpcCtx) (r : CounterReading) :
    ∃ tempStrBuf : TempBuffer, tempStrBuf.contents = ctx.nextLine r ∧
      doLog ctx r =
        if ctx.logSize + UInt64.ofNat (ctx.nextLine r).length <
            (ctx.maxLogSize - 1).toInt64.toUInt64 then
          (true, { ctx with
            tempStrBuf, lastTimestamp := r.timestamp
            logSize := ctx.logSize + UInt64.ofNat (ctx.nextLine r).length
            log := ctx.log.append Const.logSize (Nat.le_refl _) (ctx.nextLine r) })
        else (false, { ctx with tempStrBuf, lastTimestamp := r.timestamp }) := by
  have hline := nextLine_length_lt ctx r
  have hcontents := contents_printLine ctx.tempStrBuf (nul_notMem_logLine ctx.lastTimestamp _ _)
    hline
  refine ⟨_, hcontents, ?_⟩
  simp only [doLog]
  rw [Buffer.lengthWithin_eq _ (by rw [hcontents]; exact hline), hcontents]
  rfl

theorem doLog_line (ctx : TimerDpcCtx) (r : CounterReading) :
    (doLog ctx r).2.tempStrBuf.contents = ctx.nextLine r := by
  obtain ⟨b, hcontents, hb⟩ := doLog_eq ctx r
  rw [hb]
  split <;> exact hcontents

/-- Under the invariant the check compares the lengths as they are: neither the
sum nor the conversion of `MaxLogSize - 1` wraps around. -/
theorem LogSound.doLog_iff (h : LogSound ctx) :
    (doLog ctx r).1 = true ↔
      ctx.log.contents.length + (ctx.nextLine r).length < Const.logSize - 1 := by
  have hlimit : (ctx.maxLogSize - 1).toInt64.toUInt64 = 8191 := by
    rw [h.limit]
    decide
  obtain ⟨b, -, hb⟩ := doLog_eq ctx r
  rw [hb, apply_ite Prod.fst, hlimit]
  simp only [Bool.if_false_right, Bool.and_true, decide_eq_true_eq, UInt64.lt_iff_toNat_lt,
    h.logSize_add r]
  rfl

/-- What `DoLog` appends fits, so it is appended whole. -/
theorem LogSound.doLog_true (h : LogSound ctx) (hlog : (doLog ctx r).1 = true) :
    (doLog ctx r).2.log.contents = ctx.log.contents ++ ctx.nextLine r ∧
      (doLog ctx r).2.logSize.toNat = ctx.log.contents.length + (ctx.nextLine r).length := by
  have hfits := h.doLog_iff.mp hlog
  obtain ⟨b, -, hb⟩ := doLog_eq ctx r
  rw [hb] at hlog ⊢
  split at hlog
  · rename_i hcheck
    rw [if_pos hcheck]
    refine ⟨?_, h.logSize_add r⟩
    exact Buffer.contents_append_of_fits _ (Nat.le_refl _) (Nat.lt_of_lt_pred hfits)
      (nul_notMem_logLine ctx.lastTimestamp _ _)
  · cases hlog

theorem LogSound.doLog (h : LogSound ctx) (r : CounterReading) :
    LogSound (MultiTimer.doLog ctx r).2 := by
  cases hlog : (MultiTimer.doLog ctx r).1 with
  | false =>
      obtain ⟨hsame, hsize⟩ := doLog_false hlog
      exact h.of_eq hsame hsize (doLog_maxLogSize ctx r)
  | true =>
      obtain ⟨hcontents, hsize⟩ := h.doLog_true hlog
      have hfits := h.doLog_iff.mp hlog
      refine ⟨?_, ?_, ?_, ?_⟩
      · rw [hsize, hcontents, List.length_append]
      · rw [hcontents, List.length_append]
        exact Nat.le_pred_of_lt hfits
      · rw [doLog_maxLogSize]
        exact h.limit
      · rw [hcontents, List.mem_append, not_or]
        exact ⟨h.verbatim, percent_notMem_logLine ctx.lastTimestamp _ _⟩

end DoLog

/-! ## Runs of one timer -/

/-- The timer expires, the kernel dequeues its DPC and the handler runs. -/
def State.execution (s : State) (i : Nat) (r : CounterReading) : State :=
  timerFunction i r ((s.expire i).dequeueTimer i)

def loggedExecution (i : Nat) (s : State) (r : CounterReading) : Option State :=
  if 0 = (s.timerCtx i).stopFlag ∧ (doLog (s.timerCtx i) r).1 = true then some (s.execution i r)
  else none

/-- A context as `InitTimer` leaves the zero-initialised one. -/
structure FreshLog (ctx : TimerDpcCtx) : Prop where
  log : ctx.log.contents = []
  logSize : ctx.logSize = 0
  maxLogSize : ctx.maxLogSize = Int32.ofNat Const.logSize
  lastTimestamp : ctx.lastTimestamp = 0
  stopFlag : ctx.stopFlag = 0

/-- What the log of a timer shows after executions with these readings. -/
structure LogExact (ctx : TimerDpcCtx) (rs : List CounterReading) : Prop extends LogSound ctx where
  log : ctx.log.contents = (logLines 0 rs).flatten
  last : ctx.lastTimestamp = lastReading 0 rs
  stopFlag : ctx.stopFlag = 0

section Runs
variable {n i : Nat} {s t : State} {r : CounterReading}

theorem execution_logged (hstop : 0 = (s.timerCtx i).stopFlag)
    (hlog : (doLog (s.timerCtx i) r).1 = true) :
    (s.execution i r).timerCtx i = (doLog (s.timerCtx i) r).2 := by
  simp [State.execution, timerFunction, ← hstop, hlog]

theorem execution_full (hstop : 0 = (s.timerCtx i).stopFlag)
    (hlog : (doLog (s.timerCtx i) r).1 = false) :
    (s.execution i r).timerCtx i =
        { (doLog (s.timerCtx i) r).2 with
          isRunning := (doLog (s.timerCtx i) r).2.isRunning - 1 } ∧
      ((s.execution i r).timer i).armed = false := by
  simp [State.execution, timerFunction, ← hstop, hlog]

/-- A logged execution is two steps of the system, and leaves the timer armed. -/
theorem loggedExecution_steps (hi : i < n) (harmed : (s.timer i).armed = true)
    (h : loggedExecution i s r = some t) :
    run (step n) s [.expire i, .runTimer i r] = some t ∧ (t.timer i).armed = true := by
  simp only [loggedExecution, Option.ite_none_right_eq_some, Option.some.injEq] at h
  obtain ⟨⟨hstop, hlog⟩, rfl⟩ := h
  refine ⟨?_, ?_⟩
  · simp [run, step, hi, harmed, State.execution]
  · simp [State.execution, timerFunction, ← hstop, hlog]

theorem loggedExecutions_run {rs : List CounterReading} (hi : i < n)
    (harmed : (s.timer i).armed = true) (hrun : run (loggedExecution i) s rs = some t) :
    run (step n) s (rs.flatMap fun r => [.expire i, .runTimer i r]) = some t ∧
      (t.timer i).armed = true := by
  induction rs generalizing s with
  | nil =>
      cases hrun
      exact ⟨rfl, harmed⟩
  | cons r rs ih =>
      obtain ⟨w, hw, hrest⟩ := run_cons.mp hrun
      obtain ⟨hsteps, hwarmed⟩ := loggedExecution_steps hi harmed hw
      obtain ⟨htail, htarmed⟩ := ih hwarmed hrest
      exact ⟨run_append.mpr ⟨w, hsteps, htail⟩, htarmed⟩

theorem FreshLog.logExact {ctx : TimerDpcCtx} (h : FreshLog ctx) : LogExact ctx [] where
  size := by rw [h.logSize, h.log]; rfl
  bound := by rw [h.log]; exact Nat.zero_le _
  limit := h.maxLogSize
  verbatim := by simp [h.log]
  log := h.log
  last := h.lastTimestamp
  stopFlag := h.stopFlag

theorem LogExact.loggedExecution {rs : List CounterReading} (h : LogExact (s.timerCtx i) rs)
    (hstep : MultiTimer.loggedExecution i s r = some t) :
    LogExact (t.timerCtx i) (rs ++ [r]) := by
  simp only [MultiTimer.loggedExecution, Option.ite_none_right_eq_some, Option.some.injEq] at hstep
  obtain ⟨⟨hstop, hlog⟩, rfl⟩ := hstep
  rw [execution_logged hstop hlog]
  refine ⟨h.toLogSound.doLog r, ?_, ?_, ?_⟩
  · rw [(h.toLogSound.doLog_true hlog).1, h.log, logLines_concat, List.flatten_append,
      TimerDpcCtx.nextLine, h.last]
    simp only [List.flatten_cons, List.flatten_nil, List.append_nil]
  · rw [doLog_lastTimestamp, lastReading_concat]
  · rw [doLog_stopFlag, h.stopFlag]

theorem LogExact.run {rs qs : List CounterReading} (h : LogExact (s.timerCtx i) qs)
    (hrun : Transition.run (MultiTimer.loggedExecution i) s rs = some t) :
    LogExact (t.timerCtx i) (qs ++ rs) := by
  induction rs generalizing s qs with
  | nil =>
      cases hrun
      simpa only [List.append_nil] using h
  | cons r rs ih =>
      obtain ⟨w, hw, hr⟩ := run_cons.mp hrun
      simpa only [List.append_assoc, List.singleton_append] using ih (h.loggedExecution hw) hr

theorem le_logLines_length (last : Int64) (rs : List CounterReading) :
    52 * rs.length ≤ (logLines last rs).flatten.length := by
  induction rs generalizing last with
  | nil => simp [logLines]
  | cons r rs ih =>
      have hline := le_logLine_length last r.timestamp r.freq
      have htail := ih r.timestamp
      simp only [logLines, List.flatten_cons, List.length_append, List.length_cons]
      omega

theorem LogExact.length_le {ctx : TimerDpcCtx} {rs : List CounterReading} (h : LogExact ctx rs) :
    rs.length ≤ 157 := by
  have hlines := le_logLines_length 0 rs
  have hbound := h.bound
  have hcap : Const.logSize = 8192 := rfl
  rw [h.log] at hbound
  omega

end Runs

/-- The log of timer `i` after logged executions with the readings `rs`, and
what its next execution does. The recursion of `logLines` passes each line the
timestamp of the one before it. -/
structure TimerLog (i : Nat) (s : State) (rs : List CounterReading) : Prop where
  lines : (s.timerCtx i).log.contents = (logLines 0 rs).flatten
  logSize : (s.timerCtx i).logSize.toNat = (s.timerCtx i).log.contents.length
  bound : (s.timerCtx i).log.contents.length ≤ Const.logSize - 2
  verbatim : '%' ∉ (s.timerCtx i).log.contents ∧
    dbgPrintEx (s.timerCtx i).log.contents = some (logLines 0 rs).flatten
  nextLine : ∀ r, ((s.execution i r).timerCtx i).tempStrBuf.contents =
      logLine (lastReading 0 rs) r.timestamp r.freq ∧
    (logLine (lastReading 0 rs) r.timestamp r.freq).length ≤ 109 ∧ 109 < Const.tempStrSize
  full : ∀ r, (doLog (s.timerCtx i) r).1 = false →
    ((s.execution i r).timerCtx i).log = (s.timerCtx i).log ∧
      ((s.execution i r).timerCtx i).logSize = (s.timerCtx i).logSize ∧
      ((s.execution i r).timer i).armed = false
  count : rs.length ≤ 157
  stops : ∀ qs, 157 < rs.length + qs.length → ∃ ps r rest t, qs = ps ++ r :: rest ∧
    run (loggedExecution i) s ps = some t ∧ (doLog (t.timerCtx i) r).1 = false ∧
      ((t.execution i r).timer i).armed = false

theorem LogExact.nextLine {i : Nat} {s : State} {rs : List CounterReading}
    (h : LogExact (s.timerCtx i) rs) (r : CounterReading) :
    ((s.execution i r).timerCtx i).tempStrBuf.contents =
      logLine (lastReading 0 rs) r.timestamp r.freq := by
  have hline := doLog_line (s.timerCtx i) r
  rw [TimerDpcCtx.nextLine, h.last] at hline
  cases hlog : (doLog (s.timerCtx i) r).1 with
  | true =>
      rw [execution_logged h.stopFlag.symm hlog]
      exact hline
  | false =>
      rw [(execution_full h.stopFlag.symm hlog).1]
      exact hline

/-- The log is full before the 158th line, and the handler then stops its timer. -/
theorem LogExact.stops {i : Nat} {s : State} {rs : List CounterReading}
    (h : LogExact (s.timerCtx i) rs) (qs : List CounterReading)
    (hlong : 157 < rs.length + qs.length) :
    ∃ ps r rest t, qs = ps ++ r :: rest ∧ Transition.run (MultiTimer.loggedExecution i) s ps = some t ∧
      (doLog (t.timerCtx i) r).1 = false ∧ ((t.execution i r).timer i).armed = false := by
  have hnone : Transition.run (MultiTimer.loggedExecution i) s qs = none := by
    cases hrun : Transition.run (MultiTimer.loggedExecution i) s qs with
    | none => rfl
    | some t =>
        have hlen := (h.run hrun).length_le
        rw [List.length_append] at hlen
        omega
  obtain ⟨ps, r, rest, t, hqs, hrun, hstep⟩ := exists_disabled_of_run_eq_none hnone
  have hstop := (h.run hrun).stopFlag.symm
  have hfull : (doLog (t.timerCtx i) r).1 = false := by
    simpa [MultiTimer.loggedExecution, ← hstop] using hstep
  exact ⟨ps, r, rest, t, hqs, hrun, hfull, (execution_full hstop hfull).2⟩

theorem timerLog_exact {i : Nat} {s t : State} {rs : List CounterReading}
    (hfresh : FreshLog (s.timerCtx i)) (hrun : run (loggedExecution i) s rs = some t) :
    TimerLog i t rs := by
  have h : LogExact (t.timerCtx i) rs := hfresh.logExact.run hrun
  refine ⟨h.log, h.size, h.bound, ⟨h.verbatim, ?_⟩, ?_, ?_, h.length_le, h.stops⟩
  · rw [dbgPrintEx, if_neg h.verbatim, h.log]
  · intro r
    exact ⟨h.nextLine r, logLine_length_le _ _ _, by decide⟩
  · intro r hfull
    obtain ⟨hctx, harmed⟩ := execution_full (r := r) h.stopFlag.symm hfull
    obtain ⟨hlog, hsize⟩ := doLog_false hfull
    rw [hctx]
    exact ⟨hlog, hsize, harmed⟩

/-! ## Contexts set up by `InitDPC` -/

theorem initDpc_freshLog {n i : Nat} (res : TimerResolution) (hi : i < n) :
    FreshLog ((initDpc n res).timerCtx i) := by
  rw [initDpc_timerCtx, if_pos hi]
  exact ⟨Buffer.contents_zeroed (by decide), rfl, rfl, rfl, rfl⟩

theorem registerTimer_freshLog {s : State} {i : Nat} (h : FreshLog (s.timerCtx i)) :
    FreshLog ((s.registerTimer i).timerCtx i) := by
  simp only [State.registerTimer_timerCtx, update_self]
  exact ⟨h.log, h.logSize, h.maxLogSize, h.lastTimestamp, h.stopFlag⟩

theorem FreshLog.loggedExecution {s : State} {i : Nat} (h : FreshLog (s.timerCtx i))
    (r : CounterReading) : MultiTimer.loggedExecution i s r = some (s.execution i r) := by
  have hfits : (s.timerCtx i).log.contents.length + ((s.timerCtx i).nextLine r).length <
      Const.logSize - 1 := by
    rw [h.log, List.length_nil, Nat.zero_add]
    exact Nat.lt_trans (nextLine_length_lt _ r) (by decide)
  rw [MultiTimer.loggedExecution,
    if_pos ⟨h.stopFlag.symm, h.logExact.toLogSound.doLog_iff.mpr hfits⟩]

theorem timerLog_exact_firstLine :
    TimerLog 4 ((initDpc 5 halfMillisecond).execution 4 ⟨-1, 10000000⟩) [⟨-1, 10000000⟩] :=
  have hfresh := initDpc_freshLog halfMillisecond (show 4 < 5 by decide)
  timerLog_exact hfresh (run_cons.mpr ⟨_, hfresh.loggedExecution _, rfl⟩)

/-! ## The printed logs -/

/-- Every log `DeInitDPC` passes to `DbgPrintEx` is printed as it stands. -/
structure LogsSound (n : Nat) (s : State) : Prop where
  timers : ∀ i < n, LogSound (s.timerCtx i)
  registering : '%' ∉ s.regCtx.log.contents
  output : none ∉ s.output

section PrintedLogs
variable {n : Nat} {s t : State}

theorem timerFunction_logSound (i : Nat) (r : CounterReading) (h : LogSound (s.timerCtx i)) :
    LogSound ((timerFunction i r s).timerCtx i) := by
  by_cases hstop : 0 = (s.timerCtx i).stopFlag
  · have hdone := h.doLog r
    cases hlog : (doLog (s.timerCtx i) r).1 with
    | true => simpa [timerFunction, ← hstop, hlog] using hdone
    | false =>
        refine hdone.of_eq ?_ ?_ ?_ <;> simp [timerFunction, ← hstop, hlog]
  · refine h.of_eq ?_ ?_ ?_ <;> simp [timerFunction, hstop]

theorem TimerReturn.timerCtx_of_ne {i j : Nat} (h : TimerReturn i s t) (hj : j ≠ i) :
    t.timerCtx j = s.timerCtx j := by
  cases h with
  | rearm ctx | stop ctx => simp [hj]

theorem regLine_verbatim (current freq : Int64) :
    nul ∉ regLine current freq ∧ '%' ∉ regLine current freq := by
  unfold regLine
  simp [nul, Decimal.notMem_ofInt]

theorem logReading_verbatim {ctx : DpcRegCtx} (r : CounterReading)
    (h : '%' ∉ ctx.log.contents) : '%' ∉ (ctx.logReading r).log.contents := by
  obtain ⟨hnul, hpercent⟩ := regLine_verbatim r.timestamp r.freq
  simp only [DpcRegCtx.logReading]
  rw [Buffer.contents_print _ _ (by decide) hnul,
    Buffer.contents_append _ _ (Buffer.contents_length_lt _)
      fun hmem => hnul (List.mem_of_mem_take hmem)]
  intro hmem
  cases List.mem_append.mp hmem with
  | inl hold => exact h hold
  | inr hnew => exact hpercent (List.mem_of_mem_take (List.mem_of_mem_take hnew))

theorem LogsSound.dumpLines (h : LogsSound n s) : none ∉ dumpLines n s := by
  have htimer : ∀ i < n, dbgPrintEx (s.timerCtx i).log.contents ≠ none := by
    intro i hi
    rw [dbgPrintEx, if_neg (h.timers i hi).verbatim]
    exact Option.some_ne_none _
  intro hmem
  simp only [MultiTimer.dumpLines, List.mem_append, List.mem_flatMap, List.mem_cons,
    List.not_mem_nil, or_false, reduceCtorEq, false_or] at hmem
  cases hmem with
  | inl hreg =>
      rw [dbgPrintEx, if_neg h.registering] at hreg
      cases hreg
  | inr hlog =>
      obtain ⟨i, hi, hnone⟩ := hlog
      exact htimer i (List.mem_range.mp hi) hnone.symm

theorem LogsSound.frame (h : LogsSound n s) (hctx : ∀ i < n, LogSound (t.timerCtx i))
    (hreg : t.regCtx.log = s.regCtx.log) (hout : t.output = s.output) : LogsSound n t := by
  refine ⟨hctx, ?_, ?_⟩
  · rw [hreg]
    exact h.registering
  · rw [hout]
    exact h.output

theorem LogsSound.runTimer (h : LogsSound n s) {i : Nat} {r : CounterReading}
    (ht : t = timerFunction i r s) : LogsSound n t := by
  have hreturn := timerFunction_returns ht
  have hctx : ∀ j < n, LogSound (t.timerCtx j) := by
    intro j hj
    by_cases hi : j = i
    · subst hi
      rw [ht]
      exact timerFunction_logSound j r (h.timers j hj)
    · rw [hreturn.timerCtx_of_ne hi]
      exact h.timers j hj
  cases hreturn with
  | rearm | stop => exact h.frame hctx rfl rfl

theorem LogsSound.update_timerCtx (h : LogsSound n s) (i : Nat) (ctx : TimerDpcCtx)
    (hlog : ctx.log = (s.timerCtx i).log) (hsize : ctx.logSize = (s.timerCtx i).logSize)
    (hlimit : ctx.maxLogSize = (s.timerCtx i).maxLogSize) :
    ∀ j < n, LogSound (update s.timerCtx i ctx j) := by
  intro j hj
  by_cases hi : j = i
  · subst hi
    rw [update_self]
    exact (h.timers j hj).of_eq hlog hsize hlimit
  · rw [update_of_ne hi]
    exact h.timers j hj

theorem LogsSound.runReg (h : LogsSound n s) {readings : List CounterReading}
    (hreg : regFunction n readings s = .returned t) : LogsSound n t := by
  cases regFunction_returns hreg with
  | done => exact h.frame h.timers rfl rfl
  | registered counter =>
      have hctx := h.update_timerCtx s.regCtx.regedDpc
        { s.timerCtx s.regCtx.regedDpc with
          isRunning := (s.timerCtx s.regCtx.regedDpc).isRunning + 1 } rfl rfl rfl
      refine ⟨?_, ?_, ?_⟩
      · rw [nextRegistration_timerCtx]
        exact hctx
      · rw [nextRegistration_log]
        exact logReading_verbatim counter h.registering
      · rw [nextRegistration_output]
        exact h.output

theorem LogsSound.deInit (h : LogsSound n s) (hstep : DeInitStep n s t) : LogsSound n t := by
  cases hstep with
  | stopReg | enterLoop | stay | exit | read | delay | cancel | finish =>
      exact h.frame h.timers rfl rfl
  | stopTimer i => exact h.frame (h.update_timerCtx i _ rfl rfl rfl) rfl rfl
  | dump =>
      refine ⟨h.timers, h.registering, ?_⟩
      intro hmem
      exact (List.mem_append.mp hmem).elim h.output h.dumpLines

theorem LogsSound.step (h : LogsSound n s) {a : Action} (hstep : MultiTimer.step n s a = some t) :
    LogsSound n t := by
  cases a with
  | expire i =>
      obtain ⟨-, -, rfl⟩ := step_expire hstep
      exact h.frame h.timers rfl rfl
  | runTimer i r =>
      have hdequeued : LogsSound n (s.dequeueTimer i) := h.frame h.timers rfl rfl
      exact hdequeued.runTimer (step_runTimer hstep).2.2
  | runReg readings =>
      have hdequeued : LogsSound n s.dequeueReg := h.frame h.timers rfl rfl
      exact hdequeued.runReg (step_runReg hstep).2
  | deInit => exact h.deInit (step_deInit hstep)

end PrintedLogs

theorem initDpc_logsSound (n : Nat) (res : TimerResolution) : LogsSound n (initDpc n res) := by
  refine ⟨fun i hi => (initDpc_freshLog res hi).logExact.toLogSound, ?_, ?_⟩
  · have hlog : (initDpc n res).regCtx.log = staticRegCtx.log := by
      simp only [initDpc, State.keInsertReg_regCtx]
      rw [initTimers_frame]
      rfl
    have hempty : staticRegCtx.log.contents = [] := Buffer.contents_zeroed (by decide)
    simp [hlog, hempty]
  · simp [initDpc_output]

/-- In every run the logs are printed as they stand, though each is the format. -/
theorem output_verbatim {n : Nat} {s : State} (h : Reachable n s) : none ∉ s.output := by
  have hinit : ∀ s₀, (∃ res, s₀ = initDpc n res) → LogsSound n s₀ := by
    intro s₀ ⟨res, heq⟩
    rw [heq]
    exact initDpc_logsSound n res
  exact (Transition.Reachable.invariant hinit (fun _ _ _ hs => hs.step) h).output

/-- One timer logs once, is stopped and the logs are printed. -/
def loggedOnce : List Action :=
  [.runReg [⟨0, 1⟩, ⟨1000, 1⟩, ⟨1001, 1⟩], .expire 0, .runTimer 0 ⟨2000, 1⟩, .expire 0] ++
    List.replicate 3 .deInit ++ [.runTimer 0 ⟨3000, 1⟩] ++ List.replicate 7 .deInit

theorem output_verbatim_loggedOnce :
    ∃ s, Transition.run (step 1) (initDpc 1 halfMillisecond) loggedOnce = some s ∧
      s.deInit = .returned ∧ none ∉ s.output :=
  ⟨_, rfl, rfl, output_verbatim (n := 1) ⟨_, loggedOnce, ⟨halfMillisecond, rfl⟩, rfl⟩⟩

end WdmTest.MultiTimer
