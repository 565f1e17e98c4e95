import WdmTest.HiResTimer.Model
import WdmTest.Lib.Spacing

/-!
Why the unbounded `sprintf` of the callbacks stays inside the log. A line is no
longer than 48 characters whatever the counter reads; callbacks that keep their
distance are few in a window; and the cursor stays on the terminator, so the
lines follow each other without a gap.

That the callbacks lie in a window is assumed: the delay of a test may take longer
than asked, and nothing in the driver counts its callbacks.
-/
namespace WdmTest.HiResTimer
open CString Spacing

def logText (cs : List Callback) : List Char :=
  cs.flatMap fun c => logLine c.reading.freq c.reading.timestamp

/-- The log holds exactly this text and a terminator behind it, the cursor stands
on the terminator, and all of it is inside the log. -/
structure LogHolds (s : State) (text : List Char) : Prop where
  contents : s.logData.contents = text
  terminated : s.logData.cells.take (text.length + 1) = text ++ [nul]
  cursor : s.logCursor = text.length
  fits : text.length < Const.logSize

def TimerTest.spacing (test : TimerTest) : Nat := test.interval.toInt.natAbs

/-- How long a test is meant to run. -/
def TimerTest.window (test : TimerTest) : Nat := test.runtime.toInt.natAbs

/-! ## One line -/

theorem logLine_length_le (freq timestamp : Int64) : (logLine freq timestamp).length ≤ 48 := by
  have hfreq := Decimal.ofInt_int64_length_le freq
  have htimestamp := Decimal.ofInt_int64_length_le timestamp
  unfold logLine
  simp only [List.length_append]
  change 1 + _ + 6 + _ + 1 ≤ 48
  omega

theorem nul_notMem_logLine (freq timestamp : Int64) : nul ∉ logLine freq timestamp := by
  unfold logLine
  simp [nul, Decimal.notMem_ofInt]

theorem logText_length_le (cs : List Callback) : (logText cs).length ≤ 48 * cs.length := by
  induction cs with
  | nil => exact Nat.le_refl 0
  | cons c cs ih =>
      have hline := logLine_length_le c.reading.freq c.reading.timestamp
      rw [logText] at ih
      rw [logText, List.flatMap_cons, List.length_append, List.length_cons, Nat.mul_succ]
      omega

/-! ## Callbacks -/

section Callbacks
variable (test : TimerTest) {s : State} {text : List Char}

theorem initial_logHolds (now : Int) (timerHandle : Bool) :
    LogHolds (initial test now timerHandle) [] := by
  have hcontents : (initial test now timerHandle).logData.contents = [] :=
    Buffer.contents_zeroed (by decide)
  refine ⟨hcontents, ?_, rfl, by decide⟩
  have hcells := (initial test now timerHandle).logData.take_contents_succ
  rw [hcontents] at hcells
  exact hcells

theorem LogHolds.exTimerCallback (h : LogHolds s text) (now : Int) (r : CounterReading)
    (hfits : (text ++ logLine r.freq r.timestamp).length < Const.logSize) :
    ∃ t, exTimerCallback test now r s = some t ∧
      LogHolds t (text ++ logLine r.freq r.timestamp) ∧ t.due = some (waitDue now test.interval) := by
  have hstore : s.logCursor + (logLine r.freq r.timestamp).length < Const.logSize := by
    rw [h.cursor, ← List.length_append]
    exact hfits
  have hcontents : (s.logData.store s.logCursor _ hstore).contents =
      text ++ logLine r.freq r.timestamp := by
    rw [Buffer.contents_store _ _ (by rw [h.cursor, h.contents]) (nul_notMem_logLine _ _),
      h.contents, h.cursor, List.take_length]
  refine ⟨{
    logData := s.logData.store s.logCursor _ hstore
    logCursor := s.logCursor + (logLine r.freq r.timestamp).length
    due := some (waitDue now test.interval) }, ?_, ⟨hcontents, ?_, ?_, hfits⟩, rfl⟩
  · rw [HiResTimer.exTimerCallback, sprintf, dif_pos hstore]
    rfl
  · rw [← hcontents]
    exact Buffer.take_contents_succ _
  · rw [List.length_append, ← h.cursor]

theorem LogHolds.runCallbacks {cs : List Callback} (h : LogHolds s text)
    (hfits : (text ++ logText cs).length < Const.logSize) :
    ∃ t, runCallbacks test s cs = some t ∧ LogHolds t (text ++ logText cs) := by
  induction cs generalizing s text with
  | nil => exact ⟨s, rfl, by rw [logText, List.flatMap_nil, List.append_nil]; exact h⟩
  | cons c cs ih =>
      rw [logText, List.flatMap_cons, ← List.append_assoc] at hfits ⊢
      have hline : (text ++ logLine c.reading.freq c.reading.timestamp).length < Const.logSize := by
        rw [List.length_append] at hfits
        exact Nat.lt_of_le_of_lt (Nat.le_add_right _ _) hfits
      obtain ⟨t, ht, hholds, -⟩ := h.exTimerCallback test c.time c.reading hline
      obtain ⟨u, hu, hall⟩ := ih hholds hfits
      refine ⟨u, ?_, hall⟩
      rw [HiResTimer.runCallbacks, ht]
      exact hu

end Callbacks

/-- Callbacks that keep their distance in a window leave room in the log. -/
theorem logText_fits {d window : Nat} {start : Int} {cs : List Callback} (hd : 0 < d)
    (hroom : 48 * (window / d + 1) < Const.logSize) (hspaced : Spaced d (cs.map Callback.time))
    (hwithin : Within start window (cs.map Callback.time)) :
    (logText cs).length < Const.logSize := by
  have hcount := hspaced.length_le hd hwithin
  rw [List.length_map] at hcount
  have htext := logText_length_le cs
  have hmono : 48 * cs.length ≤ 48 * (window / d + 1) := Nat.mul_le_mul_left 48 hcount
  omega

/-- After each callback the log holds the lines so far, and what is printed in the
end shows all of them. The constants of both tests leave the room that takes. -/
theorem log_fits :
    (∀ test ∈ [testHighResTimer, testNoWakeTimer],
      0 < test.spacing ∧ 48 * (test.window / test.spacing + 1) < Const.logSize) ∧
    ∀ (test : TimerTest) (d window : Nat) (now start : Int) (cs : List Callback), 0 < d →
      48 * (window / d + 1) < Const.logSize → Spaced d (cs.map Callback.time) →
      Within start window (cs.map Callback.time) →
      (∀ k ≤ cs.length, ∃ s, runCallbacks test (initial test now true) (cs.take k) = some s ∧
        LogHolds s (logText (cs.take k))) ∧
      ∃ s, runCallbacks test (initial test now true) cs = some s ∧
        printLog test s = [test.title, logText cs] := by
  refine ⟨by decide, ?_⟩
  intro test d window now start cs hd hroom hspaced hwithin
  have hrun (k : Nat) : ∃ s, runCallbacks test (initial test now true) (cs.take k) = some s ∧
      LogHolds s (logText (cs.take k)) := by
    have hfits : (logText (cs.take k)).length < Const.logSize := by
      have hspaced' : Spaced d ((cs.take k).map Callback.time) := by
        rw [List.map_take]
        exact List.IsChain.take hspaced k
      have hwithin' : Within start window ((cs.take k).map Callback.time) := by
        rw [List.map_take]
        exact hwithin.take k
      exact logText_fits hd hroom hspaced' hwithin'
    exact (initial_logHolds test now true).runCallbacks test hfits
  refine ⟨fun k _ => hrun k, ?_⟩
  obtain ⟨s, hs, hholds⟩ := hrun cs.length
  rw [List.take_length] at hs hholds
  refine ⟨s, hs, ?_⟩
  rw [printLog, hholds.contents]

def twoCallbacks : List Callback :=
  [{ time := 5000, reading := { timestamp := 81, freq := 10000000 } },
    { time := 10000, reading := { timestamp := -7, freq := 10000000 } }]

theorem log_fits_twoCallbacks :
    ∃ s, runCallbacks testHighResTimer (initial testHighResTimer 0 true) twoCallbacks = some s ∧
      printLog testHighResTimer s = [testHighResTimer.title, logText twoCallbacks] := by
  have hspaced : Spaced 5000 (twoCallbacks.map Callback.time) := by
    simp [Spaced, twoCallbacks]
  have hwithin : Within 0 10000000 (twoCallbacks.map Callback.time) := by
    simp [Within, twoCallbacks]
  exact (log_fits.2 testHighResTimer 5000 10000000 0 0 twoCallbacks (by decide) (by decide)
    hspaced hwithin).2

end WdmTest.HiResTimer
