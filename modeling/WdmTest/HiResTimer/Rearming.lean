import WdmTest.HiResTimer.LogFits
import WdmTest.Lib.Transition

/-!
The timer that sets itself again. A callback sets the timer to a due time one
interval after the callback itself, and the timer never expires early, so in every
run the callbacks keep their distance however late they come. With that the log
has room for every callback inside a window that is short enough; how long the
callbacks go on is up to the test and is not settled here.
-/
namespace WdmTest.HiResTimer
open CString Spacing Transition

variable {test : TimerTest} {s t : System}

theorem waitDue_interval (test : TimerTest) (now : Int) :
    waitDue now test.interval = now + test.spacing := by
  have hrelative := test.relative
  rw [waitDue, if_pos hrelative, TimerTest.spacing]
  omega

theorem step_expire {r : CounterReading} (h : step test s (.expire r) = some t) :
    ∃ due u, s.state.due = some due ∧ due ≤ s.now ∧
      exTimerCallback test s.now r s.state = some u ∧
      t = { s with state := u, fired := s.fired ++ [Callback.mk s.now r] } := by
  rw [step] at h
  split at h
  · rename_i due hdue
    obtain ⟨hnow, hmap⟩ := Option.ite_none_right_eq_some.mp h
    obtain ⟨u, hu, rfl⟩ := Option.map_eq_some_iff.mp hmap
    exact ⟨due, u, hdue, hnow, hu, rfl⟩
  · contradiction

theorem exTimerCallback_fits {u v : State} {now : Int} {r : CounterReading}
    (h : exTimerCallback test now r u = some v) :
    u.logCursor + (logLine r.freq r.timestamp).length < Const.logSize := by
  obtain ⟨w, hw, -⟩ := Option.map_eq_some_iff.mp h
  rw [sprintf] at hw
  split at hw
  · assumption
  · contradiction

structure Rearmed (test : TimerTest) (s : System) : Prop where
  spaced : Spaced test.spacing (s.fired.map Callback.time)
  due : ∀ due, s.state.due = some due →
    ∀ last ∈ (s.fired.map Callback.time).getLast?, last + test.spacing ≤ due
  log : LogHolds s.state (logText s.fired)

theorem start_rearmed (now : Int) (timerHandle : Bool) :
    Rearmed test (start test now timerHandle) := by
  refine ⟨List.isChain_nil, ?_, initial_logHolds test now timerHandle⟩
  intro due _ last hlast
  simp [start] at hlast

theorem Rearmed.concat {due : Int} (h : Rearmed test s) (hdue : s.state.due = some due)
    (hnow : due ≤ s.now) (r : CounterReading) :
    Spaced test.spacing ((s.fired ++ [Callback.mk s.now r]).map Callback.time) := by
  rw [List.map_append]
  apply h.spaced.concat
  intro last hlast
  have hbefore := h.due due hdue last hlast
  exact Int.le_trans hbefore hnow

theorem logText_concat (cs : List Callback) (c : Callback) :
    logText (cs ++ [c]) = logText cs ++ logLine c.reading.freq c.reading.timestamp := by
  rw [logText, logText, List.flatMap_append, List.flatMap_singleton]

theorem Rearmed.step {a : Action} (h : Rearmed test s) (hstep : step test s a = some t) :
    Rearmed test t := by
  cases a with
  | tick time =>
      cases hstep
      exact ⟨h.spaced, h.due, h.log⟩
  | expire r =>
      obtain ⟨due, u, hdue, hnow, hu, rfl⟩ := step_expire hstep
      have hfits : (logText s.fired ++ logLine r.freq r.timestamp).length < Const.logSize := by
        rw [List.length_append, ← h.log.cursor]
        exact exTimerCallback_fits hu
      obtain ⟨v, hv, hholds, hvdue⟩ := h.log.exTimerCallback test s.now r hfits
      rw [hu, Option.some.injEq] at hv
      rw [← hv] at hholds hvdue
      refine ⟨h.concat hdue hnow r, ?_, ?_⟩
      · intro due' hdue' last hlast
        rw [List.map_append, List.map_singleton, List.getLast?_concat,
          Option.mem_some_iff] at hlast
        rw [hvdue, Option.some.injEq, waitDue_interval] at hdue'
        rw [← hlast, hdue']
      · rw [logText_concat]
        exact hholds
  | exDeleteTimer =>
      cases hstep
      refine ⟨h.spaced, ?_, ⟨h.log.contents, h.log.terminated, h.log.cursor, h.log.fits⟩⟩
      intro due hdue
      contradiction

theorem rearmed_of_reachable {now : Int} {timerHandle : Bool}
    (h : Reachable (step test) (fun s => s = start test now timerHandle) s) : Rearmed test s := by
  apply h.invariant
  · intro s₀ hs
    rw [hs]
    exact start_rearmed now timerHandle
  · intro s₀ a s₁ hs hstep
    exact hs.step hstep

/-- As long as the callbacks stay in a window that is short enough for the log, an
expiry writes inside the log. -/
theorem callback_defined {now start' due : Int} {window : Nat} {timerHandle : Bool}
    {r : CounterReading} (h : Reachable (step test) (fun s => s = start test now timerHandle) s)
    (hspacing : 0 < test.spacing) (hroom : 48 * (window / test.spacing + 1) < Const.logSize)
    (hdue : s.state.due = some due) (hnow : due ≤ s.now)
    (hwithin : Within start' window
      ((s.fired ++ [Callback.mk s.now r]).map Callback.time)) :
    ∃ t, step test s (.expire r) = some t := by
  have hrearmed := rearmed_of_reachable h
  have hfits := logText_fits hspacing hroom (hrearmed.concat hdue hnow r) hwithin
  rw [logText_concat] at hfits
  obtain ⟨u, hu, -, -⟩ := hrearmed.log.exTimerCallback test s.now r hfits
  refine ⟨{ s with state := u, fired := s.fired ++ [{ time := s.now, reading := r }] }, ?_⟩
  simp only [step, hdue, if_pos hnow, hu, Option.map_some]

end WdmTest.HiResTimer
