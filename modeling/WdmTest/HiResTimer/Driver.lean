import WdmTest.HiResTimer.Rearming
import WdmTest.Lib.Readback

/-!
The whole of HiResTimerTest: `DriverEntry` runs one test behind the other and
prints both logs, while the timers expire beside it. Each timer goes through the
steps of the system of one timer, so what holds there holds here; what is added is
the order of the two tests and that the logs are printed when their timers are
gone.

A callback whose line leaves its log has no step: what follows it is undefined. So the
runs here are those in which every line fits, and it is these that the results are about.
-/
namespace WdmTest.HiResTimer
open Function Readback Spacing Transition

inductive Test where
  | highRes
  | noWake
deriving DecidableEq, Repr

def Test.parameters : Test → TimerTest
  | .highRes => testHighResTimer
  | .noWake => testNoWakeTimer

/-- Where `DriverEntry` stands; a delay lasts until some time. -/
inductive EntryPc where
  | allocating (w : Test)
  | delaying (w : Test) (wakeTime : Int)
  | deleting (w : Test)
  | printing (w : Test)
  | returned
deriving DecidableEq, Repr

structure Driver where
  now : Int
  pc : EntryPc
  timer : Test → State
  fired : Test → List Callback
  output : List (List Char)

/-- The loaded image: both logs are zeroed and no timer is set. -/
def loaded (now : Int) : Driver where
  now := now
  pc := .allocating .highRes
  timer w := initial w.parameters now false
  fired _ := []
  output := []

def EntryPc.afterDelete : Test → EntryPc
  | .highRes => .allocating .noWake
  | .noWake => .printing .highRes

def EntryPc.afterPrint : Test → EntryPc
  | .highRes => .printing .noWake
  | .noWake => .returned

/-- The next step of `DriverEntry`; `timerHandle` tells whether a timer can be
allocated. A timer that could not is neither set nor deleted. -/
def driverEntry (timerHandle : Bool) (d : Driver) : Option Driver :=
  match d.pc with
  | .allocating w =>
      let test := w.parameters
      let due := if timerHandle then some (waitDue d.now test.interval) else (d.timer w).due
      some { d with
        timer := update d.timer w { d.timer w with due := due }
        pc := .delaying w (waitDue d.now test.runtime) }
  | .delaying w wakeTime => if wakeTime ≤ d.now then some { d with pc := .deleting w } else none
  | .deleting w =>
      some { d with
        timer := update d.timer w { d.timer w with due := none }
        pc := .afterDelete w }
  | .printing w =>
      some { d with
        output := d.output ++ printLog w.parameters (d.timer w)
        pc := .afterPrint w }
  | .returned => none

inductive DriverAction where
  | tick (time : Nat)
  | expire (w : Test) (reading : CounterReading)
  | entry (timerHandle : Bool)
deriving DecidableEq, Repr

@[simps] def Driver.afterCallback (d : Driver) (w : Test) (r : CounterReading) (t : State) :
    Driver :=
  { d with
    timer := update d.timer w t
    fired := update d.fired w (d.fired w ++ [{ time := d.now, reading := r }]) }

/-- The callback of a timer that is due and whose line fits its log. -/
def expireTimer (w : Test) (r : CounterReading) (d : Driver) : Option Driver :=
  match (d.timer w).due with
  | some due =>
      if due ≤ d.now then
        (exTimerCallback w.parameters d.now r (d.timer w)).map (d.afterCallback w r)
      else none
  | none => none

def driverStep (d : Driver) : DriverAction → Option Driver
  | .tick time => some { d with now := d.now + time }
  | .expire w r => expireTimer w r d
  | .entry timerHandle => driverEntry timerHandle d

/-- One timer of the driver as a system of its own. -/
@[simps] def Driver.system (d : Driver) (w : Test) : System where
  now := d.now
  state := d.timer w
  fired := d.fired w

/-! ## The order of the tests -/

def Test.first : Test → Nat
  | .highRes => 0
  | .noWake => 3

/-- The steps `DriverEntry` has made. -/
def EntryPc.stage : EntryPc → Nat
  | .allocating w => w.first
  | .delaying w _ => w.first + 1
  | .deleting w => w.first + 2
  | .printing .highRes => 6
  | .printing .noWake => 7
  | .returned => 8

def logOf (d : Driver) (w : Test) : List (List Char) :=
  [w.parameters.title, logText (d.fired w)]

def printedSoFar (d : Driver) : List (List Char) :=
  if d.pc.stage ≤ 6 then [] else if d.pc.stage ≤ 7 then logOf d .highRes
  else logOf d .highRes ++ logOf d .noWake

/-- What holds at any time; a test has not begun up to its first stage, and its
timer is gone three stages later. -/
structure Driver.Sound (d : Driver) : Prop where
  rearmed : ∀ w, Rearmed w.parameters (d.system w)
  waiting : ∀ w, d.pc.stage ≤ w.first → (d.timer w).due = none ∧ d.fired w = []
  gone : ∀ w, w.first + 3 ≤ d.pc.stage → (d.timer w).due = none
  past : ∀ w, ∀ c ∈ d.fired w, c.time ≤ d.now
  ordered : ∀ c ∈ d.fired .highRes, ∀ e ∈ d.fired .noWake, c.time ≤ e.time
  output : d.output = printedSoFar d

section Steps
variable {d e : Driver}

theorem expireTimer_spec {w : Test} {r : CounterReading} (h : expireTimer w r d = some e) :
    (d.timer w).due ≠ none ∧ ∃ t, e = d.afterCallback w r t ∧
      step w.parameters (d.system w) (.expire r) = some (e.system w) := by
  rw [expireTimer] at h
  split at h
  · rename_i due hdue
    obtain ⟨hnow, hmap⟩ := Option.ite_none_right_eq_some.mp h
    obtain ⟨t, ht, rfl⟩ := Option.map_eq_some_iff.mp hmap
    refine ⟨by rw [hdue]; exact Option.some_ne_none due, t, rfl, ?_⟩
    simp [step, Driver.system, hdue, hnow, ht]
  · cases h

theorem afterCallback_other {w w' : Test} (hne : w' ≠ w) (r : CounterReading) (t : State) :
    (d.afterCallback w r t).system w' = d.system w' := by
  simp [Driver.system, update_of_ne hne]

/-- What `DriverEntry` does in one step, by what it changes. -/
inductive EntryStep (d : Driver) : Driver → Prop where
  | allocate (w : Test) (timerHandle : Bool) (hpc : d.pc = .allocating w) :
      EntryStep d { d with
        timer := update d.timer w { d.timer w with
          due := if timerHandle then some (waitDue d.now w.parameters.interval)
            else (d.timer w).due }
        pc := .delaying w (waitDue d.now w.parameters.runtime) }
  | wake (w : Test) (wakeTime : Int) (hpc : d.pc = .delaying w wakeTime)
      (hwake : wakeTime ≤ d.now) : EntryStep d { d with pc := .deleting w }
  | delete (w : Test) (hpc : d.pc = .deleting w) :
      EntryStep d { d with
        timer := update d.timer w { d.timer w with due := none }
        pc := .afterDelete w }
  | print (w : Test) (hpc : d.pc = .printing w) :
      EntryStep d { d with
        output := d.output ++ printLog w.parameters (d.timer w)
        pc := .afterPrint w }

theorem driverEntry_step {timerHandle : Bool} (h : driverEntry timerHandle d = some e) :
    EntryStep d e := by
  rw [driverEntry] at h
  split at h
  · rename_i w hpc
    cases h
    exact .allocate w timerHandle hpc
  · rename_i w wakeTime hpc
    obtain ⟨hwake, hsome⟩ := Option.ite_none_right_eq_some.mp h
    cases hsome
    exact .wake w wakeTime hpc hwake
  · rename_i w hpc
    cases h
    exact .delete w hpc
  · rename_i w hpc
    cases h
    exact .print w hpc
  · cases h

theorem afterDelete_stage (w : Test) : (EntryPc.afterDelete w).stage = w.first + 3 := by
  cases w <;> rfl

theorem afterPrint_stage (w : Test) :
    (EntryPc.afterPrint w).stage = (EntryPc.printing w).stage + 1 := by
  cases w <;> rfl

/-- A step of `DriverEntry` leads to the next stage. -/
theorem EntryStep.stage (h : EntryStep d e) : e.pc.stage = d.pc.stage + 1 := by
  cases h with
  | allocate w timerHandle hpc => rw [hpc]; rfl
  | wake w wakeTime hpc => rw [hpc]; rfl
  | delete w hpc => rw [hpc]; exact afterDelete_stage w
  | print w hpc => rw [hpc]; exact afterPrint_stage w

theorem EntryStep.frame (h : EntryStep d e) : e.now = d.now ∧ e.fired = d.fired := by
  cases h with
  | allocate | wake | delete | print => exact ⟨rfl, rfl⟩

theorem printedSoFar_eq (hstage : d.pc.stage ≤ 6) : printedSoFar d = [] := if_pos hstage

theorem Driver.Sound.tick (h : d.Sound) (time : Nat) :
    Driver.Sound { d with now := d.now + time } := by
  refine ⟨?_, h.waiting, h.gone, ?_, h.ordered, h.output⟩
  · intro w
    exact (h.rearmed w).step (a := .tick time) rfl
  · intro w c hc
    have hpast := h.past w c hc
    simp only
    omega

theorem first_le_of_due (h : d.Sound) {w : Test} (hdue : (d.timer w).due ≠ none) :
    w.first < d.pc.stage ∧ d.pc.stage < w.first + 3 := by
  refine ⟨?_, ?_⟩
  · by_contra hnot
    exact hdue (h.waiting w (by omega)).1
  · by_contra hnot
    exact hdue (h.gone w (by omega))

theorem Driver.Sound.expire (h : d.Sound) {w : Test} {r : CounterReading}
    (hstep : expireTimer w r d = some e) : e.Sound := by
  obtain ⟨hdue, t, rfl, hu⟩ := expireTimer_spec hstep
  obtain ⟨hstarted, hthere⟩ := first_le_of_due h hdue
  have hne {w' : Test} (hw : w'.first + 3 ≤ d.pc.stage ∨ d.pc.stage ≤ w'.first) : w' ≠ w := by
    rintro rfl
    omega
  have hearly : d.pc.stage ≤ 6 := by
    cases w with
    | highRes => exact Nat.le_trans (Nat.le_of_lt hthere) (by decide)
    | noWake => exact Nat.le_of_lt hthere
  refine ⟨?_, ?_, ?_, ?_, ?_, ?_⟩
  · intro w'
    by_cases hw : w' = w
    · rw [hw]
      exact (h.rearmed w).step hu
    · rw [afterCallback_other hw]
      exact h.rearmed w'
  · intro w' hwaiting
    simpa [update_of_ne (hne (Or.inr hwaiting))] using h.waiting w' hwaiting
  · intro w' hgone
    simpa [update_of_ne (hne (Or.inl hgone))] using h.gone w' hgone
  · intro w' c hc
    by_cases hw : w' = w
    · subst hw
      rw [Driver.afterCallback_fired, update_self] at hc
      cases List.mem_append.mp hc with
      | inl hold => exact h.past w' c hold
      | inr hnew => rw [List.mem_singleton.mp hnew]; exact Int.le_refl _
    · rw [Driver.afterCallback_fired, update_of_ne hw] at hc
      exact h.past w' c hc
  · cases w with
    | highRes =>
        -- the second test has not begun
        have hnone := (h.waiting .noWake (Nat.le_of_lt hthere)).2
        simp [hnone]
    | noWake =>
        intro c hc e he
        have hother : Test.highRes ≠ .noWake := by decide
        simp only [Driver.afterCallback_fired, update_self, update_of_ne hother] at hc he
        cases List.mem_append.mp he with
        | inl hold => exact h.ordered c hc e hold
        | inr hnew =>
            rw [List.mem_singleton.mp hnew]
            exact h.past .highRes c hc
  · rw [Driver.afterCallback_output, h.output, printedSoFar_eq hearly]
    exact (printedSoFar_eq (d := d.afterCallback w r t) hearly).symm

theorem Rearmed.unfired {test : TimerTest} {s : System} (h : Rearmed test s) (hfired : s.fired = [])
    (due : Option Int) : Rearmed test { s with state := { s.state with due := due } } := by
  refine ⟨h.spaced, ?_, ⟨h.log.contents, h.log.terminated, h.log.cursor, h.log.fits⟩⟩
  intro due _ last hlast
  simp [hfired] at hlast

theorem EntryStep.rearmed (hstep : EntryStep d e) (h : d.Sound) (w' : Test) :
    Rearmed w'.parameters (e.system w') := by
  have hold := h.rearmed w'
  cases hstep with
  | allocate w timerHandle hpc =>
      by_cases hw : w' = w
      · subst hw
        have hunfired := (h.waiting w' (by rw [hpc]; exact Nat.le_refl _)).2
        simpa [Driver.system] using hold.unfired hunfired _
      · simpa [Driver.system, update_of_ne hw] using hold
  | wake | print => exact hold
  | delete w hpc =>
      by_cases hw : w' = w
      · subst hw
        simpa [Driver.system] using hold.step (a := .exDeleteTimer) rfl
      · simpa [Driver.system, update_of_ne hw] using hold

theorem EntryStep.waiting (hstep : EntryStep d e) (h : d.Sound) {w' : Test}
    (hwaiting : e.pc.stage ≤ w'.first) : (e.timer w').due = none ∧ e.fired w' = [] := by
  rw [hstep.stage] at hwaiting
  obtain ⟨hdue, hfired⟩ := h.waiting w' (Nat.le_of_succ_le hwaiting)
  cases hstep with
  | allocate w timerHandle hpc =>
      have hne : w' ≠ w := by
        rintro rfl
        rw [hpc] at hwaiting
        exact Nat.not_succ_le_self _ hwaiting
      exact ⟨by simpa [update_of_ne hne] using hdue, hfired⟩
  | wake | print => exact ⟨hdue, hfired⟩
  | delete w hpc =>
      refine ⟨?_, hfired⟩
      by_cases hw : w' = w
      · subst hw
        simp
      · simpa [update_of_ne hw] using hdue

/-- The stage behind which a timer is gone is that of its deletion. -/
theorem EntryStep.gone (hstep : EntryStep d e) (h : d.Sound) {w' : Test}
    (hgone : w'.first + 3 ≤ e.pc.stage) : (e.timer w').due = none := by
  rw [hstep.stage] at hgone
  cases hstep with
  | allocate w timerHandle hpc =>
      rw [hpc] at hgone
      have hne : w' ≠ w := by
        rintro rfl
        simp [EntryPc.stage] at hgone
      have hbefore : w'.first + 3 ≤ d.pc.stage := by
        rw [hpc]
        cases w <;> cases w' <;> simp [EntryPc.stage, Test.first] at hgone hne ⊢
      simpa [update_of_ne hne] using h.gone w' hbefore
  | wake w wakeTime hpc =>
      apply h.gone w'
      rw [hpc] at hgone ⊢
      cases w <;> cases w' <;> simp [EntryPc.stage, Test.first] at hgone ⊢
  | delete w hpc =>
      by_cases hw : w' = w
      · subst hw
        simp
      · have hbefore : w'.first + 3 ≤ d.pc.stage := by
          rw [hpc] at hgone ⊢
          cases w <;> cases w' <;> simp [EntryPc.stage, Test.first] at hgone hw ⊢
        simpa [update_of_ne hw] using h.gone w' hbefore
  | print w hpc =>
      apply h.gone w'
      rw [hpc] at hgone ⊢
      cases w <;> cases w' <;> simp [EntryPc.stage, Test.first] at hgone ⊢

theorem EntryStep.output (hstep : EntryStep d e) (h : d.Sound) : e.output = printedSoFar e := by
  have hfired := hstep.frame.2
  have hbefore := h.output
  cases hstep with
  | allocate w timerHandle hpc =>
      rw [printedSoFar_eq (by cases w <;> simp [EntryPc.stage, Test.first])]
      rw [printedSoFar_eq (by rw [hpc]; cases w <;> simp [EntryPc.stage, Test.first])] at hbefore
      exact hbefore
  | wake w wakeTime hpc =>
      rw [printedSoFar_eq (by cases w <;> simp [EntryPc.stage, Test.first])]
      rw [printedSoFar_eq (by rw [hpc]; cases w <;> simp [EntryPc.stage, Test.first])] at hbefore
      exact hbefore
  | delete w hpc =>
      rw [printedSoFar_eq (by cases w <;> simp [EntryPc.afterDelete, EntryPc.stage, Test.first])]
      rw [printedSoFar_eq (by rw [hpc]; cases w <;> simp [EntryPc.stage, Test.first])] at hbefore
      exact hbefore
  | print w hpc =>
      have hcontents : (d.timer w).logData.contents = logText (d.fired w) :=
        (h.rearmed w).log.contents
      have hlog : printLog w.parameters (d.timer w) = logOf d w := by
        rw [printLog, hcontents, logOf]
      cases w with
      | highRes =>
          rw [printedSoFar_eq (by rw [hpc]; decide)] at hbefore
          simp only [hbefore, hlog, List.nil_append]
          rfl
      | noWake =>
          have hfirst : printedSoFar d = logOf d .highRes := by
            rw [printedSoFar, hpc]
            rfl
          rw [hfirst] at hbefore
          simp only [hbefore, hlog]
          rfl

theorem Driver.Sound.entry (h : d.Sound) (hstep : EntryStep d e) : e.Sound := by
  obtain ⟨hnow, hfired⟩ := hstep.frame
  refine ⟨hstep.rearmed h, fun w => hstep.waiting h, fun w => hstep.gone h, ?_, ?_,
    hstep.output h⟩
  · rw [hnow, hfired]
    exact h.past
  · rw [hfired]
    exact h.ordered

theorem Driver.Sound.step (h : d.Sound) {a : DriverAction} (hstep : driverStep d a = some e) :
    e.Sound := by
  cases a with
  | tick time =>
      cases hstep
      exact h.tick time
  | expire w r => exact h.expire hstep
  | entry timerHandle => exact h.entry (driverEntry_step hstep)

theorem loaded_sound (now : Int) : (loaded now).Sound where
  rearmed _ := start_rearmed now false
  waiting _ _ := ⟨rfl, rfl⟩
  gone _ _ := rfl
  past _ _ hc := absurd hc List.not_mem_nil
  ordered _ hc := absurd hc List.not_mem_nil
  output := rfl

end Steps

/-! ## Runs -/

/-- What a timer's callbacks read in a run. -/
def DriverAction.readings (w : Test) : DriverAction → List CounterReading
  | .expire w' r => if w' = w then [r] else []
  | .tick _ | .entry _ => []

def readingsOf (w : Test) (as : List DriverAction) : List CounterReading :=
  as.flatMap (DriverAction.readings w)

theorem step_readings {d e : Driver} {a : DriverAction} (w : Test)
    (hstep : driverStep d a = some e) :
    (e.fired w).map Callback.reading = (d.fired w).map Callback.reading ++ a.readings w := by
  cases a with
  | tick time =>
      cases hstep
      exact (List.append_nil _).symm
  | expire w' r =>
      obtain ⟨-, t, rfl, -⟩ := expireTimer_spec hstep
      by_cases hw : w = w'
      · subst hw
        simp [DriverAction.readings]
      · simp [DriverAction.readings, update_of_ne hw, Ne.symm hw]
  | entry timerHandle =>
      rw [(driverEntry_step hstep).frame.2]
      exact (List.append_nil _).symm

theorem run_readings {now : Int} {as : List DriverAction} {d : Driver} (w : Test)
    (hrun : run driverStep (loaded now) as = some d) :
    (d.fired w).map Callback.reading = readingsOf w as := by
  have hall := run_history (f := fun _ a => DriverAction.readings w a) (C := fun _ _ => True)
    (P := fun (d : Driver) l => (d.fired w).map Callback.reading = l) ?_ hrun
    (along_trivial _ _) (l := []) rfl
  · rw [history_of_actions hrun] at hall
    exact hall
  · intro u l a v hu _ hstep
    rw [step_readings w hstep, hu]

theorem run_sound {now : Int} {as : List DriverAction} {d : Driver}
    (hrun : run driverStep (loaded now) as = some d) : d.Sound :=
  run_invariant (fun _ _ _ hs hstep => Driver.Sound.step hs hstep) hrun (loaded_sound now)

def readingsText (rs : List CounterReading) : List Char :=
  rs.flatMap fun r => logLine r.freq r.timestamp

theorem logText_readings (cs : List Callback) :
    logText cs = readingsText (cs.map Callback.reading) := by
  rw [logText, readingsText, List.flatMap_map]

theorem output_of_run {now : Int} {as : List DriverAction} {d : Driver}
    (hrun : run driverStep (loaded now) as = some d) (hreturned : d.pc = .returned) :
    d.output = [testHighResTimer.title, readingsText (readingsOf .highRes as),
      testNoWakeTimer.title, readingsText (readingsOf .noWake as)] := by
  rw [(run_sound hrun).output, printedSoFar, hreturned, ← run_readings .highRes hrun,
    ← run_readings .noWake hrun, ← logText_readings, ← logText_readings]
  rfl

/-- A run to the end in which every line fits its log prints one line for each callback
of the run and nothing else; the callbacks of a timer keep their distance, and those of
the second timer come after those of the first. -/
theorem driver_output {now : Int} {as : List DriverAction} {d : Driver}
    (hrun : run driverStep (loaded now) as = some d) (hreturned : d.pc = .returned) :
    d.output = [testHighResTimer.title, readingsText (readingsOf .highRes as),
        testNoWakeTimer.title, readingsText (readingsOf .noWake as)] ∧
      (∀ w, Spaced w.parameters.spacing ((d.fired w).map Callback.time)) ∧
      (∀ w, (d.fired w).map Callback.reading = readingsOf w as) ∧
      ∀ c ∈ d.fired .highRes, ∀ e ∈ d.fired .noWake, c.time ≤ e.time := by
  have hsound := run_sound hrun
  exact ⟨output_of_run hrun hreturned, fun w => (hsound.rearmed w).spaced,
    fun w => run_readings w hrun, hsound.ordered⟩

/-- Both timers expire twice. -/
def twoAndTwo : List DriverAction :=
  [.entry true, .tick 5000, .expire .highRes ⟨81, 10000000⟩, .tick 6000,
    .expire .highRes ⟨-7, 10000000⟩, .tick 10000000, .entry true, .entry true, .entry true,
    .tick 20000, .expire .noWake ⟨300, 10000000⟩, .tick 30000, .expire .noWake ⟨4, 10000000⟩,
    .tick 100000000, .entry true, .entry true, .entry true, .entry true]

theorem driver_output_twoAndTwo :
    ∃ d, run driverStep (loaded 0) twoAndTwo = some d ∧
      d.output = [testHighResTimer.title,
        readingsText (readingsOf .highRes twoAndTwo), testNoWakeTimer.title,
        readingsText (readingsOf .noWake twoAndTwo)] ∧
      (∀ w, Spaced w.parameters.spacing ((d.fired w).map Callback.time)) ∧
      (∀ w, (d.fired w).map Callback.reading = readingsOf w twoAndTwo) ∧
      ∀ c ∈ d.fired .highRes, ∀ e ∈ d.fired .noWake, c.time ≤ e.time :=
  ⟨_, rfl, @driver_output 0 twoAndTwo _ rfl rfl⟩

/-! ## Reading the output back -/

theorem logLine_delimits :
    Delimits Eq fun r : CounterReading => logLine r.freq r.timestamp := by
  have hend : Delimits (fun _ _ => True) fun _ : CounterReading => "\n".toList :=
    delimits_const _
  have htimestamp := (hend.decimal (fun r => r.timestamp.toInt) '\n' (by decide) (by decide)
    fun _ => ⟨_, rfl⟩).literal " MHz) ".toList
  have hfreq := (htimestamp.decimal (fun r => r.freq.toInt) ' ' (by decide) (by decide)
    fun _ => ⟨_, rfl⟩).literal "(".toList
  intro r s p q heq
  obtain ⟨⟨hf, ht, -⟩, hpq⟩ : _ ∧ p = q := by
    apply hfreq r s p q
    unfold logLine at heq
    simp only [List.append_assoc] at heq ⊢
    exact heq
  refine ⟨?_, hpq⟩
  rw [CounterReading.ext_iff]
  exact ⟨Int64.toInt_inj.mp ht, Int64.toInt_inj.mp hf⟩

theorem logLine_ne_nil (r : CounterReading) : logLine r.freq r.timestamp ≠ [] := by
  unfold logLine
  simp

/-- A line starts with a parenthesis, the second title with a bracket. -/
theorem logLine_apart :
    Apart (fun r : CounterReading => logLine r.freq r.timestamp) testNoWakeTimer.title := by
  intro r p q heq
  have hhead := congrArg List.head? heq
  unfold logLine at hhead
  simp [testNoWakeTimer] at hhead

/-- Runs in which every line fits its log and that print the same text read the counter
alike, callback by callback. -/
theorem driverOutput_determines {now now' : Int} {as bs : List DriverAction} {d e : Driver}
    (hd : run driverStep (loaded now) as = some d) (hdreturned : d.pc = .returned)
    (he : run driverStep (loaded now') bs = some e) (hereturned : e.pc = .returned)
    (htext : d.output.flatten = e.output.flatten) (w : Test) :
    readingsOf w as = readingsOf w bs := by
  rw [output_of_run hd hdreturned, output_of_run he hereturned] at htext
  simp only [List.flatten_cons, List.flatten_nil, List.append_nil,
    List.append_cancel_left_eq] at htext
  obtain ⟨hfirst, hsecond⟩ := logLine_delimits.forall₂_of_append_stop logLine_apart htext
  have hlast := logLine_delimits.forall₂_of_flatMap_eq logLine_ne_nil hsecond
  rw [List.forall₂_eq_eq_eq] at hfirst hlast
  cases w with
  | highRes => exact hfirst
  | noWake => exact hlast

/-- The same readings, with every delay drawn out. -/
def twoAndTwoLate : List DriverAction :=
  [.entry true, .tick 7000, .expire .highRes ⟨81, 10000000⟩, .tick 90000,
    .expire .highRes ⟨-7, 10000000⟩, .tick 20000000, .entry true, .entry true, .tick 15,
    .entry true, .tick 50000, .expire .noWake ⟨300, 10000000⟩, .tick 40000,
    .expire .noWake ⟨4, 10000000⟩, .tick 300000000, .entry true, .entry true, .entry true,
    .entry true]

theorem twoAndTwo_returns : ∃ d, run driverStep (loaded 0) twoAndTwo = some d ∧
    d.pc = .returned :=
  ⟨_, rfl, rfl⟩

theorem twoAndTwoLate_returns : ∃ d, run driverStep (loaded 30) twoAndTwoLate = some d ∧
    d.pc = .returned :=
  ⟨_, rfl, rfl⟩

theorem driverOutput_determines_twoAndTwo :
    readingsOf .noWake twoAndTwo = readingsOf .noWake twoAndTwoLate := by
  obtain ⟨d, hd, hdreturned⟩ := twoAndTwo_returns
  obtain ⟨e, he, hereturned⟩ := twoAndTwoLate_returns
  refine driverOutput_determines hd hdreturned he hereturned ?_ .noWake
  rw [output_of_run hd hdreturned, output_of_run he hereturned]
  rfl

end WdmTest.HiResTimer
