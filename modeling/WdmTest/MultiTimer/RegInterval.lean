import WdmTest.Lib.Spacing
import WdmTest.MultiTimer.Histories

/-!
How far the registrations of MultiTimerTest lie apart. The registering DPC spins
until the counter has advanced by `REG_INTERVAL` and takes the reading it logs
behind the spin. As long as the counter does not run backwards, the readings of
consecutive registrations keep that distance in every run, although the start of
a spin is not recorded.

The distance is in ticks of the counter; nothing relates them to the due times of
the timers, which the kernel keeps.
-/
namespace WdmTest.MultiTimer
open Spacing Transition

/-- What the counter shows to the registering DPC in a run. -/
def Action.times : Action → List Int
  | .runReg readings => readings.map CounterReading.time
  | .expire _ | .runTimer _ _ | .deInit => []

/-- A counter that starts at some time and does not run backwards. -/
def Steady (start : Int) (times : List Int) : Prop := (start :: times).Pairwise (· ≤ ·)

instance (start : Int) (times : List Int) : Decidable (Steady start times) :=
  inferInstanceAs (Decidable (List.Pairwise _ _))

section Stall
variable {ticks start : Int64} {readings rest : List CounterReading}

/-- The spin ends at the reading that shows the ticks elapsed. -/
theorem stallLoop_ends (h : stallLoop ticks start readings = some rest) :
    ∃ spun last, readings = spun ++ last :: rest ∧ ticks ≤ last.timestamp - start := by
  induction readings with
  | nil => cases h
  | cons r readings ih =>
      rw [stallLoop] at h
      split at h
      · rename_i helapsed
        cases h
        exact ⟨[], r, rfl, helapsed⟩
      · obtain ⟨spun, last, hreadings, helapsed⟩ := ih h
        exact ⟨r :: spun, last, by rw [hreadings, List.cons_append], helapsed⟩

theorem stallDpcExecution_ends (h : stallDpcExecution ticks readings = some rest) :
    ∃ first spun last, readings = first :: (spun ++ last :: rest) ∧
      ticks ≤ last.timestamp - first.timestamp := by
  cases readings with
  | nil => cases h
  | cons first readings =>
      obtain ⟨spun, last, hreadings, helapsed⟩ := stallLoop_ends h
      exact ⟨first, spun, last, by rw [hreadings], helapsed⟩

/-- A difference that wraps around only comes out smaller. -/
theorem elapsed_le {first last ticks : Int64}
    (hle : first.toInt ≤ last.toInt) (h : ticks ≤ last - first) :
    ticks.toInt ≤ last.toInt - first.toInt := by
  rw [Int64.le_iff_toInt_le, Int64.toInt_sub] at h
  have hsmall : (last.toInt - first.toInt).bmod (2 ^ 64) ≤ last.toInt - first.toInt := by
    rw [Int.bmod]
    omega
  exact Int.le_trans h hsmall

theorem stall_lasts {counter : CounterReading} {lo : Int}
    (hstall : stallDpcExecution Const.regInterval readings = some (counter :: rest))
    (hsteady : Steady lo (readings.map CounterReading.time)) : lo + 1000 ≤ counter.time := by
  obtain ⟨first, spun, last, rfl, helapsed⟩ := stallDpcExecution_ends hstall
  obtain ⟨hall, hrest⟩ := List.pairwise_cons.mp hsteady
  rw [List.map_cons, List.map_append, List.map_cons, List.map_cons] at hall hrest
  have hfirst : lo ≤ first.time := hall _ List.mem_cons_self
  obtain ⟨hfirstLe, hsorted⟩ := List.pairwise_cons.mp hrest
  have hlast : first.time ≤ last.time := by
    apply hfirstLe
    exact List.mem_append_right _ List.mem_cons_self
  have hcounter : last.time ≤ counter.time := by
    have htail := (List.pairwise_append.mp hsorted).2.1
    exact (List.pairwise_cons.mp htail).1 _ List.mem_cons_self
  have hticks : (1000 : Int) ≤ last.time - first.time := elapsed_le hlast helapsed
  omega

theorem steady_after {counter : CounterReading} {lo : Int} {times : List Int}
    (hstall : stallDpcExecution ticks readings = some (counter :: rest))
    (hsteady : Steady lo (readings.map CounterReading.time ++ times)) :
    Steady counter.time times := by
  obtain ⟨first, spun, last, rfl, -⟩ := stallDpcExecution_ends hstall
  apply List.Pairwise.sublist ?_ hsteady
  have hcounter : [counter].Sublist (first :: (spun ++ last :: counter :: rest)) := by
    rw [List.singleton_sublist]
    simp
  exact ((hcounter.map CounterReading.time).append (List.Sublist.refl times)).cons lo

end Stall

section Runs
variable {n : Nat} {s t : State}

theorem nextRegistration_interval (s : State) :
    s.nextRegistration.regCtx.interval = s.regCtx.interval := by
  simp only [State.nextRegistration]
  split <;> rfl

theorem step_regInterval {a : Action} (hstep : step n s a = some t) :
    t.regCtx.interval = s.regCtx.interval := by
  by_cases hother : ∀ readings, a ≠ .runReg readings
  · exact (step_otherReg hother hstep).2.2.2
  · obtain ⟨readings, hr⟩ := not_forall.mp hother
    rw [not_not.mp hr] at hstep
    cases regFunction_returns (step_runReg hstep).2 with
    | done => rfl
    | registered counter => exact nextRegistration_interval _

/-- A step registers a timer a whole interval after the time so far, and the time
goes on from there. -/
theorem step_registers {a : Action} {lo : Int} {times : List Int}
    (hinterval : s.regCtx.interval = Const.regInterval)
    (hsteady : Steady lo (a.times ++ times)) :
    (registrations s a = [] ∧ Steady lo times) ∨
      ∃ counter, registrations s a = [counter] ∧ lo + 1000 ≤ counter.time ∧
        Steady counter.time times := by
  cases a with
  | expire _ | runTimer _ _ | deInit => exact Or.inl ⟨rfl, hsteady⟩
  | runReg readings =>
      have hown : Steady lo (readings.map CounterReading.time) :=
        hsteady.sublist ((List.sublist_append_left _ times).cons_cons lo)
      have hskip : Steady lo times :=
        hsteady.sublist ((List.sublist_append_right _ times).cons_cons lo)
      rw [registrations]
      split
      · exact Or.inl ⟨rfl, hskip⟩
      · cases hstall : stallDpcExecution s.regCtx.interval readings with
        | none => exact Or.inl ⟨rfl, hskip⟩
        | some rest =>
            cases rest with
            | nil => exact Or.inl ⟨rfl, hskip⟩
            | cons counter rest =>
                refine Or.inr ⟨counter, rfl, ?_, ?_⟩
                · rw [hinterval] at hstall
                  exact stall_lasts hstall hown
                · exact steady_after hstall hsteady

theorem initDpc_regInterval (n : Nat) (res : TimerResolution) :
    (initDpc n res).regCtx.interval = Const.regInterval := by
  simp only [initDpc, State.keInsertReg_regCtx]

theorem registrations_spaced_from {lo : Int} {as : List Action}
    (hinterval : s.regCtx.interval = Const.regInterval) (hrun : run (step n) s as = some t)
    (hsteady : Steady lo (as.flatMap Action.times)) :
    Spaced 1000 (lo :: (history (step n) registrations s as).map CounterReading.time) := by
  induction as generalizing s lo with
  | nil => exact List.isChain_singleton lo
  | cons a as ih =>
      obtain ⟨w, hw, hrest⟩ := run_cons.mp hrun
      have hinterval' := (step_regInterval hw).trans hinterval
      rw [List.flatMap_cons] at hsteady
      rw [history_cons hw]
      cases step_registers hinterval hsteady with
      | inl hnone =>
          rw [hnone.1, List.nil_append]
          exact ih hinterval' hrest hnone.2
      | inr hnext =>
          obtain ⟨counter, hcounter, hlater, hsteady'⟩ := hnext
          rw [hcounter, List.singleton_append, List.map_cons]
          exact List.isChain_cons_cons.mpr
            ⟨hlater, ih hinterval' hrest hsteady'⟩

end Runs

/-- In every run the registrations are at least `REG_INTERVAL` ticks apart, and
the first is as long after the start. -/
theorem registrations_spaced {n : Nat} {res : TimerResolution} {as : List Action} {s : State}
    {start : Int} (hrun : run (step n) (initDpc n res) as = some s)
    (hsteady : Steady start (as.flatMap Action.times)) :
    Spaced 1000 (start ::
      (history (step n) registrations (initDpc n res) as).map CounterReading.time) :=
  registrations_spaced_from (initDpc_regInterval n res) hrun hsteady

def twoRegistrations : List Action :=
  [oneRegistration, .expire 0, .runReg [⟨1500, 1⟩, ⟨2400, 1⟩, ⟨2500, 1⟩, ⟨2501, 1⟩]]

theorem registrations_spaced_twoRegistrations :
    ∃ s, run (step 2) (initDpc 2 halfMillisecond) twoRegistrations = some s ∧ Spaced 1000 (0 ::
      (history (step 2) registrations (initDpc 2 halfMillisecond) twoRegistrations).map
        CounterReading.time) :=
  ⟨_, rfl, registrations_spaced rfl (by decide)⟩

end WdmTest.MultiTimer
