import WdmTest.MultiTimer.Lifecycle
import WdmTest.MultiTimer.Steps

/-!
The counters of MultiTimerTest tell the truth: in every state up to the exit of
the wait loop, what the registration index, a running counter and the kernel's
queues show of a timer is one phase of its life, and every step is a move of the
lifecycle or leaves it alone. The bookkeeping invariant is read off the phases.

After the wait loop the teardown cancels timers behind the counters' back, so
nothing is said about those states.
-/
namespace WdmTest.MultiTimer
open Function Transition

def DeInitPc.beforeExit : DeInitPc → Bool
  | .delaying | .stopping _ | .loopCond _ | .scanning _ _ => true
  | .dumping | .cancelling _ | .returned => false

/-! ## What a state shows of a timer -/

@[ext] structure View where
  registered : Bool
  isRunning : Int32
  armed : Bool
  queued : Bool

def State.view (s : State) (i : Nat) : View where
  registered := decide (i < s.regCtx.regedDpc)
  isRunning := (s.timerCtx i).isRunning
  armed := (s.timer i).armed
  queued := (s.dpcTimer i).queued

def Phase.view : Phase → View
  | .unregistered => ⟨false, 0, false, false⟩
  | .armed => ⟨true, 1, true, false⟩
  | .queued => ⟨true, 1, false, true⟩
  | .stopped => ⟨true, 0, false, false⟩

def View.phase (v : View) : Phase :=
  if v.registered = false then .unregistered
  else if v.armed then .armed
  else if v.queued then .queued
  else .stopped

@[simp] theorem Phase.view_phase (p : Phase) : p.view.phase = p := by
  cases p <;> rfl

def State.phase (s : State) (i : Nat) : Phase := (s.view i).phase

theorem phase_update {s t : State} {i : Nat} {v : View}
    (h : t.view = update s.view i v) : t.phase = update s.phase i v.phase := by
  funext j
  rw [State.phase, h]
  exact apply_update (fun _ => View.phase) s.view i v j

/-- The fields of the registration the bookkeeping speaks about. -/
def State.registration (s : State) : Nat × Nat × Int32 × Bool :=
  (s.regCtx.totalDpc, s.regCtx.regedDpc, s.regCtx.isRunning, s.dpcReg.queued)

def Request.registered? : Request → Option Nat
  | .register i _ => some i
  | .rearm _ _ | .insertReg _ => none

def Request.pending : Request → Bool
  | .register _ p | .rearm _ p | .insertReg p => p

/-! ## One step of each kind -/

section Effects
variable {n : Nat} {s t : State}

theorem expire_effect {i : Nat} (h : step n s (.expire i) = some t) :
    i < n ∧ (s.timer i).armed = true ∧
      t.view = update s.view i { s.view i with armed := false, queued := true } ∧
      t.registration = s.registration ∧ t.requests = s.requests := by
  obtain ⟨hi, harmed, rfl⟩ := step_expire h
  refine ⟨hi, harmed, ?_, rfl, rfl⟩
  funext j
  by_cases hj : j = i
  · subst hj
    simp [State.view]
  · simp [State.view, hj]

theorem runTimer_effect {i : Nat} {c : CounterReading}
    (h : step n s (.runTimer i c) = some t) :
    i < n ∧ (s.dpcTimer i).queued = true ∧ t.registration = s.registration ∧
      (((s.timerCtx i).stopFlag = 0 ∧
          t.view = update s.view i { s.view i with armed := true, queued := false } ∧
          t.requests = s.requests ++ [.rearm i (s.timer i).armed]) ∨
        (t.view = update s.view i
            { s.view i with isRunning := (s.view i).isRunning - 1, armed := false, queued := false } ∧
          t.requests = s.requests)) := by
  obtain ⟨hi, hqueued, ht⟩ := step_runTimer h
  refine ⟨hi, hqueued, ?_⟩
  cases timerFunction_returns ht with
  | rearm ctx hstop hrun =>
      refine ⟨rfl, Or.inl ⟨hstop, ?_, ?_⟩⟩
      · funext j
        by_cases hj : j = i
        · subst hj
          rw [update_self]
          simpa [State.view] using hrun
        · rw [update_of_ne hj]
          simp [State.view, hj]
      · simp [State.timerPending]
  | stop ctx hrun =>
      refine ⟨rfl, Or.inr ⟨?_, rfl⟩⟩
      funext j
      by_cases hj : j = i
      · subst hj
        rw [update_self]
        simpa [State.view] using hrun
      · rw [update_of_ne hj]
        simp [State.view, hj]

theorem registerTimer_view (i : Nat) (hi : i = s.regCtx.regedDpc) :
    (s.registerTimer i).nextRegistration.view = update s.view i
      { s.view i with
        registered := true, isRunning := (s.view i).isRunning + 1, armed := true } := by
  subst hi
  funext j
  by_cases hj : j = s.regCtx.regedDpc
  · subst hj
    simp [State.view]
  · have hlt : j < s.regCtx.regedDpc + 1 ↔ j < s.regCtx.regedDpc := by omega
    simp [State.view, hj, hlt]

theorem runReg_effect {readings : List CounterReading}
    (h : step n s (.runReg readings) = some t) :
    s.dpcReg.queued = true ∧
      ((s.regCtx.totalDpc ≤ s.regCtx.regedDpc ∧ t.view = s.view ∧
          t.registration = (s.regCtx.totalDpc, s.regCtx.regedDpc, 0, false) ∧
          t.requests = s.requests) ∨
        (s.regCtx.regedDpc < s.regCtx.totalDpc ∧ s.regCtx.regedDpc < n ∧
          t.view = update s.view s.regCtx.regedDpc
            { s.view s.regCtx.regedDpc with
              registered := true
              isRunning := (s.view s.regCtx.regedDpc).isRunning + 1
              armed := true } ∧
          ∃ rs, t.requests = s.requests ++
              .register s.regCtx.regedDpc (s.timerPending s.regCtx.regedDpc) :: rs ∧
            rs.filterMap Request.registered? = [] ∧ (∀ r ∈ rs, r.pending = false) ∧
            ((s.regCtx.regedDpc + 1 < s.regCtx.totalDpc ∧ t.registration =
                (s.regCtx.totalDpc, s.regCtx.regedDpc + 1, s.regCtx.isRunning, true)) ∨
              (s.regCtx.totalDpc ≤ s.regCtx.regedDpc + 1 ∧ t.registration =
                (s.regCtx.totalDpc, s.regCtx.regedDpc + 1, 0, false))))) := by
  obtain ⟨hqueued, hreg⟩ := step_runReg h
  refine ⟨hqueued, ?_⟩
  cases regFunction_returns hreg with
  | done hdone => exact Or.inl ⟨hdone, rfl, rfl, rfl⟩
  | registered counter hleft hi =>
      refine Or.inr ⟨hleft, hi, registerTimer_view s.regCtx.regedDpc rfl, ?_⟩
      by_cases hnext : s.regCtx.regedDpc + 1 < s.regCtx.totalDpc
      · refine ⟨[.insertReg false], ?_, rfl, by simp [Request.pending], Or.inl ⟨hnext, ?_⟩⟩ <;>
          simp [State.nextRegistration, DpcRegCtx.logReading, hnext, State.registration,
            State.timerPending]
      · refine ⟨[], ?_, rfl, by simp, Or.inr ⟨Nat.le_of_not_lt hnext, ?_⟩⟩ <;>
          simp [State.nextRegistration, DpcRegCtx.logReading, hnext, State.registration,
            State.timerPending]

theorem deInit_effect (h : step n s .deInit = some t) (hexit : s.deInit.beforeExit = true) :
    t.view = s.view ∧ t.registration = s.registration ∧ t.requests = s.requests := by
  cases step_deInit h with
  | stopReg | enterLoop | stay | exit | read | delay | dump | finish => exact ⟨rfl, rfl, rfl⟩
  | stopTimer i _ _ =>
      refine ⟨?_, rfl, rfl⟩
      funext j
      by_cases hj : j = i
      · subst hj
        simp [State.view]
      · simp [State.view, hj]
  | cancel i hpc _ => simp [hpc, DeInitPc.beforeExit] at hexit

end Effects

/-! ## The invariant -/

structure Bookkept (n : Nat) (s : State) : Prop where
  total : s.regCtx.totalDpc = n
  reged_le : s.regCtx.regedDpc ≤ n
  sound : ∀ i, s.view i = (s.phase i).view
  running : (s.regCtx.isRunning = 1 ∧ s.dpcReg.queued = true) ∨
    (s.regCtx.isRunning = 0 ∧ s.dpcReg.queued = false ∧ s.regCtx.regedDpc = n)
  registered : s.requests.filterMap Request.registered? = List.range s.regCtx.regedDpc
  fresh : ∀ r ∈ s.requests, r.pending = false

/-- What a step of each kind does to the phases and the registration. -/
def PhaseEffect (n : Nat) (s t : State) : Action → Prop
  | .expire i => i < n ∧ s.phase i = .armed ∧ t.phase = update s.phase i .queued ∧
      t.registration = s.registration
  | .runTimer i _ => i < n ∧ s.phase i = .queued ∧
      (((s.timerCtx i).stopFlag = 0 ∧ t.phase = update s.phase i .armed) ∨
        t.phase = update s.phase i .stopped) ∧
      t.registration = s.registration
  | .runReg _ => s.dpcReg.queued = true ∧
      ((t.phase = s.phase ∧ t.regCtx.regedDpc = s.regCtx.regedDpc ∧ t.dpcReg.queued = false) ∨
        (s.regCtx.regedDpc < n ∧ s.phase s.regCtx.regedDpc = .unregistered ∧
          t.phase = update s.phase s.regCtx.regedDpc .armed ∧
          t.regCtx.regedDpc = s.regCtx.regedDpc + 1))
  | .deInit => t.phase = s.phase ∧ t.registration = s.registration

section Invariant
variable {n : Nat} {s t : State}

theorem sound_update {i : Nat} {q : Phase} (hs : ∀ j, s.view j = (s.phase j).view)
    (ht : t.view = update s.view i q.view) :
    (∀ j, t.view j = (t.phase j).view) ∧ t.phase = update s.phase i q := by
  have hphase : t.phase = update s.phase i q := by
    rw [phase_update ht, Phase.view_phase]
  refine ⟨?_, hphase⟩
  intro j
  rw [hphase, ht]
  by_cases hj : j = i
  · subst hj
    simp
  · simpa [hj] using hs j

theorem Bookkept.view_eq (h : Bookkept n s) {i : Nat} {p : Phase} (hp : s.phase i = p) :
    s.view i = p.view := by
  rw [h.sound i, hp]

theorem Bookkept.phase_armed_iff (h : Bookkept n s) (i : Nat) :
    s.phase i = .armed ↔ (s.timer i).armed = true := by
  have harmed : (s.view i).armed = (s.timer i).armed := rfl
  cases hp : s.phase i with
  | unregistered | armed | queued | stopped => simp [← harmed, h.view_eq hp, Phase.view]

theorem Bookkept.phase_queued_iff (h : Bookkept n s) (i : Nat) :
    s.phase i = .queued ↔ (s.dpcTimer i).queued = true := by
  have hqueued : (s.view i).queued = (s.dpcTimer i).queued := rfl
  cases hp : s.phase i with
  | unregistered | armed | queued | stopped => simp [← hqueued, h.view_eq hp, Phase.view]

theorem Bookkept.phase_unregistered_iff (h : Bookkept n s) (i : Nat) :
    s.phase i = .unregistered ↔ s.regCtx.regedDpc ≤ i := by
  have hreg : (s.view i).registered = decide (i < s.regCtx.regedDpc) := rfl
  cases hp : s.phase i with
  | unregistered => simpa [h.view_eq hp, Phase.view] using hreg
  | armed | queued | stopped => simpa [h.view_eq hp, Phase.view] using hreg

theorem registration_eq_iff {total reged : Nat} {running : Int32} {queued : Bool} :
    t.registration = (total, reged, running, queued) ↔
      t.regCtx.totalDpc = total ∧ t.regCtx.regedDpc = reged ∧
        t.regCtx.isRunning = running ∧ t.dpcReg.queued = queued := by
  simp only [State.registration, Prod.mk.injEq]

/-- A step that keeps the registration and requests nothing keeps the invariant
if the views stay sound. -/
theorem Bookkept.frame (h : Bookkept n s) (hsound : ∀ i, t.view i = (t.phase i).view)
    (hreg : t.registration = s.registration)
    (hreq : ∃ rs, t.requests = s.requests ++ rs ∧
      rs.filterMap Request.registered? = [] ∧ ∀ r ∈ rs, r.pending = false) :
    Bookkept n t := by
  obtain ⟨htotal, hreged, hrun, hqueued⟩ := registration_eq_iff.mp hreg
  obtain ⟨rs, hrs, hnone, hfresh⟩ := hreq
  refine ⟨?_, ?_, hsound, ?_, ?_, ?_⟩
  · rw [htotal, h.total]
  · rw [hreged]
    exact h.reged_le
  · rw [hrun, hqueued, hreged]
    exact h.running
  · rw [hrs, List.filterMap_append, hnone, List.append_nil, h.registered, hreged]
  · intro r hr
    rw [hrs] at hr
    exact (List.mem_append.mp hr).elim (h.fresh r) (hfresh r)

theorem Bookkept.expire (h : Bookkept n s) {i : Nat}
    (hstep : step n s (.expire i) = some t) :
    Bookkept n t ∧ PhaseEffect n s t (.expire i) := by
  obtain ⟨hi, harmed, hview, hreg, hreq⟩ := expire_effect hstep
  have hp := (h.phase_armed_iff i).mpr harmed
  rw [h.view_eq hp] at hview
  obtain ⟨hsound, hphase⟩ := sound_update (q := .queued) h.sound hview
  exact ⟨h.frame hsound hreg ⟨[], by simpa using hreq, rfl, by simp⟩, hi, hp, hphase, hreg⟩

theorem Bookkept.runTimer (h : Bookkept n s) {i : Nat} {c : CounterReading}
    (hstep : step n s (.runTimer i c) = some t) :
    Bookkept n t ∧ PhaseEffect n s t (.runTimer i c) := by
  obtain ⟨hi, hqueued, hreg, heffect⟩ := runTimer_effect hstep
  have hp := (h.phase_queued_iff i).mpr hqueued
  have hview := h.view_eq hp
  have harmed : (s.timer i).armed = false := congrArg View.armed hview
  rw [hview, harmed] at heffect
  cases heffect with
  | inl hrearm =>
      obtain ⟨hsound, hphase⟩ := sound_update (q := .armed) h.sound hrearm.2.1
      exact ⟨h.frame hsound hreg ⟨_, hrearm.2.2, rfl, by simp [Request.pending]⟩,
        hi, hp, Or.inl ⟨hrearm.1, hphase⟩, hreg⟩
  | inr hcancel =>
      obtain ⟨hsound, hphase⟩ := sound_update (q := .stopped) h.sound hcancel.1
      exact ⟨h.frame hsound hreg ⟨[], by simpa using hcancel.2, rfl, by simp⟩,
        hi, hp, Or.inr hphase, hreg⟩

theorem Bookkept.runReg (h : Bookkept n s) {readings : List CounterReading}
    (hstep : step n s (.runReg readings) = some t) :
    Bookkept n t ∧ PhaseEffect n s t (.runReg readings) := by
  obtain ⟨hqueued, heffect⟩ := runReg_effect hstep
  have hrunning : s.regCtx.isRunning = 1 := by
    cases h.running with
    | inl hrunning => exact hrunning.1
    | inr hdone => simp [hqueued] at hdone
  rw [h.total] at heffect
  obtain ⟨hdone, hview, hreg, hreq⟩ | ⟨hleft, hi, hview, heffect⟩ := heffect
  · have hphase : t.phase = s.phase := by
      funext j
      rw [State.phase, hview]
      rfl
    obtain ⟨htotal, hreged, hrun, hqueued'⟩ := registration_eq_iff.mp hreg
    refine ⟨⟨htotal, hreged ▸ h.reged_le, ?_, ?_, ?_, hreq ▸ h.fresh⟩,
      hqueued, Or.inl ⟨hphase, hreged, hqueued'⟩⟩
    · rw [hview, hphase]
      exact h.sound
    · exact Or.inr ⟨hrun, hqueued', hreged.trans (Nat.le_antisymm h.reged_le hdone)⟩
    · rw [hreq, hreged]
      exact h.registered
  · have hp := (h.phase_unregistered_iff s.regCtx.regedDpc).mpr (Nat.le_refl _)
    have hold := h.view_eq hp
    have harmed : (s.timer s.regCtx.regedDpc).armed = false := congrArg View.armed hold
    have hnot : (s.dpcTimer s.regCtx.regedDpc).queued = false := congrArg View.queued hold
    have hpending : s.timerPending s.regCtx.regedDpc = false := by
      simp [State.timerPending, harmed, hnot]
    rw [hold] at hview
    rw [hpending, hrunning] at heffect
    obtain ⟨hsound, hphase⟩ := sound_update (q := .armed) h.sound hview
    obtain ⟨rs, hreq, hnone, hfresh, hnext⟩ := heffect
    have hrest : t.regCtx.totalDpc = n ∧ t.regCtx.regedDpc = s.regCtx.regedDpc + 1 ∧
        ((t.regCtx.isRunning = 1 ∧ t.dpcReg.queued = true) ∨
          (t.regCtx.isRunning = 0 ∧ t.dpcReg.queued = false ∧ t.regCtx.regedDpc = n)) := by
      cases hnext with
      | inl hmore =>
          obtain ⟨htotal, hreged, hrun, hqueued'⟩ := registration_eq_iff.mp hmore.2
          exact ⟨htotal, hreged, Or.inl ⟨hrun, hqueued'⟩⟩
      | inr hlast =>
          obtain ⟨htotal, hreged, hrun, hqueued'⟩ := registration_eq_iff.mp hlast.2
          exact ⟨htotal, hreged, Or.inr ⟨hrun, hqueued', by omega⟩⟩
    obtain ⟨htotal, hreged, hrunning'⟩ := hrest
    refine ⟨⟨htotal, by omega, hsound, hrunning', ?_, ?_⟩, hqueued,
      Or.inr ⟨hi, hp, hphase, hreged⟩⟩
    · rw [hreq, List.filterMap_append, h.registered, hreged, List.range_succ]
      exact congrArg (List.range s.regCtx.regedDpc ++ s.regCtx.regedDpc :: ·) hnone
    · intro r hr
      rw [hreq, List.mem_append, List.mem_cons] at hr
      rcases hr with hold | rfl | hnew
      · exact h.fresh r hold
      · rfl
      · exact hfresh r hnew

theorem Bookkept.deInit (h : Bookkept n s) (hexit : s.deInit.beforeExit = true)
    (hstep : step n s .deInit = some t) :
    Bookkept n t ∧ PhaseEffect n s t .deInit := by
  obtain ⟨hview, hreg, hreq⟩ := deInit_effect hstep hexit
  have hphase : t.phase = s.phase := by
    funext j
    rw [State.phase, hview]
    rfl
  refine ⟨h.frame ?_ hreg ⟨[], by simpa using hreq, rfl, by simp⟩, hphase, hreg⟩
  rw [hview, hphase]
  exact h.sound

/-- Every step up to the exit of the wait loop refines the lifecycle. -/
theorem Bookkept.step (h : Bookkept n s) (hexit : s.deInit.beforeExit = true) {a : Action}
    (hstep : step n s a = some t) : Bookkept n t ∧ PhaseEffect n s t a := by
  cases a with
  | expire i => exact h.expire hstep
  | runTimer i c => exact h.runTimer hstep
  | runReg readings => exact h.runReg hstep
  | deInit => exact h.deInit hexit hstep

theorem PhaseEffect.stage_le {a : Action} (h : PhaseEffect n s t a) (i : Nat) :
    (s.phase i).stage ≤ (t.phase i).stage := by
  have hmove {j : Nat} {q : Phase} (hq : (s.phase j).Move q)
      (hupd : t.phase = update s.phase j q) : (s.phase i).stage ≤ (t.phase i).stage := by
    by_cases hi : i = j
    · subst hi
      rw [hupd, update_self]
      exact hq.stage_le
    · rw [hupd, update_of_ne hi]
  cases a with
  | expire j => exact hmove (h.2.1 ▸ .expire) h.2.2.1
  | runTimer j c =>
      cases h.2.2.1 with
      | inl hrearm => exact hmove (h.2.1 ▸ .rearm) hrearm.2
      | inr hstop => exact hmove (h.2.1 ▸ .stop) hstop
  | runReg readings =>
      cases h.2 with
      | inl hdone => rw [hdone.1]
      | inr hnext => exact hmove (hnext.2.1 ▸ .register) hnext.2.2.1
  | deInit => rw [h.1]

theorem step_beforeExit {a : Action} (hstep : step n s a = some t)
    (ht : t.deInit.beforeExit = true) : s.deInit.beforeExit = true := by
  by_cases ha : a = .deInit
  · subst ha
    cases step_deInit hstep with
    | stopReg hpc | stopTimer _ hpc | enterLoop _ hpc | stay _ hpc | exit _ hpc
    | read _ _ hpc | delay _ _ hpc =>
        rw [hpc]
        rfl
    | dump | cancel | finish => simp [DeInitPc.beforeExit] at ht
  · rwa [(step_frame ha hstep).1] at ht

theorem Bookkept.run (h : Bookkept n s) {as : List Action}
    (hrun : Transition.run (MultiTimer.step n) s as = some t)
    (ht : t.deInit.beforeExit = true) :
    Bookkept n t ∧ ∀ i, (s.phase i).stage ≤ (t.phase i).stage := by
  have hinv : t.deInit.beforeExit = true →
      Bookkept n t ∧ ∀ i, (s.phase i).stage ≤ (t.phase i).stage := by
    refine run_invariant (P := fun u => u.deInit.beforeExit = true →
      Bookkept n u ∧ ∀ i, (s.phase i).stage ≤ (u.phase i).stage) ?_ hrun ?_
    · intro u a w hu hstep hw
      have hbefore := step_beforeExit hstep hw
      obtain ⟨hb, hstage⟩ := hu hbefore
      obtain ⟨hb', heffect⟩ := hb.step hbefore hstep
      exact ⟨hb', fun i => (hstage i).trans (heffect.stage_le i)⟩
    · exact fun _ => ⟨h, fun _ => Nat.le_refl _⟩
  exact hinv ht

end Invariant

/-! ## After `InitDPC` -/

section Init
variable (n : Nat) (res : TimerResolution)

theorem initDpc_bookkept : Bookkept n (initDpc n res) := by
  have hctx (j : Nat) : ((initDpc n res).timerCtx j).isRunning = 0 := by
    rw [initDpc_timerCtx]
    split <;> rfl
  have hframe := initTimers_frame (List.range n)
    (setTimerResolution res)
  obtain ⟨htimer, hdpc⟩ := initTimers_idle (List.range n)
    (setTimerResolution res) (fun _ => rfl) (fun _ => rfl)
  have hreged : (initDpc n res).regCtx.regedDpc = 0 := by
    simp only [initDpc, State.keInsertReg_regCtx]
    rw [hframe]
    rfl
  have hview (j : Nat) : (initDpc n res).view j = Phase.unregistered.view := by
    have ht : (initDpc n res).timer j = {} := by simp [initDpc, htimer]
    have hd : (initDpc n res).dpcTimer j = {} := by simp [initDpc, hdpc]
    ext <;> simp [State.view, Phase.view, hreged, hctx, ht, hd, KTimer.armed]
  have hreq : (initDpc n res).requests = [.insertReg false] := by
    simp only [initDpc, State.keInsertReg_requests]
    rw [hframe]
    rfl
  refine ⟨rfl, by rw [hreged]; exact Nat.zero_le n, ?_, Or.inl ⟨rfl, rfl⟩, ?_, ?_⟩
  · intro j
    rw [State.phase, hview, Phase.view_phase]
  · rw [hreq, hreged]
    rfl
  · simp [hreq, Request.pending]

end Init

/-! ## The counters tell the truth -/

/-- The bookkeeping in the driver's own terms: the registration index, the
running counters, and the timers and DPCs the kernel holds. -/
structure TimerBookkeeping (n : Nat) (s : State) : Prop where
  reged_le : s.regCtx.regedDpc ≤ n
  in_bounds : ∀ readings i, regFunction n readings s.dequeueReg ≠ .outOfBounds i
  unregistered : ∀ i, s.regCtx.regedDpc ≤ i →
    (s.timerCtx i).isRunning = 0 ∧ (s.timer i).armed = false ∧ (s.dpcTimer i).queued = false
  counted : ∀ i, i < s.regCtx.regedDpc →
    ((s.timerCtx i).isRunning = 0 ∨ (s.timerCtx i).isRunning = 1) ∧
    ((s.timerCtx i).isRunning = 1 ↔ Xor ((s.timer i).armed = true) ((s.dpcTimer i).queued = true)) ∧
    ((s.timerCtx i).isRunning = 0 ↔ (s.timer i).armed = false ∧ (s.dpcTimer i).queued = false)
  stays_stopped : ∀ i, i < s.regCtx.regedDpc → (s.timerCtx i).isRunning = 0 →
    ∀ as t, Transition.run (step n) s as = some t → t.deInit.beforeExit = true →
      (t.timerCtx i).isRunning = 0
  reg_queued : s.regCtx.isRunning = 1 ↔ s.dpcReg.queued = true
  reg_done : s.regCtx.isRunning = 0 → s.regCtx.regedDpc = n
  registered_once : s.requests.filterMap Request.registered? = List.range s.regCtx.regedDpc
  fresh : ∀ r ∈ s.requests, r.pending = false

section Truth
variable {n : Nat} {s : State}

theorem reachable_of_run (res : TimerResolution) (as : List Action)
    (h : Transition.run (step n) (initDpc n res) as = some s) : Reachable n s :=
  ⟨_, as, ⟨res, rfl⟩, h⟩

theorem reachable_bookkept (h : Reachable n s) (hexit : s.deInit.beforeExit = true) :
    Bookkept n s := by
  obtain ⟨s₀, as, ⟨res, rfl⟩, hrun⟩ := h
  exact ((initDpc_bookkept n res).run hrun hexit).1

theorem Bookkept.phase_eq_stopped_iff (h : Bookkept n s) {i : Nat}
    (hi : i < s.regCtx.regedDpc) : s.phase i = .stopped ↔ (s.timerCtx i).isRunning = 0 := by
  have hrun : (s.view i).isRunning = (s.timerCtx i).isRunning := rfl
  cases hp : s.phase i with
  | unregistered => exact absurd ((h.phase_unregistered_iff i).mp hp) (by omega)
  | armed | queued | stopped => simp [← hrun, h.view_eq hp, Phase.view]

theorem Bookkept.counted (h : Bookkept n s) {i : Nat} (hi : i < s.regCtx.regedDpc) :
    ((s.timerCtx i).isRunning = 0 ∨ (s.timerCtx i).isRunning = 1) ∧
    ((s.timerCtx i).isRunning = 1 ↔ Xor ((s.timer i).armed = true) ((s.dpcTimer i).queued = true)) ∧
    ((s.timerCtx i).isRunning = 0 ↔ (s.timer i).armed = false ∧ (s.dpcTimer i).queued = false) := by
  have hview {p : Phase} (hp : s.phase i = p) : (s.timerCtx i).isRunning = p.view.isRunning ∧
      (s.timer i).armed = p.view.armed ∧ (s.dpcTimer i).queued = p.view.queued := by
    have h := h.view_eq hp
    exact ⟨congrArg View.isRunning h, congrArg View.armed h, congrArg View.queued h⟩
  cases hp : s.phase i with
  | unregistered => exact absurd ((h.phase_unregistered_iff i).mp hp) (by omega)
  | armed | queued | stopped => simp [hview hp, Phase.view, Xor]

theorem regFunction_in_bounds (h : Bookkept n s) (readings : List CounterReading) (i : Nat) :
    regFunction n readings s.dequeueReg ≠ .outOfBounds i := by
  have hreged := h.reged_le
  have htotal := h.total
  intro hout
  simp only [regFunction, State.dequeueReg_regCtx] at hout
  split at hout
  · cases hout
  · split at hout
    · cases hout
    · cases hout
    · split at hout
      · cases hout
      · rename_i hi
        simp only [DpcRegCtx.logReading] at hi
        omega

theorem timerBookkeeping (h : Reachable n s) (hexit : s.deInit.beforeExit = true) :
    TimerBookkeeping n s := by
  have hb := reachable_bookkept h hexit
  refine ⟨hb.reged_le, regFunction_in_bounds hb, ?_, fun i hi => hb.counted hi, ?_, ?_, ?_,
    hb.registered, hb.fresh⟩
  · intro i hi
    have hview := hb.view_eq ((hb.phase_unregistered_iff i).mpr hi)
    exact ⟨congrArg View.isRunning hview, congrArg View.armed hview, congrArg View.queued hview⟩
  · intro i hi hzero as t hrun ht
    obtain ⟨hb', hstage⟩ := hb.run hrun ht
    have hstopped : t.phase i = .stopped :=
      Phase.eq_stopped_of_stage_le (hstage i) ((hb.phase_eq_stopped_iff hi).mpr hzero)
    exact congrArg View.isRunning (hb'.view_eq hstopped)
  · rcases hb.running with ⟨hrun, hq⟩ | ⟨hrun, hq, -⟩ <;> simp [hrun, hq]
  · intro hzero
    cases hb.running with
    | inl hrunning => simp [hrunning.1] at hzero
    | inr hdone => exact hdone.2.2

/-- The first of two timers is registered, has run once and waits again. -/
def rearmedOnce : List Action :=
  [.runReg [⟨0, 1⟩, ⟨1000, 1⟩, ⟨1001, 1⟩], .expire 0, .runTimer 0 ⟨2000, 1⟩, .deInit]

theorem timerBookkeeping_rearmedOnce :
    ∃ s, Transition.run (step 2) (initDpc 2 halfMillisecond) rearmedOnce = some s ∧
      TimerBookkeeping 2 s :=
  ⟨_, rfl, timerBookkeeping (reachable_of_run halfMillisecond rearmedOnce rfl) rfl⟩

end Truth
end WdmTest.MultiTimer
