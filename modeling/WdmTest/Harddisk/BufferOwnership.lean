import WdmTest.Harddisk.Model
import WdmTest.Lib.Handover

/-!
Who owns the read buffer. `DoTest` lends it to the device stack and should touch
it again only after `MyIoCompletion` has run. The wait in between can give up,
its result is ignored, and its positive timeout is a system time that lies in
the past: the wait gives up whenever it is not satisfied at once.
-/
namespace WdmTest.Harddisk
open Transition

def State.Completed (s : State) : Prop := s.completion = .returned

instance : DecidablePred State.Completed :=
  fun s => inferInstanceAs (Decidable (s.completion = .returned))

def State.UsesBuffer (s : State) : Prop := s.doTest = .printing ∨ s.doTest = .freeing

def BufferReturned (s : State) (a : Action) : Prop :=
  a = .doTest → s.UsesBuffer → s.Completed

/-- The wait does not give up before the completion routine has run. -/
def TimelyCompletion (s : State) (a : Action) : Prop := a = .waitTimeout → s.Completed

instance (s : State) : Decidable s.UsesBuffer :=
  inferInstanceAs (Decidable (s.doTest = .printing ∨ s.doTest = .freeing))

instance (s : State) (a : Action) : Decidable (BufferReturned s a) :=
  inferInstanceAs (Decidable (a = .doTest → s.UsesBuffer → s.Completed))

instance (s : State) (a : Action) : Decidable (TimelyCompletion s a) :=
  inferInstanceAs (Decidable (a = .waitTimeout → s.Completed))

section Steps
variable {openStatus : NtStatus} {s t : State}

theorem doTest_effect (h : doTest openStatus s = some t) :
    t.completion = s.completion ∧ (t.ioEvent = true → s.ioEvent = true) ∧
      (t.UsesBuffer → s.UsesBuffer) ∧ t.now = s.now ∧ ∀ due, t.doTest ≠ .waiting due := by
  simp only [doTest] at h
  cases hpc : s.doTest with
  | opening =>
      simp only [hpc] at h
      split at h <;> cases h <;> simp [State.UsesBuffer]
  | preparing | printing | freeing =>
      simp only [hpc] at h
      cases h
      simp [State.UsesBuffer, hpc]
  | calling | waiting _ | returned => simp [hpc] at h

theorem myIoCompletion_effect (h : myIoCompletion s = some t) :
    ¬ s.Completed ∧ (t.ioEvent = true → s.ioEvent = true ∨ t.Completed) ∧
      t.doTest = s.doTest ∧ t.now = s.now := by
  simp only [myIoCompletion] at h
  cases hpc : s.completion with
  | freeingMdl | freeingIrp | settingEvent =>
      simp only [hpc] at h
      cases h
      simp [State.Completed, hpc]
  | notCalled | returned => simp [hpc] at h

/-- `DoTest` comes to use the buffer only when the completion routine has run,
when the event is set or when the wait gives up. -/
theorem step_effect {a : Action} (h : step openStatus s a = some t) :
    (s.Completed → t.Completed) ∧ (t.ioEvent = true → s.ioEvent = true ∨ t.Completed) ∧
      (t.UsesBuffer → s.UsesBuffer ∨ s.ioEvent = true ∨ s.Completed ∨ a = .waitTimeout) := by
  cases a with
  | tick time =>
      cases h
      exact ⟨id, Or.inl, Or.inl⟩
  | doTest =>
      obtain ⟨hcompletion, hevent, huses, -⟩ := doTest_effect h
      exact ⟨hcompletion.trans, fun ht => Or.inl (hevent ht), fun ht => Or.inl (huses ht)⟩
  | complete =>
      simp only [step, Option.ite_none_right_eq_some, Option.some.injEq] at h
      obtain ⟨⟨-, hnot⟩, rfl⟩ := h
      refine ⟨?_, Or.inl, Or.inl⟩
      intro hs
      exact absurd (hnot.symm.trans hs) (by decide)
  | completion =>
      obtain ⟨hnot, hevent, hpc, -⟩ := myIoCompletion_effect h
      refine ⟨fun hs => absurd hs hnot, hevent, ?_⟩
      intro ht
      rw [State.UsesBuffer, hpc] at ht
      exact Or.inl ht
  | callReturns status =>
      simp only [step, Option.ite_none_right_eq_some] at h
      obtain ⟨⟨-, hdone⟩, h⟩ := h
      split at h
      · cases h
        refine ⟨id, Or.inl, ?_⟩
        intro ht
        simp [State.UsesBuffer] at ht
      · rename_i hother
        cases h
        exact ⟨id, Or.inl, fun _ => Or.inr (Or.inr (Or.inl (hdone.resolve_right hother)))⟩
  | waitSatisfied =>
      simp only [step] at h
      split at h
      · simp only [Option.ite_none_right_eq_some, Option.some.injEq] at h
        obtain ⟨hevent, rfl⟩ := h
        exact ⟨id, Or.inl, fun _ => Or.inr (Or.inl hevent)⟩
      · cases h
  | waitTimeout =>
      simp only [step] at h
      split at h
      · simp only [Option.ite_none_right_eq_some, Option.some.injEq] at h
        obtain ⟨-, rfl⟩ := h
        exact ⟨id, Or.inl, fun _ => Or.inr (Or.inr (Or.inr rfl))⟩
      · cases h

theorem bufferHandover (openStatus : NtStatus) :
    Handover (step openStatus) (fun _ => True) State.Completed (fun s => s.ioEvent = true)
      State.UsesBuffer TimelyCompletion where
  keeps _ _ _ _ _ := trivial
  stable _ _ _ _ h := (step_effect h).1
  signals _ _ _ _ h := (step_effect h).2.1
  resumes s a t _ h htimely ht := by
    have hstable := (step_effect h).1
    rcases (step_effect h).2.2 ht with huses | hevent | hdone | htimeout
    · exact Or.inl huses
    · exact Or.inr (Or.inl hevent)
    · exact Or.inr (Or.inr (hstable hdone))
    · exact Or.inr (Or.inr (hstable (htimely htimeout)))

end Steps

theorem bufferReturned_of_timely {openStatus : NtStatus} {now : Int} {as : List Action}
    (htimely : Along (step openStatus) TimelyCompletion (initial now) as) :
    Along (step openStatus) BufferReturned (initial now) as := by
  have hD : ∀ s a, (s.UsesBuffer → s.Completed) → BufferReturned s a := fun _ _ h _ => h
  refine (bufferHandover openStatus).along hD htimely ⟨trivial, ?_, ?_⟩
  · intro h
    cases h
  · intro h
    simp [State.UsesBuffer, initial] at h

/-- The start of 2024. -/
def systemTime : Int := 133485408000000000

/-- The device answers while `DoTest` waits. -/
def answeredInTime : List Action :=
  [.doTest, .doTest, .callReturns NtStatus.pending, .complete, .completion, .completion,
    .completion, .waitSatisfied, .doTest, .doTest]

theorem bufferReturned_answeredInTime :
    ∃ t, Transition.run (step NtStatus.success) (initial systemTime) answeredInTime = some t ∧
      t.doTest = .returned ∧
      Along (step NtStatus.success) BufferReturned (initial systemTime) answeredInTime :=
  ⟨_, rfl, rfl, bufferReturned_of_timely (by decide)⟩

/-- The device answers a moment later than the wait is entered. -/
def answeredLate : List Action :=
  [.doTest, .doTest, .callReturns NtStatus.pending, .waitTimeout, .doTest, .doTest, .complete]

theorem bufferReturned_answeredLate :
    ∃ t, Transition.run (step NtStatus.success) (initial systemTime) answeredLate = some t ∧
      t.buffer = false ∧ t.completion = .freeingMdl ∧
      ¬ Along (step NtStatus.success) BufferReturned (initial systemTime) answeredLate :=
  ⟨_, rfl, rfl, rfl, by decide⟩

/-! ## How long the wait lasts -/

/-- The due time of the wait has passed before the wait begins. -/
structure DuePast (s : State) : Prop where
  now : Const.wait.toInt ≤ s.now
  due : ∀ due, s.doTest = .waiting due → due ≤ s.now

section Waiting
variable {openStatus : NtStatus} {s t : State}

theorem waitDue_wait (now : Int) : waitDue now Const.wait = Const.wait.toInt := by
  rw [waitDue, if_neg (by decide)]

theorem DuePast.frame (h : DuePast s) (hnow : s.now ≤ t.now)
    (hpc : ∀ due, t.doTest = .waiting due → s.doTest = .waiting due) : DuePast t :=
  ⟨le_trans h.now hnow, fun due hdue => le_trans (h.due due (hpc due hdue)) hnow⟩

theorem DuePast.step {a : Action} (h : DuePast s) (hstep : step openStatus s a = some t) :
    DuePast t := by
  cases a with
  | tick time =>
      cases hstep
      exact h.frame (Int.le_add_of_nonneg_right (Int.natCast_nonneg time)) fun _ => id
  | doTest =>
      obtain ⟨-, -, -, hnow, hno⟩ := doTest_effect hstep
      exact h.frame (le_of_eq hnow.symm) fun due hdue => absurd hdue (hno due)
  | complete =>
      simp only [Harddisk.step, Option.ite_none_right_eq_some, Option.some.injEq] at hstep
      obtain ⟨-, rfl⟩ := hstep
      exact h.frame (le_refl _) fun _ => id
  | completion =>
      obtain ⟨-, -, hpc, hnow⟩ := myIoCompletion_effect hstep
      exact h.frame (le_of_eq hnow.symm) fun due hdue => hpc ▸ hdue
  | callReturns status =>
      simp only [Harddisk.step, Option.ite_none_right_eq_some] at hstep
      obtain ⟨-, hstep⟩ := hstep
      split at hstep
      · cases hstep
        refine ⟨h.now, ?_⟩
        intro due hdue
        rw [← DoTestPc.waiting.inj hdue, waitDue_wait]
        exact h.now
      · cases hstep
        exact h.frame (le_refl _) (by simp)
  | waitSatisfied | waitTimeout =>
      simp only [Harddisk.step] at hstep
      split at hstep
      · simp only [Option.ite_none_right_eq_some, Option.some.injEq] at hstep
        obtain ⟨-, rfl⟩ := hstep
        exact h.frame (le_refl _) (by simp)
      · cases hstep

end Waiting

end WdmTest.Harddisk
