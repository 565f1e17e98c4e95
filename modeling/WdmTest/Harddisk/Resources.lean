import WdmTest.Harddisk.Model

/-!
What HarddiskDeviceTest takes is given back. `DoTest` frees the buffer and
`MyIoCompletion` the IRP and the MDL, in whatever order the two come to it, and
from every state, also when the wait has given up, the run can go on until nothing
is left.

When the buffer is freed is another matter: nothing is said here of who still
uses it.
-/
namespace WdmTest.Harddisk
open Transition

/-- `DoTest` depends on the completion of its IRP. -/
def DoTestPc.sent : DoTestPc → Bool
  | .calling | .waiting _ => true
  | .opening | .preparing | .printing | .freeing | .returned => false

/-- The statements left to `DoTest`. -/
def DoTestPc.rank : DoTestPc → Nat
  | .opening => 6
  | .preparing => 5
  | .calling => 4
  | .waiting _ => 3
  | .printing => 2
  | .freeing => 1
  | .returned => 0

def CompletionPc.rank : CompletionPc → Nat
  | .notCalled => 4
  | .freeingMdl => 3
  | .freeingIrp => 2
  | .settingEvent => 1
  | .returned => 0

/-- Which of the three is there, by where the two parties stand. -/
structure Accounted (s : State) : Prop where
  idle : s.doTest = .opening ∨ s.doTest = .preparing →
    s.completion = .notCalled ∧ s.irp = false ∧ s.mdl = false ∧ s.buffer = false
  sent : s.doTest.sent = true → s.completion = .notCalled → s.irp = true
  buffer : s.doTest = .returned → s.buffer = false
  mdl : s.completion = .notCalled → s.mdl = s.irp
  freed : s.completion.rank ≤ 2 → s.mdl = false
  completed : s.completion.rank ≤ 1 → s.irp = false
  event : s.completion = .returned → s.ioEvent = true

def Released (s : State) : Prop :=
  s.doTest = .returned ∧ s.irp = false ∧ s.mdl = false ∧ s.buffer = false

section Steps
variable {openStatus : NtStatus} {s t : State}

theorem Accounted.doTest (h : Accounted s) (hstep : doTest openStatus s = some t) :
    Accounted t := by
  simp only [Harddisk.doTest] at hstep
  cases hpc : s.doTest with
  | opening =>
      obtain ⟨hcalled, hirp, hmdl, hbuffer⟩ := h.idle (Or.inl hpc)
      simp only [hpc] at hstep
      split at hstep <;> cases hstep <;>
        constructor <;> simp [hcalled, hirp, hmdl, hbuffer, DoTestPc.sent]
  | preparing =>
      obtain ⟨hcalled, -⟩ := h.idle (Or.inr hpc)
      simp only [hpc] at hstep
      cases hstep
      constructor <;> simp [hcalled, CompletionPc.rank]
  | printing | freeing =>
      simp only [hpc] at hstep
      cases hstep
      exact ⟨by simp, by simp [DoTestPc.sent], by simp, h.mdl, h.freed, h.completed, h.event⟩
  | calling | waiting _ | returned => simp [hpc] at hstep

/-- The completion routine is not called before `DoTest` has sent its IRP. -/
theorem Accounted.not_idle (h : Accounted s) (hcalled : s.completion ≠ .notCalled) :
    ¬ (s.doTest = .opening ∨ s.doTest = .preparing) :=
  fun hidle => hcalled (h.idle hidle).1

theorem Accounted.completion (h : Accounted s) (hstep : myIoCompletion s = some t) :
    Accounted t := by
  simp only [myIoCompletion] at hstep
  cases hpc : s.completion with
  | freeingMdl | freeingIrp | settingEvent =>
      have hbusy := h.not_idle (by rw [hpc]; decide)
      have hfreed := h.freed
      have hcompleted := h.completed
      simp only [hpc] at hstep
      cases hstep
      refine ⟨fun hidle => absurd hidle hbusy, ?_, h.buffer, ?_, ?_, ?_, ?_⟩ <;>
        simp_all [CompletionPc.rank]
  | notCalled | returned => simp [hpc] at hstep

/-- Time passes, or `DoTest` leaves `IoCallDriver` or its wait. -/
theorem Accounted.frame (h : Accounted s) (hirp : t.irp = s.irp) (hmdl : t.mdl = s.mdl)
    (hbuffer : t.buffer = s.buffer) (hcompletion : t.completion = s.completion)
    (hevent : t.ioEvent = s.ioEvent)
    (hpc : t.doTest = s.doTest ∨ s.doTest.sent = true ∧
      (t.doTest.sent = true ∨ t.doTest = .printing)) : Accounted t := by
  refine ⟨?_, ?_, ?_, ?_, ?_, ?_, ?_⟩
  · intro hidle
    rw [hirp, hmdl, hbuffer, hcompletion]
    cases hpc with
    | inl hsame => exact h.idle (hsame ▸ hidle)
    | inr hsent => rcases hidle with hidle | hidle <;> simp [hidle, DoTestPc.sent] at hsent
  · rw [hirp, hcompletion]
    intro hsent
    cases hpc with
    | inl hsame => exact h.sent (hsame ▸ hsent)
    | inr hwas => exact h.sent hwas.1
  · intro hreturned
    rw [hbuffer]
    cases hpc with
    | inl hsame => exact h.buffer (hsame ▸ hreturned)
    | inr hsent => simp [hreturned, DoTestPc.sent] at hsent
  · rw [hirp, hmdl, hcompletion]
    exact h.mdl
  · rw [hmdl, hcompletion]
    exact h.freed
  · rw [hirp, hcompletion]
    exact h.completed
  · rw [hevent, hcompletion]
    exact h.event

theorem Accounted.step {a : Action} (h : Accounted s)
    (hstep : step openStatus s a = some t) : Accounted t := by
  cases a with
  | tick time =>
      cases hstep
      exact h.frame rfl rfl rfl rfl rfl (Or.inl rfl)
  | doTest => exact h.doTest hstep
  | completion => exact h.completion hstep
  | complete =>
      simp only [Harddisk.step, Option.ite_none_right_eq_some, Option.some.injEq] at hstep
      obtain ⟨⟨hirp, hnot⟩, rfl⟩ := hstep
      refine ⟨?_, by simp, h.buffer, by simp, ?_, ?_, by simp⟩
      · intro hidle
        rw [(h.idle hidle).2.1] at hirp
        cases hirp
      · simp [CompletionPc.rank]
      · simp [CompletionPc.rank]
  | callReturns status =>
      simp only [Harddisk.step, Option.ite_none_right_eq_some] at hstep
      obtain ⟨⟨hcalling, -⟩, hstep⟩ := hstep
      have hsent : s.doTest.sent = true := by rw [hcalling]; rfl
      split at hstep <;> cases hstep
      · exact h.frame rfl rfl rfl rfl rfl (Or.inr ⟨hsent, Or.inl rfl⟩)
      · exact h.frame rfl rfl rfl rfl rfl (Or.inr ⟨hsent, Or.inr rfl⟩)
  | waitSatisfied | waitTimeout =>
      simp only [Harddisk.step] at hstep
      split at hstep
      · rename_i due hwait
        simp only [Option.ite_none_right_eq_some, Option.some.injEq] at hstep
        obtain ⟨-, rfl⟩ := hstep
        have hsent : s.doTest.sent = true := by rw [hwait]; rfl
        exact h.frame rfl rfl rfl rfl rfl (Or.inr ⟨hsent, Or.inr rfl⟩)
      · cases hstep

end Steps

/-! ## To the end -/

section Progress
variable {openStatus : NtStatus} {s : State}

def State.left (s : State) : Nat := s.doTest.rank + s.completion.rank

/-- An IRP that is not freed can be completed, and its completion goes on. -/
theorem exists_completion (hirp : s.completion = .notCalled → s.irp = true)
    (hbusy : s.completion ≠ .returned) :
    ∃ a t, step openStatus s a = some t ∧ t.left < s.left := by
  cases hpc : s.completion with
  | notCalled =>
      refine ⟨.complete, { s with completion := .freeingMdl }, ?_, ?_⟩
      · simp [step, hirp hpc, hpc]
      · simp [State.left, CompletionPc.rank, hpc]
  | freeingMdl =>
      refine ⟨.completion, { s with mdl := false, completion := .freeingIrp }, ?_, ?_⟩
      · simp [step, myIoCompletion, hpc]
      · simp [State.left, CompletionPc.rank, hpc]
  | freeingIrp =>
      refine ⟨.completion, { s with irp := false, completion := .settingEvent }, ?_, ?_⟩
      · simp [step, myIoCompletion, hpc]
      · simp [State.left, CompletionPc.rank, hpc]
  | settingEvent =>
      refine ⟨.completion, { s with ioEvent := true, completion := .returned }, ?_, ?_⟩
      · simp [step, myIoCompletion, hpc]
      · simp [State.left, CompletionPc.rank, hpc]
  | returned => exact absurd hpc hbusy

theorem exists_doTest (hpc : s.doTest ≠ .returned) (hsent : s.doTest.sent = false) :
    ∃ t, step openStatus s .doTest = some t ∧ t.left < s.left := by
  simp only [step, doTest, State.left]
  cases hat : s.doTest with
  | opening =>
      dsimp only
      split
      · exact ⟨_, rfl, by simp [DoTestPc.rank]⟩
      · exact ⟨_, rfl, by simp [DoTestPc.rank]⟩
  | preparing | printing | freeing => exact ⟨_, rfl, by simp [DoTestPc.rank]⟩
  | calling | waiting _ => simp [hat, DoTestPc.sent] at hsent
  | returned => exact absurd hat hpc

theorem Accounted.exists_step (h : Accounted s) (hleft : ¬ Released s) :
    ∃ a t, Harddisk.step openStatus s a = some t ∧ t.left < s.left := by
  cases hpc : s.doTest with
  | opening | preparing | printing | freeing =>
      exact ⟨.doTest, exists_doTest (by rw [hpc]; decide) (by rw [hpc]; rfl)⟩
  | calling =>
      refine ⟨.callReturns NtStatus.pending, { s with
        status := NtStatus.pending, doTest := .waiting (waitDue s.now Const.wait) }, ?_, ?_⟩
      · simp [Harddisk.step, hpc]
      · simp [State.left, hpc, DoTestPc.rank]
  | waiting due =>
      by_cases hdone : s.completion = .returned
      · refine ⟨.waitSatisfied, { s with status := NtStatus.success, doTest := .printing }, ?_, ?_⟩
        · simp [Harddisk.step, hpc, h.event hdone]
        · simp [State.left, hpc, DoTestPc.rank]
      · exact exists_completion (h.sent (by rw [hpc]; rfl)) hdone
  | returned =>
      have hbuffer := h.buffer hpc
      have hirp : s.completion = .notCalled → s.irp = true := by
        intro hnot
        by_contra hnone
        rw [Bool.not_eq_true] at hnone
        exact hleft ⟨hpc, hnone, (h.mdl hnot).trans hnone, hbuffer⟩
      apply exists_completion hirp
      intro hdone
      exact hleft ⟨hpc, h.completed (by rw [hdone]; decide), h.freed (by rw [hdone]; decide),
        hbuffer⟩

end Progress

end WdmTest.Harddisk
