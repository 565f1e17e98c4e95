import WdmTest.Lib.Transition

/-!
Lending something to another party and waiting for it to come back. The owner
resumes when the borrower has signalled, when it sees the thing released, or
early, because its wait has given up. The borrower signals after its last use.

In a run whose steps are all in time the owner never goes on while the borrower
still has the thing; the parties may interleave in any way. Which steps are in
time is a parameter, and so is an invariant the steps may rely on.
-/
namespace Transition

universe u v
variable {σ : Type u} {α : Type v}

structure Handover (step : σ → α → Option σ) (inv released signalled resumed : σ → Prop)
    (timely : σ → α → Prop) : Prop where
  keeps : ∀ s a t, inv s → step s a = some t → inv t
  stable : ∀ s a t, inv s → step s a = some t → released s → released t
  signals : ∀ s a t, inv s → step s a = some t → signalled t → signalled s ∨ released t
  resumes : ∀ s a t, inv s → step s a = some t → timely s a → resumed t →
    resumed s ∨ signalled s ∨ released t

namespace Handover
variable {step : σ → α → Option σ} {inv released signalled resumed : σ → Prop}
  {timely : σ → α → Prop}

/-- A signal and a resumption each show that the thing has come back. -/
structure Sound (inv released signalled resumed : σ → Prop) (s : σ) : Prop where
  inv : inv s
  of_signalled : signalled s → released s
  of_resumed : resumed s → released s

theorem Sound.preserved (h : Handover step inv released signalled resumed timely) {s t : σ}
    {a : α} (hs : Sound inv released signalled resumed s) (htimely : timely s a)
    (hstep : step s a = some t) : Sound inv released signalled resumed t := by
  have hkeep : released s → released t := h.stable s a t hs.inv hstep
  refine ⟨h.keeps s a t hs.inv hstep, ?_, ?_⟩
  · intro hsignal
    cases h.signals s a t hs.inv hstep hsignal with
    | inl hbefore => exact hkeep (hs.of_signalled hbefore)
    | inr hnow => exact hnow
  · intro hresume
    rcases h.resumes s a t hs.inv hstep htimely hresume with hbefore | hsignal | hreleased
    · exact hkeep (hs.of_resumed hbefore)
    · exact hkeep (hs.of_signalled hsignal)
    · exact hreleased

/-- Whatever the owner may do only when it has the thing back, it does in time. -/
theorem along (h : Handover step inv released signalled resumed timely) {D : σ → α → Prop}
    (hD : ∀ s a, (resumed s → released s) → D s a) {s : σ} {as : List α}
    (htimely : Along step timely s as) (hs : Sound inv released signalled resumed s) :
    Along step D s as :=
  along_of_invariant (fun _ _ _ hs htimely hstep => hs.preserved h htimely hstep)
    (fun s a hs _ => hD s a hs.of_resumed) htimely hs

end Handover
end Transition
