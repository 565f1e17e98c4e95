import WdmTest.Lib.Bytes
import WdmTest.Lib.Decimal
import Mathlib.Data.List.Basic
import Mathlib.Data.List.Forall2

/-!
Texts that can be read back. An encoding is self-delimiting up to a relation when
a text that starts with a code shows where the code ends and, up to the relation,
whose code it is. Fixed texts, fields before a separator and fields of a fixed
width are; sequences of such codes are, if something shows where they end.

Nothing is decoded here. That two values with one code are related is what a
decoder would rest on.
-/
namespace Readback

universe u v w
variable {α : Type u} {β : Type v} {ι : Type w}

def Delimits (R : α → α → Prop) (f : α → List β) : Prop :=
  ∀ a b p q, f a ++ p = f b ++ q → R a b ∧ p = q

/-- No text can start with a code of `f` and with the separator. -/
def Apart (f : α → List β) (stop : List β) : Prop := ∀ a p q, f a ++ p ≠ stop ++ q

section Codes
variable {R S : α → α → Prop} {f g : α → List β}

theorem Delimits.related (h : Delimits R f) {a b : α} (heq : f a = f b) : R a b :=
  (h a b [] [] (congrArg (· ++ []) heq)).1

theorem Delimits.mono (h : Delimits R f) (hRS : ∀ a b, R a b → S a b) :
    Delimits S f := by
  intro a b p q heq
  obtain ⟨hR, hpq⟩ := h a b p q heq
  exact ⟨hRS a b hR, hpq⟩

theorem delimits_const (l : List β) : Delimits (fun _ _ => True) fun _ : α => l :=
  fun _ _ _ _ heq => ⟨trivial, List.append_cancel_left heq⟩

theorem Delimits.append (hf : Delimits R f) (hg : Delimits S g) :
    Delimits (fun a b => R a b ∧ S a b) fun a => f a ++ g a := by
  intro a b p q heq
  rw [List.append_assoc, List.append_assoc] at heq
  obtain ⟨hR, hrest⟩ := hf a b _ _ heq
  obtain ⟨hS, hpq⟩ := hg a b p q hrest
  exact ⟨⟨hR, hS⟩, hpq⟩

theorem Delimits.literal (hg : Delimits S g) (l : List β) :
    Delimits S fun a => l ++ g a :=
  ((delimits_const l).append hg).mono fun _ _ h => h.2

theorem Delimits.comp (h : Delimits R f) (k : ι → α) :
    Delimits (fun x y => R (k x) (k y)) fun x => f (k x) :=
  fun x y p q heq => h (k x) (k y) p q heq

/-- A field ends at the separator that the text behind it starts with. -/
theorem Delimits.field (hg : Delimits S g) (stop : β) (hf : ∀ a, stop ∉ f a)
    (hstop : ∀ a, ∃ l, g a = stop :: l) :
    Delimits (fun a b => f a = f b ∧ S a b) fun a => f a ++ g a := by
  intro a b p q heq
  obtain ⟨l, hl⟩ := hstop a
  obtain ⟨m, hm⟩ := hstop b
  rw [List.append_assoc, List.append_assoc, hl, hm, List.cons_append, List.cons_append] at heq
  obtain ⟨hfield, hrest⟩ := (Bytes.append_separator_inj (hf a) (hf b)).mp heq
  have hall : g a ++ p = g b ++ q := by rw [hl, hm, List.cons_append, List.cons_append, hrest]
  obtain ⟨hS, hpq⟩ := hg a b p q hall
  exact ⟨⟨hfield, hS⟩, hpq⟩

/-- A number in decimal, with text behind it that does not go on with a digit. -/
theorem Delimits.decimal {g : α → List Char} (hg : Delimits S g) (value : α → Int) (stop : Char)
    (hsign : stop ≠ '-') (hdigit : stop.isDigit = false) (hstop : ∀ a, ∃ l, g a = stop :: l) :
    Delimits (fun a b => value a = value b ∧ S a b) fun a => Decimal.ofInt (value a) ++ g a := by
  have hfield := hg.field stop (fun a => Decimal.notMem_ofInt (value a) hsign hdigit) hstop
  exact hfield.mono fun _ _ h => ⟨Decimal.ofInt_injective h.1, h.2⟩

theorem delimits_width (h : ∀ a b, (f a).length = (f b).length) :
    Delimits (fun a b => f a = f b) f :=
  fun a b _ _ heq => List.append_inj heq (h a b)

end Codes

/-! ## Sequences -/

section Sequences
variable {R : α → α → Prop} {f : α → List β} {stop : List β}

theorem Delimits.forall₂_of_append_stop (h : Delimits R f) (hstop : Apart f stop)
    {l m : List α} {p q : List β}
    (heq : l.flatMap f ++ (stop ++ p) = m.flatMap f ++ (stop ++ q)) :
    List.Forall₂ R l m ∧ p = q := by
  induction l generalizing m with
  | nil =>
      cases m with
      | nil => exact ⟨List.Forall₂.nil, List.append_cancel_left heq⟩
      | cons b m =>
          rw [List.flatMap_nil, List.nil_append, List.flatMap_cons, List.append_assoc] at heq
          exact absurd heq.symm (hstop b _ _)
  | cons a l ih =>
      cases m with
      | nil =>
          rw [List.flatMap_nil, List.nil_append, List.flatMap_cons, List.append_assoc] at heq
          exact absurd heq (hstop a _ _)
      | cons b m =>
          rw [List.flatMap_cons, List.flatMap_cons, List.append_assoc, List.append_assoc] at heq
          obtain ⟨hR, hrest⟩ := h a b _ _ heq
          obtain ⟨hall, hpq⟩ := ih hrest
          exact ⟨List.Forall₂.cons hR hall, hpq⟩

/-- A sequence of codes ends at a separator that is apart from them. -/
theorem Delimits.sequence (h : Delimits R f) (hstop : Apart f stop) :
    Delimits (List.Forall₂ R) fun l => l.flatMap f ++ stop := by
  intro l m p q heq
  simp only [List.append_assoc] at heq
  exact h.forall₂_of_append_stop hstop heq

/-- Sequences of one length need no separator. -/
theorem Delimits.forall₂_of_length (h : Delimits R f) {l m : List α} {p q : List β}
    (hlen : l.length = m.length) (heq : l.flatMap f ++ p = m.flatMap f ++ q) :
    List.Forall₂ R l m ∧ p = q := by
  induction l generalizing m with
  | nil =>
      rw [List.length_eq_zero_iff.mp hlen.symm] at heq ⊢
      exact ⟨List.Forall₂.nil, heq⟩
  | cons a l ih =>
      cases m with
      | nil => cases hlen
      | cons b m =>
          rw [List.flatMap_cons, List.flatMap_cons, List.append_assoc, List.append_assoc] at heq
          obtain ⟨hR, hrest⟩ := h a b _ _ heq
          obtain ⟨hall, hpq⟩ := ih (Nat.succ.inj hlen) hrest
          exact ⟨List.Forall₂.cons hR hall, hpq⟩

/-- At the end of the text a sequence needs no separator. -/
theorem Delimits.forall₂_of_flatMap_eq (h : Delimits R f) (hne : ∀ a, f a ≠ [])
    {l m : List α} (heq : l.flatMap f = m.flatMap f) : List.Forall₂ R l m := by
  induction l generalizing m with
  | nil =>
      cases m with
      | nil => exact List.Forall₂.nil
      | cons b m =>
          rw [List.flatMap_nil, List.flatMap_cons] at heq
          exact absurd (List.append_eq_nil_iff.mp heq.symm).1 (hne b)
  | cons a l ih =>
      cases m with
      | nil =>
          rw [List.flatMap_nil, List.flatMap_cons] at heq
          exact absurd (List.append_eq_nil_iff.mp heq).1 (hne a)
      | cons b m =>
          rw [List.flatMap_cons, List.flatMap_cons] at heq
          obtain ⟨hR, hrest⟩ := h a b _ _ heq
          exact List.Forall₂.cons hR (ih hrest)

/-- Codes of one value, one behind the other. -/
theorem delimits_parts {l : List ι} {P : ι → α → α → Prop} {g : ι → α → List β}
    (h : ∀ i ∈ l, Delimits (P i) (g i)) :
    Delimits (fun a b => ∀ i ∈ l, P i a b) fun a => l.flatMap fun i => g i a := by
  induction l with
  | nil => exact (delimits_const []).mono fun _ _ _ _ hi => absurd hi List.not_mem_nil
  | cons i l ih =>
      have hi := h i List.mem_cons_self
      have hl := ih fun j hj => h j (List.mem_cons_of_mem i hj)
      exact (hi.append hl).mono fun _ _ hab => List.forall_mem_cons.mpr hab

/-- Lines of one width need no separator. -/
theorem flatten_inj_of_width {l m : List (List β)} {width : Nat}
    (hl : ∀ x ∈ l, x.length = width) (hm : ∀ x ∈ m, x.length = width)
    (hlen : l.length = m.length) (h : l.flatten = m.flatten) : l = m := by
  induction l generalizing m with
  | nil => exact (List.length_eq_zero_iff.mp hlen.symm).symm
  | cons x l ih =>
      cases m with
      | nil => cases hlen
      | cons y m =>
          obtain ⟨hx, hl⟩ := List.forall_mem_cons.mp hl
          obtain ⟨hy, hm⟩ := List.forall_mem_cons.mp hm
          rw [List.flatten_cons, List.flatten_cons] at h
          obtain ⟨hxy, hrest⟩ := List.append_inj h (hx.trans hy.symm)
          rw [hxy, ih hl hm (Nat.succ.inj hlen) hrest]

theorem flatten_flatMap {γ : Type*} (l : List α) (lines : α → List (List γ)) :
    (l.flatMap lines).flatten = l.flatMap fun a => (lines a).flatten := by
  rw [List.flatMap_def, List.flatten_flatten, List.map_map]
  rfl

theorem map_eq_of_forall₂ {γ : Type*} {k : α → γ} {l m : List α}
    (h : List.Forall₂ (fun a b => k a = k b) l m) : l.map k = m.map k := by
  rw [← List.forall₂_eq_eq_eq, List.forall₂_map_left_iff, List.forall₂_map_right_iff]
  exact h

end Sequences
end Readback
