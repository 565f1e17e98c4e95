import Mathlib.Data.List.Basic

/-!
What a piece of straight-line or looping code does, as a trace: the accesses it
makes and the text it prints, in order. A trace that does not complete ends with
an access whose effect is undefined, so nothing that follows it happens.

A loop is the sequence of the traces of its rounds. What makes an access a good
one is a parameter of the rules.
-/

universe u v
variable {ε : Type u} {ω : Type v}

structure Trace (ε : Type u) (ω : Type v) where
  events : List ε := []
  output : List ω := []
  completes : Bool := true

namespace Trace

def andThen (t u : Trace ε ω) : Trace ε ω :=
  if t.completes then ⟨t.events ++ u.events, t.output ++ u.output, u.completes⟩ else t

def seq (ts : List (Trace ε ω)) : Trace ε ω := ts.foldr andThen {}

/-- The same code, its accesses seen as those of a larger piece. -/
def mapEvents {δ : Type*} (f : ε → δ) (t : Trace ε ω) : Trace δ ω :=
  ⟨t.events.map f, t.output, t.completes⟩

def All (P : ε → Prop) (t : Trace ε ω) : Prop := ∀ e ∈ t.events, P e

instance decidableAll (P : ε → Prop) [DecidablePred P] (t : Trace ε ω) : Decidable (t.All P) :=
  inferInstanceAs (Decidable (∀ e ∈ t.events, P e))

section Rules
variable {P : ε → Prop} {t u : Trace ε ω}

@[simp] theorem seq_nil : seq ([] : List (Trace ε ω)) = {} := rfl

@[simp] theorem seq_cons (ts : List (Trace ε ω)) : seq (t :: ts) = t.andThen (seq ts) := rfl

@[simp] theorem all_silent (output : List ω) (completes : Bool) :
    All P (⟨[], output, completes⟩ : Trace ε ω) := by
  simp [All]

theorem andThen_of_completes (h : t.completes = true) :
    t.andThen u = ⟨t.events ++ u.events, t.output ++ u.output, u.completes⟩ := by
  rw [andThen, if_pos h]

@[simp] theorem completes_andThen :
    (t.andThen u).completes = (t.completes && u.completes) := by
  rw [andThen]
  cases h : t.completes <;> simp [h]

theorem all_andThen_iff (h : t.All P → t.completes = true) :
    (t.andThen u).All P ↔ t.All P ∧ u.All P := by
  rw [andThen]
  cases hc : t.completes with
  | true => simp only [if_true, All, List.forall_mem_append]
  | false =>
      have hnot : ¬ t.All P := by
        intro ht
        simp [h ht] at hc
      simp [hnot]

theorem All.andThen (ht : t.All P) (hu : u.All P) : (t.andThen u).All P := by
  rw [Trace.andThen]
  split
  · exact List.forall_mem_append.mpr ⟨ht, hu⟩
  · exact ht

theorem All.of_andThen (h : (t.andThen u).All P) : t.All P := by
  rw [Trace.andThen] at h
  split at h
  · exact (List.forall_mem_append.mp h).1
  · exact h

@[simp] theorem all_mapEvents {δ : Type*} {Q : δ → Prop} (f : ε → δ) :
    (t.mapEvents f).All Q ↔ t.All fun e => Q (f e) :=
  List.forall_mem_map

/-- The accesses of a loop are good exactly when those of each round are, if a
round with good accesses comes to its end. -/
theorem all_seq_iff {ts : List (Trace ε ω)} (h : ∀ t ∈ ts, t.All P → t.completes = true) :
    (seq ts).All P ↔ ∀ t ∈ ts, t.All P := by
  induction ts with
  | nil => simp [All]
  | cons t ts ih =>
      rw [seq_cons, all_andThen_iff (h t List.mem_cons_self), List.forall_mem_cons,
        ih fun u hu => h u (List.mem_cons_of_mem t hu)]

theorem completes_seq {ts : List (Trace ε ω)} (h : ∀ t ∈ ts, t.completes = true) :
    (seq ts).completes = true := by
  induction ts with
  | nil => rfl
  | cons t ts ih =>
      rw [seq_cons, completes_andThen, h t List.mem_cons_self,
        ih fun u hu => h u (List.mem_cons_of_mem t hu)]
      rfl

theorem completes_seq_of_all {ts : List (Trace ε ω)}
    (h : ∀ t ∈ ts, t.All P → t.completes = true) (hall : (seq ts).All P) :
    (seq ts).completes = true := by
  apply completes_seq
  intro t ht
  exact h t ht ((all_seq_iff h).mp hall t ht)

end Rules

/-- The code comes to its end, makes only good accesses and prints exactly this. -/
structure Does (P : ε → Prop) (out : List ω) (t : Trace ε ω) : Prop where
  completes : t.completes = true
  output : t.output = out
  good : t.All P

section Does
variable {α : Type*} {P Q : ε → Prop} {t u : Trace ε ω} {out out' : List ω}

theorem Does.andThen (ht : t.Does P out) (hu : u.Does P out') :
    (t.andThen u).Does P (out ++ out') := by
  rw [andThen_of_completes ht.completes]
  refine ⟨hu.completes, ?_, ?_⟩
  · rw [ht.output, hu.output]
  · exact List.forall_mem_append.mpr ⟨ht.good, hu.good⟩

theorem Does.mono (ht : t.Does P out) (h : ∀ e, P e → Q e) : t.Does Q out :=
  ⟨ht.completes, ht.output, fun e he => h e (ht.good e he)⟩

theorem does_silent (out : List ω) : Does P out ({ output := out } : Trace ε ω) :=
  ⟨rfl, rfl, all_silent _ _⟩

theorem Does.seq_cons {ts : List (Trace ε ω)} (ht : t.Does P out) (hts : (seq ts).Does P out') :
    (seq (t :: ts)).Does P (out ++ out') :=
  ht.andThen hts

theorem does_seq_nil : (seq ([] : List (Trace ε ω))).Does P [] := does_silent []

theorem does_seq_map {l : List α} {f : α → Trace ε ω} {line : α → List ω}
    (h : ∀ a ∈ l, (f a).Does P (line a)) : (seq (l.map f)).Does P (l.flatMap line) := by
  induction l with
  | nil => exact does_seq_nil
  | cons a l ih =>
      rw [List.map_cons, List.flatMap_cons]
      apply Does.seq_cons
      · exact h a List.mem_cons_self
      · apply ih
        intro b hb
        exact h b (List.mem_cons_of_mem a hb)

theorem does_seq_range {l : List α} {f : Nat → Trace ε ω} {line : α → List ω}
    (h : ∀ j a, l[j]? = some a → (f j).Does P (line a)) :
    (seq ((List.range l.length).map f)).Does P (l.flatMap line) := by
  induction l generalizing f with
  | nil => exact does_seq_nil
  | cons a l ih =>
      rw [List.length_cons, List.range_succ_eq_map, List.map_cons, List.map_map, List.flatMap_cons]
      apply Does.seq_cons
      · exact h 0 a rfl
      · apply ih
        intro j b hb
        exact h (j + 1) b hb

end Does

/-- The accesses are good exactly under this condition, and then the code comes
to its end. -/
structure Guards (P : ε → Prop) (c : Prop) (t : Trace ε ω) : Prop where
  all : t.All P ↔ c
  completes : c → t.completes = true

section Guards
variable {α : Type*} {P : ε → Prop} {t u : Trace ε ω} {c d : Prop}

theorem Guards.congr (ht : t.Guards P c) (h : c ↔ d) : t.Guards P d :=
  ⟨ht.all.trans h, fun hd => ht.completes (h.mpr hd)⟩

theorem Guards.andThen (ht : t.Guards P c) (hu : u.Guards P d) :
    (t.andThen u).Guards P (c ∧ d) := by
  refine ⟨?_, ?_⟩
  · rw [all_andThen_iff fun hall => ht.completes (ht.all.mp hall), ht.all, hu.all]
  · intro h
    rw [completes_andThen, ht.completes h.1, hu.completes h.2]
    rfl

theorem guards_silent (out : List ω) : Guards P True ({ output := out } : Trace ε ω) :=
  ⟨iff_true_intro (all_silent _ _), fun _ => rfl⟩

theorem Guards.seq_cons {ts : List (Trace ε ω)} (ht : t.Guards P c) (hts : (seq ts).Guards P d) :
    (seq (t :: ts)).Guards P (c ∧ d) :=
  ht.andThen hts

theorem guards_seq_nil : (seq ([] : List (Trace ε ω))).Guards P True := guards_silent []

theorem guards_seq_map {l : List α} {f : α → Trace ε ω} {c : α → Prop}
    (h : ∀ a ∈ l, (f a).Guards P (c a)) :
    (seq (l.map f)).Guards P (∀ a ∈ l, c a) := by
  induction l with
  | nil => exact guards_seq_nil.congr (by simp)
  | cons a l ih =>
      rw [List.map_cons]
      apply Guards.congr
      · apply Guards.seq_cons
        · exact h a List.mem_cons_self
        · apply ih
          intro b hb
          exact h b (List.mem_cons_of_mem a hb)
      · rw [List.forall_mem_cons]

end Guards
end Trace
