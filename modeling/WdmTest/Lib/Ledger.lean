import WdmTest.Lib.Trace
import Mathlib.Algebra.BigOperators.Group.List.Basic
import Mathlib.Algebra.Order.Ring.Int

/-!
What concurrent pieces of code hold of a resource. Each event takes or gives back
some of it; a piece of code keeps its own balance within bounds and ends where it
started, if it ends. Pieces that run side by side, started at any time and
interleaved in any way, then keep the joint balance within bounds, and nothing is
held once all of them have ended.

A trace that does not complete stops in the middle and is never ended. Only the
balance is followed: which of several equal things is given back is not.
-/

universe u v
variable {ε : Type u} {ω : Type v}

namespace Ledger

def held (w : ε → Int) (events : List ε) : Int := (events.map w).sum

/-- From a balance of `h` it stays between nothing and `cap`. -/
def Within (w : ε → Int) (cap : Int) : Int → List ε → Prop
  | h, [] => 0 ≤ h ∧ h ≤ cap
  | h, e :: events => (0 ≤ h ∧ h ≤ cap) ∧ Within w cap (h + w e) events

section Balance
variable {w : ε → Int} {cap h : Int}

@[simp] theorem held_nil : held w [] = 0 := rfl

@[simp] theorem held_cons (e : ε) (events : List ε) :
    held w (e :: events) = w e + held w events := List.sum_cons

theorem held_append (events more : List ε) :
    held w (events ++ more) = held w events + held w more := by
  rw [held, held, held, List.map_append, List.sum_append]

theorem Within.bounds {events : List ε} (hin : Within w cap h events) : 0 ≤ h ∧ h ≤ cap := by
  cases events with
  | nil => exact hin
  | cons e events => exact hin.1

theorem Within.append {events more : List ε} (hin : Within w cap h events)
    (hmore : Within w cap (h + held w events) more) : Within w cap h (events ++ more) := by
  induction events generalizing h with
  | nil => simpa using hmore
  | cons e events ih =>
      refine ⟨hin.1, ih hin.2 ?_⟩
      rw [held_cons, ← Int.add_assoc] at hmore
      exact hmore

theorem within_still {events : List ε} (hstill : ∀ e ∈ events, w e = 0)
    (hbounds : 0 ≤ h ∧ h ≤ cap) : Within w cap h events ∧ held w events = 0 := by
  induction events with
  | nil => exact ⟨hbounds, rfl⟩
  | cons e events ih =>
      obtain ⟨hin, hheld⟩ := ih fun d hd => hstill d (List.mem_cons_of_mem e hd)
      have he := hstill e List.mem_cons_self
      refine ⟨⟨hbounds, ?_⟩, ?_⟩
      · rw [he, Int.add_zero]
        exact hin
      · rw [held_cons, he, hheld, Int.add_zero]

end Balance

/-! ## One piece of code -/

/-- From a balance of `h` the code keeps it within bounds and ends, if it does,
with `h'`. -/
structure Moves (w : ε → Int) (cap h h' : Int) (t : Trace ε ω) : Prop where
  within : Within w cap h t.events
  ends : t.completes = true → h + held w t.events = h'

section Moves
variable {w : ε → Int} {cap h h' h'' : Int} {t u : Trace ε ω}

theorem Moves.andThen (ht : Moves w cap h h' t) (hu : Moves w cap h' h'' u) :
    Moves w cap h h'' (t.andThen u) := by
  rw [Trace.andThen]
  split
  · rename_i hcompletes
    have hend := ht.ends hcompletes
    refine ⟨ht.within.append (hend ▸ hu.within), ?_⟩
    intro hcompletes'
    rw [held_append, ← Int.add_assoc, hend]
    exact hu.ends hcompletes'
  · rename_i hstops
    exact ⟨ht.within, fun hcompletes => absurd hcompletes hstops⟩

theorem moves_still (hstill : ∀ e ∈ t.events, w e = 0) (hbounds : 0 ≤ h ∧ h ≤ cap) :
    Moves w cap h h t := by
  obtain ⟨hin, hheld⟩ := within_still (w := w) hstill hbounds
  refine ⟨hin, ?_⟩
  intro _
  rw [hheld, Int.add_zero]

theorem moves_silent (output : List ω) (completes : Bool) (hbounds : 0 ≤ h ∧ h ≤ cap) :
    Moves w cap h h (⟨[], output, completes⟩ : Trace ε ω) :=
  ⟨hbounds, fun _ => Int.add_zero h⟩

theorem moves_event {e : ε} {output : List ω} {completes : Bool} (hbounds : 0 ≤ h ∧ h ≤ cap)
    (hnext : h + w e = h') (hbounds' : 0 ≤ h' ∧ h' ≤ cap) :
    Moves w cap h h' (⟨[e], output, completes⟩ : Trace ε ω) := by
  refine ⟨⟨hbounds, ?_⟩, ?_⟩
  · rw [hnext]
    exact hbounds'
  · intro _
    rw [held_cons, held_nil, Int.add_zero]
    exact hnext

theorem Within.map {δ : Type*} {f : ε → δ} {w : δ → Int} {events : List ε}
    (hin : Within (fun e => w (f e)) cap h events) : Within w cap h (events.map f) := by
  induction events generalizing h with
  | nil => exact hin
  | cons e events ih => exact ⟨hin.1, ih hin.2⟩

theorem Moves.mapEvents {δ : Type*} {f : ε → δ} {w : δ → Int}
    (ht : Moves (fun e => w (f e)) cap h h' t) : Moves w cap h h' (t.mapEvents f) := by
  refine ⟨ht.within.map, ?_⟩
  intro hcompletes
  rw [← ht.ends hcompletes, Trace.mapEvents, held, List.map_map]
  rfl

end Moves

/-! ## Side by side -/

/-- A piece of code in the middle of its events. -/
structure Party (ε : Type u) where
  done : List ε
  todo : List ε
  completes : Bool

def Party.ended (p : Party ε) : Bool := p.todo.isEmpty && p.completes

/-- The pieces started so far and what they have done, in the order it was done. -/
structure Pool (ε : Type u) where
  parties : List (Party ε) := []
  log : List ε := []

namespace Pool

def start (p : Pool ε) (t : Trace ε ω) : Pool ε :=
  { p with parties := p.parties ++ [⟨[], t.events, t.completes⟩] }

/-- The next event of one piece. -/
def advance (p : Pool ε) (i : Nat) : Option (Pool ε) :=
  match p.parties[i]? with
  | some ⟨done, e :: todo, completes⟩ =>
      some ⟨p.parties.set i ⟨done ++ [e], todo, completes⟩, p.log ++ [e]⟩
  | some ⟨_, [], _⟩ | none => none

def idle (p : Pool ε) : Bool := p.parties.all Party.ended

def active (p : Pool ε) : Nat := p.parties.countP fun q => !q.ended

/-- Events outside the pieces, which go into the same record. -/
def record (p : Pool ε) (events : List ε) : Pool ε := { p with log := p.log ++ events }

/-- All events that are still to come are such. -/
def Ahead (P : ε → Prop) (p : Pool ε) : Prop := ∀ q ∈ p.parties, ∀ e ∈ q.todo, P e

/-- The events that are still to come. -/
def left (p : Pool ε) : Nat := (p.parties.map fun q => q.todo.length).sum

end Pool

structure Party.Sound (w : ε → Int) (cap : Int) (p : Party ε) : Prop where
  within : Within w cap (held w p.done) p.todo
  ends : p.completes = true → held w p.done + held w p.todo = 0

structure Pool.Sound (w : ε → Int) (cap : Int) (p : Pool ε) : Prop where
  parties : ∀ q ∈ p.parties, q.Sound w cap
  log : held w p.log = (p.parties.map fun q => held w q.done).sum

section Pool
variable {w : ε → Int} {cap : Int} {p q : Pool ε}

theorem Party.Sound.ended {q : Party ε} (h : q.Sound w cap) (hended : q.ended = true) :
    held w q.done = 0 := by
  rw [Party.ended, Bool.and_eq_true, List.isEmpty_iff] at hended
  have hend := h.ends hended.2
  rw [hended.1, held_nil, Int.add_zero] at hend
  exact hend

theorem Pool.advance_cases {i : Nat} (h : p.advance i = some q) :
    ∃ done e todo completes, p.parties[i]? = some ⟨done, e :: todo, completes⟩ ∧
      q = ⟨p.parties.set i ⟨done ++ [e], todo, completes⟩, p.log ++ [e]⟩ := by
  rw [Pool.advance] at h
  split at h
  · rename_i done e todo completes hparty
    cases h
    exact ⟨done, e, todo, completes, hparty, rfl⟩
  · cases h
  · cases h

theorem Pool.Sound.start (h : p.Sound w cap) {t : Trace ε ω} (ht : Moves w cap 0 0 t) :
    (p.start t).Sound w cap := by
  refine ⟨?_, ?_⟩
  · intro q hq
    cases List.mem_append.mp hq with
    | inl hold => exact h.parties q hold
    | inr hnew =>
        rw [List.mem_singleton.mp hnew]
        refine ⟨ht.within, ?_⟩
        intro hcompletes
        exact ht.ends hcompletes
  · simp [Pool.start, h.log]

/-- The sum of a value over a list changes by what changes at one index. -/
theorem sum_map_set {α M : Type*} [AddCommMonoid M] (f : α → M) {l : List α} {i : Nat} {a : α}
    (b : α) (h : l[i]? = some a) : ((l.set i b).map f).sum + f a = (l.map f).sum + f b := by
  induction l generalizing i with
  | nil => simp at h
  | cons c l ih =>
      cases i with
      | zero =>
          rw [List.getElem?_cons_zero, Option.some.injEq] at h
          simp only [List.set_cons_zero, List.map_cons, List.sum_cons, h]
          ac_rfl
      | succ i =>
          rw [List.getElem?_cons_succ] at h
          simp only [List.set_cons_succ, List.map_cons, List.sum_cons, add_assoc, ih h]

theorem Pool.Sound.advance (h : p.Sound w cap) {i : Nat} (hstep : p.advance i = some q) :
    q.Sound w cap := by
  obtain ⟨done, e, todo, completes, hparty, rfl⟩ := Pool.advance_cases hstep
  have hsound := h.parties _ (List.mem_of_getElem? hparty)
  have hheld : held w (done ++ [e]) = held w done + w e := by
    rw [held_append, held_cons, held_nil, Int.add_zero]
  refine ⟨?_, ?_⟩
  · intro r hr
    cases List.mem_or_eq_of_mem_set hr with
    | inl hold => exact h.parties r hold
    | inr hnew =>
        rw [hnew]
        refine ⟨?_, ?_⟩
        · rw [hheld]
          exact hsound.within.2
        · intro hcompletes
          have hend := hsound.ends hcompletes
          rw [held_cons] at hend
          rw [hheld, Int.add_assoc]
          exact hend
  · have hsum := sum_map_set (fun q : Party ε => held w q.done)
      ⟨done ++ [e], todo, completes⟩ hparty
    rw [held_append, h.log, held_cons, held_nil]
    simp only [hheld] at hsum ⊢
    omega

theorem sum_bounds {parties : List (Party ε)} (h : ∀ q ∈ parties, q.Sound w cap) :
    0 ≤ (parties.map fun q => held w q.done).sum ∧
      (parties.map fun q => held w q.done).sum ≤ cap * parties.countP fun q => !q.ended := by
  induction parties with
  | nil => simp
  | cons q parties ih =>
      obtain ⟨hlow, hhigh⟩ := ih fun r hr => h r (List.mem_cons_of_mem q hr)
      have hq := h q List.mem_cons_self
      have hbounds := hq.within.bounds
      rw [List.map_cons, List.sum_cons, List.countP_cons]
      cases hended : q.ended with
      | true =>
          rw [hq.ended hended]
          simpa using ⟨hlow, hhigh⟩
      | false =>
          refine ⟨by omega, ?_⟩
          simp only [Bool.not_false, if_true, Nat.cast_add, Nat.cast_one, Int.mul_add, Int.mul_one]
          omega

/-- Nothing is given back that is not held, and what is held is limited by the
number of pieces in the middle of their events. -/
theorem Pool.Sound.bounds (h : p.Sound w cap) :
    0 ≤ held w p.log ∧ held w p.log ≤ cap * p.active := by
  rw [h.log]
  exact sum_bounds h.parties

theorem Pool.Sound.idle (h : p.Sound w cap) (hidle : p.idle = true) : held w p.log = 0 := by
  have hactive : p.active = 0 := by
    rw [Pool.active, List.countP_eq_zero]
    intro q hq
    simpa using List.all_eq_true.mp hidle q hq
  have hbounds := h.bounds
  rw [hactive] at hbounds
  simp only [Nat.cast_zero, Int.mul_zero] at hbounds
  omega

/-- Pieces that have all ended do nothing more. -/
theorem Pool.advance_of_idle (hidle : p.idle = true) (i : Nat) : p.advance i = none := by
  rw [Pool.advance]
  split
  · rename_i done e todo completes hparty
    have hended := List.all_eq_true.mp hidle _ (List.mem_of_getElem? hparty)
    simp [Party.ended] at hended
  · rfl
  · rfl

theorem Pool.Sound.record (h : p.Sound w cap) {events : List ε}
    (hstill : ∀ e ∈ events, w e = 0) : (p.record events).Sound w cap := by
  have hheld : held w events = 0 := List.sum_eq_zero (List.forall_mem_map.mpr hstill)
  refine ⟨h.parties, ?_⟩
  rw [Pool.record, held_append, hheld, Int.add_zero]
  exact h.log

theorem pool_empty_sound (w : ε → Int) (cap : Int) : Pool.Sound w cap ({} : Pool ε) :=
  ⟨nofun, rfl⟩

/-! ## What is still to come -/

section Ahead
variable {P : ε → Prop}

theorem pool_empty_ahead (P : ε → Prop) : Pool.Ahead P ({} : Pool ε) := nofun

theorem Pool.Ahead.mono {Q : ε → Prop} (h : p.Ahead P) (hPQ : ∀ e, P e → Q e) : p.Ahead Q :=
  fun q hq e he => hPQ e (h q hq e he)

theorem Pool.Ahead.start (h : p.Ahead P) {t : Trace ε ω} (ht : t.All P) : (p.start t).Ahead P := by
  intro q hq
  cases List.mem_append.mp hq with
  | inl hold => exact h q hold
  | inr hnew =>
      rw [List.mem_singleton.mp hnew]
      exact ht

/-- An event that comes next was among those still to come. -/
theorem Pool.Ahead.advance (h : p.Ahead P) {i : Nat} (hstep : p.advance i = some q) :
    q.Ahead P ∧ ∃ e, P e ∧ q.log = p.log ++ [e] := by
  obtain ⟨done, e, todo, completes, hparty, rfl⟩ := Pool.advance_cases hstep
  have hall := h _ (List.mem_of_getElem? hparty)
  refine ⟨?_, e, hall e List.mem_cons_self, rfl⟩
  intro r hr
  cases List.mem_or_eq_of_mem_set hr with
  | inl hold => exact h r hold
  | inr hnew =>
      rw [hnew]
      exact fun d hd => hall d (List.mem_cons_of_mem e hd)

theorem Pool.Ahead.idle (h : p.Ahead fun _ => False)
    (hcompletes : ∀ q ∈ p.parties, q.completes = true) : p.idle = true := by
  rw [Pool.idle, List.all_eq_true]
  intro q hq
  rw [Party.ended, hcompletes q hq, Bool.and_true, List.isEmpty_iff]
  exact List.eq_nil_iff_forall_not_mem.mpr fun e he => h q hq e he

end Ahead

/-! ## Progress -/

theorem Pool.advance_left {i : Nat} (hstep : p.advance i = some q) : q.left < p.left := by
  obtain ⟨done, e, todo, completes, hparty, rfl⟩ := Pool.advance_cases hstep
  have hsum := sum_map_set (fun q : Party ε => q.todo.length)
    ⟨done ++ [e], todo, completes⟩ hparty
  simp only [List.length_cons] at hsum
  simp only [Pool.left]
  omega

theorem Pool.advance_completes {i : Nat} (hstep : p.advance i = some q) :
    q.parties.map Party.completes = p.parties.map Party.completes := by
  obtain ⟨done, e, todo, completes, hparty, rfl⟩ := Pool.advance_cases hstep
  rw [List.map_set]
  apply List.ext_getElem?
  intro j
  rw [List.getElem?_set]
  split
  · rename_i hij
    subst hij
    have hbound := (List.getElem?_eq_some_iff.mp hparty).1
    rw [if_pos (by rw [List.length_map]; exact hbound), List.getElem?_map, hparty]
    rfl
  · rfl

theorem Pool.start_all_completes (h : ∀ q ∈ p.parties, q.completes = true) {t : Trace ε ω}
    (ht : t.completes = true) : ∀ q ∈ (p.start t).parties, q.completes = true := by
  intro q hq
  cases List.mem_append.mp hq with
  | inl hold => exact h q hold
  | inr hnew =>
      rw [List.mem_singleton.mp hnew]
      exact ht

theorem Pool.advance_all_completes (h : ∀ q ∈ p.parties, q.completes = true) {i : Nat}
    (hstep : p.advance i = some q) : ∀ r ∈ q.parties, r.completes = true := by
  rw [← List.forall_mem_map (P := fun c => c = true), Pool.advance_completes hstep]
  exact List.forall_mem_map.mpr h

/-- Pieces that all come to their end always have one that can go on. -/
theorem Pool.exists_advance (hcompletes : ∀ q ∈ p.parties, q.completes = true)
    (hbusy : p.idle = false) : ∃ i q, p.advance i = some q := by
  rw [Pool.idle, List.all_eq_false] at hbusy
  obtain ⟨r, hr, hnot⟩ := hbusy
  obtain ⟨i, hi⟩ := List.getElem?_of_mem hr
  obtain ⟨done, todo, completes⟩ := r
  have hend : completes = true := hcompletes _ hr
  cases todo with
  | nil => simp [Party.ended, hend] at hnot
  | cons e todo => exact ⟨i, _, by rw [Pool.advance, hi]⟩

end Pool
end Ledger
