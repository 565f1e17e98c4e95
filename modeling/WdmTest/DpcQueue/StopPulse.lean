import Mathlib.Data.List.Infix
import WdmTest.DpcQueue.Model

/-!
The stop pulse of Test 1 and the instances it should end. No instance is asked
whether it has seen the flag: an instance sees the pulse if its next read falls
into it, and a DPC that is still queued sees it if it is started and reads the flag
in time. When these reads are due is settled before the flag is set, so whether the
pulse ends everything is a matter of the state in which it begins and of the time at
which it ends.
-/
namespace WdmTest.DpcQueue
open Transition Function

def State.Quiet (s : State) : Prop := s.dpcTest.queue = none ∧ ∀ cpu, s.running cpu = none

/-- When the last instance that a processor has, running or queued, reads the flag
next. A queued DPC starts when the kernel gets to it and the one before it has
returned. -/
def State.lastRead (s : State) (cpu : Nat) : Option Nat :=
  match s.queueOf cpu with
  | some entry =>
      some (max (max entry.startsAt s.now) ((s.running cpu).getD 0) + entry.readDelay)
  | none => s.running cpu

/-- The flag is set in state `s` of the run and cleared in state `u`. -/
def Pulse (retargets : Bool) (as : List Action) (s u : State) : Prop :=
  ∃ before k during k' after s', as = before ++ .driver k :: (during ++ .driver k' :: after) ∧
    run (step retargets) initial before = some s ∧ s.rest = pulse ∧
    step retargets s (.driver k) = some s' ∧
    run (step retargets) s' during = some u ∧ u.rest = [.setFlagStop false]

/-- The reads to come in `s` are due before the time of `u`; one that is due at that
very time has been made in `u`. -/
def ReadsInTime (s u : State) : Prop :=
  ∀ cpu read, s.lastRead cpu = some read →
    read < u.now ∨ (read = u.now ∧ u.lastRead cpu ≠ some read)

/-! ## Steps -/

section Steps
variable {retargets : Bool} {s t : State}

theorem step_tick {d : Nat} (h : step retargets s (.tick d) = some t) :
    s.mayPass d = true ∧ t = { s with now := s.now + d } := by
  simp only [step, Option.ite_none_right_eq_some, Option.some.injEq] at h
  exact ⟨h.1, h.2.symm⟩

theorem step_driver {k : Delays} (h : step retargets s (.driver k) = some t) :
    ∃ stmt rest, s.rest = stmt :: rest ∧ s.stalledUntil ≤ s.now ∧
      t = { s.exec retargets k stmt with rest } := by
  simp only [step] at h
  split at h
  · cases h
  · rename_i stmt rest hrest
    simp only [Option.ite_none_right_eq_some, Option.some.injEq] at h
    exact ⟨stmt, rest, hrest, h.1, h.2.symm⟩

theorem step_start {cpu : Nat} (h : step retargets s (.start cpu) = some t) :
    ∃ entry, s.dpcTest.queue = some entry ∧ entry.cpu = cpu ∧ s.running cpu = none ∧
      entry.startsAt ≤ s.now ∧ t = { s with
        dpcTest := { s.dpcTest with queue := none }
        running := update s.running cpu (some (s.now + entry.readDelay)) } := by
  simp only [step] at h
  split at h
  · rename_i entry hentry
    simp only [Option.ite_none_right_eq_some, Option.some.injEq] at h
    obtain ⟨⟨hcpu, hidle, hstarts⟩, rfl⟩ := h
    exact ⟨entry, hentry, hcpu, hidle, hstarts, rfl⟩
  · cases h

theorem step_poll {cpu overrun : Nat} (h : step retargets s (.poll cpu overrun) = some t) :
    ∃ read, s.running cpu = some read ∧ read ≤ s.now ∧ t = s.testFunction cpu overrun := by
  simp only [step] at h
  split at h
  · rename_i read hread
    simp only [Option.ite_none_right_eq_some, Option.some.injEq] at h
    exact ⟨read, hread, h.1, h.2.symm⟩
  · cases h

/-- Time does not pass what is due on a processor the driver names. -/
theorem mayPass_due {d cpu time : Nat} (h : s.mayPass d = true) (hcpu : cpu < 4)
    (hdue : s.due cpu = some time) : s.now + d ≤ time := by
  have hall := List.all_eq_true.mp h cpu (List.mem_range.mpr hcpu)
  simpa [hdue] using hall

theorem keInsertQueueDpc_frame (s : State) (cpu : Nat) (k : Delays) :
    (s.keInsertQueueDpc cpu k).now = s.now ∧ (s.keInsertQueueDpc cpu k).running = s.running ∧
      (s.keInsertQueueDpc cpu k).flagStop = s.flagStop ∧
      (s.keInsertQueueDpc cpu k).rest = s.rest ∧
      (s.keInsertQueueDpc cpu k).dpcTest.number = s.dpcTest.number := by
  rw [State.keInsertQueueDpc]
  split <;> exact ⟨rfl, rfl, rfl, rfl, rfl⟩

theorem exec_frame (k : Delays) (stmt : Stmt) :
    (s.exec retargets k stmt).now = s.now ∧ (s.exec retargets k stmt).running = s.running := by
  cases stmt with
  | keInsertQueueDpc =>
      obtain ⟨hnow, hrunning, -⟩ := keInsertQueueDpc_frame s s.dpcTest.number k
      exact ⟨hnow, hrunning⟩
  | keSetTargetProcessorDpcEx number =>
      simp only [State.exec]
      split <;> exact ⟨rfl, rfl⟩
  | keRaiseIrql | keLowerIrql | dbgBreakPoint | keStallExecutionProcessor _ | setFlagStop _ =>
      exact ⟨rfl, rfl⟩

theorem testFunction_rest (s : State) (cpu overrun : Nat) :
    (s.testFunction cpu overrun).rest = s.rest ∧
      (s.testFunction cpu overrun).flagStop = s.flagStop ∧
      (s.testFunction cpu overrun).dpcTest = s.dpcTest ∧
      (s.testFunction cpu overrun).now = s.now := by
  rw [State.testFunction]
  split <;> exact ⟨rfl, rfl, rfl, rfl⟩

/-- The program gets on by one statement in a step of `DriverEntry` and otherwise
stays where it is. -/
theorem step_rest {a : Action} (h : step retargets s a = some t) :
    t.rest = s.rest ∨ ∃ k stmt, a = .driver k ∧ s.rest = stmt :: t.rest := by
  cases a with
  | tick d =>
      obtain ⟨-, rfl⟩ := step_tick h
      exact Or.inl rfl
  | driver k =>
      obtain ⟨stmt, rest, hrest, -, rfl⟩ := step_driver h
      exact Or.inr ⟨k, stmt, rfl, hrest⟩
  | start cpu =>
      obtain ⟨entry, -, -, -, -, rfl⟩ := step_start h
      exact Or.inl rfl
  | poll cpu overrun =>
      obtain ⟨read, -, -, rfl⟩ := step_poll h
      exact Or.inl (testFunction_rest s cpu overrun).1

end Steps

/-! ## Any time -/

/-- What holds at any time: an instance does not miss its read, and only the
processors 0 to 3 have one. -/
structure State.Sound (s : State) : Prop where
  program : s.rest <:+ test1
  number : s.dpcTest.number < 4
  queue : ∀ entry, s.dpcTest.queue = some entry → entry.cpu < 4
  running : ∀ cpu read, s.running cpu = some read → cpu < 4 ∧ s.now ≤ read

section Sound
variable {retargets : Bool} {s t : State}

theorem initial_sound : initial.Sound where
  program := List.suffix_rfl
  number := by decide
  queue _ h := by cases h
  running _ _ h := by cases h

theorem target_lt {number : Nat} (h : .keSetTargetProcessorDpcEx number ∈ test1) : number < 4 := by
  simp only [test1, fireOn, pulse, List.mem_append, List.mem_cons,
    Stmt.keSetTargetProcessorDpcEx.injEq, List.not_mem_nil, or_false, reduceCtorEq,
    false_or] at h
  omega

theorem State.Sound.exec (h : s.Sound) (k : Delays) {stmt : Stmt} {rest : List Stmt}
    (hrest : s.rest = stmt :: rest) : State.Sound { s.exec retargets k stmt with rest } := by
  have hprogram : rest <:+ test1 := by
    have hsuffix := h.program
    rw [hrest] at hsuffix
    exact (List.suffix_cons stmt rest).trans hsuffix
  have hmem : stmt ∈ test1 := by
    apply h.program.subset
    rw [hrest]
    exact List.mem_cons_self
  obtain ⟨hnow, hrunning⟩ := @exec_frame retargets s k stmt
  suffices hdpc : (s.exec retargets k stmt).dpcTest.number < 4 ∧
      ∀ entry, (s.exec retargets k stmt).dpcTest.queue = some entry → entry.cpu < 4 by
    refine ⟨hprogram, hdpc.1, hdpc.2, ?_⟩
    simp only [hnow, hrunning]
    exact h.running
  cases stmt with
  | keInsertQueueDpc =>
      simp only [State.exec, State.keInsertQueueDpc]
      split
      · refine ⟨h.number, ?_⟩
        rintro entry hentry
        cases hentry
        exact h.number
      · exact ⟨h.number, h.queue⟩
  | keSetTargetProcessorDpcEx number =>
      simp only [State.exec]
      split
      · exact ⟨target_lt hmem, h.queue⟩
      · exact ⟨h.number, h.queue⟩
  | keRaiseIrql | keLowerIrql | dbgBreakPoint | keStallExecutionProcessor _ | setFlagStop _ =>
      exact ⟨h.number, h.queue⟩

theorem State.Sound.step (h : s.Sound) {a : Action} (hstep : DpcQueue.step retargets s a = some t) :
    t.Sound := by
  cases a with
  | tick d =>
      obtain ⟨hpass, rfl⟩ := step_tick hstep
      refine ⟨h.program, h.number, h.queue, ?_⟩
      intro cpu read hread
      have hcpu := (h.running cpu read hread).1
      have hdue : s.due cpu = some read := by
        have hrunning : s.running cpu = some read := hread
        rw [State.due, hrunning]
      exact ⟨hcpu, mayPass_due hpass hcpu hdue⟩
  | driver k =>
      obtain ⟨stmt, rest, hrest, -, rfl⟩ := step_driver hstep
      exact h.exec k hrest
  | start cpu =>
      obtain ⟨entry, hqueue, rfl, -, -, rfl⟩ := step_start hstep
      refine ⟨h.program, h.number, nofun, ?_⟩
      intro c read hread
      by_cases hc : c = entry.cpu
      · subst hc
        simp only [update_self, Option.some.injEq] at hread
        exact ⟨h.queue entry hqueue, hread ▸ Nat.le_add_right _ _⟩
      · simp only [update_of_ne hc] at hread
        exact h.running c read hread
  | poll cpu overrun =>
      obtain ⟨old, hold, -, rfl⟩ := step_poll hstep
      obtain ⟨hrest, -, hdpc, hnow⟩ := testFunction_rest s cpu overrun
      refine ⟨hrest ▸ h.program, hdpc ▸ h.number, hdpc ▸ h.queue, ?_⟩
      intro c read hread
      rw [hnow]
      by_cases hc : c = cpu
      · subst hc
        refine ⟨(h.running c old hold).1, ?_⟩
        rw [State.testFunction] at hread
        split at hread
        · simp at hread
        · simp only [update_self, Option.some.injEq] at hread
          omega
      · have hsame : (s.testFunction cpu overrun).running c = s.running c := by
          rw [State.testFunction]
          split <;> exact update_of_ne hc _ _
        rw [hsame] at hread
        exact h.running c read hread

end Sound

/-! ## The reads to come -/

section Reads
variable {retargets : Bool} {s t : State} {cpu : Nat}

theorem queueOf_eq_some {entry : QueueEntry} :
    s.queueOf cpu = some entry ↔ s.dpcTest.queue = some entry ∧ entry.cpu = cpu := by
  simp [State.queueOf, Option.filter_eq_some_iff]

theorem queueOf_of_queue_none (h : s.dpcTest.queue = none) : s.queueOf cpu = none := by
  rw [State.queueOf, h, Option.filter_none]

theorem lastRead_eq (s : State) (cpu : Nat) :
    (∃ entry, s.queueOf cpu = some entry ∧ s.lastRead cpu =
      some (max (max entry.startsAt s.now) ((s.running cpu).getD 0) + entry.readDelay)) ∨
    (s.queueOf cpu = none ∧ s.lastRead cpu = s.running cpu) := by
  rw [State.lastRead]
  cases hqueue : s.queueOf cpu with
  | some entry => exact Or.inl ⟨entry, rfl, rfl⟩
  | none => exact Or.inr ⟨rfl, rfl⟩

theorem lastRead_congr (hqueue : t.dpcTest.queue = s.dpcTest.queue) (hnow : t.now = s.now)
    (hrunning : t.running cpu = s.running cpu) : t.lastRead cpu = s.lastRead cpu := by
  rw [State.lastRead, State.lastRead, State.queueOf, State.queueOf, hqueue, hnow, hrunning]

theorem quiet_iff (s : State) : s.Quiet ↔ ∀ cpu, s.lastRead cpu = none := by
  constructor
  · intro ⟨hqueue, hidle⟩ cpu
    rw [State.lastRead, queueOf_of_queue_none hqueue]
    exact hidle cpu
  · intro h
    have hqueue : s.dpcTest.queue = none := by
      cases hqueue : s.dpcTest.queue with
      | none => rfl
      | some entry =>
          have hentry := h entry.cpu
          rw [State.lastRead, queueOf_eq_some.mpr ⟨hqueue, rfl⟩] at hentry
          cases hentry
    refine ⟨hqueue, ?_⟩
    intro cpu
    have hcpu := h cpu
    rw [State.lastRead, queueOf_of_queue_none hqueue] at hcpu
    exact hcpu

/-- A read to come is not over yet. -/
theorem State.Sound.lastRead_ge (h : s.Sound) {read : Nat} (hread : s.lastRead cpu = some read) :
    s.now ≤ read := by
  cases lastRead_eq s cpu with
  | inl hqueued =>
      obtain ⟨entry, -, heq⟩ := hqueued
      rw [heq, Option.some.injEq] at hread
      omega
  | inr hnone =>
      rw [hnone.2] at hread
      exact (h.running cpu read hread).2

/-- Passing time does not move a read, since nothing due is passed. -/
theorem lastRead_tick (h : s.Sound) {d : Nat} (hpass : s.mayPass d = true) :
    State.lastRead { s with now := s.now + d } cpu = s.lastRead cpu := by
  cases hqueue : s.queueOf cpu with
  | none => simp only [State.lastRead, State.queueOf] at hqueue ⊢; rw [hqueue]
  | some entry =>
      have hcpu : cpu < 4 := by
        obtain ⟨hentry, rfl⟩ := queueOf_eq_some.mp hqueue
        exact h.queue entry hentry
      have hqueue' : State.queueOf { s with now := s.now + d } cpu = some entry := hqueue
      rw [State.lastRead, State.lastRead, hqueue, hqueue']
      simp only [Option.some.injEq, Nat.add_right_cancel_iff]
      cases hrunning : s.running cpu with
      | some read =>
          have hdue := mayPass_due hpass hcpu (by rw [State.due, hrunning])
          simp only [Option.getD_some]
          omega
      | none =>
          have hdue : s.now + d ≤ entry.startsAt :=
            mayPass_due hpass hcpu (by rw [State.due, hrunning, hqueue]; rfl)
          simp only [Option.getD_none]
          omega

/-- A DPC that is started makes the read it was to make. -/
theorem lastRead_start {entry : QueueEntry} (hqueue : s.dpcTest.queue = some entry)
    (hidle : s.running entry.cpu = none) (hstarts : entry.startsAt ≤ s.now) :
    State.lastRead { s with
      dpcTest := { s.dpcTest with queue := none }
      running := update s.running entry.cpu (some (s.now + entry.readDelay)) } cpu =
      s.lastRead cpu := by
  rw [State.lastRead, queueOf_of_queue_none rfl]
  by_cases hc : cpu = entry.cpu
  · subst hc
    rw [State.lastRead, queueOf_eq_some.mpr ⟨hqueue, rfl⟩, hidle]
    simp only [update_self, Option.getD_none, Option.some.injEq]
    omega
  · have hnone : s.queueOf cpu = none := by
      rw [State.queueOf, hqueue]
      simp [Ne.symm hc]
    rw [State.lastRead, hnone]
    exact update_of_ne hc _ _

/-- An instance that reads the flag while it is set ends; if the DPC waits behind it,
that one's read is still to come. -/
theorem lastRead_poll {c overrun read : Nat} (hflag : s.flagStop = true)
    (hread : s.running c = some read) (hdue : read ≤ s.now) :
    (s.testFunction c overrun).lastRead cpu = s.lastRead cpu ∨
      ((s.testFunction c overrun).lastRead cpu = none ∧
        ∀ time, s.lastRead cpu = some time → time ≤ s.now) := by
  rw [State.testFunction, if_pos hflag]
  by_cases hc : cpu = c
  · subst hc
    cases hqueue : s.queueOf cpu with
    | some entry =>
        have hqueue' : State.queueOf { s with running := update s.running cpu none } cpu =
            some entry := hqueue
        refine Or.inl ?_
        rw [State.lastRead, State.lastRead, hqueue, hqueue', hread]
        simp only [update_self, Option.getD_none, Option.getD_some, Option.some.injEq]
        omega
    | none =>
        have hqueue' : State.queueOf { s with running := update s.running cpu none } cpu =
            none := hqueue
        refine Or.inr ⟨?_, ?_⟩
        · rw [State.lastRead, hqueue']
          exact update_self _ _ _
        · intro time htime
          rw [State.lastRead, hqueue, hread, Option.some.injEq] at htime
          omega
  · exact Or.inl (lastRead_congr rfl rfl (update_of_ne hc _ _))

end Reads

/-! ## The pulse -/

/-- Between setting and clearing the flag: each read that was to come in the state in
which the flag was set is still to come or has been made. -/
structure InPulse (s v : State) : Prop where
  sound : v.Sound
  flag : v.flagStop = true
  program : v.rest = pulse.tail ∨ v.rest = [.setFlagStop false]
  kept : ∀ cpu, v.lastRead cpu = s.lastRead cpu ∨
    (v.lastRead cpu = none ∧ ∀ read, s.lastRead cpu = some read → read ≤ v.now)

section Pulse
variable {retargets : Bool} {s t u v w : State}

theorem InPulse.start (h : s.Sound) (hrest : s.rest = pulse) {k : Delays}
    (hstep : step retargets s (.driver k) = some v) : InPulse s v := by
  have hv := h.step hstep
  obtain ⟨stmt, rest, hprogram, -, rfl⟩ := step_driver hstep
  rw [hrest, pulse] at hprogram
  cases hprogram
  exact ⟨hv, rfl, Or.inl rfl, fun cpu => Or.inl (lastRead_congr rfl rfl rfl)⟩

theorem InPulse.trans (h : InPulse s v) (hw : w.Sound) (hflag : w.flagStop = v.flagStop)
    (hprogram : w.rest = pulse.tail ∨ w.rest = [.setFlagStop false]) (hnow : v.now ≤ w.now)
    (hkept : ∀ cpu, w.lastRead cpu = v.lastRead cpu ∨
      (w.lastRead cpu = none ∧ ∀ read, v.lastRead cpu = some read → read ≤ v.now)) :
    InPulse s w := by
  refine ⟨hw, hflag.trans h.flag, hprogram, ?_⟩
  intro cpu
  have hlater : (∀ read, s.lastRead cpu = some read → read ≤ v.now) →
      ∀ read, s.lastRead cpu = some read → read ≤ w.now :=
    fun hall read hread => Nat.le_trans (hall read hread) hnow
  cases hkept cpu with
  | inl hsame =>
      rw [hsame]
      cases h.kept cpu with
      | inl hold => exact Or.inl hold
      | inr hmade => exact Or.inr ⟨hmade.1, hlater hmade.2⟩
  | inr hmade =>
      refine Or.inr ⟨hmade.1, hlater ?_⟩
      cases h.kept cpu with
      | inl hold => exact hold ▸ hmade.2
      | inr hmade' => exact hmade'.2

theorem InPulse.step (h : InPulse s v) {a : Action} (hstep : step retargets v a = some w) :
    w.rest = [] ∨ InPulse s w := by
  have hw := h.sound.step hstep
  cases a with
  | tick d =>
      obtain ⟨hpass, rfl⟩ := step_tick hstep
      exact Or.inr (h.trans hw rfl h.program (Nat.le_add_right _ _)
        fun cpu => Or.inl (lastRead_tick h.sound hpass))
  | driver k =>
      obtain ⟨stmt, rest, hrest, -, rfl⟩ := step_driver hstep
      cases h.program with
      | inl hstall =>
          rw [hstall, pulse, List.tail_cons] at hrest
          cases hrest
          exact Or.inr (h.trans hw rfl (Or.inr rfl) (Nat.le_refl _)
            fun cpu => Or.inl (lastRead_congr rfl rfl rfl))
      | inr hclear =>
          rw [hclear] at hrest
          cases hrest
          exact Or.inl rfl
  | start cpu =>
      obtain ⟨entry, hqueue, rfl, hidle, hstarts, rfl⟩ := step_start hstep
      exact Or.inr (h.trans hw rfl h.program (Nat.le_refl _)
        fun cpu => Or.inl (lastRead_start hqueue hidle hstarts))
  | poll cpu overrun =>
      obtain ⟨read, hread, hdue, rfl⟩ := step_poll hstep
      obtain ⟨hrest, hflag, -, hnow⟩ := testFunction_rest v cpu overrun
      exact Or.inr (h.trans hw hflag (hrest ▸ h.program) (Nat.le_of_eq hnow.symm)
        fun _ => lastRead_poll h.flag hread hdue)

theorem InPulse.run {as : List Action} (h : InPulse s v)
    (hrun : Transition.run (DpcQueue.step retargets) v as = some u)
    (hclear : u.rest = [.setFlagStop false]) : InPulse s u := by
  have hinv := run_invariant (P := fun w => w.rest = [] ∨ InPulse s w) ?_ hrun (Or.inr h)
  · refine hinv.resolve_left ?_
    rw [hclear]
    exact List.cons_ne_nil _ _
  · intro w a w' hw hstep
    cases hw with
    | inl hdone =>
        cases step_rest hstep with
        | inl hsame => exact Or.inl (hsame.trans hdone)
        | inr hdriver =>
            obtain ⟨k, stmt, -, hrest⟩ := hdriver
            rw [hdone] at hrest
            cases hrest
    | inr hin => exact hin.step hstep

/-- Nothing is left exactly if every read that was to come has been due in time. -/
theorem InPulse.quiet_iff (h : InPulse s u) : u.Quiet ↔ ReadsInTime s u := by
  rw [DpcQueue.quiet_iff]
  constructor
  · intro hquiet cpu read hread
    have hmade : read ≤ u.now := by
      cases h.kept cpu with
      | inl hold =>
          rw [← hold, hquiet cpu] at hread
          cases hread
      | inr hmade => exact hmade.2 read hread
    cases Nat.lt_or_eq_of_le hmade with
    | inl hbefore => exact Or.inl hbefore
    | inr hnow =>
        refine Or.inr ⟨hnow, ?_⟩
        rw [hquiet cpu]
        exact (Option.some_ne_none read).symm
  · intro hreads cpu
    cases h.kept cpu with
    | inl hold =>
        cases hread : u.lastRead cpu with
        | none => rfl
        | some read =>
            have hearly := h.sound.lastRead_ge hread
            cases hreads cpu read (hold ▸ hread) with
            | inl hbefore => exact absurd hearly (Nat.not_le.mpr hbefore)
            | inr hnow => exact absurd hread hnow.2
    | inr hmade => exact hmade.1

end Pulse

/-! ## After the pulse -/

/-- The instances of a processor, running or queued. -/
def State.instances (cpu : Nat) (s : State) : Nat :=
  (s.running cpu).isSome.toNat + (s.queueOf cpu).isSome.toNat

theorem instances_eq_zero (s : State) (cpu : Nat) :
    s.instances cpu = 0 ↔ s.lastRead cpu = none := by
  rw [State.instances, State.lastRead]
  cases s.queueOf cpu with
  | none => simp
  | some entry => simp

section After
variable {retargets : Bool} {s t : State}

/-- What Test 1 can still do when it is through and the flag is not set: instances
start and read the flag, and none of them ends. -/
theorem step_after {a : Action} (hflag : s.flagStop = false) (hrest : s.rest = [])
    (h : step retargets s a = some t) :
    t.flagStop = false ∧ t.rest = [] ∧ ∀ cpu, t.instances cpu = s.instances cpu ∧
      (s.running cpu ≠ none → t.running cpu ≠ none) ∧
      (s.dpcTest.queue = none → t.dpcTest.queue = none) := by
  cases a with
  | tick d =>
      obtain ⟨-, rfl⟩ := step_tick h
      exact ⟨hflag, hrest, fun cpu => ⟨rfl, id, id⟩⟩
  | driver k =>
      obtain ⟨stmt, rest, hprogram, -⟩ := step_driver h
      rw [hrest] at hprogram
      cases hprogram
  | start c =>
      obtain ⟨entry, hqueue, rfl, hidle, -, rfl⟩ := step_start h
      refine ⟨hflag, hrest, fun cpu => ⟨?_, ?_, fun _ => rfl⟩⟩
      · by_cases hc : cpu = entry.cpu
        · subst hc
          simp [State.instances, State.queueOf, hqueue, hidle]
        · simp [State.instances, State.queueOf, hqueue, update_of_ne hc, Ne.symm hc]
      · intro hrunning
        by_cases hc : cpu = entry.cpu
        · subst hc
          exact absurd hidle hrunning
        · simpa [update_of_ne hc] using hrunning
  | poll c overrun =>
      obtain ⟨read, hread, -, rfl⟩ := step_poll h
      rw [State.testFunction, if_neg (by simp [hflag])]
      refine ⟨hflag, hrest, fun cpu => ⟨?_, ?_, id⟩⟩
      · by_cases hc : cpu = c
        · subst hc
          simp [State.instances, State.queueOf, hread]
        · simp [State.instances, State.queueOf, update_of_ne hc]
      · intro hrunning
        by_cases hc : cpu = c
        · simp [hc]
        · simpa [update_of_ne hc] using hrunning

theorem quiet_after {as : List Action} (hflag : s.flagStop = false) (hrest : s.rest = [])
    (hrun : run (step retargets) s as = some t) : t.Quiet ↔ s.Quiet := by
  have hinv := run_invariant (P := fun v => v.flagStop = false ∧ v.rest = [] ∧
      ∀ cpu, v.instances cpu = s.instances cpu) ?_ hrun ⟨hflag, hrest, fun _ => rfl⟩
  · rw [quiet_iff, quiet_iff]
    apply forall_congr'
    intro cpu
    rw [← instances_eq_zero, ← instances_eq_zero, hinv.2.2 cpu]
  · intro v a w hv hstep
    obtain ⟨hflag', hrest', hsame⟩ := step_after hv.1 hv.2.1 hstep
    exact ⟨hflag', hrest', fun cpu => (hsame cpu).1.trans (hv.2.2 cpu)⟩

end After

/-! ## Whole runs -/

section Runs
variable {retargets : Bool} {s t v : State}

/-- What is left when the flag is cleared is left for good. -/
theorem Pulse.quiet_iff {as : List Action} {u : State} (h : Pulse retargets as s u)
    (hrun : run (step retargets) initial as = some t) : t.Quiet ↔ u.Quiet := by
  obtain ⟨before, k, during, k', after, s', rfl, hs, -, hset, hu, hrest'⟩ := h
  have hbefore : run (step retargets) initial (before ++ .driver k :: during) = some u :=
    run_append.mpr ⟨s, hs, run_cons.mpr ⟨s', hset, hu⟩⟩
  rw [← List.cons_append, ← List.append_assoc, run_append] at hrun
  obtain ⟨w, hw, hclear⟩ := hrun
  cases hbefore.symm.trans hw
  obtain ⟨v, hv, hafter⟩ := run_cons.mp hclear
  obtain ⟨stmt, rest, hprogram, -, rfl⟩ := step_driver hv
  rw [hrest'] at hprogram
  cases hprogram
  rw [quiet_after rfl rfl hafter]
  exact Iff.rfl

end Runs

def Action.next : Action := .driver {}

def fire (starts : List Action) : List Action := [.next, .next] ++ starts ++ [.next]

def untilPulse : List Action :=
  List.flatten [[.next, .next], fire [.start 1, .poll 1 0], [.tick 200],
    fire [.start 2, .poll 2 0], [.tick 200], fire [.start 3, .poll 3 0],
    [.tick 100, .poll 1 0, .tick 100], fire [], [.tick 100, .poll 2 0, .tick 100], fire [],
    [.tick 100, .poll 3 0, .tick 100, .poll 1 0], fire [],
    [.tick 200, .poll 2 0, .tick 200, .poll 3 0, .next, .next]]

/-- The pulse lasts from 1400 to 1950. -/
def seenPulse : List Action :=
  untilPulse ++ [.next, .next, .tick 100, .poll 1 0, .start 1, .poll 1 0, .tick 200,
    .poll 2 0, .tick 200, .poll 3 0, .tick 50, .next]

end WdmTest.DpcQueue
