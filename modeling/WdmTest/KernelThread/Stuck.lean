import WdmTest.KernelThread.Model

/-!
Whether KernelThreadTest can finish. No statement of the driver signals the event
that the first thread polls, so that thread never leaves its loop, its own event
is never signalled and the wait of `DriverEntry` has no end: there is no way out
of any reachable state.

The loop itself is in order: the thread records its samples for as long as it
polls, and they stay inside their array.
-/
namespace WdmTest.KernelThread
open Transition

variable {createStatus : Thread → NtStatus} {s t : State}

/-- From this state the parties can get both threads done and `DriverEntry` out
of its wait. -/
def CanFinish (createStatus : Thread → NtStatus) (s : State) : Prop :=
  ∃ as t, run (step createStatus) s as = some t ∧ t.signalled .eventDone1 = true ∧
    t.signalled .eventDone2 = true ∧ t.driver = []

/-- What holds as long as nobody signals `EventNotify1`. -/
structure NeverNotified (s : State) : Prop where
  silent : ∀ e, .keSetEvent e ∉ s.driver
  waits : s.driver.getLast? = some (.keWaitForMultipleObjects eventDone)
  notify : s.signalled .eventNotify1 = false
  done : s.signalled .eventDone1 = false
  thread1 : ∀ pc, s.thread1 = some pc → pc = .allocating ∨ pc = .polling ∨ pc = .sampling

theorem initial_neverNotified : NeverNotified (initial driverEntry) := by
  refine ⟨?_, rfl, rfl, rfl, ?_⟩
  · intro e
    simp [initial, driverEntry]
  · intro pc h
    simp [initial] at h

/-! ## Steps of the three parties -/

theorem step_driver (h : step createStatus s .driver = some t) :
    ∃ stmt rest u, s.driver = stmt :: rest ∧ s.exec createStatus stmt = some u ∧
      t = { u with driver := rest } := by
  rw [step] at h
  split at h
  · contradiction
  · rename_i stmt rest hdriver
    obtain ⟨u, hu, rfl⟩ := Option.map_eq_some_iff.mp h
    exact ⟨stmt, rest, u, hdriver, hu, rfl⟩

theorem NeverNotified.exec {u : State} {stmt : Stmt} {rest : List Stmt} (h : NeverNotified s)
    (hdriver : s.driver = stmt :: rest) (hexec : s.exec createStatus stmt = some u) :
    NeverNotified { u with driver := rest } := by
  have hsilent : ∀ e, .keSetEvent e ∉ rest := by
    intro e he
    exact h.silent e (hdriver ▸ List.mem_cons_of_mem _ he)
  have hwaits : rest.getLast? = some (.keWaitForMultipleObjects eventDone) := by
    have hlast := h.waits
    rw [hdriver] at hlast
    cases rest with
    | nil =>
        rw [List.getLast?_singleton, Option.some.injEq] at hlast
        rw [hlast] at hexec
        simp [State.exec, eventDone, h.done] at hexec
    | cons next rest =>
        rw [List.getLast?_cons_cons] at hlast
        exact hlast
  cases stmt with
  | keInitializeEvent e =>
      cases hexec
      refine ⟨hsilent, hwaits, ?_, ?_, h.thread1⟩
      · cases e <;> simp [h.notify]
      · cases e <;> simp [h.done]
  | psCreateSystemThread t =>
      rw [State.exec] at hexec
      split at hexec
      · cases hexec
        cases t with
        | threadFunction1 =>
            refine ⟨hsilent, hwaits, h.notify, h.done, ?_⟩
            intro pc hpc
            exact Or.inl (Option.some.inj hpc).symm
        | threadFunction2 => exact ⟨hsilent, hwaits, h.notify, h.done, h.thread1⟩
      · cases hexec
        exact ⟨hsilent, hwaits, h.notify, h.done, h.thread1⟩
  | keSetEvent e => exact absurd (hdriver ▸ List.mem_cons_self) (h.silent e)
  | keWaitForMultipleObjects es =>
      rw [State.exec] at hexec
      split at hexec
      · cases hexec
        exact ⟨hsilent, hwaits, h.notify, h.done, h.thread1⟩
      · contradiction

theorem NeverNotified.threadFunction1 {pc : Thread1Pc} {timestamp : Int64} (h : NeverNotified s)
    (hpc : s.thread1 = some pc) (hstep : threadFunction1 timestamp s pc = some t) :
    NeverNotified t := by
  rcases h.thread1 pc hpc with rfl | rfl | rfl
  · cases hstep
    refine ⟨h.silent, h.waits, h.notify, h.done, ?_⟩
    intro pc' hpc'
    exact Or.inr (Or.inl (Option.some.inj hpc').symm)
  · rw [KernelThread.threadFunction1, h.notify] at hstep
    cases hstep
    refine ⟨h.silent, h.waits, h.notify, h.done, ?_⟩
    intro pc' hpc'
    exact Or.inr (Or.inr (Option.some.inj hpc').symm)
  · cases hstep
    refine ⟨h.silent, h.waits, h.notify, h.done, ?_⟩
    intro pc' hpc'
    exact Or.inr (Or.inl (Option.some.inj hpc').symm)

theorem NeverNotified.threadFunction2 {pc : Thread2Pc} (h : NeverNotified s)
    (hstep : threadFunction2 s pc = some t) : NeverNotified t := by
  cases pc with
  | signalling =>
      cases hstep
      refine ⟨h.silent, h.waits, ?_, ?_, h.thread1⟩
      · simp [State.signal, h.notify]
      · simp [State.signal, h.done]
  | returned => contradiction

theorem NeverNotified.step {a : Action} (h : NeverNotified s)
    (hstep : step createStatus s a = some t) : NeverNotified t := by
  cases a with
  | driver =>
      obtain ⟨stmt, rest, u, hdriver, hu, rfl⟩ := step_driver hstep
      exact h.exec hdriver hu
  | thread1 timestamp =>
      obtain ⟨pc, hpc, hpcstep⟩ := Option.bind_eq_some_iff.mp hstep
      exact h.threadFunction1 hpc hpcstep
  | thread2 =>
      obtain ⟨pc, -, hpcstep⟩ := Option.bind_eq_some_iff.mp hstep
      exact h.threadFunction2 hpcstep

theorem NeverNotified.not_canFinish (h : NeverNotified s) : ¬ CanFinish createStatus s := by
  intro hfinish
  obtain ⟨as, t, hrun, hdone, -, -⟩ := hfinish
  have ht : NeverNotified t := run_invariant (fun _ _ _ hs hstep => hs.step hstep) hrun h
  rw [ht.done] at hdone
  contradiction

theorem neverNotified_of_reachable
    (h : Reachable (step createStatus) (fun s => s = initial driverEntry) s) :
    NeverNotified s := by
  apply h.invariant
  · intro s₀ hs
    rw [hs]
    exact initial_neverNotified
  · intro s₀ a s₁ hs hstep
    exact hs.step hstep

/-- There is no way out of any reachable state, whether or not the threads could
be created. -/
theorem never_finishes
    (h : Reachable (step createStatus) (fun s => s = initial driverEntry) s) :
    ¬ CanFinish createStatus s :=
  (neverNotified_of_reachable h).not_canFinish

theorem initial_never_finishes : ¬ CanFinish (fun _ => NtStatus.success) (initial driverEntry) :=
  never_finishes ⟨initial driverEntry, [], rfl, rfl⟩

theorem not_always_canFinish :
    ¬ ∀ s, Reachable (step fun _ => NtStatus.success) (fun s => s = initial driverEntry) s →
      CanFinish (fun _ => NtStatus.success) s := by
  intro h
  exact initial_neverNotified.not_canFinish (h _ ⟨initial driverEntry, [], rfl, rfl⟩)

/-! ## Polling -/

/-- The thread may poll any number of times, and records every sample while the
array has room. -/
theorem polling_run (hpolling : s.thread1 = some .polling)
    (hnotify : s.signalled .eventNotify1 = false) (timestamps : List Int64) :
    run (step createStatus) s (timestamps.flatMap fun x => [.thread1 x, .thread1 x]) =
      some { s with counter := s.counter.map fun counter => timestamps.foldl record counter } := by
  induction timestamps generalizing s with
  | nil => simp
  | cons x timestamps ih =>
      have hround : run (step createStatus) s [.thread1 x, .thread1 x] =
          some { s with counter := s.counter.map fun counter => record counter x } := by
        simp [run, step, hpolling, threadFunction1, hnotify]
      rw [List.flatMap_cons, run_append]
      refine ⟨_, hround, ?_⟩
      have hlater := ih (s := { s with
        counter := s.counter.map fun counter => record counter x }) hpolling hnotify
      rw [hlater, Option.map_map]
      rfl

theorem record_length_le {counter : List Int64} (h : counter.length ≤ Const.maxSize)
    (timestamp : Int64) : (record counter timestamp).length ≤ Const.maxSize := by
  rw [record]
  split
  · rename_i hroom
    rw [List.length_append]
    exact hroom
  · exact h

theorem exec_counter {stmt : Stmt} (h : s.exec createStatus stmt = some t) :
    t.counter = s.counter := by
  cases stmt with
  | keInitializeEvent e | keSetEvent e =>
      cases h
      rfl
  | psCreateSystemThread thread =>
      rw [State.exec] at h
      split at h
      · cases h
        cases thread <;> rfl
      · cases h
        rfl
  | keWaitForMultipleObjects es =>
      rw [State.exec] at h
      split at h
      · cases h
        rfl
      · contradiction

def CounterFits (s : State) : Prop :=
  ∀ counter, s.counter = some counter → counter.length ≤ Const.maxSize

theorem CounterFits.step {a : Action} (h : CounterFits s)
    (hstep : step createStatus s a = some t) : CounterFits t := by
  cases a with
  | driver =>
      obtain ⟨stmt, rest, u, -, hu, rfl⟩ := step_driver hstep
      rw [CounterFits, exec_counter hu]
      exact h
  | thread1 timestamp =>
      obtain ⟨pc, -, hpc⟩ := Option.bind_eq_some_iff.mp hstep
      intro counter hcounter
      cases pc with
      | allocating =>
          cases hpc
          rw [← Option.some.inj hcounter]
          exact Nat.zero_le _
      | polling =>
          rw [threadFunction1] at hpc
          split at hpc
          · cases hpc
            exact h counter hcounter
          · cases hpc
            exact h counter hcounter
      | sampling =>
          cases hpc
          obtain ⟨old, hold, rfl⟩ := Option.map_eq_some_iff.mp hcounter
          exact record_length_le (h old hold) timestamp
      | breaking | signalling =>
          cases hpc
          exact h counter hcounter
      | freeing =>
          cases hpc
          contradiction
      | returned => contradiction
  | thread2 =>
      obtain ⟨pc, -, hpc⟩ := Option.bind_eq_some_iff.mp hstep
      cases pc with
      | signalling =>
          cases hpc
          exact h
      | returned => contradiction

theorem counter_fits {program : List Stmt}
    (h : Reachable (step createStatus) (fun s => s = initial program) s) : CounterFits s := by
  apply h.invariant
  · intro s₀ hs counter hcounter
    rw [hs] at hcounter
    contradiction
  · intro s₀ a s₁ hs hstep
    exact hs.step hstep

end WdmTest.KernelThread
