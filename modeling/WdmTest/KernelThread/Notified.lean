import Mathlib.Tactic.IntervalCases
import WdmTest.KernelThread.Stuck

/-!
What is missing in KernelThreadTest is the signal alone. The source has the call
that would signal `EventNotify1` commented out in front of the wait; were it
signalled while `DriverEntry` waits, both threads and the driver could finish, in
whatever state the threads are by then. Both threads have to exist for that.
-/
namespace WdmTest.KernelThread
open Transition

variable {createStatus : Thread → NtStatus} {s t : State}

/-- Both threads exist, `DriverEntry` waits or is done, and `EventNotify1` is
signalled. -/
structure Notified (s : State) : Prop where
  notify : s.signalled .eventNotify1 = true
  driver : s.driver = [.keWaitForMultipleObjects eventDone] ∨ s.driver = []
  thread1 : ∃ pc, s.thread1 = some pc ∧ (pc = .returned → s.signalled .eventDone1 = true)
  thread2 : ∃ pc, s.thread2 = some pc ∧ (pc = .returned → s.signalled .eventDone2 = true)

/-- How far the first thread is from its end when it is notified. -/
def Thread1Pc.distance : Thread1Pc → Nat
  | .allocating | .sampling => 5
  | .polling => 4
  | .breaking => 3
  | .freeing => 2
  | .signalling => 1
  | .returned => 0

def State.distance (s : State) : Nat :=
  s.driver.length + (s.thread1.elim 0 Thread1Pc.distance) +
    if s.thread2 = some .signalling then 1 else 0

def Finished (s : State) : Prop :=
  s.signalled .eventDone1 = true ∧ s.signalled .eventDone2 = true ∧ s.driver = []

/-- A step of the first thread that leaves the events alone. -/
theorem Notified.go_on {pc pc' : Thread1Pc} (h : Notified s) (hpc : s.thread1 = some pc)
    (hless : pc'.distance < pc.distance) (hmore : 0 < pc'.distance)
    (counter : Option (List Int64)) :
    Notified { s with counter := counter, thread1 := some pc' } ∧
      State.distance { s with counter := counter, thread1 := some pc' } < s.distance := by
  refine ⟨⟨h.notify, h.driver, ⟨pc', rfl, ?_⟩, h.thread2⟩, ?_⟩
  · intro hreturned
    rw [hreturned] at hmore
    contradiction
  · simp only [State.distance, hpc, Option.elim_some]
    omega

theorem Notified.thread1_progress {pc : Thread1Pc} (h : Notified s) (hpc : s.thread1 = some pc)
    (hrunning : pc ≠ .returned) :
    ∃ t, threadFunction1 0 s pc = some t ∧ Notified t ∧ t.distance < s.distance := by
  cases pc with
  | allocating => exact ⟨_, rfl, h.go_on hpc (by decide) (by decide) _⟩
  | polling =>
      rw [threadFunction1, if_pos h.notify]
      exact ⟨_, rfl, h.go_on hpc (by decide) (by decide) _⟩
  | sampling => exact ⟨_, rfl, h.go_on hpc (by decide) (by decide) _⟩
  | breaking => exact ⟨_, rfl, h.go_on hpc (by decide) (by decide) _⟩
  | freeing => exact ⟨_, rfl, h.go_on hpc (by decide) (by decide) _⟩
  | signalling =>
      obtain ⟨pc2, hpc2, hdone2⟩ := h.thread2
      refine ⟨_, rfl, ⟨?_, h.driver, ⟨.returned, rfl, ?_⟩, ⟨pc2, hpc2, ?_⟩⟩, ?_⟩
      · simp [State.signal, h.notify]
      · simp [State.signal]
      · simpa [State.signal] using hdone2
      · simp [State.distance, State.signal, hpc, Thread1Pc.distance]
  | returned => contradiction

theorem Notified.thread2_progress (h : Notified s) (hpc2 : s.thread2 = some .signalling) :
    ∃ t, threadFunction2 s .signalling = some t ∧ Notified t ∧ t.distance < s.distance := by
  obtain ⟨pc, hpc, hdone1⟩ := h.thread1
  refine ⟨_, rfl, ⟨?_, h.driver, ⟨pc, hpc, ?_⟩, ⟨.returned, rfl, ?_⟩⟩, ?_⟩
  · simp [State.signal, h.notify]
  · simpa [State.signal] using hdone1
  · simp [State.signal]
  · simp [State.distance, State.signal, hpc2]

theorem Notified.progress (h : Notified s) (hunfinished : ¬ Finished s) :
    ∃ a t, step createStatus s a = some t ∧ Notified t ∧ t.distance < s.distance := by
  obtain ⟨pc, hpc, hdone1⟩ := h.thread1
  obtain ⟨pc2, hpc2, hdone2⟩ := h.thread2
  by_cases hreturned1 : pc = .returned
  · cases pc2 with
    | signalling =>
        obtain ⟨t, ht, hless⟩ := h.thread2_progress hpc2
        exact ⟨.thread2, t, Option.bind_eq_some_iff.mpr ⟨_, hpc2, ht⟩, hless⟩
    | returned =>
        have hsignalled : eventDone.all s.signalled = true := by
          simp [eventDone, hdone1 hreturned1, hdone2 rfl]
        cases h.driver with
        | inl hwait =>
            refine ⟨.driver, { s with driver := [] }, ?_, ?_, ?_⟩
            · simp [step, hwait, State.exec, hsignalled]
            · exact ⟨h.notify, Or.inr rfl, h.thread1, h.thread2⟩
            · simp [State.distance, hwait]
        | inr hdone => exact absurd ⟨hdone1 hreturned1, hdone2 rfl, hdone⟩ hunfinished
  · obtain ⟨t, ht, hless⟩ := h.thread1_progress hpc hreturned1
    exact ⟨.thread1 0, t, Option.bind_eq_some_iff.mpr ⟨_, hpc, ht⟩, hless⟩

theorem Notified.canFinish (h : Notified s) : CanFinish createStatus s := by
  obtain ⟨as, t, hrun, hfinished⟩ := exists_run_of_progress
    (fun _ hs hunfinished => hs.progress hunfinished) h
  exact ⟨as, t, hrun, hfinished⟩

/-- Where in `DriverEntry` a statement stands. -/
def Stmt.At (k : Nat) : Stmt → Prop
  | .keInitializeEvent _ => k < 4
  | .psCreateSystemThread .threadFunction1 => k = 4
  | .psCreateSystemThread .threadFunction2 => k = 5
  | .keSetEvent _ => False
  | .keWaitForMultipleObjects _ => k = 6

theorem driverEntry_at {k : Nat} {stmt : Stmt} {rest : List Stmt}
    (h : driverEntry.drop k = stmt :: rest) : stmt.At k ∧ rest = driverEntry.drop (k + 1) := by
  have hk : k < 7 := by
    by_contra hge
    rw [List.drop_eq_nil_of_le (Nat.le_of_not_lt hge)] at h
    contradiction
  refine ⟨?_, ?_⟩
  · interval_cases k <;> rw [← (List.cons.inj h).1] <;> simp [Stmt.At]
  · rw [← List.tail_drop, h, List.tail_cons]

structure Loading (k : Nat) (s : State) : Prop where
  driver : s.driver = driverEntry.drop k
  thread1 : 4 < k → s.thread1 ≠ none
  thread2 : 5 < k ↔ s.thread2 ≠ none
  done2 : s.thread2 = some .returned → s.signalled .eventDone2 = true

theorem Loading.exec {k : Nat} {stmt : Stmt} {rest : List Stmt}
    (hcreate : ∀ thread, ntSuccess (createStatus thread) = true) (h : Loading k s)
    (hdriver : s.driver = stmt :: rest) (hexec : s.exec createStatus stmt = some t) :
    Loading (k + 1) { t with driver := rest } := by
  obtain ⟨hat, hrest⟩ := driverEntry_at (h.driver.symm.trans hdriver)
  cases stmt with
  | keInitializeEvent e =>
      have hnone : s.thread2 = none := by
        by_contra hsome
        have hlate := h.thread2.mpr hsome
        rw [Stmt.At] at hat
        omega
      cases hexec
      rw [Stmt.At] at hat
      refine ⟨hrest, fun hk => ?_, ?_, ?_⟩
      · omega
      · refine iff_of_false (by omega) ?_
        simp [hnone]
      · simp [hnone]
  | psCreateSystemThread thread =>
      rw [State.exec, if_pos (hcreate thread)] at hexec
      cases hexec
      cases thread with
      | threadFunction1 =>
          rw [Stmt.At] at hat
          have hnone : ¬ s.thread2 ≠ none := by
            rw [← h.thread2]
            omega
          refine ⟨hrest, fun _ => Option.some_ne_none _, ?_, h.done2⟩
          exact iff_of_false (by omega) hnone
      | threadFunction2 =>
          rw [Stmt.At] at hat
          refine ⟨hrest, fun _ => h.thread1 (by omega), ?_, ?_⟩
          · exact iff_of_true (by omega) (Option.some_ne_none _)
          · intro hreturned
            simp [State.create] at hreturned
  | keSetEvent e => exact hat.elim
  | keWaitForMultipleObjects es =>
      rw [State.exec] at hexec
      split at hexec
      · cases hexec
        rw [Stmt.At] at hat
        refine ⟨hrest, fun _ => h.thread1 (by omega), ?_, h.done2⟩
        rw [← h.thread2]
        omega
      · contradiction

/-- What the first thread has no part in. -/
theorem threadFunction1_frame {pc : Thread1Pc} {timestamp : Int64}
    (h : threadFunction1 timestamp s pc = some t) :
    t.driver = s.driver ∧ t.thread2 = s.thread2 ∧
      t.signalled .eventDone2 = s.signalled .eventDone2 := by
  cases pc with
  | allocating | breaking | freeing | sampling =>
      cases h
      exact ⟨rfl, rfl, rfl⟩
  | polling =>
      rw [threadFunction1] at h
      split at h <;> cases h <;> exact ⟨rfl, rfl, rfl⟩
  | signalling =>
      cases h
      exact ⟨rfl, rfl, by simp [State.signal]⟩
  | returned => contradiction

theorem threadFunction1_exists {pc : Thread1Pc} {timestamp : Int64}
    (h : threadFunction1 timestamp s pc = some t) : t.thread1 ≠ none := by
  cases pc with
  | allocating | breaking | freeing | sampling | signalling =>
      cases h
      exact Option.some_ne_none _
  | polling =>
      rw [threadFunction1] at h
      split at h <;> cases h <;> exact Option.some_ne_none _
  | returned => contradiction

theorem Loading.step {k : Nat} {a : Action}
    (hcreate : ∀ thread, ntSuccess (createStatus thread) = true) (h : Loading k s)
    (hstep : step createStatus s a = some t) : ∃ k, Loading k t := by
  cases a with
  | driver =>
      obtain ⟨stmt, rest, u, hdriver, hu, rfl⟩ := step_driver hstep
      exact ⟨k + 1, h.exec hcreate hdriver hu⟩
  | thread1 timestamp =>
      obtain ⟨pc, -, hpc⟩ := Option.bind_eq_some_iff.mp hstep
      obtain ⟨hdriver, hthread2, hdone2⟩ := threadFunction1_frame hpc
      refine ⟨k, ?_, fun _ => threadFunction1_exists hpc, ?_, ?_⟩
      · rw [hdriver]
        exact h.driver
      · rw [hthread2]
        exact h.thread2
      · rw [hthread2, hdone2]
        exact h.done2
  | thread2 =>
      obtain ⟨pc, hpc, hpcstep⟩ := Option.bind_eq_some_iff.mp hstep
      cases pc with
      | signalling =>
          cases hpcstep
          refine ⟨k, h.driver, h.thread1, ?_, ?_⟩
          · rw [h.thread2, hpc]
            exact iff_of_true (Option.some_ne_none _) (Option.some_ne_none _)
          · simp [State.signal]
      | returned => contradiction

/-- The driver would finish from every state in which it waits if somebody
signalled `EventNotify1` there. -/
theorem finishes_once_notified (hcreate : ∀ thread, ntSuccess (createStatus thread) = true)
    (h : Reachable (step createStatus) (fun s => s = initial driverEntry) s)
    (hwaits : s.driver = [.keWaitForMultipleObjects eventDone]) :
    CanFinish createStatus (s.signal .eventNotify1) := by
  have hloading : ∃ k, Loading k s := by
    apply h.invariant
    · intro s₀ hs
      rw [hs]
      exact ⟨0, rfl, by simp, by simp [initial], by simp [initial]⟩
    · intro s₀ a s₁ hs hstep
      obtain ⟨k, hk⟩ := hs
      exact hk.step hcreate hstep
  have hnever := neverNotified_of_reachable h
  obtain ⟨k, hk⟩ := hloading
  have hat := (driverEntry_at (hk.driver.symm.trans hwaits)).1
  rw [Stmt.At] at hat
  obtain ⟨pc, hpc⟩ := Option.ne_none_iff_exists'.mp (hk.thread1 (by omega))
  obtain ⟨pc2, hpc2⟩ := Option.ne_none_iff_exists'.mp (hk.thread2.mp (by omega))
  apply Notified.canFinish
  refine ⟨?_, Or.inl hwaits, ⟨pc, hpc, ?_⟩, ⟨pc2, hpc2, ?_⟩⟩
  · simp [State.signal]
  · intro hreturned
    have hrunning := hnever.thread1 pc hpc
    rw [hreturned] at hrunning
    simp at hrunning
  · intro hreturned
    rw [hreturned] at hpc2
    simpa [State.signal] using hk.done2 hpc2

theorem finishes_once_notified_waiting :
    ∃ s, run (step fun _ => NtStatus.success) (initial driverEntry) (List.replicate 6 .driver) =
        some s ∧ CanFinish (fun _ => NtStatus.success) (s.signal .eventNotify1) :=
  ⟨_, rfl, finishes_once_notified (fun _ => by decide)
    ⟨initial driverEntry, List.replicate 6 .driver, rfl, rfl⟩ rfl⟩

end WdmTest.KernelThread
