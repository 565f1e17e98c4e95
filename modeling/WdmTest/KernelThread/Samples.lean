import WdmTest.KernelThread.Stuck

/-!
What the first thread of KernelThreadTest records. While it polls, its array has
the samples it took, in the order it took them: the first million of them, since
the loop goes on when the array is full and drops what it reads then.

The readings are arbitrary, and nothing is said of an array that was freed: in no
run does the thread come that far.
-/
namespace WdmTest.KernelThread
open Transition

/-- The reading of a step that samples. -/
def sampled (s : State) : Action → List Int64
  | .thread1 timestamp => if s.thread1 = some .sampling then [timestamp] else []
  | .driver | .thread2 => []

/-- The thread is in its loop. -/
def State.recording (s : State) : Bool :=
  s.thread1 == some .polling || s.thread1 == some .sampling

/-- The samples of a run so far, and what of them is in the array. The statement
that creates the thread is still to come, or has been executed once. -/
structure Recorded (s : State) (samples : List Int64) : Prop where
  never : NeverNotified s
  nodup : s.driver.Nodup
  created : .psCreateSystemThread .threadFunction1 ∈ s.driver → s.thread1 = none
  counter : s.counter = if s.recording then some (samples.take Const.maxSize) else none
  fresh : s.recording = false → samples = []

section Steps
variable {createStatus : Thread → NtStatus} {s t : State} {samples : List Int64}

theorem record_take (samples : List Int64) (timestamp : Int64) :
    record (samples.take Const.maxSize) timestamp =
      (samples ++ [timestamp]).take Const.maxSize := by
  by_cases hroom : samples.length < Const.maxSize
  · have hlen : (samples ++ [timestamp]).length ≤ Const.maxSize := by
      rw [List.length_append]
      exact hroom
    rw [List.take_of_length_le (Nat.le_of_lt hroom), List.take_of_length_le hlen, record,
      if_pos hroom]
  · have hfull : Const.maxSize ≤ samples.length := Nat.le_of_not_lt hroom
    have hlen : ¬ (samples.take Const.maxSize).length < Const.maxSize := by
      rw [List.length_take]
      omega
    rw [record, if_neg hlen, List.take_append_of_le_length hfull]

theorem exec_thread1 {stmt : Stmt} (h : s.exec createStatus stmt = some t) :
    t.thread1 = s.thread1 ∨
      stmt = .psCreateSystemThread .threadFunction1 ∧ t.thread1 = some .allocating := by
  cases stmt with
  | keInitializeEvent e | keSetEvent e =>
      cases h
      exact Or.inl rfl
  | psCreateSystemThread thread =>
      rw [State.exec] at h
      split at h
      · cases h
        cases thread with
        | threadFunction1 => exact Or.inr ⟨rfl, rfl⟩
        | threadFunction2 => exact Or.inl rfl
      · cases h
        exact Or.inl rfl
  | keWaitForMultipleObjects es =>
      rw [State.exec] at h
      split at h
      · cases h
        exact Or.inl rfl
      · contradiction

theorem Recorded.driver {stmt : Stmt} {rest : List Stmt} {u : State} (h : Recorded s samples)
    (hdriver : s.driver = stmt :: rest) (hexec : s.exec createStatus stmt = some u) :
    Recorded { u with driver := rest } samples := by
  have hnodup := List.nodup_cons.mp (hdriver ▸ h.nodup)
  have hcounter := exec_counter hexec
  cases exec_thread1 hexec with
  | inl hsame =>
      have hrecording : ({ u with driver := rest } : State).recording = s.recording := by
        simp only [State.recording, hsame]
      refine ⟨h.never.exec hdriver hexec, hnodup.2, ?_, ?_, ?_⟩
      · intro hmem
        exact hsame.trans (h.created (hdriver ▸ List.mem_cons_of_mem _ hmem))
      · rw [hrecording]
        exact hcounter.trans h.counter
      · rw [hrecording]
        exact h.fresh
  | inr hcreate =>
      obtain ⟨rfl, hallocating⟩ := hcreate
      have hnone : s.thread1 = none := h.created (hdriver ▸ List.mem_cons_self)
      have hidle : s.recording = false := by simp [State.recording, hnone]
      have hidle' : ({ u with driver := rest } : State).recording = false := by
        simp [State.recording, hallocating]
      refine ⟨h.never.exec hdriver hexec, hnodup.2, ?_, ?_, fun _ => h.fresh hidle⟩
      · intro hmem
        exact absurd hmem hnodup.1
      · have hempty := h.counter
        rw [hidle] at hempty
        rw [hidle']
        exact hcounter.trans hempty

theorem Recorded.thread1 {pc : Thread1Pc} {timestamp : Int64} (h : Recorded s samples)
    (hpc : s.thread1 = some pc) (hstep : threadFunction1 timestamp s pc = some t) :
    Recorded t (samples ++ sampled s (.thread1 timestamp)) := by
  have hnever := h.never.threadFunction1 hpc hstep
  have hcreated : .psCreateSystemThread .threadFunction1 ∉ s.driver := by
    intro hmem
    rw [h.created hmem] at hpc
    contradiction
  have hcounter := h.counter
  rcases h.never.thread1 pc hpc with rfl | rfl | rfl
  · cases hstep
    have hempty : samples = [] := h.fresh (by simp [State.recording, hpc])
    refine ⟨hnever, h.nodup, fun hmem => absurd hmem hcreated, ?_, ?_⟩
    · simp [sampled, hpc, hempty, State.recording]
    · simp [State.recording]
  · rw [threadFunction1, h.never.notify] at hstep
    cases hstep
    refine ⟨hnever, h.nodup, fun hmem => absurd hmem hcreated, ?_, ?_⟩
    · simpa [sampled, hpc, State.recording] using hcounter
    · simp [State.recording]
  · cases hstep
    have hfull : s.counter = some (samples.take Const.maxSize) := by
      simpa [hpc, State.recording] using hcounter
    refine ⟨hnever, h.nodup, fun hmem => absurd hmem hcreated, ?_, ?_⟩
    · simp [sampled, hpc, State.recording, hfull, record_take]
    · simp [State.recording]

theorem Recorded.step {a : Action} (h : Recorded s samples)
    (hstep : step createStatus s a = some t) : Recorded t (samples ++ sampled s a) := by
  cases a with
  | driver =>
      obtain ⟨stmt, rest, u, hdriver, hu, rfl⟩ := step_driver hstep
      rw [sampled, List.append_nil]
      exact h.driver hdriver hu
  | thread1 timestamp =>
      obtain ⟨pc, hpc, hpcstep⟩ := Option.bind_eq_some_iff.mp hstep
      exact h.thread1 hpc hpcstep
  | thread2 =>
      have hnever := h.never.step hstep
      obtain ⟨pc, -, hpc⟩ := Option.bind_eq_some_iff.mp hstep
      rw [sampled, List.append_nil]
      cases pc with
      | signalling =>
          cases hpc
          exact ⟨hnever, h.nodup, h.created, h.counter, h.fresh⟩
      | returned => contradiction

end Steps

theorem initial_recorded : Recorded (initial driverEntry) [] :=
  ⟨initial_neverNotified, by decide, fun _ => rfl, rfl, fun _ => rfl⟩

/-- In every run the array of the thread, once it is there, is the first million
samples the thread has taken, in order; before that it has taken none. -/
theorem counter_of_run {createStatus : Thread → NtStatus} {as : List Action} {t : State}
    (hrun : run (step createStatus) (initial driverEntry) as = some t) :
    (t.recording = true → t.counter =
        some ((history (step createStatus) sampled (initial driverEntry) as).take Const.maxSize)) ∧
      (t.recording = false → t.counter = none ∧
        history (step createStatus) sampled (initial driverEntry) as = []) := by
  have hall := run_history (f := sampled) (C := fun _ _ => True) (P := Recorded)
    (fun _ _ _ _ hs _ hstep => hs.step hstep) hrun (along_trivial _ _) initial_recorded
  rw [List.nil_append] at hall
  have hcounter := hall.counter
  refine ⟨?_, ?_⟩
  · intro hrecording
    rw [hrecording] at hcounter
    exact hcounter
  · intro hidle
    rw [hidle] at hcounter
    exact ⟨hcounter, hall.fresh hidle⟩

/-- The second thread is done before the first takes its second sample. -/
def twoSamples : List Action :=
  List.replicate 5 .driver ++ [.thread1 0, .thread1 0, .thread1 7, .driver, .thread2,
    .thread1 0, .thread1 9]

theorem counter_of_run_twoSamples :
    ∃ t, run (step fun _ => NtStatus.success) (initial driverEntry) twoSamples = some t ∧
      t.counter = some ((history (step fun _ => NtStatus.success) sampled (initial driverEntry)
        twoSamples).take Const.maxSize) :=
  ⟨_, rfl, (@counter_of_run _ twoSamples _ rfl).1 rfl⟩

end WdmTest.KernelThread
