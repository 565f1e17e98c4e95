import WdmTest.Ptov.Model
import WdmTest.Lib.Handover

/-!
How long the context and the buffer live. The driver lends both to its thread
and frees them after a wait whose result it ignores. A thread that takes longer
than the wait, for instance at its breakpoint, is left with freed memory.
-/
namespace WdmTest.Ptov
open Transition

/-- The thread will not access the block again, or there is no thread. -/
def State.DoneWith (block : Block) (s : State) : Prop :=
  ∀ k ∈ s.worker, ∀ stmt ∈ threadFunction.drop k, block ∉ stmt.accesses

def State.Done (s : State) : Prop := s.DoneWith .ctx ∧ s.DoneWith .buffer

/-- The thread has not been created yet. -/
def DriverPc.beforeThread : DriverPc → Bool
  | .allocating | .creatingThread => true
  | .closingHandle | .notifying | .startingWait | .waiting _ | .breaking | .freeing _
  | .returned => false

/-- The driver has left its wait, or has found that there is no thread. -/
def DriverPc.resumed : DriverPc → Bool
  | .breaking | .freeing _ => true
  | .allocating | .creatingThread | .closingHandle | .notifying | .startingWait | .waiting _
  | .returned => false

def FreedAfterUse (s : State) (a : Action) : Prop :=
  a = .driver → (s.driver = .freeing .ctx → s.DoneWith .ctx) ∧
    (s.driver = .freeing .buffer → s.DoneWith .buffer)

/-- The wait does not give up on a thread that is not done with both blocks. -/
def TimelyWorker (s : State) (a : Action) : Prop := a = .waitTimeout → s.Done

instance (block : Block) (s : State) : Decidable (s.DoneWith block) :=
  inferInstanceAs (Decidable (∀ k ∈ s.worker, ∀ stmt ∈ threadFunction.drop k,
    block ∉ stmt.accesses))

instance (s : State) : Decidable s.Done :=
  inferInstanceAs (Decidable (s.DoneWith .ctx ∧ s.DoneWith .buffer))

instance (s : State) (a : Action) : Decidable (FreedAfterUse s a) :=
  inferInstanceAs (Decidable (a = .driver → (s.driver = .freeing .ctx → s.DoneWith .ctx) ∧
    (s.driver = .freeing .buffer → s.DoneWith .buffer)))

instance (s : State) (a : Action) : Decidable (TimelyWorker s a) :=
  inferInstanceAs (Decidable (a = .waitTimeout → s.Done))

def State.Released (s : State) : Prop := s.driver.beforeThread = false ∧ s.Done

section Steps
variable {createStatus : NtStatus} {s t : State}

theorem done_of_worker_eq_none (h : s.worker = none) : s.Done := by
  simp [State.Done, State.DoneWith, h]

theorem done_of_worker_eq (h : t.worker = s.worker) : t.Done ↔ s.Done := by
  simp only [State.Done, State.DoneWith, h]

/-- The thread sets the event after its last access. -/
theorem doneWith_after_keSetEvent : ∀ k < threadFunction.length,
    threadFunction[k]? = some .keSetEvent → ∀ stmt ∈ threadFunction.drop (k + 1),
      ∀ block, block ∉ stmt.accesses := by
  decide

theorem worker_effect (h : step createStatus s .worker = some t) :
    ∃ k stmt, s.worker = some k ∧ t.worker = some (k + 1) ∧ threadFunction[k]? = some stmt ∧
      t.eventDone1 = (s.eventDone1 || decide (stmt = .keSetEvent)) ∧ t.driver = s.driver := by
  simp only [step] at h
  split at h
  · cases h
  · rename_i k hk
    split at h
    · cases h
    · rename_i stmt hstmt
      cases h
      exact ⟨k, stmt, hk, rfl, hstmt, rfl, rfl⟩

theorem driverEntry_effect (h : driverEntry createStatus s = some t) :
    t.eventDone1 = s.eventDone1 ∧
      ((t.worker = s.worker ∧
          (t.driver.beforeThread = true → s.driver.beforeThread = true) ∧
          (t.driver.resumed = true →
            s.driver.resumed = true ∨ s.driver = .creatingThread ∧ t.driver = .breaking)) ∨
        (s.driver = .creatingThread ∧ t.driver = .closingHandle)) := by
  simp only [driverEntry] at h
  cases hpc : s.driver with
  | creatingThread =>
      simp only [hpc] at h
      split at h <;> cases h
      · exact ⟨rfl, Or.inr ⟨rfl, rfl⟩⟩
      · exact ⟨rfl, Or.inl ⟨rfl, by simp [DriverPc.beforeThread], fun _ => Or.inr ⟨rfl, rfl⟩⟩⟩
  | freeing block =>
      cases block with
      | ctx | buffer =>
          simp only [hpc] at h
          cases h
          exact ⟨rfl, Or.inl ⟨rfl, by simp [DriverPc.beforeThread], by simp [DriverPc.resumed]⟩⟩
  | allocating | closingHandle | notifying | startingWait | breaking =>
      simp only [hpc] at h
      cases h
      exact ⟨rfl, Or.inl ⟨rfl, by simp [DriverPc.beforeThread], by simp [DriverPc.resumed]⟩⟩
  | waiting _ | returned => simp [hpc] at h

theorem wait_effect {a : Action} (ha : a = .waitSatisfied ∨ a = .waitTimeout)
    (h : step createStatus s a = some t) :
    t.worker = s.worker ∧ t.eventDone1 = s.eventDone1 ∧ t.driver = .breaking ∧
      (a = .waitSatisfied → s.eventDone1 = true) := by
  cases ha with
  | inl hsatisfied =>
      subst hsatisfied
      simp only [step] at h
      split at h
      · simp only [Option.ite_none_right_eq_some, Option.some.injEq] at h
        obtain ⟨hevent, rfl⟩ := h
        exact ⟨rfl, rfl, rfl, fun _ => hevent⟩
      · cases h
  | inr htimeout =>
      subst htimeout
      simp only [step] at h
      split at h
      · simp only [Option.ite_none_right_eq_some, Option.some.injEq] at h
        obtain ⟨-, rfl⟩ := h
        exact ⟨rfl, rfl, rfl, by simp⟩
      · cases h

def State.ThreadCreated (s : State) : Prop := s.driver.beforeThread = true → s.worker = none

theorem doneWith_worker_step {block : Block} {k : Nat} (hs : s.DoneWith block)
    (hk : s.worker = some k) (ht : t.worker = some (k + 1)) : t.DoneWith block := by
  intro k' hk' stmt hstmt
  rw [ht, Option.mem_some_iff] at hk'
  subst hk'
  refine hs k hk stmt ?_
  rw [← List.drop_drop] at hstmt
  exact List.mem_of_mem_drop hstmt

theorem threadCreated_step {a : Action} (hinv : s.ThreadCreated)
    (h : step createStatus s a = some t) : t.ThreadCreated := by
  intro hbefore
  cases a with
  | tick time =>
      cases h
      exact hinv hbefore
  | driver =>
      cases (driverEntry_effect h).2 with
      | inl hother =>
          rw [hother.1]
          exact hinv (hother.2.1 hbefore)
      | inr hcreate => simp [hcreate.2, DriverPc.beforeThread] at hbefore
  | worker =>
      obtain ⟨k, -, hk, -, -, -, hpc⟩ := worker_effect h
      rw [hpc] at hbefore
      simp [hinv hbefore] at hk
  | waitSatisfied | waitTimeout =>
      obtain ⟨-, -, hpc, -⟩ := wait_effect (by simp) h
      simp [hpc, DriverPc.beforeThread] at hbefore

theorem released_step {a : Action} (h : step createStatus s a = some t) (hs : s.Released) :
    t.Released := by
  obtain ⟨hcreated, hdone⟩ := hs
  cases a with
  | tick time =>
      cases h
      exact ⟨hcreated, hdone⟩
  | driver =>
      cases (driverEntry_effect h).2 with
      | inl hother =>
          refine ⟨?_, (done_of_worker_eq hother.1).mpr hdone⟩
          rw [Bool.eq_false_iff]
          intro hbefore
          simp [hother.2.1 hbefore] at hcreated
      | inr hcreate => simp [hcreate.1, DriverPc.beforeThread] at hcreated
  | worker =>
      obtain ⟨k, -, hk, ht, -, -, hpc⟩ := worker_effect h
      rw [State.Released, hpc]
      exact ⟨hcreated, doneWith_worker_step hdone.1 hk ht, doneWith_worker_step hdone.2 hk ht⟩
  | waitSatisfied | waitTimeout =>
      obtain ⟨hworker, -, hpc, -⟩ := wait_effect (by simp) h
      exact ⟨by rw [hpc]; rfl, (done_of_worker_eq hworker).mpr hdone⟩

/-- Only the thread sets the event, and it is then done with both blocks. -/
theorem eventDone1_step {a : Action} (hinv : s.ThreadCreated)
    (h : step createStatus s a = some t) (ht : t.eventDone1 = true) :
    s.eventDone1 = true ∨ t.Released := by
  cases a with
  | tick time =>
      cases h
      exact Or.inl ht
  | driver => exact Or.inl ((driverEntry_effect h).1 ▸ ht)
  | worker =>
      obtain ⟨k, stmt, hk, hk', hstmt, hevent, hpc⟩ := worker_effect h
      rw [hevent, Bool.or_eq_true, decide_eq_true_iff] at ht
      cases ht with
      | inl hbefore => exact Or.inl hbefore
      | inr hset =>
          rw [hset] at hstmt
          have hrest := doneWith_after_keSetEvent k (List.getElem?_eq_some_iff.mp hstmt).1 hstmt
          have hdone (block : Block) : t.DoneWith block := by
            intro j hj stmt hmem
            rw [hk', Option.mem_some_iff] at hj
            subst hj
            exact hrest stmt hmem block
          refine Or.inr ⟨?_, hdone .ctx, hdone .buffer⟩
          rw [hpc, Bool.eq_false_iff]
          intro hbefore
          simp [hinv hbefore] at hk
  | waitSatisfied | waitTimeout =>
      obtain ⟨-, hevent, -⟩ := wait_effect (by simp) h
      exact Or.inl (hevent ▸ ht)

/-- The driver goes on without a thread, after the event or when its wait gives
up. -/
theorem resumed_step {a : Action} (hinv : s.ThreadCreated) (h : step createStatus s a = some t)
    (htimely : TimelyWorker s a) (ht : t.driver.resumed = true) :
    s.driver.resumed = true ∨ s.eventDone1 = true ∨ t.Released := by
  cases a with
  | tick time =>
      cases h
      exact Or.inl ht
  | driver =>
      cases (driverEntry_effect h).2 with
      | inl hother =>
          cases hother.2.2 ht with
          | inl hs => exact Or.inl hs
          | inr hfail =>
              refine Or.inr (Or.inr ⟨by rw [hfail.2]; rfl, done_of_worker_eq_none ?_⟩)
              rw [hother.1]
              exact hinv (by rw [hfail.1]; rfl)
      | inr hcreate => simp [hcreate.2, DriverPc.resumed] at ht
  | worker =>
      obtain ⟨-, -, -, -, -, -, hpc⟩ := worker_effect h
      exact Or.inl (hpc ▸ ht)
  | waitSatisfied =>
      obtain ⟨-, -, -, hevent⟩ := wait_effect (Or.inl rfl) h
      exact Or.inr (Or.inl (hevent rfl))
  | waitTimeout =>
      obtain ⟨hworker, -, hpc, -⟩ := wait_effect (Or.inr rfl) h
      exact Or.inr (Or.inr ⟨by rw [hpc]; rfl, (done_of_worker_eq hworker).mpr (htimely rfl)⟩)

theorem blockHandover (createStatus : NtStatus) :
    Handover (step createStatus) State.ThreadCreated State.Released
      (fun s => s.eventDone1 = true) (fun s => s.driver.resumed = true) TimelyWorker where
  keeps _ _ _ := threadCreated_step
  stable _ _ _ _ := released_step
  signals _ _ _ := eventDone1_step
  resumes _ _ _ := resumed_step

end Steps

theorem freedAfterUse_of_timely {createStatus : NtStatus} {now : Int} {as : List Action}
    (htimely : Along (step createStatus) TimelyWorker (initial now) as) :
    Along (step createStatus) FreedAfterUse (initial now) as := by
  have hD : ∀ s a, (s.driver.resumed = true → s.Released) → FreedAfterUse s a := by
    intro s a h _
    refine ⟨?_, ?_⟩
    · intro hfree
      exact (h (by rw [hfree]; rfl)).2.1
    · intro hfree
      exact (h (by rw [hfree]; rfl)).2.2
  refine (blockHandover createStatus).along hD htimely ⟨fun _ => rfl, ?_, ?_⟩
  · intro h
    cases h
  · intro h
    cases h

/-- The driver up to its wait. -/
def startAndWait : List Action := List.replicate 5 .driver

def workerInTime : List Action :=
  startAndWait ++ List.replicate 14 .worker ++ [.waitSatisfied] ++ List.replicate 3 .driver

theorem freedAfterUse_workerInTime :
    ∃ t, Transition.run (step NtStatus.success) (initial 0) workerInTime = some t ∧
      t.driver = .returned ∧
      Along (step NtStatus.success) FreedAfterUse (initial 0) workerInTime :=
  ⟨_, rfl, rfl, freedAfterUse_of_timely (by decide)⟩

/-- The thread stays at its breakpoint for ten seconds. -/
def workerAtBreakPoint : List Action :=
  startAndWait ++ List.replicate 8 .worker ++ [.tick 100000000, .waitTimeout] ++
    List.replicate 3 .driver

theorem freedAfterUse_workerAtBreakPoint :
    ∃ t, Transition.run (step NtStatus.success) (initial 0) workerAtBreakPoint = some t ∧
      t.ctx = false ∧ t.buffer = false ∧ t.worker = some 8 ∧
      ¬ Along (step NtStatus.success) FreedAfterUse (initial 0) workerAtBreakPoint :=
  ⟨_, rfl, rfl, rfl, rfl, by decide⟩

/-- Whenever the driver waits for a thread that is not done, the wait may run out
first, and both blocks are then freed under the thread. -/
theorem slowWorker_loses_blocks {createStatus : NtStatus} {s : State} {due : Int}
    (hwait : s.driver = .waiting due) (hevent : s.eventDone1 = false) (hbusy : ¬ s.Done) :
    ∃ time t, Transition.run (step createStatus) s
        [.tick time, .waitTimeout, .driver, .driver, .driver] = some t ∧
      t.driver = .returned ∧ t.ctx = false ∧ t.buffer = false ∧ ¬ t.Done := by
  refine ⟨(due - s.now).toNat, { s with
    now := s.now + (due - s.now).toNat, driver := .returned, ctx := false, buffer := false },
    ?_, rfl, rfl, rfl, hbusy⟩
  have hdue : due ≤ s.now + ((due - s.now).toNat : Int) := by omega
  simp only [Transition.run, step, driverEntry, hwait, hdue, hevent, and_self, if_true,
    Option.bind_some]

end WdmTest.Ptov
