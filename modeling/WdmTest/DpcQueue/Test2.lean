import WdmTest.DpcQueue.StopPulse

/-!
Test 2 of DpcQueueTest, which goes on where Test 1 ends: the DPC object is
initialised again and two threads, each bound to a processor of its own, insert it
once. Nothing sets the flag any more, so what waits for it waits for ever.

A thread makes no step while an instance runs on its processor. Initialising an
object that is still in a queue is undefined, so nothing is said here of a Test 2
that finds it in one; instances that still run do not matter.
-/
namespace WdmTest.DpcQueue
open Transition Function

/-- The statements of `DriverEntry` from `KeInitializeDpc` on. -/
inductive Stmt2 where
  | keInitializeDpc
  | psCreateSystemThread (cpu : Nat)
  | keDelayExecutionThread
  | dbgBreakPoint
  | delayUntilStopped
deriving DecidableEq, Repr

def test2 : List Stmt2 :=
  [.keInitializeDpc, .psCreateSystemThread 1, .psCreateSystemThread 2, .keDelayExecutionThread,
    .dbgBreakPoint, .delayUntilStopped, .keDelayExecutionThread]

/-- Where `TestThread` stands once it is bound to its processor. -/
inductive ThreadPc where
  | inserting
  | waiting
  | returned
deriving DecidableEq, Repr

structure State2 where
  base : State
  rest : List Stmt2
  thread : Nat → Option ThreadPc

def start2 (s : State) : State2 where
  base := s
  rest := test2
  thread _ := none

/-- The effect of a statement; the loop goes round once more while the flag is not
set. `created` tells whether a thread can be created. -/
def State2.exec (created : Bool) (s : State2) (stmt : Stmt2) (rest : List Stmt2) :
    Option State2 :=
  match stmt with
  | .keInitializeDpc =>
      some { s with base := { s.base with dpcTest := { number := 0, queue := none } }, rest }
  | .psCreateSystemThread cpu =>
      if created then some { s with thread := update s.thread cpu (some .inserting), rest }
      else some { s with rest }
  | .delayUntilStopped => if s.base.flagStop then some { s with rest } else some s
  | .keDelayExecutionThread | .dbgBreakPoint => some { s with rest }

/-- A DPC without a target goes into the queue of the processor it is inserted on. -/
def testThread (k : Delays) (s : State2) (cpu : Nat) : ThreadPc → Option State2
  | .inserting => some { s with
      base := s.base.keInsertQueueDpc cpu k
      thread := update s.thread cpu (some .waiting) }
  | .waiting =>
      if s.base.flagStop then some { s with thread := update s.thread cpu (some .returned) }
      else some s
  | .returned => none

inductive Action2 where
  | kernel (a : Action)
  | driver (created : Bool)
  | thread (cpu : Nat) (k : Delays)
deriving DecidableEq, Repr

def step2 (retargets : Bool) (s : State2) : Action2 → Option State2
  | .kernel a => (step retargets s.base a).map fun base => { s with base }
  | .driver created =>
      match s.rest with
      | [] => none
      | stmt :: rest => s.exec created stmt rest
  | .thread cpu k =>
      if s.base.running cpu = none then (s.thread cpu).bind (testThread k s cpu) else none

/-! ## The flag -/

/-- The flag when the program is through. -/
def lastFlag (flag : Bool) : List Stmt → Bool
  | [] => flag
  | .setFlagStop f :: rest => lastFlag f rest
  | _ :: rest => lastFlag flag rest

theorem lastFlag_step {retargets : Bool} {s t : State} {a : Action}
    (h : step retargets s a = some t) :
    lastFlag t.flagStop t.rest = lastFlag s.flagStop s.rest := by
  cases a with
  | tick d =>
      obtain ⟨-, rfl⟩ := step_tick h
      rfl
  | driver k =>
      obtain ⟨stmt, rest, hrest, -, rfl⟩ := step_driver h
      rw [hrest]
      cases stmt with
      | keSetTargetProcessorDpcEx number =>
          simp only [State.exec]
          split <;> rfl
      | keInsertQueueDpc =>
          have hflag := (keInsertQueueDpc_frame s s.dpcTest.number k).2.2.1
          simp only [State.exec, hflag]
          rfl
      | keRaiseIrql | keLowerIrql | dbgBreakPoint | keStallExecutionProcessor _
      | setFlagStop _ => rfl
  | start c =>
      obtain ⟨entry, -, -, -, -, rfl⟩ := step_start h
      rfl
  | poll c overrun =>
      obtain ⟨read, -, -, rfl⟩ := step_poll h
      obtain ⟨hrest, hflag, -⟩ := testFunction_rest s c overrun
      rw [hrest, hflag]

theorem flagStop_after_test1 {retargets : Bool} {as : List Action} {t : State}
    (hrun : run (step retargets) initial as = some t) (hdone : t.rest = []) :
    t.flagStop = false := by
  have hlast := run_invariant (P := fun s => lastFlag s.flagStop s.rest = false)
    (fun _ _ _ hs hstep => (lastFlag_step hstep).trans hs) hrun rfl
  rw [hdone] at hlast
  exact hlast

/-! ## Waiting for ever -/

/-- The loop of the driver is still to come or under way, and no thread is through;
the object is only initialised before there are threads, and then it is in no queue. -/
structure State2.Stuck (s : State2) : Prop where
  flag : s.base.flagStop = false
  test1 : s.base.rest = []
  program : s.rest <:+ test2
  loop : .delayUntilStopped ∈ s.rest
  fresh : .keInitializeDpc ∈ s.rest → s.base.dpcTest.queue = none ∧ ∀ cpu, s.thread cpu = none
  threads : ∀ cpu, s.thread cpu ≠ some .returned

/-- An insertion by a thread that puts the DPC into the queue of the processor. -/
def insertions2 (cpu : Nat) (s : State2) (a : Action2) : Nat :=
  match a with
  | .thread c _ =>
      (decide (c = cpu ∧ s.thread c = some .inserting ∧ s.base.dpcTest.queue = none)).toNat
  | .kernel _ | .driver _ => 0

section Steps
variable {retargets : Bool} {s t : State2}

/-- Only the first statement initialises the object. -/
theorem init_notMem {stmt : Stmt2} {rest : List Stmt2} (h : stmt :: rest <:+ test2) :
    .keInitializeDpc ∉ rest := by
  have htail : rest <:+ test2.tail := by
    cases List.suffix_cons_iff.mp h with
    | inl heq => exact (List.cons.inj heq).2 ▸ List.suffix_rfl
    | inr hsuffix => exact (List.suffix_cons stmt rest).trans hsuffix
  intro hmem
  exact absurd (htail.subset hmem) (by decide)

/-- The program goes on to its next statement, which is not the loop. -/
theorem State2.Stuck.next {stmt : Stmt2} {rest : List Stmt2} (h : s.Stuck)
    (hrest : s.rest = stmt :: rest) (hstmt : stmt ≠ .delayUntilStopped)
    {base : State} {thread : Nat → Option ThreadPc} (hflag : base.flagStop = false)
    (htest1 : base.rest = []) (hthreads : ∀ cpu, thread cpu ≠ some .returned) :
    State2.Stuck { base, rest, thread } := by
  have hprogram := h.program
  have hloop := h.loop
  rw [hrest] at hprogram hloop
  refine ⟨hflag, htest1, (List.suffix_cons stmt rest).trans hprogram, ?_, ?_, hthreads⟩
  · exact (List.mem_cons.mp hloop).resolve_left (Ne.symm hstmt)
  · intro hinit
    exact absurd hinit (init_notMem hprogram)

/-- A statement of the driver leaves the instances alone; the loop does not end. -/
theorem driver_step {created : Bool} (h : s.Stuck)
    (hstep : step2 retargets s (.driver created) = some t) :
    t.Stuck ∧ ∀ cpu, t.base.instances cpu = s.base.instances cpu ∧
      t.base.running cpu = s.base.running cpu := by
  simp only [step2] at hstep
  split at hstep
  · cases hstep
  · rename_i stmt rest hrest
    cases stmt with
    | keInitializeDpc =>
        cases hstep
        have hqueue := (h.fresh (by rw [hrest]; exact List.mem_cons_self)).1
        refine ⟨h.next hrest (by decide) h.flag h.test1 h.threads, fun cpu => ⟨?_, rfl⟩⟩
        simp [State.instances, State.queueOf, hqueue]
    | psCreateSystemThread c =>
        simp only [State2.exec] at hstep
        split at hstep
        · cases hstep
          refine ⟨h.next hrest (by simp) h.flag h.test1 ?_, fun cpu => ⟨rfl, rfl⟩⟩
          intro cpu
          by_cases hc : cpu = c
          · simp [hc]
          · simpa [hc] using h.threads cpu
        · cases hstep
          exact ⟨h.next hrest (by simp) h.flag h.test1 h.threads, fun cpu => ⟨rfl, rfl⟩⟩
    | delayUntilStopped =>
        simp only [State2.exec, h.flag] at hstep
        cases hstep
        exact ⟨h, fun cpu => ⟨rfl, rfl⟩⟩
    | keDelayExecutionThread | dbgBreakPoint =>
        cases hstep
        exact ⟨h.next hrest (by decide) h.flag h.test1 h.threads, fun cpu => ⟨rfl, rfl⟩⟩

theorem instances_insert (s : State) (c cpu : Nat) (k : Delays) :
    (s.keInsertQueueDpc c k).instances cpu =
      s.instances cpu + (decide (c = cpu ∧ s.dpcTest.queue = none)).toNat := by
  rw [State.keInsertQueueDpc]
  split
  · rename_i hqueue
    by_cases hc : c = cpu
    · simp [State.instances, State.queueOf, hqueue, hc]
    · simp [State.instances, State.queueOf, hqueue, hc]
  · rename_i hqueue
    simp [hqueue]

theorem thread_step {c : Nat} {k : Delays} (h : s.Stuck)
    (hstep : step2 retargets s (.thread c k) = some t) :
    t.Stuck ∧ ∀ cpu, t.base.instances cpu =
        s.base.instances cpu + insertions2 cpu s (.thread c k) ∧
      t.base.running cpu = s.base.running cpu := by
  simp only [step2, Option.ite_none_right_eq_some] at hstep
  obtain ⟨-, hstep⟩ := hstep
  obtain ⟨pc, hpc, hstep⟩ := Option.bind_eq_some_iff.mp hstep
  have hinit : .keInitializeDpc ∉ s.rest := by
    intro hmem
    have hnone := (h.fresh hmem).2 c
    rw [hpc] at hnone
    cases hnone
  cases pc with
  | inserting =>
      cases hstep
      obtain ⟨-, hrunning, hflag, hrest, -⟩ := keInsertQueueDpc_frame s.base c k
      refine ⟨⟨hflag.trans h.flag, hrest.trans h.test1, h.program, h.loop,
        fun hmem => absurd hmem hinit, ?_⟩, fun cpu => ⟨?_, ?_⟩⟩
      · intro cpu
        by_cases hc : cpu = c
        · simp [hc]
        · simpa [hc] using h.threads cpu
      · rw [instances_insert]
        simp [insertions2, hpc]
      · rw [hrunning]
  | waiting =>
      simp only [testThread, h.flag] at hstep
      cases hstep
      refine ⟨h, fun cpu => ⟨?_, rfl⟩⟩
      simp [insertions2, hpc]
  | returned => cases hstep

theorem State2.Stuck.step {a : Action2} (h : s.Stuck) (hstep : step2 retargets s a = some t) :
    t.Stuck ∧ ∀ cpu, t.base.instances cpu = s.base.instances cpu + insertions2 cpu s a ∧
      (s.base.running cpu ≠ none → t.base.running cpu ≠ none) := by
  cases a with
  | kernel a =>
      obtain ⟨base, hbase, rfl⟩ := Option.map_eq_some_iff.mp hstep
      obtain ⟨hflag, hrest, hsame⟩ := step_after h.flag h.test1 hbase
      refine ⟨⟨hflag, hrest, h.program, h.loop, ?_, h.threads⟩,
        fun cpu => ⟨(hsame cpu).1, (hsame cpu).2.1⟩⟩
      intro hmem
      obtain ⟨hqueue, hthreads⟩ := h.fresh hmem
      exact ⟨(hsame 0).2.2 hqueue, hthreads⟩
  | driver created =>
      obtain ⟨hstuck, hsame⟩ := driver_step h hstep
      exact ⟨hstuck, fun cpu => ⟨(hsame cpu).1, fun hrunning => (hsame cpu).2 ▸ hrunning⟩⟩
  | thread c k =>
      obtain ⟨hstuck, hsame⟩ := thread_step h hstep
      exact ⟨hstuck, fun cpu => ⟨(hsame cpu).1, fun hrunning => (hsame cpu).2 ▸ hrunning⟩⟩

end Steps

/-- After a Test 1 that has left the DPC in no queue, Test 2 does not end: `DriverEntry`
does not return, nor does a thread that it started, and no instance that runs ever ends.
A processor has as many instances as it had, and one for each insertion on it that found
the DPC in no queue. -/
theorem test2_neverEnds {retargets : Bool} {as : List Action} {bs : List Action2} {t : State}
    {u : State2} (htest1 : run (step retargets) initial as = some t) (hdone : t.rest = [])
    (hqueue : t.dpcTest.queue = none) (hrun : run (step2 retargets) (start2 t) bs = some u) :
    u.rest ≠ [] ∧ (∀ cpu, u.thread cpu ≠ some .returned) ∧
      (∀ cpu, t.running cpu ≠ none → u.base.running cpu ≠ none) ∧
      ∀ cpu, u.base.instances cpu =
        t.instances cpu + tally (step2 retargets) (insertions2 cpu) (start2 t) bs := by
  have hstart : (start2 t).Stuck :=
    ⟨flagStop_after_test1 htest1 hdone, hdone, List.suffix_rfl,
      (by decide : Stmt2.delayUntilStopped ∈ test2), fun _ => ⟨hqueue, fun _ => rfl⟩, nofun⟩
  have hinv := run_invariant
    (P := fun s : State2 => s.Stuck ∧ ∀ cpu, t.running cpu ≠ none → s.base.running cpu ≠ none)
    (fun s _ v hs hstep => ⟨(hs.1.step hstep).1,
      fun cpu hrunning => ((hs.1.step hstep).2 cpu).2 (hs.2 cpu hrunning)⟩) hrun
    ⟨hstart, fun _ => id⟩
  refine ⟨List.ne_nil_of_mem hinv.1.loop, hinv.1.threads, hinv.2, ?_⟩
  intro cpu
  have hall : u.base.instances cpu + tally (step2 retargets) (fun _ _ => 0) (start2 t) bs =
      (start2 t).base.instances cpu +
        tally (step2 retargets) (insertions2 cpu) (start2 t) bs :=
    run_tally_of_invariant (P := State2.Stuck) (μ := fun s => s.base.instances cpu)
      (fun s a v hs hstep => ⟨(hs.step hstep).1, ((hs.step hstep).2 cpu).1⟩) hrun hstart
  rw [tally_zero] at hall
  exact hall

/-- After a pulse that was seen, both threads insert the DPC and both instances run. -/
def bothRunning : List Action2 :=
  [.driver true, .driver true, .thread 1 {}, .kernel (.start 1), .driver true, .thread 2 {},
    .kernel (.start 2), .driver true, .driver true, .driver true]

/-- The second thread inserts while the DPC still waits for the first processor. -/
def secondLost : List Action2 :=
  [.driver true, .driver true, .driver true, .thread 1 {}, .thread 2 {}, .kernel (.start 1)]

theorem test2_neverEnds_bothRunning :
    ∃ t u, run (step false) initial seenPulse = some t ∧
      run (step2 false) (start2 t) bothRunning = some u ∧
      u.rest ≠ [] ∧ (∀ cpu, u.thread cpu ≠ some .returned) ∧
      (∀ cpu, t.running cpu ≠ none → u.base.running cpu ≠ none) ∧
      ∀ cpu, u.base.instances cpu =
        t.instances cpu + tally (step2 false) (insertions2 cpu) (start2 t) bothRunning :=
  ⟨_, _, rfl, rfl, @test2_neverEnds false seenPulse bothRunning _ _ rfl rfl rfl rfl⟩

example :
    ∃ t u, run (step false) initial seenPulse = some t ∧
      run (step2 false) (start2 t) secondLost = some u ∧
      u.base.instances 1 = 1 ∧ u.base.instances 2 = 0 ∧ u.thread 2 = some .waiting :=
  ⟨_, _, rfl, rfl, rfl, rfl, rfl⟩

end WdmTest.DpcQueue
