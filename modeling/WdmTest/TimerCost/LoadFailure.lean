import WdmTest.TimerCost.Model

/-!
What a failed load of TimerCostTest leaves behind. The pool block is allocated
before the loop over the processors and no exit of the loop frees it, so a load
that fails there keeps the block, and since the driver is then never unloaded,
for good. A load that fails earlier leaves nothing; one that succeeds has all its
calls ready, and its unload gives everything back.
-/
namespace WdmTest.TimerCost

/-- A failed load holds no pool block and has asked for no timer resolution. A
load that succeeds has a call for each processor. -/
structure LoadsAtomically (k : Answers) : Prop where
  failure : ntSuccess (driverEntry k {}).1 = false →
    (driverEntry k {}).2.poolBlocks = 0 ∧ (driverEntry k {}).2.resolution = none
  success : ntSuccess (driverEntry k {}).1 = true →
    ∃ dpcs, (driverEntry k {}).2.dummyDpcs = some dpcs ∧
      dpcs.length = k.activeProcessorCountEx.toNat ∧
      ∀ i < k.activeProcessorCountEx.toNat, dpcs[i]? = some (dummyDpc k i)

def Answers.IndicesValid (k : Answers) : Prop :=
  ∀ i < k.activeProcessorCountEx.toNat, ntSuccess (k.processorNumber i).status = true

/-! ## The loop -/

section Loop
variable {k : Answers} {remaining i : Nat} {dpcs : List Dpc}

theorem initDummyDpcs_status {status : NtStatus}
    (h : (initDummyDpcs k remaining i dpcs).1 = some status) : ntSuccess status = false := by
  induction remaining generalizing i dpcs with
  | zero => simp [initDummyDpcs] at h
  | succ remaining ih =>
      rw [initDummyDpcs] at h
      split at h
      · exact ih h
      · rename_i hfailed
        rw [Option.some.injEq] at h
        rw [← h]
        exact Bool.eq_false_iff.mpr hfailed

/-- It goes through exactly when every index it visits has a processor number. -/
theorem initDummyDpcs_through_iff :
    (initDummyDpcs k remaining i dpcs).1 = none ↔
      ∀ j, i ≤ j → j < i + remaining → ntSuccess (k.processorNumber j).status = true := by
  induction remaining generalizing i dpcs with
  | zero =>
      refine iff_of_true rfl ?_
      intro j hi hj
      omega
  | succ remaining ih =>
      rw [initDummyDpcs]
      split
      · rename_i hi
        rw [ih]
        refine ⟨?_, ?_⟩
        · intro h j hij hj
          cases Nat.eq_or_lt_of_le hij with
          | inl heq => exact heq ▸ hi
          | inr hlt => exact h j hlt (by omega)
        · intro h j hij hj
          exact h j (by omega) (by omega)
      · rename_i hi
        refine iff_of_false (Option.some_ne_none _) ?_
        intro h
        exact hi (h i (Nat.le_refl i) (by omega))

/-- When it goes through, the entries it visited are initialised and the others
are as they were. -/
theorem initDummyDpcs_entry (h : (initDummyDpcs k remaining i dpcs).1 = none)
    (hlen : i + remaining ≤ dpcs.length) (j : Nat) :
    (initDummyDpcs k remaining i dpcs).2[j]? =
      if i ≤ j ∧ j < i + remaining then some (dummyDpc k j) else dpcs[j]? := by
  induction remaining generalizing i dpcs with
  | zero =>
      rw [if_neg (by omega)]
      rfl
  | succ remaining ih =>
      have hi : ntSuccess (k.processorNumber i).status = true :=
        initDummyDpcs_through_iff.mp h i (Nat.le_refl i) (by omega)
      rw [initDummyDpcs, if_pos hi] at h ⊢
      rw [ih h (by rw [List.length_set]; omega)]
      by_cases heq : i = j
      · subst heq
        rw [if_neg (by omega), if_pos (by omega), List.getElem?_set_self (by omega)]
      · rw [List.getElem?_set_ne heq]
        apply if_congr _ rfl rfl
        omega

theorem initDummyDpcs_length : (initDummyDpcs k remaining i dpcs).2.length = dpcs.length := by
  induction remaining generalizing i dpcs with
  | zero => rfl
  | succ remaining ih =>
      rw [initDummyDpcs]
      split
      · rw [ih, List.length_set]
      · rfl

theorem initDummyDpcs_array {count : Nat} {dpcs' : List Dpc}
    (h : initDummyDpcs k count 0 (List.replicate count {}) = (none, dpcs')) :
    dpcs'.length = count ∧ ∀ i < count, dpcs'[i]? = some (dummyDpc k i) := by
  have hsnd : (initDummyDpcs k count 0 (List.replicate count {})).2 = dpcs' := by rw [h]
  rw [← hsnd]
  refine ⟨by rw [initDummyDpcs_length, List.length_replicate], ?_⟩
  intro i hi
  rw [initDummyDpcs_entry (by rw [h]) (by simp), if_pos]
  omega

end Loop

/-! ## Loading -/

/-- The three ways out of `DriverEntry`, with what each leaves behind. -/
inductive LoadOutcome (k : Answers) (s : State) (r : NtStatus × State) : Prop where
  | noMemory : k.allocated = false → ntSuccess r.1 = false → r.2.poolBlocks = s.poolBlocks →
      r.2.resolution = s.resolution → LoadOutcome k s r
  | noProcessor : k.allocated = true → ¬ k.IndicesValid → ntSuccess r.1 = false →
      r.2.poolBlocks = s.poolBlocks + 1 → r.2.resolution = s.resolution → LoadOutcome k s r
  | loaded (dpcs : List Dpc) : k.allocated = true → k.IndicesValid → ntSuccess r.1 = true →
      r.2.poolBlocks = s.poolBlocks + 1 → r.2.dummyDpcs = some dpcs →
      dpcs.length = k.activeProcessorCountEx.toNat →
      (∀ i < k.activeProcessorCountEx.toNat, dpcs[i]? = some (dummyDpc k i)) → LoadOutcome k s r

theorem driverEntry_outcome (k : Answers) (s : State) : LoadOutcome k s (driverEntry k s) := by
  have hthrough : (initDummyDpcs k k.activeProcessorCountEx.toNat 0
      (List.replicate k.activeProcessorCountEx.toNat {})).1 = none ↔ k.IndicesValid := by
    rw [initDummyDpcs_through_iff, Nat.zero_add]
    exact ⟨fun h i hi => h i (Nat.zero_le i) hi, fun h i _ hi => h i hi⟩
  rw [driverEntry]
  split
  · rename_i hallocated
    dsimp only
    split
    · rename_i status dpcs hloop
      rw [hloop] at hthrough
      apply LoadOutcome.noProcessor hallocated
      · rw [← hthrough]
        exact Option.some_ne_none status
      · exact initDummyDpcs_status (congrArg Prod.fst hloop)
      · rfl
      · rfl
    · rename_i dpcs hloop
      rw [hloop] at hthrough
      have harray := initDummyDpcs_array hloop
      apply LoadOutcome.loaded dpcs hallocated (hthrough.mp rfl)
      · rfl
      · rfl
      · rfl
      · exact harray.1
      · exact harray.2
  · rename_i hallocated
    apply LoadOutcome.noMemory (Bool.eq_false_iff.mpr hallocated)
    · rfl
    · rfl
    · rfl

/-- Loading is atomic exactly when the pool block cannot be had or every active
processor has a number. -/
theorem loadsAtomically_iff (k : Answers) :
    LoadsAtomically k ↔ k.allocated = false ∨ k.IndicesValid := by
  cases driverEntry_outcome k {} with
  | noMemory hallocated hstatus hblocks hresolution =>
      refine iff_of_true ⟨fun _ => ⟨hblocks, hresolution⟩, ?_⟩ (Or.inl hallocated)
      intro hsuccess
      rw [hstatus] at hsuccess
      contradiction
  | noProcessor hallocated hinvalid hstatus hblocks _ =>
      refine iff_of_false ?_ ?_
      · intro h
        have hzero := (h.failure hstatus).1
        rw [hblocks] at hzero
        contradiction
      · intro h
        cases h with
        | inl hnone => simp [hallocated] at hnone
        | inr hvalid => exact hinvalid hvalid
  | loaded dpcs _ hvalid hstatus _ hdpcs hlen hentry =>
      refine iff_of_true ⟨?_, fun _ => ⟨dpcs, hdpcs, hlen, hentry⟩⟩ (Or.inr hvalid)
      intro hfailure
      rw [hstatus] at hfailure
      contradiction

instance (k : Answers) : Decidable k.IndicesValid :=
  inferInstanceAs (Decidable (∀ i < k.activeProcessorCountEx.toNat,
    ntSuccess (k.processorNumber i).status = true))

/-- The load fails in the loop over the processors. -/
def Answers.failsInLoop (k : Answers) : Bool := k.allocated && !decide k.IndicesValid

theorem loadAndUnload_blocks (k : Answers) (s : State) :
    (loadAndUnload k s).poolBlocks = s.poolBlocks + if k.failsInLoop then 1 else 0 := by
  cases driverEntry_outcome k s with
  | noMemory hallocated hstatus hblocks _ =>
      simp [loadAndUnload, hstatus, hblocks, Answers.failsInLoop, hallocated]
  | noProcessor hallocated hinvalid hstatus hblocks _ =>
      simp [loadAndUnload, hstatus, hblocks, Answers.failsInLoop, hallocated, hinvalid]
  | loaded dpcs hallocated hvalid hstatus hblocks hdpcs _ _ =>
      simp [loadAndUnload, hstatus, driverUnload, hdpcs, hblocks, Answers.failsInLoop, hvalid]

theorem loadAndUnload_resolution (k : Answers) {s : State} (h : s.resolution = none) :
    (loadAndUnload k s).resolution = none := by
  cases driverEntry_outcome k s with
  | noMemory _ hstatus _ hresolution | noProcessor _ _ hstatus _ hresolution =>
      rw [loadAndUnload, hstatus]
      exact hresolution.trans h
  | loaded dpcs _ _ hstatus _ hdpcs _ _ =>
      rw [loadAndUnload, hstatus, if_pos rfl, driverUnload]
      simp only [hdpcs]

/-- The driver is loaded, and unloaded if it can be, again and again. -/
def loadCycles (ks : List Answers) (s : State) : State :=
  ks.foldl (fun s k => loadAndUnload k s) s

theorem loadCycles_blocks (ks : List Answers) (s : State) :
    (loadCycles ks s).poolBlocks = s.poolBlocks + ks.countP Answers.failsInLoop := by
  induction ks generalizing s with
  | nil => rfl
  | cons k ks ih =>
      have hlater := ih (loadAndUnload k s)
      rw [loadAndUnload_blocks, Nat.add_assoc] at hlater
      rw [List.countP_cons, Nat.add_comm (List.countP _ ks)]
      exact hlater

theorem loadCycles_resolution (ks : List Answers) {s : State} (h : s.resolution = none) :
    (loadCycles ks s).resolution = none := by
  induction ks generalizing s with
  | nil => exact h
  | cons k ks ih => exact ih (loadAndUnload_resolution k h)

/-- Loaded any number of times, the driver has lost a pool block for each load that
failed in the loop and for no other; no timer resolution is left asked for. -/
theorem loadCycles_leave (ks : List Answers) :
    (loadCycles ks {}).poolBlocks = ks.countP Answers.failsInLoop ∧
      (loadCycles ks {}).resolution = none := by
  refine ⟨?_, loadCycles_resolution ks rfl⟩
  rw [loadCycles_blocks]
  exact Nat.zero_add _

def secondFails : Answers where
  activeProcessorCountEx := 2
  allocated := true
  processorNumber := fun i =>
    { status := if i = 0 then NtStatus.success else NtStatus.invalidParameter
      number := { group := 0, number := 0 } }
  minRes := 5000
  setTimerResolution := id

theorem secondFails_keeps_block :
    ntSuccess (driverEntry secondFails {}).1 = false ∧
      (driverEntry secondFails {}).2.poolBlocks = 1 ∧ ¬ LoadsAtomically secondFails := by
  have hstatus : ntSuccess (driverEntry secondFails {}).1 = false := by decide
  refine ⟨hstatus, rfl, ?_⟩
  intro h
  exact absurd (h.failure hstatus).1 (by decide)

end WdmTest.TimerCost
