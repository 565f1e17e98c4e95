import WdmTest.DigitalSign.ProcessFunctions

/-!
What the status of `GetProcessName` says about the name. One variable carries
the status of the open, of the query and of closing the handle in turn, so a
failed query is forgotten once the handle is closed successfully. The callback
trusts the status: it is then that it reads the zeroed buffer.

The handle itself is closed exactly once in every case.
-/
namespace WdmTest.DigitalSign

section
variable {path : List UInt16} {bufSize : UInt32}

/-- Success is reported only for a query that succeeded and wrote the name, and
an opened handle is closed exactly once. -/
structure NameReported (proc : UInt64) (k : NameCalls path bufSize) : Prop where
  success : ntSuccess (getProcessName proc k).status = true →
    ntSuccess k.query.status = true ∧ (getProcessName proc k).name = some path
  closed : ∀ h, (getProcessName proc k).trace.events.count (.zwClose h) =
    if proc ≠ 0 ∧ k.opened.handle ≠ 0 ∧ h = k.opened.handle then 1 else 0

/-- A use of the name or of the certificate for a buffer that the query filled in. -/
def NotifyEvent.Filled (k : NameCalls path bufSize) : NotifyEvent → Prop
  | .readName name => ntSuccess k.query.status = true ∧ name = some path
  | .printCertInfo => ntSuccess k.query.status = true
  | _ => True

/-- No failure of the query gets lost: it is not made, succeeds, or its status is
the last one or followed by another failure. -/
def NameCalls.FailureKept (k : NameCalls path bufSize) (proc : UInt64) : Prop :=
  proc = 0 ∨ ntSuccess k.opened.status = false ∨ ntSuccess k.query.status = true ∨
    k.opened.handle = 0 ∨ ntSuccess k.closeStatus = false

/-! ## What the function returns and closes -/

section Close
variable (handle : UInt64) (closeStatus : NtStatus) (r : NameResult)

theorem closeHandle_status :
    (closeHandle handle closeStatus r).status = if handle ≠ 0 then closeStatus else r.status := by
  rw [closeHandle]
  split <;> rfl

theorem closeHandle_name : (closeHandle handle closeStatus r).name = r.name := by
  rw [closeHandle]
  split <;> rfl

theorem closeHandle_events (h : r.trace.completes = true) :
    (closeHandle handle closeStatus r).trace.events =
      r.trace.events ++ if handle ≠ 0 then [.zwClose handle] else [] := by
  rw [closeHandle]
  split
  · exact congrArg Trace.events (Trace.andThen_of_completes h)
  · exact (List.append_nil _).symm

end Close

variable (proc : UInt64) (k : NameCalls path bufSize)

theorem getProcessName_status :
    ntSuccess (getProcessName proc k).status = true ↔
      proc ≠ 0 ∧ ntSuccess k.opened.status = true ∧
        ntSuccess (if k.opened.handle ≠ 0 then k.closeStatus else k.query.status) = true := by
  have hfailed : ntSuccess NtStatus.internalError = false := by decide
  rw [getProcessName]
  split
  · rename_i hnull
    simp [hfailed, hnull]
  · rename_i hproc
    split
    · rename_i hopened
      rw [closeHandle_status]
      simp [hproc, hopened]
    · rename_i hopened
      rw [Bool.not_eq_true] at hopened
      rw [closeHandle_status, k.opened.failed hopened]
      simp [hopened]

theorem getProcessName_name (hproc : proc ≠ 0) (hopened : ntSuccess k.opened.status = true) :
    (getProcessName proc k).name = k.query.name := by
  rw [getProcessName, if_neg hproc, if_pos hopened, closeHandle_name]

theorem getProcessName_closes (h : UInt64) :
    (getProcessName proc k).trace.events.count (.zwClose h) =
      if proc ≠ 0 ∧ k.opened.handle ≠ 0 ∧ h = k.opened.handle then 1 else 0 := by
  have hclose : (if k.opened.handle ≠ 0 then [ProcessCall.zwClose k.opened.handle]
      else []).count (.zwClose h) =
        if k.opened.handle ≠ 0 ∧ h = k.opened.handle then 1 else 0 := by
    by_cases hzero : k.opened.handle = 0
    · simp [hzero]
    · by_cases hsame : h = k.opened.handle
      · simp [hzero, hsame]
      · simp [hzero, hsame, Ne.symm hsame]
  rw [getProcessName]
  split
  · rename_i hnull
    simp [hnull]
  · rename_i hproc
    split
    · rw [closeHandle_events _ _ _ rfl, List.count_append, hclose]
      simp [hproc]
    · rw [closeHandle_events _ _ _ rfl, List.count_append, hclose]
      simp [hproc]

theorem query_of_success (hkept : k.FailureKept proc)
    (h : ntSuccess (getProcessName proc k).status = true) :
    ntSuccess k.query.status = true ∧ (getProcessName proc k).name = some path := by
  obtain ⟨hproc, hopened, hlast⟩ := (getProcessName_status proc k).mp h
  have hquery : ntSuccess k.query.status = true := by
    split at hlast
    · rename_i hhandle
      simpa [NameCalls.FailureKept, hproc, hopened, hhandle, hlast] using hkept
    · exact hlast
  refine ⟨hquery, ?_⟩
  rw [getProcessName_name proc k hproc hopened]
  exact k.query.filled hquery

theorem success_of_lost (hlost : ¬ k.FailureKept proc) :
    ntSuccess (getProcessName proc k).status = true ∧ ntSuccess k.query.status = false := by
  simp only [NameCalls.FailureKept, not_or, Bool.not_eq_false, Bool.not_eq_true] at hlost
  obtain ⟨hproc, hopened, hquery, hhandle, hclose⟩ := hlost
  refine ⟨(getProcessName_status proc k).mpr ⟨hproc, hopened, ?_⟩, hquery⟩
  rw [if_pos hhandle]
  exact hclose

theorem nameReported_iff : NameReported proc k ↔ k.FailureKept proc := by
  refine ⟨?_, ?_⟩
  · intro h
    by_contra hlost
    obtain ⟨hsuccess, hquery⟩ := success_of_lost proc k hlost
    rw [(h.success hsuccess).1] at hquery
    contradiction
  · intro hkept
    exact ⟨query_of_success proc k hkept, getProcessName_closes proc k⟩

theorem getProcessName_completes : (getProcessName proc k).trace.completes = true := by
  have hclose (r : NameResult) (hr : r.trace.completes = true) :
      (closeHandle k.opened.handle k.closeStatus r).trace.completes = true := by
    rw [closeHandle]
    split
    · simp [hr]
    · exact hr
  rw [getProcessName]
  split
  · rfl
  · split
    · exact hclose _ rfl
    · exact hclose _ rfl

end

/-! ## The callback -/

section Callback
variable {path : List UInt16} (proc : UInt64) (k : NameCalls path Const.procNameLen)

theorem reportLaunch_all_iff (name : Option (List UInt16)) (file : CiOutcome) :
    (reportLaunch name file).All (NotifyEvent.Filled k) ↔
      ntSuccess k.query.status = true ∧ name = some path := by
  have hcert : ((printCertInfo file).mapEvents .cert).All (NotifyEvent.Filled k) :=
    (Trace.all_mapEvents _).mpr fun _ _ => trivial
  rw [reportLaunch, Trace.all_andThen_iff fun _ => rfl, Trace.all_andThen_iff fun _ => rfl,
    and_iff_left hcert]
  simp only [Trace.All, List.forall_mem_singleton, NotifyEvent.Filled]
  exact and_iff_left_of_imp And.left

/-- The callback reads the name exactly when success is reported, and what it
reads is what the buffer then holds. -/
theorem processNotifyCB_all_iff (file : CiOutcome) :
    (processNotifyCB proc (some file) true k).All (NotifyEvent.Filled k) ↔
      (ntSuccess (getProcessName proc k).status = true →
        ntSuccess k.query.status = true ∧ (getProcessName proc k).name = some path) := by
  have hcalls : ((getProcessName proc k).trace.mapEvents .call).All (NotifyEvent.Filled k) :=
    (Trace.all_mapEvents _).mpr fun _ _ => trivial
  have hends : ((getProcessName proc k).trace.mapEvents NotifyEvent.call).completes = true :=
    getProcessName_completes proc k
  have hallocate : ({ events := [.allocate] } : Trace NotifyEvent (List Char)).All
      (NotifyEvent.Filled k) := List.forall_mem_singleton.mpr trivial
  have hfree : ({ events := [.free] } : Trace NotifyEvent (List Char)).All
      (NotifyEvent.Filled k) := List.forall_mem_singleton.mpr trivial
  simp only [processNotifyCB, if_true]
  rw [Trace.all_andThen_iff fun _ => rfl, and_iff_right hallocate,
    Trace.all_andThen_iff fun _ => hends, and_iff_right hcalls]
  split
  · rename_i hsuccess
    rw [forall_prop_of_true hsuccess, ← reportLaunch_all_iff k _ file]
    exact ⟨Trace.All.of_andThen, fun h => h.andThen hfree⟩
  · rename_i hfailure
    refine iff_of_true ?_ fun h => absurd h hfailure
    exact (Trace.all_silent _ _).andThen hfree

def NameUsed (info : Option CiOutcome) (allocated : Bool) : Prop :=
  (processNotifyCB proc info allocated k).All (NotifyEvent.Filled k)

theorem nameUsed_iff (info : Option CiOutcome) (allocated : Bool) :
    NameUsed proc k info allocated ↔ info = none ∨ allocated = false ∨ k.FailureKept proc := by
  have hsilent : ({ events := [.allocate] } : Trace NotifyEvent (List Char)).All
      (NotifyEvent.Filled k) := List.forall_mem_singleton.mpr trivial
  rw [NameUsed]
  cases info with
  | none => exact iff_of_true (Trace.all_silent _ _) (Or.inl rfl)
  | some file =>
      cases allocated with
      | false => exact iff_of_true hsilent (Or.inr (Or.inl rfl))
      | true =>
          rw [processNotifyCB_all_iff, ← nameReported_iff]
          simp only [reduceCtorEq, false_or]
          refine ⟨?_, NameReported.success⟩
          intro h
          exact ⟨h, getProcessName_closes proc k⟩

end Callback

/-- Both halves: what the function reports, whatever the buffer's size, and what
the callback makes of it. -/
theorem name_trusted_iff (path : List UInt16) (proc : UInt64) :
    (∀ (bufSize : UInt32) (k : NameCalls path bufSize),
      NameReported proc k ↔ k.FailureKept proc) ∧
    ∀ (k : NameCalls path Const.procNameLen) (info : Option CiOutcome) (allocated : Bool),
      NameUsed proc k info allocated ↔
        info = none ∨ allocated = false ∨ k.FailureKept proc :=
  ⟨fun _ => nameReported_iff proc, nameUsed_iff proc⟩

/-! A path of 2040 characters, the shortest that the buffer of one page cannot
hold: the query fails, the handle is closed. -/

def longPath : List UInt16 := List.replicate 2040 0x41

def longPathCalls : NameCalls longPath Const.procNameLen where
  opened := { status := NtStatus.success, handle := 0x80000ABC, failed := by decide }
  query := {
    status := NtStatus.infoLengthMismatch
    name := none
    filled := by decide
    tooLong := fun _ => ⟨by decide, rfl⟩ }
  closeStatus := NtStatus.success

theorem longPath_lost :
    Const.procNameLen.toNat < imageNameSize longPath ∧
      (getProcessName 1 longPathCalls).status = NtStatus.success ∧
      (getProcessName 1 longPathCalls).name = none ∧ ¬ NameReported 1 longPathCalls ∧
      ∀ file, ¬ NameUsed 1 longPathCalls (some file) true := by
  have hstatus : (getProcessName 1 longPathCalls).status = NtStatus.success := rfl
  have hname : (getProcessName 1 longPathCalls).name = none := rfl
  have hwrong : ¬ (ntSuccess (getProcessName 1 longPathCalls).status = true →
      ntSuccess longPathCalls.query.status = true ∧
        (getProcessName 1 longPathCalls).name = some longPath) := by
    rw [hstatus, hname]
    intro h
    exact Option.some_ne_none _ (h rfl).2.symm
  refine ⟨?_, hstatus, hname, fun h => hwrong h.success, ?_⟩
  · rw [imageNameSize, longPath, List.length_replicate]
    decide
  · intro file h
    exact hwrong ((processNotifyCB_all_iff 1 longPathCalls file).mp h)

end WdmTest.DigitalSign
