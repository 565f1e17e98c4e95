import WdmTest.Lib.Ledger
import WdmTest.Lib.Transition
import WdmTest.DigitalSign.CertChain
import WdmTest.DigitalSign.ProcessName

/-!
The life of WDMDigitalSignCheckTest: loading, process notifications that run side
by side, and unloading. Where the callback runs is decided by the registration in
`DriverEntry` and its removal in `DriverUnload`; the removal waits for callbacks
that are under way, as the kernel documents. The driver can be loaded again
afterwards, with its globals as the image has them.

A callback that leaves an array (a name copy, a printed name without a terminator, a
digest read) is undefined from there on and not followed any further, so what is said
of unloading is about drivers without such a callback.
-/
namespace WdmTest.DigitalSign
open Ledger Transition

/-- One call of the callback: its process and what the calls it makes answer. -/
structure Notification where
  path : List UInt16
  proc : UInt64
  info : Option CiOutcome
  allocated : Bool
  calls : NameCalls path Const.procNameLen

structure CallbackEvent where
  notification : Notification
  event : NotifyEvent

def Notification.trace (n : Notification) : Trace CallbackEvent (List Char) :=
  (processNotifyCB n.proc n.info n.allocated n.calls).mapEvents (CallbackEvent.mk n)

/-- Pool blocks: a failed allocation takes none. -/
def CallbackEvent.blocks (e : CallbackEvent) : Int :=
  match e.event with
  | .allocate => if e.notification.allocated then 1 else 0
  | .free => -1
  | .call _ | .readName _ | .printCertInfo | .cert _ => 0

/-- Handles of processes: a failed open leaves none. -/
def CallbackEvent.handles (e : CallbackEvent) : Int :=
  match e.event with
  | .call (.refObjectByPtr _) => if e.notification.calls.opened.handle ≠ 0 then 1 else 0
  | .call (.zwClose _) => -1
  | .call (.queryImageFileName _ _) | .allocate | .readName _ | .printCertInfo | .cert _
  | .free => 0

/-! ## The driver -/

inductive Phase where
  | absent
  | loaded
  | unloading
deriving DecidableEq, Repr

/-- The image with its global, what the kernel knows of it, and its callbacks. -/
structure Driver where
  phase : Phase
  zwQueryInformationProcess : UInt64
  driverUnload : Bool
  notifyRoutine : Bool
  callbacks : Pool CallbackEvent
  output : List (List Char)

def initial : Driver where
  phase := .absent
  zwQueryInformationProcess := 0
  driverUnload := false
  notifyRoutine := false
  callbacks := {}
  output := []

@[simps] def Driver.printKdMsg (d : Driver) (text : List Char) : Driver :=
  { d with output := d.output ++ [text] }

def loadUndocumentKernelAPI (address : UInt64) (apiName : List Char) (d : Driver) :
    Bool × Driver :=
  let d := { d with zwQueryInformationProcess := address }
  if address = 0 then
    (false, d.printKdMsg ("Cannot resolve API (".toList ++ apiName ++ ") address\n".toList))
  else (true, d)

/-- `address` is what `MmGetSystemRoutineAddress` finds, `registered` what
`PsSetCreateProcessNotifyRoutineEx` returns. -/
def driverEntry (address : UInt64) (registered : NtStatus) (d : Driver) : NtStatus × Driver :=
  let (ok, d) := loadUndocumentKernelAPI address "ZwQueryInformationProcess".toList d
  if ok then
    let d := { d with driverUnload := true }.printKdMsg "[Roy] DriverEntry!\n".toList
    (registered, { d with notifyRoutine := ntSuccess registered })
  else
    (NtStatus.unsuccessful, d.printKdMsg "[Roy] ZwQueryInformationProcess() not found!\n".toList)

inductive Action where
  | load (address : UInt64) (registered : NtStatus)
  | notify (n : Notification)
  | advance (i : Nat)
  | driverUnload
  | removed

/-- An image is loaded with its globals zeroed and dropped again when the entry
fails. `DriverUnload` returns once the removal of the callback has. -/
def step (d : Driver) : Action → Option Driver
  | .load address registered =>
      if d.phase = .absent then
        let (status, d) := driverEntry address registered
          { d with zwQueryInformationProcess := 0, driverUnload := false, notifyRoutine := false }
        some { d with phase := if ntSuccess status then .loaded else .absent }
      else none
  | .notify n =>
      if d.notifyRoutine = true then some { d with callbacks := d.callbacks.start n.trace }
      else none
  | .advance i => (d.callbacks.advance i).map fun p => { d with callbacks := p }
  | .driverUnload =>
      if d.phase = .loaded ∧ d.driverUnload = true then
        some { d with phase := .unloading, notifyRoutine := false }
      else none
  | .removed =>
      if d.phase = .unloading ∧ d.callbacks.idle = true then
        some { d.printKdMsg "[Roy] DriverUnload!\n".toList with phase := .absent }
      else none

def Driver.blocks (d : Driver) : Int := held CallbackEvent.blocks d.callbacks.log

def Driver.handles (d : Driver) : Int := held CallbackEvent.handles d.callbacks.log

/-! ## One callback -/

section Callback
variable {path : List UInt16} {w : NotifyEvent → Int}

theorem reportLaunch_still (hread : ∀ name, w (.readName name) = 0) (hprint : w .printCertInfo = 0)
    (hcert : ∀ a, w (.cert a) = 0) (name : Option (List UInt16)) (file : CiOutcome) :
    (reportLaunch name file).All fun e => w e = 0 := by
  have hname : Trace.All (fun e => w e = 0)
      (⟨[.readName name], [launchLine name], true⟩ : Trace NotifyEvent (List Char)) :=
    List.forall_mem_singleton.mpr (hread name)
  have hcall : Trace.All (fun e => w e = 0)
      (⟨[.printCertInfo], [], true⟩ : Trace NotifyEvent (List Char)) :=
    List.forall_mem_singleton.mpr hprint
  exact hname.andThen (hcall.andThen ((Trace.all_mapEvents _).mpr fun a _ => hcert a))

/-- The callback moves what allocating, the calls of `GetProcessName` and freeing
move, one behind the other. -/
theorem processNotifyCB_moves {cap h : Int} (hcap : 0 ≤ h ∧ h ≤ cap) {proc : UInt64}
    {k : NameCalls path Const.procNameLen} (halloc : w .allocate = h) (hfree : w .free = -h)
    (hcalls : Moves (fun c => w (.call c)) cap h h (getProcessName proc k).trace)
    (hread : ∀ name, w (.readName name) = 0) (hprint : w .printCertInfo = 0)
    (hcert : ∀ a, w (.cert a) = 0) (file : CiOutcome) :
    Moves w cap 0 0 (processNotifyCB proc (some file) true k) := by
  have hzero : (0 : Int) ≤ 0 ∧ 0 ≤ cap := by omega
  have htake : Moves w cap 0 h (⟨[.allocate], [], true⟩ : Trace NotifyEvent (List Char)) :=
    moves_event hzero (by rw [halloc, Int.zero_add]) hcap
  have hgive : Moves w cap h 0 (⟨[.free], [], true⟩ : Trace NotifyEvent (List Char)) :=
    moves_event hcap (by rw [hfree, Int.add_right_neg]) hzero
  have hreport : Moves w cap h h (if ntSuccess (getProcessName proc k).status then
      reportLaunch (getProcessName proc k).name file else {}) := by
    split
    · exact moves_still (reportLaunch_still hread hprint hcert _ file) hcap
    · exact moves_silent _ _ hcap
  simp only [processNotifyCB, if_true]
  exact htake.andThen (hcalls.mapEvents.andThen (hreport.andThen hgive))

variable {v : ProcessCall → Int}

theorem closeHandle_moves {handle : UInt64} {closeStatus : NtStatus} {r : NameResult}
    (hclose : ∀ h, v (.zwClose h) = -1)
    (hr : Moves v 1 0 (if handle ≠ 0 then 1 else 0) r.trace) :
    Moves v 1 0 0 (closeHandle handle closeStatus r).trace := by
  rw [closeHandle]
  split
  · rename_i hopen
    rw [if_pos hopen] at hr
    refine hr.andThen (moves_event (by decide) ?_ (by decide))
    rw [hclose]
    rfl
  · rename_i hnone
    rw [if_neg hnone] at hr
    exact hr

theorem getProcessName_moves {k : NameCalls path Const.procNameLen}
    (hopen : ∀ p, v (.refObjectByPtr p) = if k.opened.handle ≠ 0 then 1 else 0)
    (hquery : ∀ h size, v (.queryImageFileName h size) = 0) (hclose : ∀ h, v (.zwClose h) = -1)
    (proc : UInt64) : Moves v 1 0 0 (getProcessName proc k).trace := by
  have hheld : 0 ≤ v (.refObjectByPtr proc) ∧ v (.refObjectByPtr proc) ≤ 1 := by
    rw [hopen]
    split <;> decide
  rw [getProcessName]
  split
  · exact moves_silent _ _ (by decide)
  · split
    · apply closeHandle_moves hclose
      rw [← hopen proc]
      refine ⟨⟨by decide, ?_⟩, ?_⟩
      · simpa [Within, hquery] using hheld
      · simp [hquery]
    · apply closeHandle_moves hclose
      rw [← hopen proc]
      refine moves_event (by decide) (Int.zero_add _) hheld

end Callback

theorem Notification.blocks_moves (n : Notification) :
    Moves CallbackEvent.blocks 1 0 0 n.trace := by
  apply Moves.mapEvents
  cases hinfo : n.info with
  | none => exact moves_silent _ _ (by decide)
  | some file =>
      cases hallocated : n.allocated with
      | false =>
          refine moves_still ?_ (by decide)
          intro e he
          rw [List.mem_singleton.mp he]
          simp [CallbackEvent.blocks, hallocated]
      | true =>
          refine processNotifyCB_moves (h := 1) (by decide) ?_ rfl ?_ (fun _ => rfl) rfl
            (fun _ => rfl) file
          · simp [CallbackEvent.blocks, hallocated]
          · exact moves_still (fun _ _ => rfl) (by decide)

theorem Notification.handles_moves (n : Notification) :
    Moves CallbackEvent.handles 1 0 0 n.trace := by
  apply Moves.mapEvents
  cases n.info with
  | none => exact moves_silent _ _ (by decide)
  | some file =>
      cases n.allocated with
      | false =>
          refine moves_still ?_ (by decide)
          intro e he
          rw [List.mem_singleton.mp he]
          rfl
      | true =>
          refine processNotifyCB_moves (h := 0) (by decide) rfl rfl ?_ (fun _ => rfl) rfl
            (fun _ => rfl) file
          exact getProcessName_moves (fun _ => rfl) (fun _ _ => rfl) (fun _ => rfl) n.proc

/-- Printing the certificates of the process, if it comes to that, leaves no array. -/
def Notification.Ends (n : Notification) : Prop :=
  ∀ file ∈ n.info, n.allocated = true → ntSuccess (getProcessName n.proc n.calls).status = true →
    (printCertInfo file).completes = true

theorem Notification.Ends.completes {n : Notification} (h : n.Ends) :
    n.trace.completes = true := by
  have hcalls : ((getProcessName n.proc n.calls).trace.mapEvents NotifyEvent.call).completes =
      true := getProcessName_completes n.proc n.calls
  change (processNotifyCB n.proc n.info n.allocated n.calls).completes = true
  cases hinfo : n.info with
  | none => rfl
  | some file =>
      cases hallocated : n.allocated with
      | false => rfl
      | true =>
          have hcert : ((printCertInfo file).mapEvents NotifyEvent.cert).completes =
              (printCertInfo file).completes := rfl
          simp only [processNotifyCB, if_true, Trace.completes_andThen, hcalls, Bool.true_and,
            Bool.and_true]
          split
          · rename_i hsuccess
            have hprinted := h file hinfo hallocated hsuccess
            simp only [reportLaunch, Trace.completes_andThen, hcert, hprinted, Bool.and_true]
          · rfl

theorem printCertInfo_completes {o : CiOutcome} (hsize : o.digestSize ≤ 64) (h : o.NamesFit) :
    (printCertInfo o).completes = true := by
  unfold printCertInfo
  split
  · rename_i hstatus
    cases hchain : o.signerPolicy.certChain with
    | none => rfl
    | some chain =>
        have hrounds : ∀ t ∈ (List.range chain.numberOfCertChainMembers.toInt.toNat).map fun i =>
            printMember o.digestSize i (chain.certChainMembers i), t.completes = true := by
          intro t ht
          obtain ⟨i, hi, rfl⟩ := List.mem_map.mp ht
          exact printMember_completes hsize i (h hstatus chain hchain i (List.mem_range.mp hi))
        simp only [Trace.completes_andThen, printChain, Trace.completes_seq hrounds, Bool.and_true]
  · rfl

/-! ## Runs -/

/-- What holds at any time. -/
structure Driver.Sound (d : Driver) : Prop where
  blocks : d.callbacks.Sound CallbackEvent.blocks 1
  handles : d.callbacks.Sound CallbackEvent.handles 1
  registered : d.notifyRoutine = true → d.phase = .loaded
  resolved : d.phase ≠ .absent → d.zwQueryInformationProcess ≠ 0
  absent : d.phase = .absent → d.callbacks.idle = true

section Steps
variable {d e : Driver}

theorem initial_sound : initial.Sound where
  blocks := pool_empty_sound _ _
  handles := pool_empty_sound _ _
  registered := nofun
  resolved := fun h => absurd rfl h
  absent := fun _ => rfl

/-- The entry succeeds exactly when it leaves the callback registered, and then it
has resolved the routine. -/
theorem driverEntry_spec (address : UInt64) (registered : NtStatus)
    (hd : d.notifyRoutine = false) :
    (driverEntry address registered d).2.callbacks = d.callbacks ∧
      (driverEntry address registered d).2.notifyRoutine =
        ntSuccess (driverEntry address registered d).1 ∧
      (ntSuccess (driverEntry address registered d).1 = true →
        (driverEntry address registered d).2.zwQueryInformationProcess ≠ 0) := by
  by_cases haddress : address = 0
  · have hfailed : ntSuccess NtStatus.unsuccessful = false := by decide
    simp [driverEntry, loadUndocumentKernelAPI, haddress, hfailed, hd]
  · simp [driverEntry, loadUndocumentKernelAPI, haddress]

theorem Driver.Sound.load (h : d.Sound) {address : UInt64} {registered : NtStatus}
    (hstep : DigitalSign.step d (.load address registered) = some e) : e.Sound := by
  simp only [DigitalSign.step, Option.ite_none_right_eq_some, Option.some.injEq] at hstep
  obtain ⟨habsent, rfl⟩ := hstep
  obtain ⟨hsame, hnotify, hresolved⟩ := driverEntry_spec (d := { d with
    zwQueryInformationProcess := 0, driverUnload := false, notifyRoutine := false })
    address registered rfl
  refine ⟨?_, ?_, ?_, ?_, ?_⟩
  · rw [hsame]
    exact h.blocks
  · rw [hsame]
    exact h.handles
  · intro hregistered
    rw [hnotify] at hregistered
    rw [if_pos hregistered]
  · intro hphase
    apply hresolved
    by_contra hfailed
    rw [if_neg hfailed] at hphase
    exact hphase rfl
  · intro _
    rw [hsame]
    exact h.absent habsent

theorem Driver.Sound.step (h : d.Sound) {a : Action} (hstep : DigitalSign.step d a = some e) :
    e.Sound := by
  cases a with
  | load address registered => exact h.load hstep
  | notify n =>
      simp only [DigitalSign.step, Option.ite_none_right_eq_some, Option.some.injEq] at hstep
      obtain ⟨hregistered, rfl⟩ := hstep
      have hloaded := h.registered hregistered
      exact ⟨h.blocks.start n.blocks_moves, h.handles.start n.handles_moves, h.registered,
        h.resolved, fun habsent => absurd (hloaded.symm.trans habsent) (by decide)⟩
  | advance i =>
      obtain ⟨p, hp, rfl⟩ := Option.map_eq_some_iff.mp hstep
      refine ⟨h.blocks.advance hp, h.handles.advance hp, h.registered, h.resolved, ?_⟩
      intro habsent
      rw [Pool.advance_of_idle (h.absent habsent)] at hp
      cases hp
  | driverUnload =>
      simp only [DigitalSign.step, Option.ite_none_right_eq_some, Option.some.injEq] at hstep
      obtain ⟨⟨hloaded, -⟩, rfl⟩ := hstep
      refine ⟨h.blocks, h.handles, ?_, ?_, ?_⟩
      · intro hregistered
        cases hregistered
      · intro _
        exact h.resolved (by rw [hloaded]; decide)
      · intro habsent
        cases habsent
  | removed =>
      simp only [DigitalSign.step, Option.ite_none_right_eq_some, Option.some.injEq] at hstep
      obtain ⟨⟨hunloading, hidle⟩, rfl⟩ := hstep
      refine ⟨h.blocks, h.handles, ?_, ?_, ?_⟩
      · intro hregistered
        have hloaded := h.registered hregistered
        rw [hunloading] at hloaded
        cases hloaded
      · intro hphase
        exact absurd rfl hphase
      · intro _
        exact hidle

end Steps

def Reachable : Driver → Prop := Transition.Reachable step fun d => d = initial

theorem reachable_sound {d : Driver} (h : Reachable d) : d.Sound := by
  refine Transition.Reachable.invariant ?_ (fun _ _ _ hs hstep => Driver.Sound.step hs hstep) h
  rintro d rfl
  exact initial_sound

/-- Blocks and handles are never given back twice, no more of them are out than
callbacks are under way, and an absent driver has left none and runs nothing; a
callback that is under way calls through a resolved pointer. -/
theorem callbacks_accounted {d : Driver} (h : Reachable d) :
    (0 ≤ d.blocks ∧ d.blocks ≤ d.callbacks.active) ∧
      (0 ≤ d.handles ∧ d.handles ≤ d.callbacks.active) ∧
      (d.phase = .absent → d.blocks = 0 ∧ d.handles = 0 ∧ d.callbacks.idle = true) ∧
      (d.callbacks.idle = false → d.zwQueryInformationProcess ≠ 0) := by
  have hs := reachable_sound h
  refine ⟨?_, ?_, ?_, ?_⟩
  · have hbounds := hs.blocks.bounds
    rw [Int.one_mul] at hbounds
    exact hbounds
  · have hbounds := hs.handles.bounds
    rw [Int.one_mul] at hbounds
    exact hbounds
  · intro habsent
    have hidle := hs.absent habsent
    exact ⟨hs.blocks.idle hidle, hs.handles.idle hidle, hidle⟩
  · intro hbusy
    apply hs.resolved
    intro habsent
    rw [hs.absent habsent] at hbusy
    cases hbusy

/-! ## Unloading -/

/-- The notification an action delivers. -/
def Action.notified : Action → List Notification
  | .notify n => [n]
  | .load _ _ | .advance _ | .driverUnload | .removed => []

section Unloading
variable {d e : Driver}

theorem step_completes {a : Action} (hstep : step d a = some e) :
    e.callbacks.parties.map Party.completes =
      d.callbacks.parties.map Party.completes ++ a.notified.map fun n => n.trace.completes := by
  cases a with
  | load address registered =>
      simp only [step, Option.ite_none_right_eq_some, Option.some.injEq] at hstep
      obtain ⟨-, rfl⟩ := hstep
      rw [(driverEntry_spec address registered rfl).1]
      exact (List.append_nil _).symm
  | notify n =>
      simp only [step, Option.ite_none_right_eq_some, Option.some.injEq] at hstep
      obtain ⟨-, rfl⟩ := hstep
      exact List.map_append
  | advance i =>
      obtain ⟨p, hp, rfl⟩ := Option.map_eq_some_iff.mp hstep
      exact (Pool.advance_completes hp).trans (List.append_nil _).symm
  | driverUnload =>
      simp only [step, Option.ite_none_right_eq_some, Option.some.injEq] at hstep
      obtain ⟨-, rfl⟩ := hstep
      exact (List.append_nil _).symm
  | removed =>
      simp only [step, Option.ite_none_right_eq_some, Option.some.injEq] at hstep
      obtain ⟨-, rfl⟩ := hstep
      exact (List.append_nil _).symm

/-- The callbacks of a run are those of its notifications. -/
theorem run_completes {as : List Action} (hrun : run step initial as = some d) :
    d.callbacks.parties.map Party.completes =
      (as.flatMap Action.notified).map fun n => n.trace.completes := by
  have hall := run_history (f := fun _ a => a.notified) (C := fun _ _ => True)
    (P := fun (d : Driver) l => d.callbacks.parties.map Party.completes =
      l.map fun n => n.trace.completes) ?_ hrun (along_trivial _ _) (l := []) rfl
  · rw [history_of_actions hrun] at hall
    exact hall
  · intro u l a w hu _ hstep
    rw [step_completes hstep, hu, List.map_append]

/-- When every callback comes to its end the removal returns. -/
theorem exists_removed (hphase : d.phase = .unloading)
    (hcompletes : ∀ q ∈ d.callbacks.parties, q.completes = true) :
    ∃ bs e, run step d bs = some e ∧ e.phase = .absent := by
  refine exists_run_of_progress (P := fun u => u.phase = .absent ∨ u.phase = .unloading ∧
      ∀ c ∈ u.callbacks.parties.map Party.completes, c = true)
    (μ := fun u => u.callbacks.left + if u.phase = .unloading then 1 else 0) ?_
    (Or.inr ⟨hphase, List.forall_mem_map.mpr hcompletes⟩)
  intro u hu hnot
  obtain ⟨hunloading, hall⟩ := hu.resolve_left hnot
  cases hidle : u.callbacks.idle with
  | true =>
      refine ⟨.removed, { u.printKdMsg "[Roy] DriverUnload!\n".toList with phase := .absent },
        ?_, Or.inl rfl, ?_⟩
      · simp [step, hunloading, hidle]
      · simp [hunloading]
  | false =>
      obtain ⟨i, p, hp⟩ := Pool.exists_advance (List.forall_mem_map.mp hall) hidle
      have hleft := Pool.advance_left hp
      refine ⟨.advance i, { u with callbacks := p }, ?_, Or.inr ⟨hunloading, ?_⟩, ?_⟩
      · simp [step, hp]
      · rw [Pool.advance_completes hp]
        exact hall
      · simp only
        omega

end Unloading

/-- However the callbacks of a run interleave, a driver that is being unloaded can go,
unless a process was reported whose callback leaves an array. -/
theorem unload_returns {d : Driver} {as : List Action} (hrun : run step initial as = some d)
    (hphase : d.phase = .unloading) (hends : ∀ n ∈ as.flatMap Action.notified, n.Ends) :
    ∃ bs e, run step d bs = some e ∧ e.phase = .absent := by
  apply exists_removed hphase
  have hcompletes : ∀ c ∈ d.callbacks.parties.map Party.completes, c = true := by
    rw [run_completes hrun, List.forall_mem_map]
    intro n hn
    exact (hends n hn).completes
  exact List.forall_mem_map.mp hcompletes

theorem reported_opened : ntSuccess NtStatus.success = false → (0x80000ABC : UInt64) = 0 := by
  decide

theorem shortPath_fits : ¬ Const.procNameLen.toNat < imageNameSize [0x41] := by decide

/-- A process of which everything is known, signed with the given certificates. -/
def reported (file : CiOutcome) : Notification where
  path := [0x41]
  proc := 0xFFFFA50000002000
  info := some file
  allocated := true
  calls := {
    opened := {
      status := NtStatus.success
      handle := 0x80000ABC
      failed := reported_opened }
    query := {
      status := NtStatus.success
      name := some [0x41]
      filled := fun _ => rfl
      tooLong := fun h => absurd h shortPath_fits }
    closeStatus := NtStatus.success }

/-- Loaded, two processes reported, the first callback half way, then unloaded. -/
def unloadedInTheMiddle : List Action :=
  [.load 0xFFFFF80000001000 NtStatus.success, .notify (reported (singleMember 63)),
    .notify (reported (singleMember 63)), .advance 0, .advance 0, .advance 1, .driverUnload]

theorem callbacks_accounted_inTheMiddle :
    ∃ d, run step initial unloadedInTheMiddle = some d ∧
      (0 ≤ d.blocks ∧ d.blocks ≤ d.callbacks.active) ∧
      (0 ≤ d.handles ∧ d.handles ≤ d.callbacks.active) ∧
      (d.phase = .absent → d.blocks = 0 ∧ d.handles = 0 ∧ d.callbacks.idle = true) ∧
      (d.callbacks.idle = false → d.zwQueryInformationProcess ≠ 0) :=
  ⟨_, rfl, callbacks_accounted ⟨initial, unloadedInTheMiddle, rfl, rfl⟩⟩

theorem singleMember_namesFit : (singleMember 63).NamesFit := by
  have hissuer : CertPartyName.Fits { namePtr := fun _ => 0x49, nameLen := 63 } :=
    ⟨by decide, by decide⟩
  have hsubject : CertPartyName.Fits { namePtr := fun _ => 0x53, nameLen := 20 } :=
    ⟨by decide, by decide⟩
  intro _ chain hchain i _
  cases hchain
  exact ⟨hissuer, hsubject⟩

theorem unload_returns_inTheMiddle :
    ∃ d, run step initial unloadedInTheMiddle = some d ∧
      ∃ bs e, run step d bs = some e ∧ e.phase = .absent := by
  refine ⟨_, rfl, @unload_returns _ unloadedInTheMiddle rfl rfl ?_⟩
  intro n hn file hfile _ _
  simp only [unloadedInTheMiddle, List.flatMap_cons, Action.notified, List.nil_append,
    List.cons_append, List.flatMap_nil, List.mem_cons, List.not_mem_nil, or_false, or_self] at hn
  rw [hn] at hfile
  cases hfile
  exact printCertInfo_completes (by decide) singleMember_namesFit

end WdmTest.DigitalSign
