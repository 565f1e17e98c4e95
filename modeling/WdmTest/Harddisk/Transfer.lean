import WdmTest.Harddisk.BufferDump
import WdmTest.Harddisk.BufferOwnership

/-!
What the dump of `DoTest` shows. While the device has the IRP it writes into the
buffer, byte by byte and in any order; `MyIoCompletion` prints the status of the
IRP when it is called, `DoTest` prints the buffer. In a run whose wait does not
give up early the dump is of what the device left, and that can be read back.

Of a run whose wait does give up nothing is said here.
-/
namespace WdmTest.Harddisk
open Readback Transition

namespace Const
/-- A quarter of a page. -/
def readSize : UInt32 := 1024
end Const

abbrev Buffer := Vector UInt8 Const.readSize.toNat

abbrev Offset := Fin Const.readSize.toNat

theorem readSize_ne_zero : Const.readSize.toNat ≠ 0 := by decide

instance : NeZero Const.readSize.toNat := ⟨readSize_ne_zero⟩

structure Transfer where
  base : State
  address : UInt64
  buffer : Buffer
  output : List (List Char)

/-- The pool block has some contents before it is zeroed. -/
def start (now : Int) (address : UInt64) (buffer : Buffer) : Transfer where
  base := initial now
  address := address
  buffer := buffer
  output := []

def completionLine (status : NtStatus) : List Char :=
  "MyIoCompletion IRP status(".toList ++ Decimal.ofInt status.toInt ++ ")\n".toList

def zeroed : Buffer := Vector.replicate _ 0

/-- `PrintBufferContent` of the whole buffer, which takes a round for each row. -/
def dumpLines (address : UInt64) (buffer : Buffer) : List (List Char) :=
  (printBufferContent address buffer.toList Const.readSize 65).elim [] Trace.output

/-- What the statements of `DoTest` do with the buffer. -/
def Transfer.after (s : Transfer) (a : Action) (t : State) : Transfer :=
  match a, s.base.doTest with
  | .doTest, .preparing => { s with base := t, buffer := zeroed }
  | .doTest, .printing => { s with base := t, output := s.output ++ dumpLines s.address s.buffer }
  | _, _ => { s with base := t }

inductive TransferAction where
  | base (a : Action)
  | complete (status : NtStatus)
  | write (offset : Offset) (value : UInt8)
deriving DecidableEq, Repr

def transferStep (openStatus : NtStatus) (s : Transfer) : TransferAction → Option Transfer
  | .base a =>
      if a = .complete then none else (step openStatus s.base a).map (s.after a)
  | .complete status =>
      (step openStatus s.base .complete).map fun t =>
        { s with base := t, output := s.output ++ [completionLine status] }
  | .write offset value =>
      if s.base.irp = true ∧ s.base.completion = .notCalled then
        some { s with buffer := s.buffer.set offset value }
      else none

def TransferAction.writes : TransferAction → List (Offset × UInt8)
  | .write offset value => [(offset, value)]
  | .base _ | .complete _ => []

def TransferAction.statuses : TransferAction → List NtStatus
  | .complete status => [status]
  | .base _ | .write _ _ => []

/-- A zeroed buffer after some writes. -/
def contents (writes : List (Offset × UInt8)) : Buffer :=
  writes.foldl (fun buffer w => buffer.set w.1 w.2) zeroed

def TimelyTransfer (s : Transfer) (a : TransferAction) : Prop :=
  a = .base .waitTimeout → s.base.Completed

/-! ## The dump -/

theorem dumpLines_eq (address : UInt64) (buffer : Buffer) :
    dumpLines address buffer = headerLine :: bufferRows address buffer.toList := by
  have hlen : buffer.toList.length = Const.readSize.toNat := Vector.length_toList
  have hrows : (0 : UInt32).toNat + Const.rowLength * 64 = Const.readSize.toNat := by decide
  obtain ⟨t, ht, hdoes⟩ := dumpLoop_does address hlen rfl hrows (Nat.lt_succ_self 64)
  have hcount : (buffer.toList.length + (Const.rowLength - 1)) / Const.rowLength = 64 := by
    rw [hlen]
    decide
  have hall := ((Trace.does_silent [headerLine]).andThen hdoes).output
  rw [dumpLines, printBufferContent, ht, bufferRows, hcount]
  simp only [UInt32.toNat_zero, Nat.zero_add] at hall
  exact hall

/-! ## Runs -/

def DoTestPc.Started (pc : DoTestPc) : Prop := pc ≠ .opening ∧ pc ≠ .preparing

def DoTestPc.Printed (pc : DoTestPc) : Prop := pc = .freeing ∨ pc = .returned

instance : DecidablePred DoTestPc.Printed :=
  fun pc => inferInstanceAs (Decidable (pc = .freeing ∨ pc = .returned))

/-- The buffer of a transfer and what it printed, after some actions. -/
structure Transfer.Sound (s : Transfer) (as : List TransferAction) : Prop where
  idle : ¬ s.base.doTest.Started → s.base.irp = false ∧ s.base.completion = .notCalled ∧
    as.flatMap TransferAction.writes = []
  contents : s.base.doTest.Started → s.buffer = contents (as.flatMap TransferAction.writes)
  reported : s.base.completion = .notCalled →
    as.flatMap TransferAction.statuses = [] ∧ s.output = []
  printed : s.base.completion ≠ .notCalled → ∃ status,
    as.flatMap TransferAction.statuses = [status] ∧ s.output = completionLine status ::
      if s.base.doTest.Printed then dumpLines s.address s.buffer else []
  signalled : s.base.ioEvent = true → s.base.Completed
  released : s.base.UsesBuffer ∨ s.base.doTest = .returned → s.base.Completed

section Steps
variable {openStatus : NtStatus} {s t : Transfer} {as : List TransferAction}

theorem writes_append (as bs : List TransferAction) :
    (as ++ bs).flatMap TransferAction.writes =
      as.flatMap TransferAction.writes ++ bs.flatMap TransferAction.writes :=
  List.flatMap_append

theorem statuses_append (as bs : List TransferAction) :
    (as ++ bs).flatMap TransferAction.statuses =
      as.flatMap TransferAction.statuses ++ bs.flatMap TransferAction.statuses :=
  List.flatMap_append

theorem base_writes (as : List TransferAction) (a : Action) :
    (as ++ [TransferAction.base a]).flatMap TransferAction.writes =
      as.flatMap TransferAction.writes := by
  rw [writes_append]
  exact List.append_nil _

theorem base_statuses (as : List TransferAction) (a : Action) :
    (as ++ [TransferAction.base a]).flatMap TransferAction.statuses =
      as.flatMap TransferAction.statuses := by
  rw [statuses_append]
  exact List.append_nil _

/-- A step that leaves the buffer and the output alone. -/
theorem Transfer.Sound.frame (h : s.Sound as) (a : Action) {u : State}
    (hidle : ¬ u.doTest.Started → ¬ s.base.doTest.Started ∧ u.irp = s.base.irp)
    (hstarted : u.doTest.Started → s.base.doTest.Started)
    (hcompletion : u.completion = .notCalled ↔ s.base.completion = .notCalled)
    (hprinted : u.doTest.Printed ↔ s.base.doTest.Printed)
    (hsignalled : u.ioEvent = true → u.Completed)
    (hreleased : u.UsesBuffer ∨ u.doTest = .returned → u.Completed) :
    Transfer.Sound { s with base := u } (as ++ [.base a]) := by
  refine ⟨?_, ?_, ?_, ?_, hsignalled, hreleased⟩
  · intro hnot
    obtain ⟨hnot', hirp⟩ := hidle hnot
    obtain ⟨hfalse, hcalled, hwrites⟩ := h.idle hnot'
    exact ⟨hirp.trans hfalse, hcompletion.mpr hcalled, (base_writes as a).trans hwrites⟩
  · intro hstart
    rw [base_writes]
    exact h.contents (hstarted hstart)
  · intro hnot
    rw [base_statuses]
    exact h.reported (hcompletion.mp hnot)
  · intro hcalled
    obtain ⟨status, hstatus, houtput⟩ := h.printed fun hnot => hcalled (hcompletion.mpr hnot)
    refine ⟨status, (base_statuses as a).trans hstatus, ?_⟩
    simp only [hprinted]
    exact houtput

theorem Transfer.Sound.write (h : s.Sound as) {offset : Offset} {value : UInt8}
    (hstep : transferStep openStatus s (.write offset value) = some t) :
    t.Sound (as ++ [.write offset value]) := by
  simp only [transferStep, Option.ite_none_right_eq_some, Option.some.injEq] at hstep
  obtain ⟨⟨hirp, hnot⟩, rfl⟩ := hstep
  have hstarted : s.base.doTest.Started := by
    by_contra hidle
    rw [(h.idle hidle).1] at hirp
    cases hirp
  refine ⟨fun hidle => absurd hstarted hidle, ?_, ?_, fun hcalled => absurd hnot hcalled,
    h.signalled, h.released⟩
  · intro _
    rw [writes_append, Harddisk.contents, List.foldl_append, h.contents hstarted]
    rfl
  · intro _
    rw [statuses_append, (h.reported hnot).1]
    exact ⟨rfl, (h.reported hnot).2⟩

theorem Transfer.Sound.complete (h : s.Sound as) {status : NtStatus}
    (hstep : transferStep openStatus s (.complete status) = some t) :
    t.Sound (as ++ [.complete status]) := by
  obtain ⟨u, hu, rfl⟩ := Option.map_eq_some_iff.mp hstep
  simp only [Harddisk.step, Option.ite_none_right_eq_some, Option.some.injEq] at hu
  obtain ⟨⟨hirp, hnot⟩, rfl⟩ := hu
  have hnone : ¬ s.base.Completed := by
    intro hcompleted
    cases hnot.symm.trans hcompleted
  have hstarted : s.base.doTest.Started := by
    by_contra hidle
    rw [(h.idle hidle).1] at hirp
    cases hirp
  have hunprinted : ¬ s.base.doTest.Printed := by
    rintro (hfreeing | hreturned)
    · exact hnone (h.released (Or.inl (Or.inr hfreeing)))
    · exact hnone (h.released (Or.inr hreturned))
  refine ⟨fun hidle => absurd hstarted hidle, ?_, ?_, fun _ => ⟨status, ?_, ?_⟩, ?_, ?_⟩
  · intro _
    rw [writes_append]
    exact (h.contents hstarted).trans (congrArg Harddisk.contents (List.append_nil _).symm)
  · intro hnot'
    cases hnot'
  · rw [statuses_append, (h.reported hnot).1]
    rfl
  · rw [(h.reported hnot).2, if_neg hunprinted]
    rfl
  · exact fun hevent => absurd (h.signalled hevent) hnone
  · exact fun huses => absurd (h.released huses) hnone

/-- A statement of `DoTest`. -/
theorem Transfer.Sound.doTest (h : s.Sound as) (hopen : ntSuccess openStatus = true)
    (hstep : transferStep openStatus s (.base .doTest) = some t) :
    t.Sound (as ++ [.base .doTest]) := by
  obtain ⟨u, hu, rfl⟩ := Option.map_eq_some_iff.mp hstep
  simp only [Harddisk.step, Harddisk.doTest] at hu
  cases hpc : s.base.doTest with
  | opening =>
      simp only [hpc, hopen, if_true, Option.some.injEq] at hu
      subst hu
      simp only [Transfer.after, hpc]
      apply h.frame
      · simp [DoTestPc.Started, hpc]
      · simp [DoTestPc.Started]
      · rfl
      · simp [DoTestPc.Printed, hpc]
      · intro hevent
        cases hevent
      · simp [State.UsesBuffer]
  | preparing =>
      simp only [hpc, Option.some.injEq] at hu
      subst hu
      have hnot : ¬ s.base.doTest.Started := by simp [DoTestPc.Started, hpc]
      obtain ⟨-, hcalled, hwrites⟩ := h.idle hnot
      simp only [Transfer.after, hpc]
      refine ⟨?_, ?_, ?_, fun hcalled' => absurd hcalled hcalled', h.signalled, ?_⟩
      · simp [DoTestPc.Started]
      · intro _
        rw [base_writes, hwrites]
        rfl
      · intro _
        rw [base_statuses]
        exact h.reported hcalled
      · simp [State.UsesBuffer]
  | printing =>
      simp only [hpc, Option.some.injEq] at hu
      subst hu
      have hdone : s.base.Completed := h.released (Or.inl (Or.inl hpc))
      have hcalled : s.base.completion ≠ .notCalled := by
        intro hnot
        cases hnot.symm.trans hdone
      obtain ⟨status, hstatus, houtput⟩ := h.printed hcalled
      simp only [Transfer.after, hpc]
      refine ⟨?_, ?_, fun hnot => absurd hnot hcalled, fun _ => ⟨status, ?_, ?_⟩, h.signalled,
        fun _ => hdone⟩
      · simp [DoTestPc.Started]
      · intro _
        rw [base_writes]
        exact h.contents (by simp [DoTestPc.Started, hpc])
      · rw [base_statuses]
        exact hstatus
      · rw [houtput, hpc]
        simp [DoTestPc.Printed]
  | freeing =>
      simp only [hpc, Option.some.injEq] at hu
      subst hu
      have hdone : s.base.Completed := h.released (Or.inl (Or.inr hpc))
      simp only [Transfer.after, hpc]
      apply h.frame
      · simp [DoTestPc.Started]
      · simp [DoTestPc.Started, hpc]
      · rfl
      · simp [DoTestPc.Printed, hpc]
      · exact h.signalled
      · exact fun _ => hdone
  | calling | waiting _ | returned => simp [hpc] at hu

/-- A statement of the completion routine. -/
theorem Transfer.Sound.completion (h : s.Sound as)
    (hstep : transferStep openStatus s (.base .completion) = some t) :
    t.Sound (as ++ [.base .completion]) := by
  obtain ⟨u, hu, rfl⟩ := Option.map_eq_some_iff.mp hstep
  obtain ⟨hnone, hevent, hpc, -⟩ := myIoCompletion_effect hu
  have hcalled : s.base.completion ≠ .notCalled ∧ u.completion ≠ .notCalled := by
    simp only [Harddisk.step, myIoCompletion] at hu
    split at hu
    · rename_i hat
      cases hu
      exact ⟨by simp [hat], by simp⟩
    · rename_i hat
      cases hu
      exact ⟨by simp [hat], by simp⟩
    · rename_i hat
      cases hu
      exact ⟨by simp [hat], by simp⟩
    · cases hu
    · cases hu
  have hstarted : s.base.doTest.Started := by
    by_contra hidle
    exact hcalled.1 (h.idle hidle).2.1
  have hframe : s.after .completion u = { s with base := u } := rfl
  rw [hframe]
  apply h.frame
  · intro hidle
    rw [hpc] at hidle
    exact absurd hstarted hidle
  · intro _
    exact hstarted
  · exact iff_of_false hcalled.2 hcalled.1
  · rw [hpc]
  · intro hset
    cases hevent hset with
    | inl hbefore => exact absurd (h.signalled hbefore) hnone
    | inr hdone => exact hdone
  · intro huses
    rw [State.UsesBuffer, hpc] at huses
    exact absurd (h.released huses) hnone

/-- Leaving `IoCallDriver` or the wait. -/
theorem Transfer.Sound.resume (h : s.Sound as) {a : Action} {pc : DoTestPc} {status : NtStatus}
    (hpc : s.base.doTest = .calling ∨ ∃ due, s.base.doTest = .waiting due)
    (hnext : (∃ due, pc = .waiting due) ∨ pc = .printing ∧ s.base.Completed) :
    Transfer.Sound { s with base := { s.base with status := status, doTest := pc } }
      (as ++ [.base a]) := by
  have hstarted : s.base.doTest.Started := by
    rcases hpc with hpc | ⟨due, hpc⟩ <;> simp [DoTestPc.Started, hpc]
  have hunprinted : ¬ s.base.doTest.Printed := by
    rcases hpc with hpc | ⟨due, hpc⟩ <;> simp [DoTestPc.Printed, hpc]
  have hstarted' : pc.Started := by
    rcases hnext with ⟨due, rfl⟩ | ⟨rfl, -⟩ <;> simp [DoTestPc.Started]
  have hunprinted' : ¬ pc.Printed := by
    rcases hnext with ⟨due, rfl⟩ | ⟨rfl, -⟩ <;> simp [DoTestPc.Printed]
  apply h.frame
  · exact fun hidle => absurd hstarted' hidle
  · exact fun _ => hstarted
  · rfl
  · exact iff_of_false hunprinted' hunprinted
  · exact h.signalled
  · intro huses
    rcases hnext with ⟨due, rfl⟩ | ⟨rfl, hdone⟩
    · simp [State.UsesBuffer] at huses
    · exact hdone

theorem Transfer.Sound.step (h : s.Sound as) (hopen : ntSuccess openStatus = true)
    {a : TransferAction} (htimely : TimelyTransfer s a)
    (hstep : transferStep openStatus s a = some t) : t.Sound (as ++ [a]) := by
  cases a with
  | write offset value => exact h.write hstep
  | complete status => exact h.complete hstep
  | base a =>
      cases a with
      | complete => cases hstep
      | doTest => exact h.doTest hopen hstep
      | completion => exact h.completion hstep
      | tick time =>
          cases hstep
          exact h.frame (.tick time) (u := { s.base with now := s.base.now + time })
            (fun hidle => ⟨hidle, rfl⟩) id Iff.rfl Iff.rfl h.signalled h.released
      | callReturns status =>
          obtain ⟨u, hu, rfl⟩ := Option.map_eq_some_iff.mp hstep
          simp only [Harddisk.step, Option.ite_none_right_eq_some] at hu
          obtain ⟨⟨hcalling, hdone⟩, hu⟩ := hu
          split at hu
          · cases hu
            exact h.resume (Or.inl hcalling) (Or.inl ⟨_, rfl⟩)
          · rename_i hother
            cases hu
            exact h.resume (Or.inl hcalling) (Or.inr ⟨rfl, hdone.resolve_right hother⟩)
      | waitSatisfied =>
          obtain ⟨u, hu, rfl⟩ := Option.map_eq_some_iff.mp hstep
          simp only [Harddisk.step] at hu
          split at hu
          · rename_i due hwait
            simp only [Option.ite_none_right_eq_some, Option.some.injEq] at hu
            obtain ⟨hevent, rfl⟩ := hu
            exact h.resume (Or.inr ⟨due, hwait⟩) (Or.inr ⟨rfl, h.signalled hevent⟩)
          · cases hu
      | waitTimeout =>
          obtain ⟨u, hu, rfl⟩ := Option.map_eq_some_iff.mp hstep
          simp only [Harddisk.step] at hu
          split at hu
          · rename_i due hwait
            simp only [Option.ite_none_right_eq_some, Option.some.injEq] at hu
            obtain ⟨-, rfl⟩ := hu
            exact h.resume (Or.inr ⟨due, hwait⟩) (Or.inr ⟨rfl, htimely rfl⟩)
          · cases hu

end Steps

theorem start_sound (now : Int) (address : UInt64) (buffer : Buffer) :
    (start now address buffer).Sound [] where
  idle _ := ⟨rfl, rfl, rfl⟩
  contents h := absurd rfl h.1
  reported _ := ⟨rfl, rfl⟩
  printed h := absurd rfl h
  signalled := nofun
  released h := by
    simp [State.UsesBuffer, start, initial] at h

theorem transferStep_address {openStatus : NtStatus} {s t : Transfer} {a : TransferAction}
    (hstep : transferStep openStatus s a = some t) : t.address = s.address := by
  cases a with
  | write offset value =>
      simp only [transferStep, Option.ite_none_right_eq_some, Option.some.injEq] at hstep
      obtain ⟨-, rfl⟩ := hstep
      rfl
  | complete status =>
      obtain ⟨u, -, rfl⟩ := Option.map_eq_some_iff.mp hstep
      rfl
  | base a =>
      simp only [transferStep, Option.ite_none_left_eq_some] at hstep
      obtain ⟨u, -, rfl⟩ := Option.map_eq_some_iff.mp hstep.2
      unfold Transfer.after
      split <;> rfl

theorem output_of_timely {openStatus : NtStatus} {now : Int} {address : UInt64} {buffer : Buffer}
    {as : List TransferAction} {t : Transfer} (hopen : ntSuccess openStatus = true)
    (hrun : run (transferStep openStatus) (start now address buffer) as = some t)
    (htimely : Along (transferStep openStatus) TimelyTransfer (start now address buffer) as)
    (hreturned : t.base.doTest = .returned) :
    ∃ status, as.flatMap TransferAction.statuses = [status] ∧
      t.output = completionLine status :: headerLine ::
        bufferRows address (contents (as.flatMap TransferAction.writes)).toList := by
  have haddress := run_invariant (P := fun s : Transfer => s.address = address)
    (fun _ _ _ hs hstep => (transferStep_address hstep).trans hs) hrun rfl
  have hsound := run_history (f := fun _ a => [a]) (P := Transfer.Sound)
    (fun _ _ _ _ hs htimely hstep => hs.step hopen htimely hstep) hrun htimely
    (start_sound now address buffer)
  rw [history_of_actions hrun, List.flatMap_singleton', List.nil_append] at hsound
  have hdone : t.base.Completed := hsound.released (Or.inr hreturned)
  have hcalled : t.base.completion ≠ .notCalled := by
    intro hnot
    cases hnot.symm.trans hdone
  obtain ⟨status, hstatus, houtput⟩ := hsound.printed hcalled
  have hprinted : t.base.doTest.Printed := Or.inr hreturned
  refine ⟨status, hstatus, ?_⟩
  rw [houtput, if_pos hprinted, dumpLines_eq, haddress,
    hsound.contents ⟨by rw [hreturned]; decide, by rw [hreturned]; decide⟩]

/-- When the wait does not give up early, the test prints the one status the read
was completed with and then every byte as the device left it. -/
theorem transfer_output {openStatus : NtStatus} {now : Int} {address : UInt64} {buffer : Buffer}
    {as : List TransferAction} {t : Transfer} (hopen : ntSuccess openStatus = true)
    (hrun : run (transferStep openStatus) (start now address buffer) as = some t)
    (htimely : Along (transferStep openStatus) TimelyTransfer (start now address buffer) as)
    (hreturned : t.base.doTest = .returned) :
    ∃ status, as.flatMap TransferAction.statuses = [status] ∧
      t.output = completionLine status :: headerLine ::
        bufferRows address (contents (as.flatMap TransferAction.writes)).toList :=
  output_of_timely hopen hrun htimely hreturned

/-- The device writes the first four bytes, the second of them twice, while `DoTest`
waits. -/
def fourBytes : List TransferAction :=
  [.base .doTest, .base .doTest, .base (.callReturns NtStatus.pending), .write 0 0x33,
    .write 1 0xFF, .write 3 0xD0, .write 1 0xC0, .write 2 0x8E, .complete NtStatus.success,
    .base .completion, .base .completion, .base .completion, .base .waitSatisfied,
    .base .doTest, .base .doTest]

theorem timely_of_forall {s : Transfer} {as : List TransferAction}
    (h : ∀ a ∈ as, a ≠ TransferAction.base .waitTimeout) :
    Along (transferStep NtStatus.success) TimelyTransfer s as :=
  along_mono (fun _ _ hne heq => absurd heq hne)
    (along_of_forall (c := fun a => a ≠ TransferAction.base .waitTimeout) s h)

theorem fourBytes_timely : Along (transferStep NtStatus.success) TimelyTransfer
    (start systemTime 0xFFFFA50000001000 zeroed) fourBytes :=
  timely_of_forall (by decide)

theorem transfer_output_fourBytes :
    ∃ t, run (transferStep NtStatus.success) (start systemTime 0xFFFFA50000001000 zeroed)
        fourBytes = some t ∧
      ∃ status, fourBytes.flatMap TransferAction.statuses = [status] ∧
        t.output = completionLine status :: headerLine :: bufferRows 0xFFFFA50000001000
          (contents (fourBytes.flatMap TransferAction.writes)).toList :=
  ⟨_, rfl, transfer_output rfl rfl fourBytes_timely rfl⟩

/-! ## Reading the dump back -/

section Rows

theorem rowLine_delimits {address address' : UInt64} {row row' : List UInt8}
    (hlen : row.length = row'.length) (h : rowLine address row = rowLine address' row') :
    address = address' ∧ row = row' := by
  have haddress : ∀ a : UInt64, a.toNat < 16 ^ 16 := fun a => a.toNat_lt
  have hbyte : ∀ b : UInt8, b.toNat < 16 ^ 2 := fun b => b.toNat_lt
  unfold rowLine at h
  simp only [List.append_assoc] at h
  obtain ⟨hleft, hrest⟩ := delimits_hexUpper (by decide) haddress address address' _ _ h
  have hbytes := (delimits_hexUpper (by decide) hbyte).literal " ".toList
  obtain ⟨hrow, -⟩ := hbytes.forall₂_of_length hlen (List.append_cancel_left hrest)
  refine ⟨UInt64.toNat_inj.mp hleft, ?_⟩
  rw [← List.forall₂_eq_eq_eq]
  exact hrow.imp fun _ _ heq => UInt8.toNat_inj.mp heq

theorem rowLine_length (address : UInt64) (row : List UInt8) :
    (rowLine address row).length = 20 + 3 * row.length := by
  have haddress : (hexUpper 16 address.toNat).length = 16 :=
    hexUpper_length (by decide) address.toNat_lt
  have hbytes : (row.flatMap fun b => ' ' :: hexUpper 2 b.toNat).length = 3 * row.length := by
    induction row with
    | nil => rfl
    | cons b row ih =>
        have hb : (hexUpper 2 b.toNat).length = 2 := hexUpper_length (by decide) b.toNat_lt
        rw [List.flatMap_cons, List.length_append, ih, List.length_cons, hb, List.length_cons]
        omega
  unfold rowLine
  rw [List.length_append, List.length_append, List.length_append, haddress, hbytes]
  have hcolon : " :\t".toList.length = 3 := rfl
  have hend : "\n".toList.length = 1 := rfl
  omega

theorem slice_length {buffer : Buffer} {r : Nat} (hr : r < 64) :
    (Bytes.slice buffer.toList (Const.rowLength * r) Const.rowLength).length =
      Const.rowLength := by
  have hlen : buffer.toList.length = 1024 := Vector.length_toList
  rw [Bytes.slice, List.length_take, List.length_drop, hlen]
  rw [Const.rowLength]
  omega

theorem bufferRows_eq (address : UInt64) (buffer : Buffer) :
    bufferRows address buffer.toList = (List.range 64).map fun r =>
      rowLine (address + UInt64.ofNat (Const.rowLength * r))
        (Bytes.slice buffer.toList (Const.rowLength * r) Const.rowLength) := by
  have hlen : buffer.toList.length = 1024 := Vector.length_toList
  rw [bufferRows, hlen]
  rfl

theorem bufferRows_width (address : UInt64) (buffer : Buffer) :
    ∀ row ∈ bufferRows address buffer.toList, row.length = 68 := by
  rw [bufferRows_eq, List.forall_mem_map]
  intro r hr
  rw [rowLine_length, slice_length (List.mem_range.mp hr)]
  rfl

theorem buffer_ext {b c : Buffer} (h : ∀ r < 64,
    Bytes.slice b.toList (Const.rowLength * r) Const.rowLength =
      Bytes.slice c.toList (Const.rowLength * r) Const.rowLength) : b = c := by
  have hread (d : Buffer) (i : Nat) :
      (Bytes.slice d.toList (Const.rowLength * (i / Const.rowLength)) Const.rowLength)[
        i % Const.rowLength]? = d.toList[i]? := by
    have hmod : i % Const.rowLength < Const.rowLength := Nat.mod_lt _ (by decide)
    rw [Bytes.slice, List.getElem?_take_of_lt hmod, List.getElem?_drop, Nat.div_add_mod]
  apply Vector.toList_inj.mp
  apply List.ext_getElem?
  intro i
  by_cases hi : i < 1024
  · rw [← hread b i, ← hread c i, h (i / Const.rowLength) (by rw [Const.rowLength]; omega)]
  · have hb : b.toList.length ≤ i := by
      rw [Vector.length_toList]
      exact Nat.le_of_not_lt hi
    have hc : c.toList.length ≤ i := by
      rw [Vector.length_toList]
      exact Nat.le_of_not_lt hi
    rw [List.getElem?_eq_none hb, List.getElem?_eq_none hc]

theorem bufferRows_inj {address address' : UInt64} {b c : Buffer}
    (h : (bufferRows address b.toList).flatten = (bufferRows address' c.toList).flatten) :
    address = address' ∧ b = c := by
  have hcount : (bufferRows address b.toList).length = (bufferRows address' c.toList).length := by
    rw [bufferRows_eq, bufferRows_eq, List.length_map, List.length_map]
  have hrows := flatten_inj_of_width (bufferRows_width address b) (bufferRows_width address' c)
    hcount h
  rw [bufferRows_eq, bufferRows_eq, List.map_inj_left] at hrows
  have hrow (r : Nat) (hr : r < 64) := rowLine_delimits
    ((slice_length hr).trans (slice_length hr).symm) (hrows r (List.mem_range.mpr hr))
  refine ⟨?_, buffer_ext fun r hr => (hrow r hr).2⟩
  have hfirst := (hrow 0 (by decide)).1
  rw [Nat.mul_zero] at hfirst
  exact UInt64.add_left_inj _ |>.mp hfirst

end Rows

theorem completionLine_delimits : Delimits Eq completionLine := by
  have hend : Delimits (fun _ _ => True) fun _ : NtStatus => ")\n".toList := delimits_const _
  have hstatus := (hend.decimal (fun status => status.toInt) ')' (by decide) (by decide)
    fun _ => ⟨_, rfl⟩).literal "MyIoCompletion IRP status(".toList
  intro a b p q heq
  obtain ⟨⟨hsame, -⟩, hrest⟩ : _ ∧ p = q := by
    apply hstatus a b p q
    unfold completionLine at heq
    simp only [List.append_assoc] at heq ⊢
    exact heq
  exact ⟨Int32.toInt_inj.mp hsame, hrest⟩

/-- Two transfers that print the same text had the same status, into buffers at the same
address, and left the same bytes there. -/
theorem transfer_determines {openStatus openStatus' : NtStatus} {now now' : Int}
    {address address' : UInt64} {buffer buffer' : Buffer} {as bs : List TransferAction}
    {t u : Transfer} (hopen : ntSuccess openStatus = true)
    (ht : run (transferStep openStatus) (start now address buffer) as = some t)
    (httimely : Along (transferStep openStatus) TimelyTransfer (start now address buffer) as)
    (htreturned : t.base.doTest = .returned)
    (hopen' : ntSuccess openStatus' = true)
    (hu : run (transferStep openStatus') (start now' address' buffer') bs = some u)
    (hutimely : Along (transferStep openStatus') TimelyTransfer (start now' address' buffer') bs)
    (hureturned : u.base.doTest = .returned) (htext : t.output.flatten = u.output.flatten) :
    as.flatMap TransferAction.statuses = bs.flatMap TransferAction.statuses ∧
      address = address' ∧ contents (as.flatMap TransferAction.writes) =
        contents (bs.flatMap TransferAction.writes) := by
  obtain ⟨status, hstatus, hout⟩ := output_of_timely hopen ht httimely htreturned
  obtain ⟨status', hstatus', hout'⟩ := output_of_timely hopen' hu hutimely hureturned
  rw [hout, hout'] at htext
  simp only [List.flatten_cons] at htext
  obtain ⟨rfl, hdump⟩ := completionLine_delimits status status' _ _ htext
  obtain ⟨haddress, hbuffer⟩ := bufferRows_inj (List.append_cancel_left hdump)
  exact ⟨hstatus.trans hstatus'.symm, haddress, hbuffer⟩

/-- The same bytes, each written once and before `IoCallDriver` returns. -/
def fourBytesEarly : List TransferAction :=
  [.base .doTest, .base .doTest, .write 0 0x33, .write 3 0xD0, .write 1 0xC0, .write 2 0x8E,
    .complete NtStatus.success, .base .completion, .base .completion, .base .completion,
    .base (.callReturns NtStatus.success), .base .doTest, .base .doTest]

theorem fourBytesEarly_timely (buffer : Buffer) : Along (transferStep NtStatus.success)
    TimelyTransfer (start 0 0xFFFFA50000001000 buffer) fourBytesEarly :=
  timely_of_forall (by decide)

theorem fourBytes_returns : ∃ t, run (transferStep NtStatus.success)
    (start systemTime 0xFFFFA50000001000 zeroed) fourBytes = some t ∧
      t.base.doTest = .returned :=
  ⟨_, rfl, rfl⟩

theorem fourBytesEarly_returns (buffer : Buffer) : ∃ t, run (transferStep NtStatus.success)
    (start 0 0xFFFFA50000001000 buffer) fourBytesEarly = some t ∧ t.base.doTest = .returned :=
  ⟨_, rfl, rfl⟩

theorem fourBytes_contents : contents (fourBytes.flatMap TransferAction.writes) =
    contents (fourBytesEarly.flatMap TransferAction.writes) := by
  have hne : ((1 : Offset) : Nat) ≠ (3 : Offset) := by decide
  have hset (b : Buffer) : ((b.set (1 : Offset) 0xFF).set (3 : Offset) 0xD0).set (1 : Offset) 0xC0 =
      (b.set (3 : Offset) 0xD0).set (1 : Offset) 0xC0 := by
    rw [Vector.set_comm _ _ hne, Vector.set_set]
  exact congrArg (fun b : Buffer => b.set (2 : Offset) 0x8E) (hset (zeroed.set (0 : Offset) 0x33))

theorem transfer_determines_fourBytes :
    contents (fourBytes.flatMap TransferAction.writes) =
      contents (fourBytesEarly.flatMap TransferAction.writes) := by
  obtain ⟨t, ht, htreturned⟩ := fourBytes_returns
  obtain ⟨u, hu, hureturned⟩ := fourBytesEarly_returns (Vector.replicate _ 0xA5)
  obtain ⟨status, hstatus, hout⟩ := output_of_timely rfl ht fourBytes_timely htreturned
  obtain ⟨status', hstatus', hout'⟩ := output_of_timely rfl hu (fourBytesEarly_timely _) hureturned
  have hsame : status = status' :=
    (List.singleton_inj.mp hstatus).symm.trans (List.singleton_inj.mp hstatus')
  refine (transfer_determines rfl ht fourBytes_timely htreturned rfl hu (fourBytesEarly_timely _)
    hureturned ?_).2.2
  rw [hout, hout', hsame, fourBytes_contents]

end WdmTest.Harddisk
