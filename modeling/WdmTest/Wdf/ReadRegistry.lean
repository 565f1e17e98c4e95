import WdmTest.Wdf.Lifecycle

/-!
WdfReadRegistryTest: once its driver object exists, `DriverEntry` looks for two
values below the parameters key of the driver and shows each at the debugger. The
status of the last thing it tried is the status of the load.

The answers of the registry are an argument: the status and key of an open, the
status of a query and the bytes it put into the buffer. A query may leave bytes
there without succeeding.
-/
namespace WdmTest.WdfReadRegistry
open Transition Wdf

namespace Const
/-- The size of the buffer for a value. -/
def size : Nat := 32
end Const

structure OpenAnswer where
  status : NtStatus
  key : UInt64

structure QueryAnswer where
  status : NtStatus
  data : List UInt8
  fits : data.length ≤ Const.size

/-- A key that is open is not given again. -/
structure RegistryAnswers where
  parameters : OpenAnswer
  test2 : QueryAnswer
  device : OpenAnswer
  test1 : QueryAnswer
  distinct : device.key ≠ parameters.key

def rtlZeroMemory (buffer : List UInt8) (size : Nat) : List UInt8 :=
  List.replicate size 0 ++ buffer.drop size

/-- The buffer after a query put bytes into it. -/
def QueryAnswer.fill (k : QueryAnswer) (buffer : List UInt8) : List UInt8 :=
  k.data ++ buffer.drop k.data.length

/-- A query, and the stop at the debugger if it succeeds. -/
def queryValue (key : UInt64) (name : List Char) (k : QueryAnswer) (buffer : List UInt8) :
    Outcome where
  status := k.status
  calls := [.registry (.queryValue key name Const.size)] ++
    if ntSuccess k.status then [.dbgBreakPoint (k.fill buffer)] else []

def readDeviceKey (basekey : UInt64) (k : RegistryAnswers) (buffer : List UInt8) : Outcome :=
  if ntSuccess k.device.status then
    let r := queryValue k.device.key "TEST1".toList k.test1 (rtlZeroMemory buffer Const.size)
    ⟨r.status, [.registry (.openKey basekey "Device".toList (some k.device.key))] ++ r.calls ++
      [.registry (.close k.device.key)]⟩
  else ⟨k.device.status, [.registry (.openKey basekey "Device".toList none)]⟩

def readParametersKey (k : RegistryAnswers) : Outcome :=
  if ntSuccess k.parameters.status then
    let buffer := List.replicate Const.size 0
    let t := queryValue k.parameters.key "TEST2".toList k.test2 buffer
    let r := readDeviceKey k.parameters.key k (k.test2.fill buffer)
    ⟨r.status, [.registry (.openParametersKey (some k.parameters.key))] ++ t.calls ++ r.calls ++
      [.registry (.close k.parameters.key)]⟩
  else ⟨k.parameters.status, [.registry (.openParametersKey none)]⟩

def wdfReadRegistryTest : Project RegistryAnswers where
  name := "WdfReadRegistryTest".toList
  interfaceGuid :=
    ⟨0x7b866f11, 0x68c0, 0x48d1, #v[0x94, 0x8f, 0xb2, 0x3e, 0xdf, 0xb8, 0x52, 0x38]⟩
  body k := ⟨(readParametersKey k).status,
    (readParametersKey k).calls ++ [trace .information "DriverEntry Exit".toList]⟩

def wdfReadRegistryTestQueueInitialize : NtStatus → Outcome := queueInitialize

def wdfReadRegistryTestCreateDevice : DeviceAnswers → Outcome :=
  createDevice wdfReadRegistryTest.interfaceGuid

def wdfReadRegistryTestEvtDeviceAdd : DeviceAnswers → Outcome := wdfReadRegistryTest.evtDeviceAdd

def wdfReadRegistryTestEvtIoDeviceControl : IoRequest → List Call :=
  wdfReadRegistryTest.evtIoDeviceControl

def wdfReadRegistryTestEvtIoStop : UInt64 → UInt64 → UInt32 → List Call :=
  wdfReadRegistryTest.evtIoStop

def wdfReadRegistryTestEvtDriverContextCleanup : List Call :=
  wdfReadRegistryTest.evtDriverContextCleanup

def driverEntry : NtStatus → RegistryAnswers → Outcome := wdfReadRegistryTest.driverEntry

/-! ## The registry -/

/-- The bytes of a value in a buffer that was zeroed before. -/
def QueryAnswer.padded (k : QueryAnswer) : List UInt8 :=
  k.data ++ List.replicate (Const.size - k.data.length) 0

/-- The buffers shown at the debugger. -/
def shown (calls : List Call) : List (List UInt8) :=
  calls.filterMap fun
    | .dbgBreakPoint buffer => some buffer
    | _ => none

section Registry
variable (k : RegistryAnswers)

theorem QueryAnswer.fill_zero (k : QueryAnswer) {buffer : List UInt8}
    (hlen : buffer.length ≤ Const.size) : k.fill (rtlZeroMemory buffer Const.size) = k.padded := by
  rw [QueryAnswer.fill, QueryAnswer.padded, rtlZeroMemory, List.drop_eq_nil_of_le hlen,
    List.append_nil, List.drop_replicate]

theorem QueryAnswer.padded_length (k : QueryAnswer) : k.padded.length = Const.size := by
  have hfits := k.fits
  rw [QueryAnswer.padded, List.length_append, List.length_replicate]
  omega

theorem shown_append (calls calls' : List Call) :
    shown (calls ++ calls') = shown calls ++ shown calls' := List.filterMap_append

theorem queryValue_shown (key : UInt64) (name : List Char) (k : QueryAnswer)
    (buffer : List UInt8) :
    shown (queryValue key name k buffer).calls =
      if ntSuccess k.status then [k.fill buffer] else [] := by
  rw [queryValue]
  split <;> rfl

/-- Nothing the earlier query left in the buffer is seen. -/
theorem readDeviceKey_shown (basekey : UInt64) {buffer : List UInt8}
    (hlen : buffer.length ≤ Const.size) :
    shown (readDeviceKey basekey k buffer).calls =
      if ntSuccess k.device.status && ntSuccess k.test1.status then [k.test1.padded] else [] := by
  unfold readDeviceKey
  cases hdevice : ntSuccess k.device.status with
  | false => rfl
  | true =>
      have hquery := queryValue_shown k.device.key "TEST1".toList k.test1
        (rtlZeroMemory buffer Const.size)
      rw [k.test1.fill_zero hlen] at hquery
      simp only [if_true, Bool.true_and, shown_append, hquery]
      exact List.append_nil _

theorem readParametersKey_shown :
    shown (readParametersKey k).calls =
      if ntSuccess k.parameters.status then
        (if ntSuccess k.test2.status then [k.test2.padded] else []) ++
          if ntSuccess k.device.status && ntSuccess k.test1.status then [k.test1.padded] else []
      else [] := by
  unfold readParametersKey
  cases ntSuccess k.parameters.status with
  | false => rfl
  | true =>
      have hzero : k.test2.fill (List.replicate Const.size 0) = k.test2.padded := by
        rw [QueryAnswer.fill, QueryAnswer.padded, List.drop_replicate]
      have hquery := queryValue_shown k.parameters.key "TEST2".toList k.test2
        (List.replicate Const.size 0)
      have hlen : k.test2.padded.length ≤ Const.size := Nat.le_of_eq k.test2.padded_length
      have hdevice := readDeviceKey_shown k k.parameters.key hlen
      simp only [if_true, shown_append, hquery, hzero, hdevice]
      exact List.append_nil _

theorem readParametersKey_status :
    ntSuccess (readParametersKey k).status =
      (ntSuccess k.parameters.status && ntSuccess k.device.status && ntSuccess k.test1.status) := by
  unfold readParametersKey readDeviceKey
  cases hparameters : ntSuccess k.parameters.status with
  | false => simpa using hparameters
  | true =>
      cases hdevice : ntSuccess k.device.status with
      | false => simpa using hdevice
      | true => rfl

theorem driverEntry_status (created : NtStatus) :
    ntSuccess (driverEntry created k).status =
      (ntSuccess created && ntSuccess k.parameters.status && ntSuccess k.device.status &&
        ntSuccess k.test1.status) := by
  have hstatus := readParametersKey_status k
  have hsame : (wdfReadRegistryTest.body k).status = (readParametersKey k).status := rfl
  unfold driverEntry Project.driverEntry
  cases hcreated : ntSuccess created with
  | false => simpa using hcreated
  | true => simpa [hsame] using hstatus

/-- The driver loads exactly when the driver object was created, both keys opened
and `TEST1` was read; what becomes of `TEST2` plays no part. Each value that was read
is shown alone, with nothing but zeros behind it. -/
theorem driverEntry_reads (created : NtStatus) :
    ntSuccess (driverEntry created k).status =
        (ntSuccess created && ntSuccess k.parameters.status && ntSuccess k.device.status &&
          ntSuccess k.test1.status) ∧
      shown (driverEntry created k).calls =
        (if ntSuccess created && ntSuccess k.parameters.status && ntSuccess k.test2.status then
          [k.test2.padded] else []) ++
        (if ntSuccess created && ntSuccess k.parameters.status && ntSuccess k.device.status &&
            ntSuccess k.test1.status then [k.test1.padded] else []) := by
  refine ⟨driverEntry_status k created, ?_⟩
  have hshown := readParametersKey_shown k
  have hbody : (wdfReadRegistryTest.body k).calls =
      (readParametersKey k).calls ++ [trace .information "DriverEntry Exit".toList] := rfl
  unfold driverEntry Project.driverEntry
  cases ntSuccess created with
  | false => rfl
  | true =>
      simp only [if_true, shown_append, hbody, hshown, Bool.true_and]
      cases ntSuccess k.parameters.status with
      | false => rfl
      | true => exact List.append_nil _

end Registry

/-! ## The keys -/

section Keys
variable {k : RegistryAnswers}

theorem queryValue_keys {opened : List UInt64} {key : UInt64} (hkey : key ∈ opened)
    (name : List Char) (k : QueryAnswer) (buffer : List UInt8) :
    run keys opened (queryValue key name k buffer).calls = some opened := by
  apply run_still
  intro c hc
  rw [queryValue] at hc
  split at hc
  · simp only [List.cons_append, List.nil_append, List.mem_cons, List.not_mem_nil, or_false] at hc
    rcases hc with rfl | rfl
    · exact if_pos hkey
    · rfl
  · simp only [List.append_nil, List.mem_singleton] at hc
    subst hc
    exact if_pos hkey

theorem readDeviceKey_keys (buffer : List UInt8) :
    run keys [k.parameters.key] (readDeviceKey k.parameters.key k buffer).calls =
      some [k.parameters.key] := by
  unfold readDeviceKey
  split
  · refine run_append.mpr ⟨[k.device.key, k.parameters.key],
      run_append.mpr ⟨_, ?_, queryValue_keys List.mem_cons_self _ _ _⟩, ?_⟩
    · simp [run, keys, giveKey, k.distinct]
    · simp [run, keys]
  · simp [run, keys, giveKey]

/-- Calls that concern neither tracing nor requests. -/
def Call.Registering : Call → Prop
  | .registry _ | .dbgBreakPoint _ => True
  | .wppInitTracing | .wppCleanup | .traceEvents _ | .wdfDriverCreate | .wdfDeviceCreate
  | .wdfDeviceCreateDeviceInterface _ | .wdfIoQueueCreate | .received _
  | .wdfRequestComplete _ _ => False

theorem queryValue_registering (key : UInt64) (name : List Char) (k : QueryAnswer)
    (buffer : List UInt8) : ∀ c ∈ (queryValue key name k buffer).calls, Call.Registering c := by
  rw [queryValue]
  split <;> simp [Call.Registering]

theorem readParametersKey_registering :
    ∀ c ∈ (readParametersKey k).calls, Call.Registering c := by
  have hcall (c : RegistryCall) : Call.Registering (.registry c) := trivial
  unfold readParametersKey readDeviceKey
  split
  · split
    · simp only [List.forall_mem_append, List.forall_mem_singleton]
      exact ⟨⟨⟨hcall _, queryValue_registering _ _ _ _⟩,
        ⟨hcall _, queryValue_registering _ _ _ _⟩, hcall _⟩, hcall _⟩
    · simp only [List.forall_mem_append, List.forall_mem_singleton]
      exact ⟨⟨⟨hcall _, queryValue_registering _ _ _ _⟩, hcall _⟩, hcall _⟩
  · exact List.forall_mem_singleton.mpr (hcall _)

theorem readParametersKey_keys : run keys [] (readParametersKey k).calls = some [] := by
  unfold readParametersKey
  split
  · refine run_append.mpr ⟨[k.parameters.key], run_append.mpr ⟨_, run_append.mpr ⟨_, ?_,
      queryValue_keys List.mem_cons_self _ _ _⟩, readDeviceKey_keys _⟩, ?_⟩
    · simp [run, keys, giveKey]
    · simp [run, keys]
  · rfl

theorem readParametersKey_balanced : Balanced true true (readParametersKey k).calls where
  traced := by
    apply run_still
    intro c hc
    have hregistering := readParametersKey_registering c hc
    cases c with
    | registry _ | dbgBreakPoint _ => rfl
    | wppInitTracing | wppCleanup | traceEvents _ | wdfDriverCreate | wdfDeviceCreate
    | wdfDeviceCreateDeviceInterface _ | wdfIoQueueCreate | received _
    | wdfRequestComplete _ _ => exact hregistering.elim
  closed := readParametersKey_keys
  apart := by
    intro c hc request
    have hregistering := readParametersKey_registering c hc
    cases c with
    | registry _ | dbgBreakPoint _ => rfl
    | wppInitTracing | wppCleanup | traceEvents _ | wdfDriverCreate | wdfDeviceCreate
    | wdfDeviceCreateDeviceInterface _ | wdfIoQueueCreate | received _
    | wdfRequestComplete _ _ => exact hregistering.elim

theorem wdfReadRegistryTest_orderly : wdfReadRegistryTest.Orderly :=
  fun _ => readParametersKey_balanced.append (trace_balanced _ _)

end Keys

/-! ## Runs -/

/-- In every run tracing is initialised, used and cleaned up in turn, keys are
closed that were opened, requests are completed once and with success, and nothing
is under way without a device. -/
theorem driver_keeps {d : Driver} (h : wdfReadRegistryTest.Reachable d) : d.Keeps :=
  (reachable_sound wdfReadRegistryTest_orderly h).keeps

theorem number_fits : [0x39, 0x05, 0x00, 0x00].length ≤ Const.size := by decide

theorem nothing_fits : ([] : List UInt8).length ≤ Const.size := by decide

theorem keys_distinct : (0x80000310 : UInt64) ≠ 0x8000030C := by decide

/-- Only `TEST1` is there. -/
def onlyTest1 : RegistryAnswers where
  parameters := ⟨NtStatus.success, 0x8000030C⟩
  test2 := ⟨NtStatus.unsuccessful, [], nothing_fits⟩
  device := ⟨NtStatus.success, 0x80000310⟩
  test1 := ⟨NtStatus.success, [0x39, 0x05, 0x00, 0x00], number_fits⟩
  distinct := keys_distinct

def someRequest (request : UInt64) : IoRequest where
  queue := 0x57FF82344F28
  request := request
  outputBufferLength := 8
  inputBufferLength := 0
  ioControlCode := 0x222000

/-- One device; of its two requests one is completed when the other is half way. -/
def twoRequests : List (Action RegistryAnswers) :=
  [.load NtStatus.success onlyTest1,
    .addDevice 1 ⟨NtStatus.success, NtStatus.success, NtStatus.success⟩,
    .ioDeviceControl 1 (someRequest 0x57FF8211), .ioDeviceControl 1 (someRequest 0x57FF8212),
    .advance 0, .advance 1, .advance 0, .advance 0, .advance 1]

theorem driver_keeps_twoRequests :
    ∃ d, run wdfReadRegistryTest.step unloadedDriver twoRequests = some d ∧
      d.owned 0x57FF8212 = 1 ∧ d.Keeps :=
  ⟨_, rfl, rfl, driver_keeps ⟨unloadedDriver, twoRequests, rfl, rfl⟩⟩

theorem exists_unloaded_twoRequests :
    ∃ d, run wdfReadRegistryTest.step unloadedDriver twoRequests = some d ∧
      ∃ as e, run wdfReadRegistryTest.step d as = some e ∧ e.loaded = false :=
  ⟨_, rfl, exists_unloaded wdfReadRegistryTest_orderly ⟨unloadedDriver, twoRequests, rfl, rfl⟩⟩

/-- The driver is loaded or unloaded. -/
def reloads : Action RegistryAnswers → Bool
  | .load _ _ | .unload => true
  | .addDevice _ _ | .ioDeviceControl _ _ | .ioStop _ _ _ _ | .advance _ | .removeDevice _ => false

/-- The last load of a run succeeded, and the driver was not unloaded since. -/
def LoadedLast (as : List (Action RegistryAnswers)) : Prop :=
  ∃ bs created k cs, as = bs ++ .load created k :: cs ∧ (∀ a ∈ cs, reloads a = false) ∧
    ntSuccess (driverEntry created k).status = true

theorem LoadedLast.concat {as : List (Action RegistryAnswers)} (h : LoadedLast as)
    {a : Action RegistryAnswers} (ha : reloads a = false) : LoadedLast (as ++ [a]) := by
  obtain ⟨bs, created, k, cs, rfl, hcs, hstatus⟩ := h
  refine ⟨bs, created, k, cs ++ [a], ?_, ?_, hstatus⟩
  · rw [List.append_assoc, List.cons_append]
  · exact List.forall_mem_append.mpr ⟨hcs, List.forall_mem_singleton.mpr ha⟩

theorem loadedLast_of_run {as : List (Action RegistryAnswers)} {d : Driver}
    (hrun : run wdfReadRegistryTest.step unloadedDriver as = some d) (hloaded : d.loaded = true) :
    LoadedLast as := by
  have hall := run_history (f := fun _ a => [a]) (C := fun _ _ => True)
    (P := fun (d : Driver) l => d.loaded = true → LoadedLast l) ?_ hrun (along_trivial _ _)
    (l := []) nofun
  · rw [history_of_actions hrun, List.flatMap_singleton'] at hall
    exact hall hloaded
  · intro u l a v hu _ hstep hv
    cases a with
    | load created k =>
        simp only [Project.step, Option.ite_none_right_eq_some, Option.some.injEq] at hstep
        obtain ⟨-, rfl⟩ := hstep
        exact ⟨l, created, k, [], rfl, fun _ hmem => absurd hmem List.not_mem_nil, hv⟩
    | addDevice _ _ | ioDeviceControl _ _ | ioStop _ _ _ _ | removeDevice _ =>
        simp only [Project.step, Option.ite_none_right_eq_some, Option.some.injEq] at hstep
        obtain ⟨-, rfl⟩ := hstep
        exact (hu hv).concat rfl
    | advance i =>
        obtain ⟨callbacks, -, rfl⟩ := Option.map_eq_some_iff.mp hstep
        exact (hu hv).concat rfl
    | unload =>
        simp only [Project.step, Option.ite_none_right_eq_some, Option.some.injEq] at hstep
        obtain ⟨-, rfl⟩ := hstep
        cases hv

/-- A driver that is loaded found `TEST1` when it was loaded last, and was not unloaded
since. -/
theorem loaded_of_test1 {as : List (Action RegistryAnswers)} {d : Driver}
    (hrun : run wdfReadRegistryTest.step unloadedDriver as = some d) (hloaded : d.loaded = true) :
    ∃ bs created k cs, as = bs ++ .load created k :: cs ∧ (∀ a ∈ cs, reloads a = false) ∧
      ntSuccess k.parameters.status = true ∧ ntSuccess k.device.status = true ∧
      ntSuccess k.test1.status = true := by
  obtain ⟨bs, created, k, cs, has, hcs, hstatus⟩ := loadedLast_of_run hrun hloaded
  rw [driverEntry_status, Bool.and_eq_true, Bool.and_eq_true, Bool.and_eq_true] at hstatus
  exact ⟨bs, created, k, cs, has, hcs, hstatus.1.1.2, hstatus.1.2, hstatus.2⟩

theorem loaded_of_test1_twoRequests :
    ∃ bs created k cs, twoRequests = bs ++ .load created k :: cs ∧
      (∀ a ∈ cs, reloads a = false) ∧ ntSuccess k.parameters.status = true ∧
      ntSuccess k.device.status = true ∧ ntSuccess k.test1.status = true :=
  @loaded_of_test1 twoRequests _ rfl rfl

end WdmTest.WdfReadRegistry
