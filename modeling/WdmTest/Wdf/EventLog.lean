import WdmTest.Wdf.Lifecycle

/-!
EventLogTest: `DriverEntry` writes one message of each level and hands over to
`TestEventLog3`, which does nothing but return an error. The driver object is there
by then, so the framework deletes it again and the cleanup callback ends tracing.
Everything else of the template is in the driver and never runs.

The two tests that write entries into the event log are not called by anything.
-/
namespace WdmTest.EventLog
open Transition Wdf

def testEventLog3 : NtStatus := NtStatus.interrupted

def exitMessages : List Call :=
  [trace .verbose "DriverEntry Exit1".toList, trace .information "DriverEntry Exit2".toList,
    trace .warning "DriverEntry Exit3".toList, trace .error "DriverEntry Exit4".toList,
    trace .fatal "DriverEntry Exit5".toList]

def eventLogTest : Project Unit where
  name := "EventLogTest".toList
  interfaceGuid :=
    ⟨0x7beffd08, 0x30b7, 0x402d, #v[0x8f, 0xad, 0xf1, 0xd4, 0xe5, 0x12, 0x54, 0x7f]⟩
  body _ := ⟨testEventLog3, exitMessages⟩

def eventLogTestQueueInitialize : NtStatus → Outcome := queueInitialize

def eventLogTestCreateDevice : DeviceAnswers → Outcome := createDevice eventLogTest.interfaceGuid

def eventLogTestEvtDeviceAdd : DeviceAnswers → Outcome := eventLogTest.evtDeviceAdd

def eventLogTestEvtIoDeviceControl : IoRequest → List Call := eventLogTest.evtIoDeviceControl

def eventLogTestEvtIoStop : UInt64 → UInt64 → UInt32 → List Call := eventLogTest.evtIoStop

def eventLogTestEvtDriverContextCleanup : List Call := eventLogTest.evtDriverContextCleanup

def driverEntry (created : NtStatus) : Outcome := eventLogTest.driverEntry created ()

theorem eventLogTest_orderly : eventLogTest.Orderly := by
  have hmessages : Balanced true true exitMessages :=
    (trace_balanced _ _).append ((trace_balanced _ _).append ((trace_balanced _ _).append
      ((trace_balanced _ _).append (trace_balanced _ _))))
  exact fun _ => hmessages

theorem driverEntry_fails (created : NtStatus) :
    ntSuccess (driverEntry created).status = false := by
  have hinterrupted : ntSuccess testEventLog3 = false := by decide
  unfold driverEntry Project.driverEntry
  cases hcreated : ntSuccess created with
  | false => simpa using hcreated
  | true => exact hinterrupted

/-- Nothing can happen but further attempts to load the driver. -/
theorem step_absent {d e : Driver} {a : Action Unit} (hloaded : d.loaded = false)
    (hdevices : d.devices = []) (hparties : d.callbacks.parties = [])
    (hstep : eventLogTest.step d a = some e) :
    ∃ created, a = .load created () ∧ e.loaded = false ∧ e.devices = [] ∧
      e.callbacks.parties = [] ∧ e.calls = d.calls ++ eventLogTest.loadCalls created () := by
  cases a with
  | load created u =>
      simp only [Project.step, Option.ite_none_right_eq_some, Option.some.injEq] at hstep
      obtain ⟨-, rfl⟩ := hstep
      exact ⟨created, rfl, driverEntry_fails created, hdevices, hparties, record_calls _ _⟩
  | advance i => simp [Project.step, Ledger.Pool.advance, hparties] at hstep
  | addDevice _ _ | ioDeviceControl _ _ | ioStop _ _ _ _ | removeDevice _ | unload =>
      simp [Project.step, hloaded, hdevices] at hstep

/-- A run of the driver is a sequence of failed loads: no device is ever added and no
request handed over, and tracing is off after each. -/
theorem driver_neverLoads {as : List (Action Unit)} {d : Driver}
    (hrun : run eventLogTest.step unloadedDriver as = some d) :
    d.loaded = false ∧ d.devices = [] ∧ run tracing false d.calls = some false ∧
      ∃ statuses : List NtStatus, as = statuses.map (fun created => .load created ()) ∧
        d.calls = statuses.flatMap fun created => eventLogTest.loadCalls created () := by
  have hall := run_history (f := fun _ a => [a]) (C := fun _ _ => True)
    (P := fun (d : Driver) l => d.loaded = false ∧ d.devices = [] ∧ d.callbacks.parties = [] ∧
      ∃ statuses : List NtStatus, l = statuses.map (fun created => Action.load created ()) ∧
        d.calls = statuses.flatMap fun created => eventLogTest.loadCalls created ())
    ?_ hrun (along_trivial _ _) (l := []) ⟨rfl, rfl, rfl, [], rfl, rfl⟩
  · rw [history_of_actions hrun, List.flatMap_singleton'] at hall
    obtain ⟨hloaded, hdevices, -, hstatuses⟩ := hall
    refine ⟨hloaded, hdevices, ?_, hstatuses⟩
    have htraced := (reachable_sound eventLogTest_orderly ⟨unloadedDriver, as, rfl, hrun⟩).traced
    rw [hloaded] at htraced
    exact htraced
  · rintro u l a v ⟨hloaded, hdevices, hparties, statuses, rfl, hcalls⟩ _ hstep
    obtain ⟨created, rfl, hloaded', hdevices', hparties', hcalls'⟩ :=
      step_absent hloaded hdevices hparties hstep
    refine ⟨hloaded', hdevices', hparties', statuses ++ [created], ?_, ?_⟩
    · rw [List.map_append, List.map_singleton]
    · rw [hcalls', hcalls, List.flatMap_append, List.flatMap_singleton]

theorem driver_neverLoads_twice :
    ∃ d, run eventLogTest.step unloadedDriver
        [.load NtStatus.success (), .load NtStatus.unsuccessful ()] = some d ∧
      d.loaded = false ∧ d.devices = [] ∧ run tracing false d.calls = some false ∧
      ∃ statuses : List NtStatus, [.load NtStatus.success (), .load NtStatus.unsuccessful ()] =
          statuses.map (fun created => Action.load created ()) ∧
        d.calls = statuses.flatMap fun created => eventLogTest.loadCalls created () :=
  ⟨_, rfl, driver_neverLoads rfl⟩

end WdmTest.EventLog
