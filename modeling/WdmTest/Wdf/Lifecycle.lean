import WdmTest.Lib.Ledger
import WdmTest.Lib.Transition
import WdmTest.Wdf.Model

/-!
The life of a driver of the template among the calls of the framework: it is
loaded, devices come and go, requests are dispatched in parallel, it is unloaded
and may be loaded again. The framework deletes the driver object when the driver
is unloaded and also when `DriverEntry` fails after it was created; a device goes
when no request of it is being served, and the driver when all devices are gone.

What the rest of `DriverEntry` does is a parameter: it has to leave tracing on and
close the keys it opens.
-/
namespace WdmTest.Wdf
open Ledger Transition

/-- A call in the life of the driver; the callbacks for requests belong to a
device. -/
structure Event where
  device : Option Nat
  call : Call
deriving DecidableEq, Repr

structure Driver where
  loaded : Bool
  devices : List Nat
  callbacks : Pool Event

def unloadedDriver : Driver where
  loaded := false
  devices := []
  callbacks := {}

inductive Action (α : Type) where
  | load (created : NtStatus) (a : α)
  | addDevice (device : Nat) (k : DeviceAnswers)
  | ioDeviceControl (device : Nat) (io : IoRequest)
  | ioStop (device : Nat) (queue request : UInt64) (actionFlags : UInt32)
  | advance (i : Nat)
  | removeDevice (device : Nat)
  | unload

def Driver.record (d : Driver) (calls : List Call) : Driver :=
  { d with callbacks := d.callbacks.record (calls.map (Event.mk none)) }

/-- A callback of a device starts. -/
def Driver.callback (d : Driver) (device : Nat) (calls : List Call) : Driver :=
  let t : Trace Event Unit := { events := calls.map (Event.mk (some device)) }
  { d with callbacks := d.callbacks.start t }

/-- No callback of the device has anything left to do. -/
def Driver.served (d : Driver) (device : Nat) : Bool :=
  d.callbacks.parties.all fun q => q.todo.all fun e => e.device ≠ some device

namespace Project
variable {α : Type} (p : Project α)

/-- `DriverEntry`, and the cleanup callback if it fails with a driver object. -/
def loadCalls (created : NtStatus) (a : α) : List Call :=
  (p.driverEntry created a).calls ++
    if ntSuccess created && !ntSuccess (p.driverEntry created a).status then
      p.evtDriverContextCleanup
    else []

def step (d : Driver) : Action α → Option Driver
  | .load created a =>
      if d.loaded = false then
        some { d.record (p.loadCalls created a) with
          loaded := ntSuccess (p.driverEntry created a).status }
      else none
  | .addDevice device k =>
      if d.loaded = true ∧ device ∉ d.devices then
        some { d.record (p.evtDeviceAdd k).calls with
          devices := if ntSuccess (p.evtDeviceAdd k).status then device :: d.devices
            else d.devices }
      else none
  | .ioDeviceControl device io =>
      if device ∈ d.devices then some (d.callback device (p.evtIoDeviceControl io)) else none
  | .ioStop device queue request actionFlags =>
      if device ∈ d.devices then
        some (d.callback device (p.evtIoStop queue request actionFlags))
      else none
  | .advance i => (d.callbacks.advance i).map fun callbacks => { d with callbacks }
  | .removeDevice device =>
      if device ∈ d.devices ∧ d.served device = true then
        some { d with devices := d.devices.filter (· ≠ device) }
      else none
  | .unload =>
      if d.loaded = true ∧ d.devices = [] then
        some { d.record p.evtDriverContextCleanup with loaded := false }
      else none

end Project

/-! ## What is watched -/

/-- Tracing is initialised and cleaned up in turn and used only in between. -/
def tracing (on : Bool) : Call → Option Bool
  | .wppInitTracing => if on then none else some true
  | .wppCleanup => if on then some false else none
  | .traceEvents _ => if on then some true else none
  | .wdfDriverCreate | .wdfDeviceCreate | .wdfDeviceCreateDeviceInterface _ | .wdfIoQueueCreate
  | .registry _ | .dbgBreakPoint _ | .received _ | .wdfRequestComplete _ _ => some on

def giveKey (opened : List UInt64) : Option UInt64 → Option (List UInt64)
  | none => some opened
  | some key => if key ∈ opened then none else some (key :: opened)

def Call.owned (request : UInt64) : Call → Int
  | .received r => if r = request then 1 else 0
  | .wdfRequestComplete r _ => if r = request then -1 else 0
  | .wppInitTracing | .wppCleanup | .traceEvents _ | .wdfDriverCreate | .wdfDeviceCreate
  | .wdfDeviceCreateDeviceInterface _ | .wdfIoQueueCreate | .registry _ | .dbgBreakPoint _ => 0

def Event.owned (request : UInt64) (e : Event) : Int := e.call.owned request

/-- How often a request was handed over and not yet completed. -/
def Driver.owned (d : Driver) (request : UInt64) : Int :=
  held (Event.owned request) d.callbacks.log

def Driver.calls (d : Driver) : List Call := d.callbacks.log.map Event.call

/-- Keys are used and closed while they are open; a key that is open is not given
again. -/
def keys (opened : List UInt64) : Call → Option (List UInt64)
  | .registry (.openParametersKey key) => giveKey opened key
  | .registry (.openKey parent _ key) => if parent ∈ opened then giveKey opened key else none
  | .registry (.queryValue key _ _) => if key ∈ opened then some opened else none
  | .registry (.close key) => if key ∈ opened then some (opened.erase key) else none
  | .wppInitTracing | .wppCleanup | .traceEvents _ | .wdfDriverCreate | .wdfDeviceCreate
  | .wdfDeviceCreateDeviceInterface _ | .wdfIoQueueCreate | .dbgBreakPoint _ | .received _
  | .wdfRequestComplete _ _ => some opened

/-- A call that has no part in a request. -/
def Call.Apart (c : Call) : Prop := ∀ request, c.owned request = 0

/-! ## One call of the driver -/

/-- Calls that use tracing as it is turned on and off, close the keys they open and
touch no request. -/
structure Balanced (on on' : Bool) (calls : List Call) : Prop where
  traced : run tracing on calls = some on'
  closed : run keys [] calls = some []
  apart : ∀ c ∈ calls, c.Apart

def Project.Orderly {α : Type} (p : Project α) : Prop :=
  ∀ a, Balanced true true (p.body a).calls

section Calls
variable {α : Type} {p : Project α} {on on' on'' : Bool} {calls calls' : List Call}

theorem Balanced.append (h : Balanced on on' calls) (h' : Balanced on' on'' calls') :
    Balanced on on'' (calls ++ calls') where
  traced := run_append.mpr ⟨on', h.traced, h'.traced⟩
  closed := run_append.mpr ⟨[], h.closed, h'.closed⟩
  apart := List.forall_mem_append.mpr ⟨h.apart, h'.apart⟩

theorem Call.Apart.not_complete {c : Call} (h : c.Apart) (request : UInt64) (status : NtStatus) :
    c ≠ .wdfRequestComplete request status := by
  rintro rfl
  have hzero := h request
  simp [Call.owned] at hzero

theorem balanced_nil : Balanced on on [] := ⟨rfl, rfl, nofun⟩

theorem balanced_single {c : Call} (htraced : tracing on c = some on')
    (hclosed : keys [] c = some []) (hapart : c.Apart) : Balanced on on' [c] where
  traced := by rw [run, htraced]; rfl
  closed := by rw [run, hclosed]; rfl
  apart := List.forall_mem_singleton.mpr hapart

theorem trace_balanced (level : TraceLevel) (text : List Char) :
    Balanced true true [trace level text] :=
  balanced_single rfl rfl fun _ => rfl

theorem traceFailure_balanced (flag : TraceFlag) (text : List Char) (status : NtStatus) :
    Balanced true true [traceFailure flag text status] :=
  balanced_single rfl rfl fun _ => rfl

/-- A device is added exactly when it, its interface and its queue were created. -/
theorem evtDeviceAdd_status (k : DeviceAnswers) :
    ntSuccess (p.evtDeviceAdd k).status = k.ready := by
  have hadd : (p.evtDeviceAdd k).status = (createDevice p.interfaceGuid k).status := rfl
  have hqueue : (queueInitialize k.queue).status = k.queue := rfl
  rw [hadd, createDevice, DeviceAnswers.ready]
  cases hdevice : ntSuccess k.device with
  | false => simp [hdevice]
  | true =>
      cases hinterface : ntSuccess k.interface with
      | false => simp [hinterface]
      | true => simp [hqueue]

theorem createDevice_balanced (guid : Guid) (k : DeviceAnswers) :
    Balanced true true (createDevice guid k).calls := by
  have hdevice : Balanced true true [.wdfDeviceCreate] := balanced_single rfl rfl fun _ => rfl
  have hinterface : Balanced true true [.wdfDeviceCreateDeviceInterface guid] :=
    balanced_single rfl rfl fun _ => rfl
  have hqueue : Balanced true true [.wdfIoQueueCreate] := balanced_single rfl rfl fun _ => rfl
  unfold createDevice queueInitialize
  split
  · split
    · apply (hdevice.append hinterface).append
      split
      · exact hqueue
      · exact hqueue.append (traceFailure_balanced _ _ _)
    · exact hdevice.append hinterface
  · exact hdevice

theorem evtDeviceAdd_balanced (k : DeviceAnswers) :
    Balanced true true (p.evtDeviceAdd k).calls :=
  ((trace_balanced _ _).append (createDevice_balanced p.interfaceGuid k)).append
    (trace_balanced _ _)

theorem evtDriverContextCleanup_balanced : Balanced true false p.evtDriverContextCleanup :=
  (trace_balanced _ _).append (balanced_single rfl rfl fun _ => rfl)

/-- Tracing stays on after a load exactly when it succeeds. -/
theorem loadCalls_balanced (hp : p.Orderly) (created : NtStatus) (a : α) :
    Balanced false (ntSuccess (p.driverEntry created a).status) (p.loadCalls created a) := by
  have hinit : Balanced false true [.wppInitTracing] := balanced_single rfl rfl fun _ => rfl
  have hcreate : Balanced true true [.wdfDriverCreate] := balanced_single rfl rfl fun _ => rfl
  have hcleanup : Balanced true false [.wppCleanup] := balanced_single rfl rfl fun _ => rfl
  have hstart := (hinit.append (trace_balanced .information "DriverEntry Entry".toList)).append
    hcreate
  unfold Project.loadCalls Project.driverEntry
  cases hcreated : ntSuccess created with
  | false =>
      simp only [Bool.false_eq_true, if_false, Bool.false_and, List.append_nil, hcreated]
      exact hstart.append ((traceFailure_balanced _ _ _).append hcleanup)
  | true =>
      simp only [if_true, Bool.true_and]
      apply (hstart.append (hp a)).append
      cases ntSuccess (p.body a).status with
      | false => exact evtDriverContextCleanup_balanced
      | true => exact balanced_nil

end Calls

/-! ## Runs -/

/-- What callbacks of devices still do: they belong to a device that is there, use
tracing as they find it and complete requests with success. -/
structure Event.Due (devices : List Nat) (e : Event) : Prop where
  device : ∃ device ∈ devices, e.device = some device
  traced : tracing true e.call = some true
  closed : keys [] e.call = some []
  succeeds : ∀ request status, e.call = .wdfRequestComplete request status →
    status = NtStatus.success

/-- What holds at any time. -/
structure Driver.Sound (d : Driver) : Prop where
  traced : run tracing false d.calls = some d.loaded
  closed : run keys [] d.calls = some []
  owned : ∀ request, d.callbacks.Sound (Event.owned request) 1
  succeeds : ∀ request status, .wdfRequestComplete request status ∈ d.calls →
    status = NtStatus.success
  due : d.callbacks.Ahead (Event.Due d.devices)
  ends : ∀ q ∈ d.callbacks.parties, q.completes = true
  loaded : d.devices ≠ [] → d.loaded = true

section Steps
variable {α : Type} {p : Project α} {d e : Driver}

theorem unloadedDriver_sound : unloadedDriver.Sound where
  traced := rfl
  closed := rfl
  owned _ := pool_empty_sound _ _
  succeeds _ _ h := absurd h List.not_mem_nil
  due := pool_empty_ahead _
  ends := nofun
  loaded h := absurd rfl h

theorem record_calls (d : Driver) (calls : List Call) :
    (d.record calls).calls = d.calls ++ calls := by
  rw [Driver.calls, Driver.calls, Driver.record, Pool.record, List.map_append, List.map_map]
  exact congrArg _ (List.map_id calls)

/-- Calls outside the callbacks leave the requests alone; they may change whether
tracing is on and which devices there are. -/
theorem Driver.Sound.record (h : d.Sound) {calls : List Call} {loaded : Bool}
    {devices : List Nat} (hcalls : Balanced d.loaded loaded calls)
    (hdevices : ∀ device ∈ d.devices, device ∈ devices) (hloaded : devices ≠ [] → loaded = true) :
    Driver.Sound { d.record calls with loaded, devices } := by
  refine ⟨?_, ?_, ?_, ?_, ?_, h.ends, hloaded⟩
  · change run tracing false (d.record calls).calls = some loaded
    rw [record_calls]
    exact run_append.mpr ⟨d.loaded, h.traced, hcalls.traced⟩
  · change run keys [] (d.record calls).calls = some []
    rw [record_calls]
    exact run_append.mpr ⟨[], h.closed, hcalls.closed⟩
  · intro request
    apply (h.owned request).record
    intro e he
    obtain ⟨c, hc, rfl⟩ := List.mem_map.mp he
    exact hcalls.apart c hc request
  · intro request status hmem
    change Call.wdfRequestComplete request status ∈ (d.record calls).calls at hmem
    rw [record_calls] at hmem
    cases List.mem_append.mp hmem with
    | inl hold => exact h.succeeds request status hold
    | inr hnew => exact absurd rfl ((hcalls.apart _ hnew).not_complete request status)
  · refine (h.due.mono ?_ : Pool.Ahead (Event.Due devices) d.callbacks)
    intro e he
    obtain ⟨device, hdevice, heq⟩ := he.device
    exact ⟨⟨device, hdevices device hdevice, heq⟩, he.traced, he.closed, he.succeeds⟩

/-- A callback of a device that is there. -/
theorem Driver.Sound.callback (h : d.Sound) {device : Nat} (hdevice : device ∈ d.devices)
    {calls : List Call} (htraced : ∀ c ∈ calls, tracing true c = some true)
    (hclosed : ∀ c ∈ calls, keys [] c = some [])
    (hsucceeds : ∀ request status, .wdfRequestComplete request status ∈ calls →
      status = NtStatus.success)
    (howned : ∀ request, Moves (Event.owned request) 1 0 0
      (⟨calls.map (Event.mk (some device)), [], true⟩ : Trace Event Unit)) :
    (d.callback device calls).Sound := by
  refine ⟨h.traced, h.closed, ?_, h.succeeds, ?_, Pool.start_all_completes h.ends rfl, h.loaded⟩
  · intro request
    exact (h.owned request).start (howned request)
  · apply h.due.start
    intro e he
    obtain ⟨c, hc, rfl⟩ := List.mem_map.mp he
    exact ⟨⟨device, hdevice, rfl⟩, htraced c hc, hclosed c hc,
      fun request status heq => hsucceeds request status (heq ▸ hc)⟩

theorem evtIoDeviceControl_moves (io : IoRequest) (device : Nat) (request : UInt64) :
    Moves (Event.owned request) 1 0 0
      (⟨(p.evtIoDeviceControl io).map (Event.mk (some device)), [], true⟩ : Trace Event Unit) := by
  unfold Project.evtIoDeviceControl
  by_cases hrequest : io.request = request
  · refine ⟨?_, ?_⟩
    · simp [Within, Event.owned, Call.owned, hrequest]
    · simp [Event.owned, Call.owned, hrequest]
  · refine moves_still ?_ (by decide)
    simp [Event.owned, Call.owned, hrequest]

theorem Driver.Sound.advance (h : d.Sound) {i : Nat} {callbacks : Pool Event}
    (hstep : d.callbacks.advance i = some callbacks) : { d with callbacks }.Sound := by
  obtain ⟨hahead, e, he, hlog⟩ := h.due.advance hstep
  have hcalls : Driver.calls { d with callbacks } = d.calls ++ [e.call] := by
    rw [Driver.calls, hlog, List.map_append]
    rfl
  have hloaded : d.loaded = true := by
    obtain ⟨device, hdevice, -⟩ := he.device
    exact h.loaded (List.ne_nil_of_mem hdevice)
  refine ⟨?_, ?_, fun request => (h.owned request).advance hstep, ?_, hahead,
    Pool.advance_all_completes h.ends hstep, h.loaded⟩
  · rw [hcalls]
    refine run_append.mpr ⟨d.loaded, h.traced, ?_⟩
    simp [run, hloaded, he.traced]
  · rw [hcalls]
    refine run_append.mpr ⟨[], h.closed, ?_⟩
    simp [run, he.closed]
  · intro request status hmem
    rw [hcalls] at hmem
    cases List.mem_append.mp hmem with
    | inl hold => exact h.succeeds request status hold
    | inr hnew => exact he.succeeds request status (List.mem_singleton.mp hnew).symm

theorem Driver.Sound.removeDevice (h : d.Sound) {device : Nat} (hserved : d.served device = true) :
    Driver.Sound { d with devices := d.devices.filter (· ≠ device) } := by
  refine ⟨h.traced, h.closed, h.owned, h.succeeds, ?_, h.ends, ?_⟩
  · intro q hq e he
    have hdue := h.due q hq e he
    obtain ⟨device', hdevice', heq⟩ := hdue.device
    have hother := List.all_eq_true.mp (List.all_eq_true.mp hserved q hq) e he
    refine ⟨⟨device', List.mem_filter.mpr ⟨hdevice', ?_⟩, heq⟩, hdue.traced, hdue.closed,
      hdue.succeeds⟩
    simpa [heq] using hother
  · intro hsome
    apply h.loaded
    intro hnone
    simp [hnone] at hsome

theorem Driver.Sound.step (hp : p.Orderly) (h : d.Sound) {a : Action α}
    (hstep : p.step d a = some e) : e.Sound := by
  cases a with
  | load created a =>
      simp only [Project.step, Option.ite_none_right_eq_some, Option.some.injEq] at hstep
      obtain ⟨hloaded, rfl⟩ := hstep
      refine h.record ?_ (fun _ hdevice => hdevice) ?_
      · rw [hloaded]
        exact loadCalls_balanced hp created a
      · intro hsome
        rw [h.loaded hsome] at hloaded
        cases hloaded
  | addDevice device k =>
      simp only [Project.step, Option.ite_none_right_eq_some, Option.some.injEq] at hstep
      obtain ⟨⟨hloaded, -⟩, rfl⟩ := hstep
      have hcalls : Balanced d.loaded d.loaded (p.evtDeviceAdd k).calls := by
        rw [hloaded]
        exact evtDeviceAdd_balanced k
      refine h.record hcalls ?_ (fun _ => hloaded)
      intro device' hdevice'
      split
      · exact List.mem_cons_of_mem device hdevice'
      · exact hdevice'
  | ioDeviceControl device io =>
      simp only [Project.step, Option.ite_none_right_eq_some, Option.some.injEq] at hstep
      obtain ⟨hdevice, rfl⟩ := hstep
      refine h.callback hdevice ?_ ?_ ?_ (evtIoDeviceControl_moves io device)
      · unfold Project.evtIoDeviceControl
        simp [tracing]
      · unfold Project.evtIoDeviceControl
        simp [keys]
      · unfold Project.evtIoDeviceControl
        simp
  | ioStop device queue request actionFlags =>
      simp only [Project.step, Option.ite_none_right_eq_some, Option.some.injEq] at hstep
      obtain ⟨hdevice, rfl⟩ := hstep
      unfold Project.evtIoStop
      refine h.callback hdevice ?_ ?_ ?_ ?_
      · simp [tracing]
      · simp [keys]
      · simp
      · intro request
        refine moves_still ?_ (by decide)
        simp [Event.owned, Call.owned]
  | advance i =>
      obtain ⟨callbacks, hcallbacks, rfl⟩ := Option.map_eq_some_iff.mp hstep
      exact h.advance hcallbacks
  | removeDevice device =>
      simp only [Project.step, Option.ite_none_right_eq_some, Option.some.injEq] at hstep
      obtain ⟨⟨-, hserved⟩, rfl⟩ := hstep
      exact h.removeDevice hserved
  | unload =>
      simp only [Project.step, Option.ite_none_right_eq_some, Option.some.injEq] at hstep
      obtain ⟨⟨hloaded, hnone⟩, rfl⟩ := hstep
      refine h.record ?_ (fun _ hdevice => hdevice) ?_
      · rw [hloaded]
        exact evtDriverContextCleanup_balanced
      · intro hsome
        exact absurd hnone hsome

end Steps

def Project.Reachable {α : Type} (p : Project α) : Driver → Prop :=
  Transition.Reachable p.step fun d => d = unloadedDriver

section Reachable
variable {α : Type} {p : Project α} {d : Driver}

theorem reachable_sound (hp : p.Orderly) (h : p.Reachable d) : d.Sound := by
  refine Transition.Reachable.invariant ?_ (fun _ _ _ hs hstep => Driver.Sound.step hp hs hstep) h
  rintro d rfl
  exact unloadedDriver_sound

/-- Without devices nothing of the driver is under way. -/
theorem Driver.Sound.idle (h : d.Sound) (hnone : d.devices = []) : d.callbacks.idle = true := by
  refine Pool.Ahead.idle (h.due.mono ?_) h.ends
  intro e he
  obtain ⟨device, hdevice, -⟩ := he.device
  rw [hnone] at hdevice
  exact List.not_mem_nil hdevice

/-- What a sound driver keeps to, seen from outside. -/
structure Driver.Keeps (d : Driver) : Prop where
  traced : run tracing false d.calls = some d.loaded
  closed : run keys [] d.calls = some []
  owned : ∀ request, 0 ≤ d.owned request ∧ d.owned request ≤ d.callbacks.active
  succeeds : ∀ request status, .wdfRequestComplete request status ∈ d.calls →
    status = NtStatus.success
  quiet : d.devices = [] → d.callbacks.idle = true ∧ ∀ request, d.owned request = 0
  loaded : d.devices ≠ [] → d.loaded = true

theorem Driver.Sound.keeps (h : d.Sound) : d.Keeps where
  traced := h.traced
  closed := h.closed
  owned request := by
    have hbounds := (h.owned request).bounds
    rw [Int.one_mul] at hbounds
    exact hbounds
  succeeds := h.succeeds
  quiet hnone := ⟨h.idle hnone, fun request => (h.owned request).idle (h.idle hnone)⟩
  loaded := h.loaded

/-- From any state the framework can get rid of the driver. -/
theorem exists_unloaded (hp : p.Orderly) (h : p.Reachable d) :
    ∃ as e, run p.step d as = some e ∧ e.loaded = false := by
  refine exists_run_of_progress (P := Driver.Sound)
    (μ := fun u => u.callbacks.left + u.devices.length + u.loaded.toNat) ?_ (reachable_sound hp h)
  intro u hu hloaded
  rw [Bool.not_eq_false] at hloaded
  suffices hstep : ∃ a v, p.step u a = some v ∧
      v.callbacks.left + v.devices.length + v.loaded.toNat <
        u.callbacks.left + u.devices.length + u.loaded.toNat by
    obtain ⟨a, v, hv, hlt⟩ := hstep
    exact ⟨a, v, hv, hu.step hp hv, hlt⟩
  cases hidle : u.callbacks.idle with
  | false =>
      obtain ⟨i, callbacks, hcallbacks⟩ := Pool.exists_advance hu.ends hidle
      have hleft := Pool.advance_left hcallbacks
      refine ⟨.advance i, { u with callbacks }, ?_, ?_⟩
      · simp [Project.step, hcallbacks]
      · simp only
        omega
  | true =>
      cases hdevices : u.devices with
      | nil =>
          refine ⟨.unload, { u.record p.evtDriverContextCleanup with loaded := false }, ?_, ?_⟩
          · simp [Project.step, hloaded, hdevices]
          · simp [Driver.record, Pool.record, Pool.left, hloaded, hdevices]
      | cons device devices =>
          have hserved : u.served device = true := by
            rw [Driver.served, List.all_eq_true]
            intro q hq
            have hended := List.all_eq_true.mp hidle q hq
            rw [Party.ended, Bool.and_eq_true, List.isEmpty_iff] at hended
            rw [hended.1]
            rfl
          have hshorter := List.length_filter_le (fun x => decide (x ≠ device)) devices
          refine ⟨.removeDevice device, { u with devices := u.devices.filter (· ≠ device) }, ?_, ?_⟩
          · simp [Project.step, hserved, hdevices]
          · simp only [hdevices, List.length_cons, ne_eq, not_true_eq_false, decide_false,
              Bool.false_eq_true, not_false_eq_true, List.filter_cons_of_neg] at hshorter ⊢
            omega

end Reachable

end WdmTest.Wdf
