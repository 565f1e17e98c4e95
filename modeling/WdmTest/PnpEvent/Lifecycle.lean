import WdmTest.Lib.Transition
import WdmTest.PnpEvent.Model

/-!
What PnpEventNotificationTest holds over its life: a callback keeps a reference to
a file object only until it returns, the handle in the global is that of the
registration while the driver is loaded, and unloading removes the registration.
The failed load prints its status and leaves nothing behind.

The order in which callbacks print among each other is arbitrary.
-/
namespace WdmTest.PnpEvent
open Ledger Transition

/-- References to a file object. -/
def PnpCall.references (file : UInt64) : PnpCall → Int
  | .ioGetDeviceObjectPointer opened => if opened = some file then 1 else 0
  | .obDereferenceObject f => if f = file then -1 else 0
  | .dbgPrintEx _ => 0

def Driver.references (d : Driver) (file : UInt64) : Int :=
  held (PnpCall.references file) d.callbacks.log

theorem notifyCallback_moves (wide : List UInt16 → List Char) (n : Notification) (k : OpenAnswer)
    (file : UInt64) :
    Moves (PnpCall.references file) 1 0 0
      (⟨notifyCallback wide n k, [], true⟩ : Trace PnpCall Unit) := by
  have hstart : Moves (PnpCall.references file) 1 0 0
      (⟨[.dbgPrintEx gotLine, .dbgPrintEx (versionLine n), .dbgPrintEx (eventLine n),
        .dbgPrintEx (interfaceClassLine n), .dbgPrintEx (nameLine wide n)], [], true⟩ :
        Trace PnpCall Unit) := by
    refine moves_still ?_ (by decide)
    simp [PnpCall.references]
  have hopen : Moves (PnpCall.references file) 1 0 0
      (⟨if ntSuccess k.status then
        [.ioGetDeviceObjectPointer (some k.file), .dbgPrintEx (targetLine k.target),
          .obDereferenceObject k.file]
        else [.ioGetDeviceObjectPointer none], [], true⟩ : Trace PnpCall Unit) := by
    split
    · by_cases hfile : k.file = file
      · refine ⟨?_, ?_⟩
        · simp [Within, PnpCall.references, hfile]
        · simp [PnpCall.references, hfile]
      · refine moves_still ?_ (by decide)
        simp [PnpCall.references, hfile]
    · refine moves_still ?_ (by decide)
      simp [PnpCall.references]
  exact hstart.andThen hopen

/-- What holds at any time. -/
structure Driver.Sound (d : Driver) : Prop where
  references : ∀ file, d.callbacks.Sound (PnpCall.references file) 1
  ends : ∀ q ∈ d.callbacks.parties, q.completes = true
  registering : d.phase = .registering → ∃ handle ≠ 0, d.registration = some handle
  loaded : d.phase = .loaded → d.hNotifyEvent ≠ 0 ∧ d.registration = some d.hNotifyEvent
  unloading : d.phase = .unloading → d.registration = none
  absent : d.phase = .absent → d.registration = none ∧ d.callbacks.idle = true

section Steps
variable {wide : List UInt16 → List Char} {d e : Driver}

theorem initial_sound : initial.Sound where
  references _ := pool_empty_sound _ _
  ends := nofun
  registering := nofun
  loaded := nofun
  unloading := nofun
  absent _ := ⟨rfl, rfl⟩

theorem Driver.Sound.registered (h : d.Sound) :
    d.registration ≠ none ↔ d.phase = .registering ∨ d.phase = .loaded := by
  refine ⟨?_, ?_⟩
  · intro hsome
    cases hphase : d.phase with
    | absent => exact absurd (h.absent hphase).1 hsome
    | registering => exact Or.inl rfl
    | loaded => exact Or.inr rfl
    | unloading => exact absurd (h.unloading hphase) hsome
  · intro hphase
    cases hphase with
    | inl hregistering =>
        obtain ⟨handle, -, hsome⟩ := h.registering hregistering
        exact hsome ▸ Option.some_ne_none handle
    | inr hloaded => exact (h.loaded hloaded).2 ▸ Option.some_ne_none _

/-- Unloading removes the registration that is there. -/
theorem Driver.Sound.unload (h : d.Sound) (hloaded : d.phase = .loaded) :
    PnpEvent.step wide d .driverUnload =
      some { d with phase := .unloading, hNotifyEvent := 0, registration := none } := by
  obtain ⟨hhandle, hregistration⟩ := h.loaded hloaded
  simp [PnpEvent.step, driverUnload, ioUnregister, hloaded, hhandle, hregistration]

theorem Driver.Sound.step (h : d.Sound) {a : Action} (hstep : PnpEvent.step wide d a = some e) :
    e.Sound := by
  cases a with
  | loadFails status =>
      simp only [PnpEvent.step, Option.ite_none_right_eq_some, Option.some.injEq] at hstep
      obtain ⟨⟨habsent, -⟩, rfl⟩ := hstep
      have hother {phase : Phase} (hne : phase ≠ .absent) : d.phase ≠ phase :=
        fun heq => hne (heq.symm.trans habsent)
      refine ⟨?_, h.ends, ?_, ?_, h.unloading, h.absent⟩
      · intro file
        apply (h.references file).record
        simp [PnpCall.references]
      · exact fun hphase => absurd hphase (hother (by decide))
      · exact fun hphase => absurd hphase (hother (by decide))
  | load handle =>
      simp only [PnpEvent.step, Option.ite_none_right_eq_some, Option.some.injEq] at hstep
      obtain ⟨⟨-, hhandle⟩, rfl⟩ := hstep
      exact ⟨h.references, h.ends, fun _ => ⟨handle, hhandle, rfl⟩, nofun, nofun, nofun⟩
  | registered =>
      simp only [PnpEvent.step] at hstep
      split at hstep
      · rename_i handle hphase hregistration
        cases hstep
        obtain ⟨handle', hhandle', hsome⟩ := h.registering hphase
        rw [hregistration, Option.some.injEq] at hsome
        subst hsome
        exact ⟨h.references, h.ends, nofun, fun _ => ⟨hhandle', hregistration⟩, nofun, nofun⟩
      · cases hstep
  | notify n k =>
      simp only [PnpEvent.step, Option.ite_none_right_eq_some, Option.some.injEq] at hstep
      obtain ⟨hregistered, rfl⟩ := hstep
      refine ⟨fun file => (h.references file).start (notifyCallback_moves wide n k file),
        Pool.start_all_completes h.ends rfl, h.registering, h.loaded, h.unloading, ?_⟩
      intro habsent
      exact absurd (h.absent habsent).1 hregistered
  | advance i =>
      obtain ⟨callbacks, hcallbacks, rfl⟩ := Option.map_eq_some_iff.mp hstep
      refine ⟨fun file => (h.references file).advance hcallbacks,
        Pool.advance_all_completes h.ends hcallbacks, h.registering, h.loaded, h.unloading, ?_⟩
      intro habsent
      rw [Pool.advance_of_idle (h.absent habsent).2] at hcallbacks
      cases hcallbacks
  | driverUnload =>
      have hloaded : d.phase = .loaded := by
        by_contra hother
        simp [PnpEvent.step, hother] at hstep
      rw [h.unload hloaded, Option.some.injEq] at hstep
      subst hstep
      exact ⟨h.references, h.ends, nofun, nofun, fun _ => rfl, nofun⟩
  | removed =>
      simp only [PnpEvent.step, Option.ite_none_right_eq_some, Option.some.injEq] at hstep
      obtain ⟨⟨-, hnone, hidle⟩, rfl⟩ := hstep
      exact ⟨h.references, h.ends, nofun, nofun, nofun, fun _ => ⟨hnone, hidle⟩⟩

end Steps

def Reachable (wide : List UInt16 → List Char) : Driver → Prop :=
  Transition.Reachable (step wide) fun d => d = initial

theorem reachable_sound {wide : List UInt16 → List Char} {d : Driver} (h : Reachable wide d) :
    d.Sound := by
  refine Transition.Reachable.invariant ?_ (fun _ _ _ hs hstep => Driver.Sound.step hs hstep) h
  rintro d rfl
  exact initial_sound

/-- A file object is never dereferenced more often than it was referenced, and only
callbacks under way hold references. The kernel knows of the callback exactly while
the driver registers or is loaded, the driver that is loaded has the handle of the
registration, and a driver that is absent has left nothing. -/
theorem references_accounted {wide : List UInt16 → List Char} {d : Driver} (h : Reachable wide d) :
    (∀ file, 0 ≤ d.references file ∧ d.references file ≤ d.callbacks.active) ∧
      (d.registration ≠ none ↔ d.phase = .registering ∨ d.phase = .loaded) ∧
      (d.phase = .loaded → d.registration = some d.hNotifyEvent ∧
        ∃ e, step wide d .driverUnload = some e ∧ e.registration = none) ∧
      (d.phase = .absent → d.callbacks.idle = true ∧ ∀ file, d.references file = 0) := by
  have hs := reachable_sound h
  refine ⟨?_, hs.registered, ?_, ?_⟩
  · intro file
    have hbounds := (hs.references file).bounds
    rw [Int.one_mul] at hbounds
    exact hbounds
  · intro hloaded
    exact ⟨(hs.loaded hloaded).2, _, hs.unload hloaded, rfl⟩
  · intro habsent
    have hidle := (hs.absent habsent).2
    exact ⟨hidle, fun file => (hs.references file).idle hidle⟩

/-- The arrival of a storage port. -/
def arrival : Notification where
  version := 1
  size := 48
  event := ⟨0xCB3A4004, 0x46F0, 0x11D0, #v[0xB0, 0x8F, 0x00, 0x60, 0x97, 0x13, 0x05, 0x3F]⟩
  interfaceClassGuid :=
    ⟨0x2ACCFE60, 0xC130, 0x11D2, #v[0xB0, 0x82, 0x00, 0xA0, 0xC9, 0x1E, 0xFB, 0x8B]⟩
  symbolicLinkName := [0x5C, 0x50, 0x43, 0x49]

def opened : OpenAnswer where
  status := NtStatus.success
  file := 0xFFFFB00000001000
  target := 0xFFFFB00000002000

/-- ASCII characters are printed as they are. -/
def ascii (name : List UInt16) : List Char :=
  name.map fun c => if c < 0x80 then Char.ofNat c.toNat else '?'

/-- A port that is there is reported while the driver registers, another one later;
the first callback holds a reference when the driver is unloaded. -/
def unloadedEarly : List Action :=
  [.load 0xFFFFB00000003000, .notify arrival opened, .advance 0, .registered,
    .notify arrival opened, .advance 1, .advance 0, .advance 0, .advance 0, .advance 0, .advance 0,
    .driverUnload]

theorem references_accounted_unloadedEarly :
    ∃ d, run (step ascii) initial unloadedEarly = some d ∧ d.references opened.file = 1 ∧
      (∀ file, 0 ≤ d.references file ∧ d.references file ≤ d.callbacks.active) ∧
      (d.registration ≠ none ↔ d.phase = .registering ∨ d.phase = .loaded) ∧
      (d.phase = .loaded → d.registration = some d.hNotifyEvent ∧
        ∃ e, step ascii d .driverUnload = some e ∧ e.registration = none) ∧
      (d.phase = .absent → d.callbacks.idle = true ∧ ∀ file, d.references file = 0) :=
  ⟨_, rfl, rfl, references_accounted ⟨initial, unloadedEarly, rfl, rfl⟩⟩

/-- What it takes to get rid of the driver, beside the events of its callbacks. -/
def Phase.rank : Phase → Nat
  | .absent => 0
  | .unloading => 1
  | .loaded => 2
  | .registering => 3

/-- From any state the driver can be unloaded until nothing of it is left. -/
theorem exists_absent {wide : List UInt16 → List Char} {d : Driver} (h : Reachable wide d) :
    ∃ as e, run (step wide) d as = some e ∧ e.phase = .absent := by
  refine exists_run_of_progress (P := Driver.Sound)
    (μ := fun u => u.callbacks.left + u.phase.rank) ?_ (reachable_sound h)
  intro u hu hnot
  suffices hstep : ∃ a v, step wide u a = some v ∧
      v.callbacks.left + v.phase.rank < u.callbacks.left + u.phase.rank by
    obtain ⟨a, v, hv, hlt⟩ := hstep
    exact ⟨a, v, hv, hu.step hv, hlt⟩
  cases hphase : u.phase with
  | absent => exact absurd hphase hnot
  | registering =>
      obtain ⟨handle, -, hsome⟩ := hu.registering hphase
      refine ⟨.registered, { u with phase := .loaded, hNotifyEvent := handle }, ?_, ?_⟩
      · simp [step, hphase, hsome]
      · simp [Phase.rank]
  | loaded =>
      refine ⟨.driverUnload, _, hu.unload hphase, ?_⟩
      simp [Phase.rank]
  | unloading =>
      cases hidle : u.callbacks.idle with
      | true =>
          refine ⟨.removed, { u with phase := .absent }, ?_, ?_⟩
          · simp [step, hphase, hu.unloading hphase, hidle]
          · simp [Phase.rank]
      | false =>
          obtain ⟨i, callbacks, hcallbacks⟩ := Pool.exists_advance hu.ends hidle
          have hleft := Pool.advance_left hcallbacks
          refine ⟨.advance i, { u with callbacks }, ?_, ?_⟩
          · simp [step, hcallbacks]
          · simp only [hphase]
            omega

theorem exists_absent_unloadedEarly :
    ∃ d, run (step ascii) initial unloadedEarly = some d ∧
      ∃ as e, run (step ascii) d as = some e ∧ e.phase = .absent :=
  ⟨_, rfl, exists_absent ⟨initial, unloadedEarly, rfl, rfl⟩⟩

end WdmTest.PnpEvent
