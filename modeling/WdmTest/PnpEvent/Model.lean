import WdmTest.Lib.Bytes
import WdmTest.Lib.Ledger
import WdmTest.Kernel

/-!
PnpEventNotificationTest: `DriverEntry` registers a callback for the storage ports
there are and those to come, the callback prints what it is told and asks for the
device object behind the name, `DriverUnload` removes the registration.

The callback is called for the ports there are before the registration returns, so
it runs beside `DriverEntry` and beside itself. The kernel keeps the image while a
registration or a callback refers to it. A registration that fails calls nothing.

What `%S` makes of a name is the kernel's and a parameter: `wide`.
-/
namespace WdmTest.PnpEvent
open Ledger

/-- `DEVICE_INTERFACE_CHANGE_NOTIFICATION`; the name is what its buffer holds. -/
structure Notification where
  version : UInt16
  size : UInt16
  event : Guid
  interfaceClassGuid : Guid
  symbolicLinkName : List UInt16

/-- What `IoGetDeviceObjectPointer` returns. -/
structure OpenAnswer where
  status : NtStatus
  file : UInt64
  target : UInt64

inductive PnpCall where
  | dbgPrintEx (text : List Char)
  | ioGetDeviceObjectPointer (file : Option UInt64)
  | obDereferenceObject (file : UInt64)
deriving DecidableEq, Repr

/-- `%08X-%04X-%04X-%016llX`, the last eight bytes as one number. -/
def guidText (g : Guid) : List Char :=
  hexUpper 8 g.data1.toNat ++ "-".toList ++ hexUpper 4 g.data2.toNat ++ "-".toList ++
    hexUpper 4 g.data3.toNat ++ "-".toList ++ hexUpper 16 (Bytes.ofLE g.data4.toList)

/-- The name up to its terminator. -/
def Notification.name (n : Notification) : List UInt16 := n.symbolicLinkName.takeWhile (· ≠ 0)

def gotLine : List Char := "[PnpEvent Test] Got Notification!\n".toList

def versionLine (n : Notification) : List Char :=
  "    Ver=".toList ++ Decimal.ofInt n.version.toNat ++ ", Size=".toList ++
    Decimal.ofInt n.size.toNat ++ "\n".toList

def eventLine (n : Notification) : List Char :=
  "    Event=".toList ++ guidText n.event ++ "\n".toList

def interfaceClassLine (n : Notification) : List Char :=
  "    InterfaceClass=".toList ++ guidText n.interfaceClassGuid ++ "\n".toList

/-- `%S` reads up to the terminator. -/
def nameLine (wide : List UInt16 → List Char) (n : Notification) : List Char :=
  "    SymbolicLinkName=".toList ++ wide n.name ++ "\n".toList

def targetLine (target : UInt64) : List Char :=
  "    =>Src DeviceObject of event == ".toList ++ hexUpper 16 target.toNat ++ "\n".toList

def notifyCallback (wide : List UInt16 → List Char) (n : Notification) (k : OpenAnswer) :
    List PnpCall :=
  [.dbgPrintEx gotLine, .dbgPrintEx (versionLine n), .dbgPrintEx (eventLine n),
      .dbgPrintEx (interfaceClassLine n), .dbgPrintEx (nameLine wide n)] ++
    if ntSuccess k.status then
      [.ioGetDeviceObjectPointer (some k.file), .dbgPrintEx (targetLine k.target),
        .obDereferenceObject k.file]
    else [.ioGetDeviceObjectPointer none]

/-! ## The driver -/

inductive Phase where
  | absent
  | registering
  | loaded
  | unloading
deriving DecidableEq, Repr

/-- `registration` is what the kernel knows of the callback. -/
structure Driver where
  phase : Phase
  hNotifyEvent : UInt64
  registration : Option UInt64
  callbacks : Pool PnpCall

def initial : Driver where
  phase := .absent
  hNotifyEvent := 0
  registration := none
  callbacks := {}

def failedLine (status : NtStatus) : List Char :=
  "[PnpEvent Test] IoRegisterPlugPlayNotification() failed. Status=".toList ++
    hexUpper 8 status.toUInt32.toNat ++ "\n".toList

/-- `IoUnregisterPlugPlayNotification`; none for a handle that stands for nothing. -/
def ioUnregister (handle : UInt64) (d : Driver) : Option Driver :=
  if d.registration = some handle then some { d with registration := none } else none

def driverUnload (d : Driver) : Option Driver :=
  if d.hNotifyEvent ≠ 0 then
    (ioUnregister d.hNotifyEvent d).map fun e => { e with hNotifyEvent := 0 }
  else some d

inductive Action where
  | loadFails (status : NtStatus)
  | load (handle : UInt64)
  | registered
  | notify (n : Notification) (k : OpenAnswer)
  | advance (i : Nat)
  | driverUnload
  | removed

def step (wide : List UInt16 → List Char) (d : Driver) : Action → Option Driver
  | .loadFails status =>
      if d.phase = .absent ∧ ntSuccess status = false then
        some { d with
          hNotifyEvent := 0
          callbacks := d.callbacks.record [.dbgPrintEx (failedLine status)] }
      else none
  | .load handle =>
      if d.phase = .absent ∧ handle ≠ 0 then
        some { d with phase := .registering, hNotifyEvent := 0, registration := some handle }
      else none
  | .registered =>
      match d.phase, d.registration with
      | .registering, some handle => some { d with phase := .loaded, hNotifyEvent := handle }
      | _, _ => none
  | .notify n k =>
      if d.registration ≠ none then
        let t : Trace PnpCall Unit := { events := notifyCallback wide n k }
        some { d with callbacks := d.callbacks.start t }
      else none
  | .advance i => (d.callbacks.advance i).map fun callbacks => { d with callbacks }
  | .driverUnload =>
      if d.phase = .loaded then
        (PnpEvent.driverUnload d).map fun e => { e with phase := .unloading }
      else none
  | .removed =>
      if d.phase = .unloading ∧ d.registration = none ∧ d.callbacks.idle = true then
        some { d with phase := .absent }
      else none

end WdmTest.PnpEvent
