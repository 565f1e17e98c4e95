import WdmTest.Kernel

/-!
What WdfReadRegistryTest and EventLogTest have in common: both come from one
template, and their device, their queue and the callbacks of the framework are the
same up to the name of the driver and the GUID of its interface. A function is
modelled by its status and the calls it makes, in order.

What the framework answers is an argument. The contexts of the device and of the
queue hold a placeholder that is never read, so they are left out.
-/
namespace WdmTest.Wdf

inductive TraceLevel where
  | fatal
  | error
  | warning
  | information
  | verbose
deriving DecidableEq, Repr

inductive TraceFlag where
  | traceDriver
  | traceQueue
deriving DecidableEq, Repr

/-- A message of `TraceEvents`; `status` is the argument of `%!STATUS!`, which the
tracing facility puts behind the text. -/
structure TraceMessage where
  level : TraceLevel
  flag : TraceFlag
  text : List Char
  status : Option NtStatus := none
deriving DecidableEq, Repr

/-- A call with the registry; an open that fails gives no key. -/
inductive RegistryCall where
  | openParametersKey (key : Option UInt64)
  | openKey (parent : UInt64) (name : List Char) (key : Option UInt64)
  | queryValue (key : UInt64) (name : List Char) (size : Nat)
  | close (key : UInt64)
deriving DecidableEq, Repr

/-- A call, or the moment at which the framework hands a request over. A stop at
the debugger shows a buffer. -/
inductive Call where
  | wppInitTracing
  | wppCleanup
  | traceEvents (message : TraceMessage)
  | wdfDriverCreate
  | wdfDeviceCreate
  | wdfDeviceCreateDeviceInterface (guid : Guid)
  | wdfIoQueueCreate
  | registry (call : RegistryCall)
  | dbgBreakPoint (buffer : List UInt8)
  | received (request : UInt64)
  | wdfRequestComplete (request : UInt64) (status : NtStatus)
deriving DecidableEq, Repr

structure Outcome where
  status : NtStatus
  calls : List Call

/-- What sets a driver apart; `body` is what its `DriverEntry` goes on to once the
driver object exists. -/
structure Project (α : Type) where
  name : List Char
  interfaceGuid : Guid
  body : α → Outcome

def trace (level : TraceLevel) (text : List Char) : Call :=
  .traceEvents { level, flag := .traceDriver, text }

def traceFailure (flag : TraceFlag) (text : List Char) (status : NtStatus) : Call :=
  .traceEvents { level := .error, flag, text, status := some status }

/-- What the framework answers when a device is added. -/
structure DeviceAnswers where
  device : NtStatus
  interface : NtStatus
  queue : NtStatus
deriving DecidableEq, Repr

def DeviceAnswers.ready (k : DeviceAnswers) : Bool :=
  ntSuccess k.device && ntSuccess k.interface && ntSuccess k.queue

def queueInitialize (queue : NtStatus) : Outcome where
  status := queue
  calls :=
    if ntSuccess queue then [.wdfIoQueueCreate]
    else [.wdfIoQueueCreate, traceFailure .traceQueue "WdfIoQueueCreate failed ".toList queue]

def createDevice (guid : Guid) (k : DeviceAnswers) : Outcome :=
  if ntSuccess k.device then
    if ntSuccess k.interface then
      let r := queueInitialize k.queue
      ⟨r.status, [.wdfDeviceCreate, .wdfDeviceCreateDeviceInterface guid] ++ r.calls⟩
    else ⟨k.interface, [.wdfDeviceCreate, .wdfDeviceCreateDeviceInterface guid]⟩
  else ⟨k.device, [.wdfDeviceCreate]⟩

/-- A request of a device with what its handler is told of it. -/
structure IoRequest where
  queue : UInt64
  request : UInt64
  outputBufferLength : UInt64
  inputBufferLength : UInt64
  ioControlCode : UInt32
deriving DecidableEq, Repr

/-- `%d` prints the lower half of a length. -/
def lowInt (n : UInt64) : List Char := Decimal.ofInt n.toUInt32.toInt32.toInt

def pointer (p : UInt64) : List Char := "0x".toList ++ hexUpper 16 p.toNat

namespace Project
variable {α : Type} (p : Project α)

def evtDeviceAdd (k : DeviceAnswers) : Outcome :=
  let r := createDevice p.interfaceGuid k
  ⟨r.status, [trace .information (p.name ++ "EvtDeviceAdd Entry".toList)] ++ r.calls ++
    [trace .information (p.name ++ "EvtDeviceAdd Exit".toList)]⟩

def evtDriverContextCleanup : List Call :=
  [trace .information (p.name ++ "EvtDriverContextCleanup Entry".toList), .wppCleanup]

def deviceControlLine (io : IoRequest) : List Char :=
  p.name ++ "EvtIoDeviceControl Queue ".toList ++ pointer io.queue ++ ", Request ".toList ++
    pointer io.request ++ " OutputBufferLength ".toList ++ lowInt io.outputBufferLength ++
    " InputBufferLength ".toList ++ lowInt io.inputBufferLength ++
    " IoControlCode ".toList ++ Decimal.ofInt io.ioControlCode.toInt32.toInt

def evtIoDeviceControl (io : IoRequest) : List Call :=
  [.received io.request,
    .traceEvents { level := .information, flag := .traceQueue, text := p.deviceControlLine io },
    .wdfRequestComplete io.request NtStatus.success]

def stopLine (queue request : UInt64) (actionFlags : UInt32) : List Char :=
  p.name ++ "EvtIoStop Queue ".toList ++ pointer queue ++ ", Request ".toList ++
    pointer request ++ " ActionFlags ".toList ++ Decimal.ofInt actionFlags.toInt32.toInt

def evtIoStop (queue request : UInt64) (actionFlags : UInt32) : List Call :=
  [.traceEvents { level := .information, flag := .traceQueue
                  text := p.stopLine queue request actionFlags }]

/-- `created` is what `WdfDriverCreate` returns. -/
def driverEntry (created : NtStatus) (a : α) : Outcome :=
  let start := [.wppInitTracing, trace .information "DriverEntry Entry".toList, .wdfDriverCreate]
  if ntSuccess created then ⟨(p.body a).status, start ++ (p.body a).calls⟩
  else ⟨created, start ++
    [traceFailure .traceDriver "WdfDriverCreate failed ".toList created, .wppCleanup]⟩

end Project
end WdmTest.Wdf
