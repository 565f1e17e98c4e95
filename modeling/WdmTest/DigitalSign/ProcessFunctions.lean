import WdmTest.DigitalSign.Model

/-!
`GetProcessName` and the process notification callback of
WDMDigitalSignCheckTest. What the object manager, the process query and the
closing of the handle answer is an argument, the buffer is the name it holds or
nothing while it is zeroed, and the calls are recorded in order.

The fields state what these routines document: a failed open leaves the handle
null, a query that succeeds fills the buffer, one that finds no room for the
path fails and leaves it as it was. Any other failure may leave anything.
-/
namespace WdmTest.DigitalSign

namespace Const
def procNameLen : UInt32 := 4096
/-- The size of a `UNICODE_STRING` on x64. -/
def unicodeStringSize : Nat := 16
end Const

/-- What the buffer needs for a path: the string structure, the characters and a
terminator. -/
def imageNameSize (path : List UInt16) : Nat := Const.unicodeStringSize + 2 * (path.length + 1)

structure OpenOutcome where
  status : NtStatus
  handle : UInt64
  failed : ntSuccess status = false → handle = 0

/-- What `ZwQueryInformationProcess` returns and leaves in the zeroed buffer. -/
structure QueryOutcome (path : List UInt16) (bufSize : UInt32) where
  status : NtStatus
  name : Option (List UInt16)
  filled : ntSuccess status = true → name = some path
  tooLong : bufSize.toNat < imageNameSize path → ntSuccess status = false ∧ name = none

/-- The answers to the calls that one run of `GetProcessName` may make. -/
structure NameCalls (path : List UInt16) (bufSize : UInt32) where
  opened : OpenOutcome
  query : QueryOutcome path bufSize
  closeStatus : NtStatus

inductive ProcessCall where
  | refObjectByPtr (proc : UInt64)
  | queryImageFileName (handle : UInt64) (bufSize : UInt32)
  | zwClose (handle : UInt64)
deriving DecidableEq, Repr

structure NameResult where
  status : NtStatus
  name : Option (List UInt16)
  trace : Trace ProcessCall (List Char) := {}

def openFailedLine (status : NtStatus) : List Char :=
  "[Roy] ObOpenObjectByPointer Failed: ".toList ++ hexLower 8 status.toUInt32.toNat ++ "\n".toList

def queryFailedLine (proc : UInt64) : List Char :=
  "[Roy] failed to get process(".toList ++ hexUpper 16 proc.toNat ++ ") image name.\n".toList

/-- The code behind the label `end`. -/
def closeHandle (handle : UInt64) (closeStatus : NtStatus) (r : NameResult) : NameResult :=
  if handle ≠ 0 then
    { r with status := closeStatus, trace := r.trace.andThen { events := [.zwClose handle] } }
  else r

section
variable {path : List UInt16} {bufSize : UInt32}

def getProcessName (proc : UInt64) (k : NameCalls path bufSize) : NameResult :=
  if proc = 0 then { status := NtStatus.internalError, name := none }
  else if ntSuccess k.opened.status then
    closeHandle k.opened.handle k.closeStatus
      { status := k.query.status
        name := k.query.name
        trace := {
          events := [.refObjectByPtr proc, .queryImageFileName k.opened.handle bufSize]
          output := if ntSuccess k.query.status then [] else [queryFailedLine proc] } }
  else
    closeHandle k.opened.handle k.closeStatus
      { status := k.opened.status
        name := none
        trace := {
          events := [.refObjectByPtr proc]
          output := [openFailedLine k.opened.status] } }

end

/-! ## The callback -/

inductive NotifyEvent where
  | allocate
  | call (c : ProcessCall)
  | readName (name : Option (List UInt16))
  | printCertInfo
  | cert (a : Access)
  | free
deriving DecidableEq, Repr

/-- `%S` of the buffer's string, whose pointer is null in a zeroed buffer. -/
def launchLine (name : Option (List UInt16)) : List Char :=
  "[Roy] Launch process : ".toList ++
    (match name with
      | some path => path.map fun c => Char.ofNat c.toNat
      | none => "(null)".toList) ++ "\n".toList

def reportLaunch (name : Option (List UInt16)) (file : CiOutcome) :
    Trace NotifyEvent (List Char) :=
  Trace.andThen { events := [.readName name], output := [launchLine name] } <|
    Trace.andThen { events := [.printCertInfo] } ((printCertInfo file).mapEvents .cert)

/-- `info` is none when a process ends; else it stands for its file object, as
`CiValidateFileObject` sees it. -/
def processNotifyCB {path : List UInt16} (proc : UInt64) (info : Option CiOutcome)
    (allocated : Bool) (k : NameCalls path Const.procNameLen) : Trace NotifyEvent (List Char) :=
  match info with
  | none => {}
  | some file =>
      if allocated then
        let r := getProcessName proc k
        Trace.andThen { events := [.allocate] } <| (r.trace.mapEvents .call).andThen <|
          (if ntSuccess r.status then reportLaunch r.name file else {}).andThen
            { events := [.free] }
      else { events := [.allocate] }

end WdmTest.DigitalSign
