import WdmTest.Kernel
import WdmTest.Lib.CString
import WdmTest.Lib.Decimal
import WdmTest.Lib.Transition
import Mathlib.Data.List.Range
import Mathlib.Logic.Function.Basic
import Mathlib.Tactic.Simps.Basic

/-!
The timers of MultiTimerTest, the DPC that registers them and the teardown.

The arrays Timer, DpcTimer and TimerCtx run in parallel, so a pointer into them
is an index; an index is checked against the length of the arrays where the
source computes one. Every DPC targets processor 0, so a handler runs as one
step; `DeInitDPC` runs beside the handlers and every read of a shared field is a
step of its own. The requests of the drivers to the kernel are kept as a history.
-/
namespace WdmTest.MultiTimer
open CString

namespace Const
def logSize : Nat := 8192
def timerCount : Nat := 5
def regInterval : Int64 := 1000
def tempStrSize : Nat := 128
end Const

def nul : Char := Char.ofNat 0

abbrev LogBuffer := Buffer nul Const.logSize

abbrev TempBuffer := Buffer nul (Const.tempStrSize + 1)

structure TimerDpcCtx where
  log : LogBuffer
  logSize : UInt64
  maxLogSize : Int32
  isRunning : Int32
  stopFlag : Int32
  tempStrBuf : TempBuffer
  lastTimestamp : Int64
  interval : Int64

structure DpcRegCtx where
  log : LogBuffer
  tempStrBuf : TempBuffer
  totalDpc : Nat
  regedDpc : Nat
  interval : Int64
  isRunning : Int32
  stopFlag : Int32

/-- A call of `KeSetTimer` or `KeInsertQueueDpc` and whether it found its object
already waiting: the timer armed or its DPC queued. -/
inductive Request where
  | register (timer : Nat) (pending : Bool)
  | rearm (timer : Nat) (pending : Bool)
  | insertReg (pending : Bool)
deriving DecidableEq, Repr

/-- Where `DeInitDPC` stands. -/
inductive DeInitPc where
  | delaying
  | stopping (i : Nat)
  | loopCond (running : Int)
  | scanning (i : Nat) (running : Int)
  | dumping
  | cancelling (i : Nat)
  | returned
deriving DecidableEq, Repr

structure State where
  timer : Nat → KTimer
  dpcTimer : Nat → KDpc
  dpcReg : KDpc
  timerCtx : Nat → TimerDpcCtx
  regCtx : DpcRegCtx
  minTimerInterval : Int64
  deInit : DeInitPc
  requests : List Request
  output : List (Option (List Char))

namespace State

@[simps] def setTimerCtx (s : State) (i : Nat) (ctx : TimerDpcCtx) : State :=
  { s with timerCtx := Function.update s.timerCtx i ctx }

def timerPending (s : State) (i : Nat) : Bool := (s.timer i).armed || (s.dpcTimer i).queued

@[simps] def keSetTimer (s : State) (i : Nat) (due : Int64) : State :=
  { s with timer := Function.update s.timer i { due := some due } }

@[simps] def keCancelTimer (s : State) (i : Nat) : State :=
  { s with timer := Function.update s.timer i { due := none } }

/-- `KeInsertQueueDpc` of the registering DPC; a queued one stays as it is. -/
@[simps] def keInsertReg (s : State) : State :=
  { s with dpcReg := { queued := true }, requests := s.requests ++ [.insertReg s.dpcReg.queued] }

@[simps] def request (s : State) (r : Request) : State := { s with requests := s.requests ++ [r] }

end State

/-! ## The log of one timer -/

def logLine (last current freq : Int64) : List Char :=
  "[PerformanceCounter] last(".toList ++ Decimal.ofInt last.toInt ++
    (") -> current(".toList ++ Decimal.ofInt current.toInt ++
      ("), freq(".toList ++ Decimal.ofInt freq.toInt ++ ")\n".toList))

/-- `MaxLogSize - 1` is an `int`; the comparison converts it to `size_t`. -/
def doLog (ctx : TimerDpcCtx) (counter : CounterReading) : Bool × TimerDpcCtx :=
  let line := logLine ctx.lastTimestamp counter.timestamp counter.freq
  let tempStrBuf :=
    (ctx.tempStrBuf.clear Const.tempStrSize).print Const.tempStrSize (by decide) line
  let size := UInt64.ofNat (tempStrBuf.lengthWithin Const.tempStrSize)
  if ctx.logSize + size < (ctx.maxLogSize - 1).toInt64.toUInt64 then
    (true, { ctx with
      tempStrBuf, lastTimestamp := counter.timestamp
      logSize := ctx.logSize + size
      log := ctx.log.append Const.logSize (Nat.le_refl _) tempStrBuf.contents })
  else
    (false, { ctx with tempStrBuf, lastTimestamp := counter.timestamp })

/-! ## The handlers -/

/-- The first condition short-circuits: a stopped timer does not log. -/
def timerFunction (i : Nat) (counter : CounterReading) (s : State) : State :=
  let ctx := s.timerCtx i
  let (logged, ctx) := if 0 = ctx.stopFlag then doLog ctx counter else (false, ctx)
  if logged then
    ((s.setTimerCtx i ctx).request (.rearm i (s.timerPending i))).keSetTimer i ctx.interval
  else
    (s.keCancelTimer i).setTimerCtx i { ctx with isRunning := ctx.isRunning - 1 }

def stallLoop (ticks start : Int64) : List CounterReading → Option (List CounterReading)
  | [] => none
  | r :: rest => if ticks ≤ r.timestamp - start then some rest else stallLoop ticks start rest

/-- The readings left when the stall ends; none if it outlasts the readings. -/
def stallDpcExecution (ticks : Int64) : List CounterReading → Option (List CounterReading)
  | [] => none
  | start :: rest => stallLoop ticks start.timestamp rest

def regLine (current freq : Int64) : List Char :=
  "[RegCtx] current(".toList ++ Decimal.ofInt current.toInt ++
    ("), freq(".toList ++ Decimal.ofInt freq.toInt ++ ")\n".toList)

def DpcRegCtx.logReading (ctx : DpcRegCtx) (counter : CounterReading) : DpcRegCtx :=
  let tempStrBuf := (ctx.tempStrBuf.clear Const.tempStrSize).print Const.tempStrSize (by decide)
    (regLine counter.timestamp counter.freq)
  { ctx with
    tempStrBuf
    log := ctx.log.append Const.logSize (Nat.le_refl _) tempStrBuf.contents }

/-- 50 ms on top of the interval, as a relative time. -/
def registerDue (ctx : TimerDpcCtx) : Int64 := ctx.interval - 10 * 1000 * 50

@[simps!] def State.registerTimer (s : State) (i : Nat) : State :=
  let ctx := s.timerCtx i
  ((s.setTimerCtx i { ctx with isRunning := ctx.isRunning + 1 }).request
    (.register i (s.timerPending i))).keSetTimer i (registerDue ctx)

/-- After `RegedDPC++`: queue the DPC again while timers are left. -/
def State.nextRegistration (s : State) : State :=
  let regedDpc := s.regCtx.regedDpc + 1
  let s := { s with regCtx := { s.regCtx with regedDpc } }
  if regedDpc < s.regCtx.totalDpc then s.keInsertReg
  else { s with regCtx := { s.regCtx with isRunning := 0 } }

inductive RegOutcome where
  | returned (s : State)
  | unfinished
  | outOfBounds (i : Nat)

/-- `unfinished`: the readings end while the handler is still stalling, or
before its own reading. `timerCount` is the length of the three arrays. -/
def regFunction (timerCount : Nat) (readings : List CounterReading) (s : State) : RegOutcome :=
  if s.regCtx.totalDpc ≤ s.regCtx.regedDpc then
    .returned { s with regCtx := { s.regCtx with isRunning := 0 } }
  else
    match stallDpcExecution s.regCtx.interval readings with
    | none | some [] => .unfinished
    | some (counter :: _) =>
        let s := { s with regCtx := s.regCtx.logReading counter }
        let i := s.regCtx.regedDpc
        if i < timerCount then .returned ((s.registerTimer i).nextRegistration)
        else .outOfBounds i

/-! ## Setting up -/

def staticTimerCtx : TimerDpcCtx where
  log := .zeroed _ _ (by decide)
  logSize := 0
  maxLogSize := 0
  isRunning := 0
  stopFlag := 0
  tempStrBuf := .zeroed _ _ (by decide)
  lastTimestamp := 0
  interval := 0

def staticRegCtx : DpcRegCtx where
  log := .zeroed _ _ (by decide)
  tempStrBuf := .zeroed _ _ (by decide)
  totalDpc := 0
  regedDpc := 0
  interval := 0
  isRunning := 0
  stopFlag := 0

/-- The zero-initialised globals of the loaded image. -/
def staticState : State where
  timer _ := {}
  dpcTimer _ := {}
  dpcReg := {}
  timerCtx _ := staticTimerCtx
  regCtx := staticRegCtx
  minTimerInterval := 0
  deInit := .delaying
  requests := []
  output := []

def initTimer (s : State) (i : Nat) : State :=
  let ctx := s.timerCtx i
  { s with
    timerCtx := Function.update s.timerCtx i
      { ctx with interval := s.minTimerInterval, maxLogSize := Int32.ofNat Const.logSize }
    dpcTimer := Function.update s.dpcTimer i { queued := false }
    timer := Function.update s.timer i { due := none } }

/-- What `ExQueryTimerResolution` reports, and what `ExSetTimerResolution` returns. -/
structure TimerResolution where
  maxt : UInt32
  mint : UInt32
  curt : UInt32
  newRes : UInt32
deriving DecidableEq, Repr

def resolutionLine (res : TimerResolution) : List Char :=
  "[TimerResolution]==> max(".toList ++ (Decimal.ofInt res.maxt.toInt32.toInt ++
    ("), min(".toList ++ (Decimal.ofInt res.mint.toInt32.toInt ++
      ("), current(".toList ++ (Decimal.ofInt res.curt.toInt32.toInt ++ ")\n".toList)))))

/-- `InitDPC` up to the loop over the timers. -/
def setTimerResolution (res : TimerResolution) : State :=
  { staticState with
    minTimerInterval := -res.newRes.toUInt64.toInt64
    output := [some (resolutionLine res)] }

def initDpc (timerCount : Nat) (res : TimerResolution) : State :=
  let s := (List.range timerCount).foldl initTimer (setTimerResolution res)
  { s with
    regCtx := { s.regCtx with totalDpc := timerCount, interval := Const.regInterval, isRunning := 1 }
    dpcReg := { queued := false } }.keInsertReg

/-- A system timer that can be set to half a millisecond. -/
def halfMillisecond : TimerResolution where
  maxt := 156250
  mint := 5000
  curt := 10000
  newRes := 5000

/-! ## The teardown -/

/-- The text that `DbgPrintEx` is handed as a format without arguments; none when a
percent sign in it keeps it from being printed as it stands. How much of a text one
call prints is up to the kernel. -/
def dbgPrintEx (format : List Char) : Option (List Char) :=
  if '%' ∈ format then none else some format

/-- What `DeInitDPC` prints: each log is passed as the format itself. -/
def dumpLines (timerCount : Nat) (s : State) : List (Option (List Char)) :=
  [dbgPrintEx s.regCtx.log.contents, some "\n\n".toList] ++
    (List.range timerCount).flatMap fun (i : Nat) =>
      [some ("[Timer-".toList ++ Decimal.ofInt (i : Int) ++ "]==>\n".toList),
        dbgPrintEx (s.timerCtx i).log.contents, some "\n\n".toList]

def State.waitLoopCond (s : State) (running : Int) : Bool :=
  decide (running > 0) || decide (s.regCtx.isRunning > 0)

/-- The next step of `DeInitDPC`. The scan ends with `KeDelayExecutionThread`,
and the delay of `DriverEntry` in front of it may end at any time. -/
def deInitDpc (timerCount : Nat) (s : State) : Option State :=
  match s.deInit with
  | .delaying => some { s with
      regCtx := { s.regCtx with stopFlag := s.regCtx.stopFlag + 1 }, deInit := .stopping 0 }
  | .stopping i =>
      if i < timerCount then
        let ctx := s.timerCtx i
        let s := s.setTimerCtx i { ctx with stopFlag := ctx.stopFlag + 1 }
        some { s with deInit := .stopping (i + 1) }
      else some { s with deInit := .loopCond timerCount }
  | .loopCond running =>
      if s.waitLoopCond running then some { s with deInit := .scanning 0 timerCount }
      else some { s with deInit := .dumping }
  | .scanning i running =>
      if i < timerCount then
        let running := if 0 = (s.timerCtx i).isRunning then running - 1 else running
        some { s with deInit := .scanning (i + 1) running }
      else some { s with deInit := .loopCond running }
  | .dumping =>
      some { s with output := s.output ++ dumpLines timerCount s, deInit := .cancelling 0 }
  | .cancelling i =>
      if i < timerCount then
        let s := s.keCancelTimer i
        some { s with deInit := .cancelling (i + 1) }
      else some { s with deInit := .returned }
  | .returned => none

/-! ## The system -/

inductive Action where
  | expire (i : Nat)
  | runTimer (i : Nat) (counter : CounterReading)
  | runReg (readings : List CounterReading)
  | deInit
deriving DecidableEq, Repr

@[simps] def State.expire (s : State) (i : Nat) : State :=
  { s with
    timer := Function.update s.timer i { due := none }
    dpcTimer := Function.update s.dpcTimer i { queued := true } }

/-- The kernel takes a DPC from the queue before it runs the handler. -/
@[simps] def State.dequeueTimer (s : State) (i : Nat) : State :=
  { s with dpcTimer := Function.update s.dpcTimer i { queued := false } }

@[simps] def State.dequeueReg (s : State) : State := { s with dpcReg := { queued := false } }

def step (timerCount : Nat) (s : State) : Action → Option State
  | .expire i =>
      if i < timerCount ∧ (s.timer i).armed = true then some (s.expire i) else none
  | .runTimer i counter =>
      if i < timerCount ∧ (s.dpcTimer i).queued = true then
        some (timerFunction i counter (s.dequeueTimer i))
      else none
  | .runReg readings =>
      if s.dpcReg.queued = true then
        match regFunction timerCount readings s.dequeueReg with
        | .returned t => some t
        | .unfinished | .outOfBounds _ => none
      else none
  | .deInit => deInitDpc timerCount s

def Reachable (timerCount : Nat) : State → Prop :=
  Transition.Reachable (step timerCount) fun s => ∃ res, s = initDpc timerCount res

end WdmTest.MultiTimer
