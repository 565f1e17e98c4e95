import WdmTest.Kernel
import WdmTest.Lib.CString
import WdmTest.Lib.Decimal

/-!
The two tests of HiResTimerTest: a timer whose callback writes a line to a log
and sets the timer again, for as long as the test runs. The tests differ in the
interval, the time they run and what is printed above the log; their callbacks
are one function of these.

`sprintf` is unbounded: where the text and its terminator do not fit the rest of
the array the effect is undefined. The wake-up tolerance of the second timer only
delays its callbacks, and times are arbitrary here.
-/
namespace WdmTest.HiResTimer
open CString

namespace Const
def logSize : Nat := 1048576
def runtimeInEachTest : Int64 := -10 * 1000 * 1000 * 10
/-- 500 us. -/
def highresTimerInterval : Int64 := -500 * 10
/-- 2 ms. -/
def nowakeTimerInterval : Int64 := -2 * 1000 * 10
end Const

def nul : Char := Char.ofNat 0

abbrev LogData := Buffer nul Const.logSize

/-- `interval` is the due time the timer is set with, `runtime` the delay after
which it is deleted; both count from the moment they are given. -/
structure TimerTest where
  interval : Int64
  runtime : Int64
  title : List Char
  relative : interval.toInt < 0

def testHighResTimer : TimerTest where
  interval := Const.highresTimerInterval
  runtime := Const.runtimeInEachTest / 10
  title := "[HighResolution Timer Testing]\n".toList
  relative := by decide

def testNoWakeTimer : TimerTest where
  interval := Const.nowakeTimerInterval
  runtime := Const.runtimeInEachTest
  title := "[NoWake Timer Testing]\n".toList
  relative := by decide

/-- The log of a test, the cursor as an offset from its start, and the time the
timer is due, if it is set. -/
structure State where
  logData : LogData
  logCursor : Nat
  due : Option Int

/-- The start of a test: the log is zeroed and the timer is set, if it could be
allocated. -/
def initial (test : TimerTest) (now : Int) (timerHandle : Bool) : State where
  logData := Buffer.zeroed nul Const.logSize (by decide)
  logCursor := 0
  due := if timerHandle then some (waitDue now test.interval) else none

def logLine (freq timestamp : Int64) : List Char :=
  "(".toList ++ Decimal.ofInt freq.toInt ++ " MHz) ".toList ++ Decimal.ofInt timestamp.toInt ++
    "\n".toList

/-- What is written and how many characters; none when it does not fit. -/
def sprintf (b : LogData) (cursor : Nat) (text : List Char) : Option (LogData × Nat) :=
  if fits : cursor + text.length < Const.logSize then some (b.store cursor text fits, text.length)
  else none

def exTimerCallback (test : TimerTest) (now : Int) (r : CounterReading) (s : State) :
    Option State :=
  (sprintf s.logData s.logCursor (logLine r.freq r.timestamp)).map fun w =>
    { logData := w.1
      logCursor := s.logCursor + w.2
      due := some (waitDue now test.interval) }

def exTimerCallback1 : Int → CounterReading → State → Option State :=
  exTimerCallback testHighResTimer

def exTimerCallback2 : Int → CounterReading → State → Option State :=
  exTimerCallback testNoWakeTimer

/-- The texts handed to `DbgPrintEx`; how much of one it prints is up to the kernel. -/
def printLog (test : TimerTest) (s : State) : List (List Char) :=
  [test.title, s.logData.contents]

structure Callback where
  time : Int
  reading : CounterReading

def runCallbacks (test : TimerTest) : State → List Callback → Option State
  | s, [] => some s
  | s, c :: cs => (exTimerCallback test c.time c.reading s).bind fun t => runCallbacks test t cs

/-! ## The timer at work -/

structure System where
  now : Int
  state : State
  fired : List Callback

def start (test : TimerTest) (now : Int) (timerHandle : Bool) : System where
  now := now
  state := initial test now timerHandle
  fired := []

inductive Action where
  | tick (time : Nat)
  | expire (reading : CounterReading)
  | exDeleteTimer

/-- The timer expires at any moment from its due time on. -/
def step (test : TimerTest) (s : System) : Action → Option System
  | .tick time => some { s with now := s.now + time }
  | .expire reading =>
      match s.state.due with
      | some due =>
          if due ≤ s.now then
            (exTimerCallback test s.now reading s.state).map fun t =>
              { s with state := t, fired := s.fired ++ [{ time := s.now, reading }] }
          else none
      | none => none
  | .exDeleteTimer => some { s with state := { s.state with due := none } }

end WdmTest.HiResTimer
