import Mathlib.Data.Int.Order.Basic
import WdmTest.Lib.Readback

/-!
The kernel objects and status values the drivers share. A timer holds its due
time while it is armed; a deferred procedure call records whether it waits in a
processor's queue. How long the kernel takes is left to the transition systems
of the drivers: nothing here assumes that a delay is short.
-/
namespace WdmTest

/-- `NTSTATUS`: the sign bit marks an error. -/
abbrev NtStatus := Int32

def ntSuccess (status : NtStatus) : Bool := decide (0 ≤ status)

namespace NtStatus
def success : NtStatus := 0
def timeout : NtStatus := 0x102
def pending : NtStatus := 0x103
def unsuccessful : NtStatus := -0x3FFFFFFF
def invalidParameter : NtStatus := -0x3FFFFFF3
def infoLengthMismatch : NtStatus := -0x3FFFFFFC
def memoryNotAllocated : NtStatus := -0x3FFFFF60
def internalError : NtStatus := -0x3FFFFF1B
def interrupted : NtStatus := -0x3FFFFAEB
end NtStatus

/-- One call of `KeQueryPerformanceCounter`. -/
structure CounterReading where
  timestamp : Int64
  freq : Int64
deriving DecidableEq, Repr

attribute [ext] CounterReading

def CounterReading.time (r : CounterReading) : Int := r.timestamp.toInt

structure Guid where
  data1 : UInt32
  data2 : UInt16
  data3 : UInt16
  data4 : Vector UInt8 8
deriving DecidableEq, Repr

attribute [ext] Guid

/-- `KTIMER`: the due time while the timer is in the system timer queue. -/
structure KTimer where
  due : Option Int64 := none
deriving DecidableEq, Repr

def KTimer.armed (t : KTimer) : Bool := t.due.isSome

/-- `KDPC`: whether it is in the DPC queue of its processor. -/
structure KDpc where
  queued : Bool := false
deriving DecidableEq, Repr

@[simp] theorem KTimer.armed_some (d : Int64) : (KTimer.mk (some d)).armed = true := rfl

@[simp] theorem KTimer.armed_none : (KTimer.mk none).armed = false := rfl

/-- `%d` shows the number as a signed one; nothing is lost by that. -/
theorem uInt32_of_toInt {a b : UInt32} (h : a.toInt32.toInt = b.toInt32.toInt) : a = b := by
  have hsame := Int32.toInt_inj.mp h
  rw [← UInt32.toUInt32_toInt32 a, hsame, UInt32.toUInt32_toInt32]

/-- `%X` with leading zeros up to a width. -/
def hexUpper (width n : Nat) : List Char :=
  let digits := (Nat.toDigits 16 n).map Char.toUpper
  List.replicate (width - digits.length) '0' ++ digits

/-- `%x`, likewise. -/
def hexLower (width n : Nat) : List Char :=
  let digits := Nat.toDigits 16 n
  List.replicate (width - digits.length) '0' ++ digits

/-- What an upper-case hexadecimal digit is worth. -/
def hexWorth (c : Char) : Nat := if c.isDigit then c.toNat - '0'.toNat else c.toNat - 'A'.toNat + 10

theorem hexUpper_injective (width : Nat) : Function.Injective (hexUpper width) := by
  have hvalue (n : Nat) : Decimal.valueOf 16 hexWorth (hexUpper width n) = n := by
    rw [hexUpper, Decimal.valueOf_pad (by decide)]
    exact Decimal.valueOf_toDigits (by decide) (by decide) n
  intro n m h
  rw [← hvalue n, h, hvalue m]

theorem hexUpper_length {width n : Nat} (hwidth : 0 < width) (hn : n < 16 ^ width) :
    (hexUpper width n).length = width := by
  have hlen := (Nat.length_toDigits_le_iff (by decide) hwidth).mpr hn
  rw [hexUpper, List.length_append, List.length_replicate, List.length_map]
  exact Nat.sub_add_cancel hlen

/-- A hexadecimal number that fills its width. -/
theorem delimits_hexUpper {α : Type*} {width : Nat} (hwidth : 0 < width) {value : α → Nat}
    (hvalue : ∀ a, value a < 16 ^ width) :
    Readback.Delimits (fun a b => value a = value b) fun a => hexUpper width (value a) := by
  have hsame (a b : α) :
      (hexUpper width (value a)).length = (hexUpper width (value b)).length := by
    rw [hexUpper_length hwidth (hvalue a), hexUpper_length hwidth (hvalue b)]
  exact (Readback.delimits_width hsame).mono fun _ _ h => hexUpper_injective width h

theorem notMem_hexUpper {c : Char} {width n : Nat}
    (hc : ∀ d, d < 16 → d.digitChar.toUpper ≠ c) : c ∉ hexUpper width n := by
  intro h
  cases List.mem_append.mp h with
  | inl hpad => exact hc 0 (by decide) (List.eq_of_mem_replicate hpad).symm
  | inr hdigit =>
      obtain ⟨e, he, rfl⟩ := List.mem_map.mp hdigit
      obtain ⟨d, hd, rfl⟩ := Decimal.mem_toDigits (by decide) he
      exact hc d hd rfl

/-- The system time, in units of 100 ns since 1601, at which a wait with this
timeout may give up. A negative timeout counts from the start of the wait, any
other one is a system time itself. -/
def waitDue (now : Int) (timeout : Int64) : Int :=
  if timeout.toInt < 0 then now - timeout.toInt else timeout.toInt

end WdmTest
