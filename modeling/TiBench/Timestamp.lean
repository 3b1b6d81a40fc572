import TiBench.Bytes
import TiBench.Text.Number

/-!
# Timestamps

Dates with a time of day, and their four byte form: a time word (hour 5 bits, minute 6, half the
second 5) and a date word (year of the century 7 bits, month 4, day 5), both big endian.
-/

namespace TiBench

/-- A date of the Gregorian calendar and a time of day. -/
structure Timestamp where
  year : Int
  month : Nat
  day : Nat
  hour : Nat
  minute : Nat
  second : Nat
deriving DecidableEq, Repr

namespace Timestamp

/-- The time that a disk shows unless its clock is set. -/
def usual : Timestamp := ⟨1984, 6, 1, 12, 0, 0⟩

/-- A year with a 29th of February. -/
def isLeapYear (year : Int) : Bool := year % 4 == 0 && (year % 100 != 0 || year % 400 == 0)

/-- The number of days in a month of a year, zero if there is no such month. -/
def daysInMonth (year : Int) (month : Nat) : Nat :=
  if month = 2 then (if isLeapYear year then 29 else 28)
  else if month = 4 ∨ month = 6 ∨ month = 9 ∨ month = 11 then 30
  else if 1 ≤ month ∧ month ≤ 12 then 31
  else 0

/-- The date exists, and the time is one of that day. -/
def Valid (t : Timestamp) : Prop :=
  1 ≤ t.day ∧ t.day ≤ daysInMonth t.year t.month ∧ t.hour < 24 ∧ t.minute < 60 ∧ t.second < 60

instance (t : Timestamp) : Decidable t.Valid := by unfold Valid; infer_instance

/-- The timestamp itself if it is valid. -/
def check? (t : Timestamp) : Option Timestamp := if t.Valid then some t else none

/-- The time word and the date word. -/
def pack (t : Timestamp) : Block 4 :=
  let time := UInt16.ofNat (t.hour * 2048 + t.minute * 32 + t.second / 2)
  let date := UInt16.ofInt (t.year.tmod 100 * 512 + t.month * 32 + t.day)
  ⟨Bytes.ofWordBE time ++ Bytes.ofWordBE date, rfl⟩

/-- The year that the year of a century stands for, counted from 1970. -/
def fullYear (yy : Nat) : Int := if yy < 70 then 2000 + yy else 1900 + yy

/-- The timestamp in four bytes. Four zero bytes are none, and neither is a date or time that does
not exist. -/
def unpack (b : Block 4) : Option Timestamp :=
  let time := (b.wordBE 0).toNat
  let date := (b.wordBE 2).toNat
  if time = 0 ∧ date = 0 then none
  else
    Timestamp.check?
      { year := fullYear (date / 512), month := date / 32 % 16, day := date % 32,
        hour := time / 2048, minute := time / 32 % 64, second := 2 * (time % 32) }

/-- A year in four digits at least. One that is negative or has more digits has a sign. -/
def yearText (year : Int) : String :=
  (if year < 0 then "-" else if 9999 < year then "+" else "") ++ Text.zeroPadded 4 year.natAbs

/-- The timestamp as year, month, day, hour, minute and second. -/
def text (t : Timestamp) : String :=
  yearText t.year ++ "-" ++ Text.zeroPadded 2 t.month ++ "-" ++ Text.zeroPadded 2 t.day ++ " "
    ++ Text.zeroPadded 2 t.hour ++ ":" ++ Text.zeroPadded 2 t.minute ++ ":"
    ++ Text.zeroPadded 2 t.second

end Timestamp

end TiBench
