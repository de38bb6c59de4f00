import Boardwalk.Number.Fixed
import Boardwalk.Value.Display
/-!
# Instants

Points in time, as seconds since the beginning of 1970 and microseconds, and their text in the calendar.
-/

namespace Boardwalk.Log

structure Instant where
  seconds : Int
  micros : Nat
  deriving DecidableEq, Inhabited

inductive TimeFault where
  | unbounded
  | notANumber
  | unreachable
  | year (n : Int)
  | notNumber (kind : String)
  deriving DecidableEq

def TimeFault.message? : TimeFault → Option String
  | .unbounded => some "timestamp out of range for platform time_t"
  | .notANumber => some "Invalid value NaN (not a number)"
  | .unreachable => none
  | .year n => some ("year " ++ Value.intText n ++ " is out of range")
  | .notNumber kind => some ("'" ++ kind ++ "' object cannot be interpreted as an integer")

namespace Instant

def ofWhole (n : Int) (micros : Nat) : Except TimeFault Instant :=
  if -(Number.twoTo 63 : Int) ≤ n ∧ n < Number.twoTo 63 then .ok ⟨n, micros⟩ else .error .unbounded

/-- The microseconds of a fraction of a second, as the nearest floating point number and then rounded, a
tie to the even number. -/
def microsOf (num den : Nat) : Nat :=
  match Number.parts? (Number.nearest false (num * 1000000) den) with
  | some p =>
    let (n, d) := p.fraction
    Number.divideToEven n d
  | none => 0

def ofFloat (x : Float) : Except TimeFault Instant :=
  match Number.parts? x with
  | none => .error (if Number.isNaN x then .notANumber else .unbounded)
  | some p =>
    let (num, den) := p.fraction
    let whole : Int := (num / den : Nat)
    let micros := microsOf (num % den) den
    if p.negative then
      if micros = 0 then ofWhole (-whole) 0
      else if micros = 1000000 then ofWhole (-whole - 1) 0
      else ofWhole (-whole - 1) (1000000 - micros)
    else if micros = 1000000 then ofWhole (whole + 1) 0
    else ofWhole whole micros

def ofValue (v : Value) : Except TimeFault Instant :=
  match v, v.wholeNumber? with
  | .float x, _ => ofFloat x
  | _, some n => ofWhole n 0
  | v, none => .error (.notNumber v.kindWord)

/-! ## The calendar -/

/-- Year, month and day of a number of days since the beginning of 1970. The count is moved to a year that
begins in March, so that the leap day is its last one; four hundred years are 146097 days. -/
def dateOf (days : Int) : Int × Nat × Nat :=
  let moved := days + 719468
  let era := moved / 146097
  let day := (moved % 146097).toNat
  let year := (day - day / 1460 + day / 36524 - day / 146096) / 365
  let dayOfYear := day - (365 * year + year / 4 - year / 100)
  let month := (5 * dayOfYear + 2) / 153
  let dayOfMonth := dayOfYear - (153 * month + 2) / 5 + 1
  let month := if month < 10 then month + 3 else month - 9
  (year + era * 400 + (if month ≤ 2 then 1 else 0), month, dayOfMonth)

def digits (width n : Nat) : List Char := Number.padLeft width (Nat.toDigits 10 n)

/-- Date and time in universal time; microseconds are left out if there are none. -/
def text (t : Instant) : Except TimeFault String :=
  let (year, month, day) := dateOf (t.seconds / 86400)
  let second := (t.seconds % 86400).toNat
  if year - 1900 < -(Number.twoTo 31 : Int) ∨ Number.twoTo 31 ≤ year - 1900 then .error .unreachable
  else if year < 1 ∨ 9999 < year then .error (.year (Int.bmod year (Number.twoTo 32)))
  else .ok (String.ofList (digits 4 year.toNat ++ '-' :: digits 2 month ++ '-' :: digits 2 day ++
    'T' :: digits 2 (second / 3600) ++ ':' :: digits 2 (second / 60 % 60) ++
    ':' :: digits 2 (second % 60) ++ (if t.micros = 0 then [] else '.' :: digits 6 t.micros)) ++ "+00:00")

end Instant

end Boardwalk.Log
