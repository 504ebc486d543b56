import Interlude.Number.Read
/-!
# Instants

Years and months, and instants: a date and a clock time at an offset from universal time, in the
notation `2006-01-02T15:04:05.999+01:00`. A fraction and a one-digit hour are read as well, and an
offset of zero is written `Z`.
-/

namespace Interlude.Calendar

/-! ## Years and months of the proleptic Gregorian calendar -/

def isLeapYear (y : Nat) : Bool := y % 4 = 0 && (y % 100 ≠ 0 || y % 400 = 0)

/-- The number of days of a month. -/
def daysIn (y m : Nat) : Nat :=
  if m = 2 then (if isLeapYear y then 29 else 28)
  else if m = 4 || m = 6 || m = 9 || m = 11 then 30
  else 31

/-- The number of days from the first day of year 1 to the first day of a year. -/
def daysBeforeYear (y : Nat) : Int :=
  let n : Int := (y : Int) - 1
  365 * n + Int.fdiv n 4 - Int.fdiv n 100 + Int.fdiv n 400

/-- The number of days from the first day of year 1 to a day. -/
def dayNumber (y m d : Nat) : Int :=
  let before := (List.range (m - 1)).foldl (fun n i => n + daysIn y (i + 1)) 0
  daysBeforeYear y + before + d - 1

end Interlude.Calendar

namespace Interlude

/-- A date, a clock time with nanoseconds, and an offset in minutes. -/
structure Instant where
  year : Nat
  month : Nat
  day : Nat
  hour : Nat
  minute : Nat
  second : Nat
  nano : Nat := 0
  offset : Int := 0
deriving DecidableEq, Repr, Inhabited

namespace Instant

/-- The first instant of year 1, which stands for none. -/
def zero : Instant := ⟨1, 1, 1, 0, 0, 0, 0, 0⟩

/-! ## Reading -/

/-- A number of exactly `n` digits. -/
def takeDigits (n : Nat) (cs : List Char) : Option (Nat × List Char) :=
  let ds := cs.take n
  if ds.length = n && ds.all Char.isDigit then some
    (Number.ofDigits (ds.map fun d => d.toNat - 48), cs.drop n)
  else none

/-- A number of one or two digits. -/
def takeHour (cs : List Char) : Option (Nat × List Char) :=
  match takeDigits 2 cs with
  | some r => some r
  | none => takeDigits 1 cs

def takeChar (c : Char) : List Char → Option (List Char)
  | d :: rest => if c = d then some rest else none
  | [] => none

/-- A fraction of a second in nanoseconds; further digits are dropped. -/
def takeFraction (cs : List Char) : Nat × List Char :=
  match cs with
  | p :: d :: rest =>
    if (p = '.' || p = ',') && d.isDigit then
      let ds := ((d :: rest).takeWhile Char.isDigit).take 9
      let padded := ds ++ List.replicate (9 - ds.length) '0'
      (Number.ofDigits (padded.map fun d => d.toNat - 48), (d :: rest).dropWhile Char.isDigit)
    else (0, cs)
  | _ => (0, cs)

/-- An offset in minutes, which has to be all that is left. -/
def readOffset? : List Char → Option Int
  | ['Z'] => some 0
  | [s, a, b, ':', c, d] => do
    let (h, _) ← takeDigits 2 [a, b]
    let (m, _) ← takeDigits 2 [c, d]
    guard (h ≤ 24 && m ≤ 60)
    let minutes : Int := h * 60 + m
    if s = '+' then some minutes else if s = '-' then some (-minutes) else none
  | _ => none

/-- Reads an instant. -/
def read? (s : String) : Option Instant := do
  let (year, cs) ← takeDigits 4 s.toList
  let cs ← takeChar '-' cs
  let (month, cs) ← takeDigits 2 cs
  let cs ← takeChar '-' cs
  let (day, cs) ← takeDigits 2 cs
  let cs ← takeChar 'T' cs
  let (hour, cs) ← takeHour cs
  let cs ← takeChar ':' cs
  let (minute, cs) ← takeDigits 2 cs
  let cs ← takeChar ':' cs
  let (second, cs) ← takeDigits 2 cs
  let (nano, cs) := takeFraction cs
  let offset ← readOffset? cs
  guard (1 ≤ month && month ≤ 12 && 1 ≤ day && day ≤ Calendar.daysIn year month)
  guard (hour < 24 && minute < 60 && second < 60)
  return { year, month, day, hour, minute, second, nano, offset }

/-! ## Writing -/

/-- Digits with zeros in front, at least `width` of them. -/
def padded (width n : Nat) : String :=
  let ds := Nat.toDigits 10 n
  String.ofList (List.replicate (width - ds.length) '0' ++ ds)

def offsetText (minutes : Int) : String :=
  if minutes = 0 then "Z"
  else
    let n := minutes.natAbs
    (if minutes < 0 then "-" else "+") ++ padded 2 (n / 60) ++ ":" ++ padded 2 (n % 60)

/-- Date and clock time to the second. -/
def clockText (t : Instant) : String :=
  padded 4 t.year ++ "-" ++ padded 2 t.month ++ "-" ++ padded 2 t.day ++ "T" ++
    padded 2 t.hour ++ ":" ++ padded 2 t.minute ++ ":" ++ padded 2 t.second

/-- The text of an instant to the second. -/
def text (t : Instant) : String := t.clockText ++ offsetText t.offset

/-- The digits of a fraction after its point, without zeros at the end. -/
def fractionText (nano : Nat) : String :=
  if nano = 0 then ""
  else "." ++ String.ofList ((padded 9 nano).toList.reverse.dropWhile (· == '0')).reverse

/-- The text of an instant with its fraction. -/
def preciseText (t : Instant) : String := t.clockText ++ fractionText t.nano ++ offsetText t.offset

/-- Seconds since the first instant of year 1, universal time. -/
def seconds (t : Instant) : Int :=
  Calendar.dayNumber t.year t.month t.day * 86400 + t.hour * 3600 + t.minute * 60 +
    t.second - t.offset * 60

/-- Whether this is the instant that stands for none, at whatever offset. -/
def isZero (t : Instant) : Bool := t.seconds = 0 && t.nano = 0

end Instant

end Interlude
