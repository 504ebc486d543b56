import Interlude.Text.Space
import Interlude.Number.Format
/-!
# Reading numbers

The grammar of numeric text: an optional sign, then decimal digits with an optional point and
exponent, or `0x` digits with a binary exponent, or a name of infinity or of the number that is
none. Digits may be separated by single underscores. A number too large for binary64 is not read.
-/

namespace Interlude.Number

/-- The value of a hexadecimal digit. -/
def hexValue? (c : Char) : Option Nat :=
  if '0' ≤ c && c ≤ '9' then some (c.toNat - '0'.toNat)
  else if 'a' ≤ c && c ≤ 'f' then some (c.toNat - 'a'.toNat + 10)
  else if 'A' ≤ c && c ≤ 'F' then some (c.toNat - 'A'.toNat + 10)
  else none

/-- The value of a digit below `base`. -/
def digitValue? (base : Nat) (c : Char) : Option Nat :=
  match hexValue? c with
  | some d => if d < base then some d else none
  | none => none

/-- What stands before the next character, for the rule on underscores. -/
inductive Before where
  | start
  | digit
  | underscore
  | other
deriving DecidableEq

/-- Whether every underscore stands between digits. -/
def separatorsOk (hex : Bool) : Before → List Char → Bool
  | before, [] => before != .underscore
  | before, c :: rest =>
    if (digitValue? (if hex then 16 else 10) c).isSome then separatorsOk hex .digit rest
    else if c = '_' then before == .digit && separatorsOk hex .underscore rest
    else before != .underscore && separatorsOk hex .other rest

/-- Mantissa digits: the number they write, how many stand after the point, whether there is a
digit, whether the point was seen, and what follows. -/
def scanMantissa (base : Nat) (acc places : Nat) (any point : Bool) :
    List Char → Nat × Nat × Bool × List Char
  | [] => (acc, places, any, [])
  | c :: rest =>
    if c = '_' then scanMantissa base acc places any point rest
    else if c = '.' then
      if point then (acc, places, any, c :: rest) else scanMantissa base acc places any true rest
    else
      match digitValue? base c with
      | some d =>
        scanMantissa base (acc * base + d) (if point then places + 1 else places) true point rest
      | none => (acc, places, any, c :: rest)

/-- Exponent digits; the value stops growing once it is large enough to decide the result. -/
def scanExponent (acc : Nat) : List Char → Nat × List Char
  | [] => (acc, [])
  | c :: rest =>
    if c = '_' then scanExponent acc rest
    else
      match digitValue? 10 c with
      | some d => scanExponent (if acc < 10000 then acc * 10 + d else acc) rest
      | none => (acc, c :: rest)

/-- An exponent after its mark: a sign, then at least one digit. -/
def readExponent (cs : List Char) : Option (Int × List Char) :=
  let (negative, digits) :=
    match cs with
    | '+' :: rest => (false, rest)
    | '-' :: rest => (true, rest)
    | rest => (false, rest)
  match digits with
  | c :: _ =>
    if c.isDigit then
      let (n, rest) := scanExponent 0 digits
      some (if negative then -(n : Int) else n, rest)
    else none
  | [] => none

/-- `mant * 10 ^ exp`, rounded to the nearest binary64 number. -/
def ofDecimal (mant : Nat) (exp : Int) : Float :=
  if mant = 0 then 0.0
  else if exp < 0 then
    -- far below the least positive number whatever the mantissa's length
    if exp + (Nat.log2 mant : Int) < -1200 && exp < -5000 then 0.0
    else Float.ofScientific mant true (-exp).toNat
  else if 400 < exp then 1.0 / 0.0
  else Float.ofScientific mant false exp.toNat

/-- `mant * 2 ^ exp`, rounded to the nearest binary64 number. -/
def ofBinary (mant : Nat) (exp : Int) : Float :=
  if mant = 0 then 0.0
  else if exp < 0 then
    if (Nat.log2 mant : Int) + exp < -1200 then 0.0
    else Float.ofScientific (mant * Nat.pow 5 (-exp).toNat) true (-exp).toNat
  else if 1100 < exp then 1.0 / 0.0
  else Float.ofScientific (mant * Nat.pow 2 exp.toNat) false 0

/-- An unsigned number with digits. -/
def readUnsigned (cs : List Char) : Option Float :=
  let (hex, digits) :=
    match cs with
    | '0' :: x :: a :: rest => if x = 'x' || x = 'X' then (true, a :: rest) else (false, cs)
    | _ => (false, cs)
  if !separatorsOk hex (if hex then .digit else .start) digits then none
  else
    let (mant, places, any, rest) := scanMantissa (if hex then 16 else 10) 0 0 false false digits
    if !any then none
    else
      match rest with
      | [] => if hex then none else some (ofDecimal mant (-(places : Int)))
      | mark :: rest =>
        if mark.toLower = (if hex then 'p' else 'e') then
          match readExponent rest with
          | some (exp, []) =>
            if hex then some (ofBinary mant (exp - 4 * places))
              else some (ofDecimal mant (exp - places))
          | _ => none
        else none

/-- Reads a number; `none` if the text is no number or the number is too large. -/
def read? (s : String) : Option Float :=
  let (signed, negative, body) :=
    match s.toList with
    | '+' :: rest => (true, false, rest)
    | '-' :: rest => (true, true, rest)
    | rest => (false, false, rest)
  let name := String.ofList (body.map Char.toLower)
  if name = "inf" || name = "infinity" then
    some (if negative then -(1.0 / 0.0) else 1.0 / 0.0)
  else if name = "nan" then
    if signed then none else some (0.0 / 0.0)
  else
    match readUnsigned body with
    | some f => if f.isInf then none else some (if negative then -f else f)
    | none => none

/-- Reads a number with white space around it; blank text is no number. -/
def readTrimmed? (s : String) : Option Float :=
  let t := Text.trim s
  if t.isEmpty then none else read? t

/-- Reads decimal digits with an optional sign as an unbounded integer. -/
def readInt? (s : String) : Option Int :=
  let (negative, digits) :=
    match s.toList with
    | '+' :: rest => (false, rest)
    | '-' :: rest => (true, rest)
    | rest => (false, rest)
  if digits.isEmpty || !digits.all Char.isDigit then none
  else
    let n : Int := ofDigits (digits.map fun c => c.toNat - '0'.toNat)
    some (if negative then -n else n)

/-- Whether an integer fits 64 signed bits. -/
def fitsInt64 (n : Int) : Bool :=
  -(Nat.pow 2 63 : Int) ≤ n && n < Nat.pow 2 63

/-- Reads a signed 64-bit integer. -/
def readInt64? (s : String) : Option Int64 :=
  match readInt? s with
  | some n => if fitsInt64 n then some (Int64.ofInt n) else none
  | none => none

end Interlude.Number
