import Interlude.Failure
import Interlude.Number.Read
import Interlude.Text.Quoted
import Interlude.Text.Utf8
/-!
# Durations

Spans of time such as `1.5h`, `300ms` or `-1h30m`: numbers, each with a unit, after an optional
sign.
-/

namespace Interlude.Duration

/-- The nanoseconds of a unit. -/
def unit? : String → Option Nat
  | "ns" => some 1
  | "us" | "µs" | "μs" => some 1000
  | "ms" => some 1000000
  | "s" => some 1000000000
  | "m" => some 60000000000
  | "h" => some 3600000000000
  | _ => none

/-- A character between quotes; what is not plain is written byte by byte. -/
def quoteChar (c : Char) : String :=
  if c = '"' || c = '\\' then "\\" ++ String.singleton c
  else if c.toNat < 0x20 || 0x80 ≤ c.toNat then
    String.join ((Text.bytes (String.singleton c)).map fun b => "\\x" ++ Text.hexPadded 2 b)
  else String.singleton c

def quote (s : String) : String := "\"" ++ String.join (s.toList.map quoteChar) ++ "\""

/-- Why a text is no duration. -/
inductive Issue where
  | malformed
  | missingUnit
  | unknownUnit (unit : String)
deriving DecidableEq, Repr, Inhabited

/-- The wording of an issue with a text. -/
def Issue.text (source : String) : Issue → String
  | malformed => "time: invalid duration " ++ quote source
  | missingUnit => "time: missing unit in duration " ++ quote source
  | unknownUnit u => "time: unknown unit " ++ quote u ++ " in duration " ++ quote source

/-- The most nanoseconds a sum may have. -/
def limit : Nat := Nat.pow 2 63

/-- Digits of a number, not too large. -/
def whole (acc : Nat) : List Char → Option Nat
  | [] => some acc
  | d :: rest =>
    let n := acc * 10 + (d.toNat - 48)
    if limit < n then none else whole n rest

/-- A number with its unit in front of a text: its nanoseconds, and what follows. -/
def part (cs : List Char) : Except Issue (Nat × List Char) := do
  let before := cs.takeWhile Char.isDigit
  let cs := cs.dropWhile Char.isDigit
  let some v := whole 0 before | throw .malformed
  let (after, cs) := match cs with
    | '.' :: rest => (rest.takeWhile Char.isDigit, rest.dropWhile Char.isDigit)
    | rest => ([], rest)
  if before.isEmpty && after.isEmpty then throw .malformed
  let isUnit (c : Char) : Bool := c != '.' && !c.isDigit
  let name := String.ofList (cs.takeWhile isUnit)
  if name.isEmpty then throw .missingUnit
  let some unit := unit? name | throw (.unknownUnit name)
  if limit / unit < v then throw .malformed
  let fraction := Number.ofDigits (after.map fun d => d.toNat - 48) * unit / Nat.pow 10 after.length
  if limit < v * unit + fraction then throw .malformed
  return (v * unit + fraction, cs.dropWhile isUnit)

/-- The sum of all parts of a text. Each part takes at least one character. -/
def parts : Nat → Nat → List Char → Except Issue Nat
  | _, sum, [] => .ok sum
  | 0, _, _ => .error .malformed
  | fuel + 1, sum, cs => do
    let (n, rest) ← part cs
    if limit < sum + n then throw .malformed
    parts fuel (sum + n) rest

/-- The nanoseconds of a duration. -/
def read (s : String) : Except Issue Int := do
  let (negative, cs) := match s.toList with
    | '-' :: rest => (true, rest)
    | '+' :: rest => (false, rest)
    | cs => (false, cs)
  if cs == ['0'] then return 0
  if cs.isEmpty then throw .malformed
  let n ← parts cs.length 0 cs
  if negative then return -(n : Int)
  if n = limit then throw .malformed
  return n

end Interlude.Duration
