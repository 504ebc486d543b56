import Interlude.Number.Read
import Interlude.Text.Quoted
/-!
# Literals

Integers and truth values as settings and options spell them. The lead of an integer gives its base:
`0x`, `0o`, `0b`, or `0` alone for base eight; single underscores may separate digits.
-/

namespace Interlude.Number

/-- Why a literal cannot be read. -/
inductive LiteralIssue where
  | malformed
  | outOfRange
deriving DecidableEq, Repr, Inhabited

def LiteralIssue.text : LiteralIssue → String
  | malformed => "invalid syntax"
  | outOfRange => "value out of range"

/-- Splits off the lead that gives the base. -/
def splitBase : List Char → Nat × List Char
  | '0' :: x :: d :: rest =>
    match x.toLower with
    | 'b' => (2, d :: rest)
    | 'o' => (8, d :: rest)
    | 'x' => (16, d :: rest)
    | _ => (8, x :: d :: rest)
  | '0' :: rest => (8, rest)
  | cs => (10, cs)

/-- The number of digits in a base, read from the left; the first character that is no digit, or
takes the number beyond sixty-four bits, decides. -/
def magnitude (base : Nat) (acc : Nat) : List Char → Except LiteralIssue Nat
  | [] => .ok acc
  | c :: rest =>
    if c = '_' then magnitude base acc rest
    else
      match digitValue? base c with
      | none => .error .malformed
      | some d =>
        if Nat.pow 2 64 ≤ acc * base + d then .error .outOfRange
          else magnitude base (acc * base + d) rest

/-- Whether the underscores of an unsigned literal stand between digits; the lead of a base counts
as a digit. -/
def isSeparated : List Char → Bool
  | '0' :: x :: rest =>
    match x.toLower with
    | 'b' | 'o' => separatorsOk false .digit rest
    | 'x' => separatorsOk true .digit rest
    | _ => separatorsOk false .start ('0' :: x :: rest)
  | cs => separatorsOk false .start cs

/-- A signed integer of sixty-four bits. -/
def readLiteral (s : String) : Except LiteralIssue Int64 := do
  let (negative, body) := match s.toList with
    | '+' :: rest => (false, rest)
    | '-' :: rest => (true, rest)
    | cs => (false, cs)
  if body.isEmpty then throw .malformed
  let (base, digits) := splitBase body
  let n ← magnitude base 0 digits
  if digits.contains '_' && !isSeparated body then throw .malformed
  let i : Int := if negative then -(n : Int) else n
  if fitsInt64 i then return Int64.ofInt i else throw .outOfRange

/-- A truth value: `true` and `false`, short or long, or a digit. -/
def readFlag? : String → Option Bool
  | "1" | "t" | "T" | "true" | "TRUE" | "True" => some true
  | "0" | "f" | "F" | "false" | "FALSE" | "False" => some false
  | _ => none

end Interlude.Number
