import Interlude.Number.Read
import Interlude.Failure
import Interlude.Value.Basic
/-!
# Coercions and comparisons

The rules by which values turn into integers, numbers, booleans and strings, and by which they are
compared. A string compared with a number is read as a number; composite values are equal only to
themselves.
-/

namespace Interlude

/-- An unsigned or signed machine integer as a value; one that does not fit is a failure. -/
def Value.ofUnsigned (n : Nat) : Except Failure Value :=
  if n < Nat.pow 2 63 then .ok (.int (Int64.ofNat n))
  else .error (.fault ((Failure.data .invalidArgument "unsigned value overflows int64").detail
    "value" (toString n)))

namespace Value

def toInt64? : Value → Except Failure Int64
  | .int i => .ok i
  | v => .error (Failure.cast Kind.int.name v.kind.name)

/-- Integers widen. -/
def toFloat? : Value → Except Failure Float
  | .float f => .ok f
  | .int i => .ok i.toFloat
  | v => .error (Failure.cast Kind.float.name v.kind.name)

def toBool? : Value → Except Failure Bool
  | .bool b => .ok b
  | v => .error (Failure.cast Kind.bool.name v.kind.name)

def toStr? : Value → Except Failure String
  | .str s => .ok s
  | v => .error (Failure.cast Kind.string.name v.kind.name)

/-- The value itself if it is of the given kind; an integer asked for as a float widens. -/
def ofKind? (v : Value) : Kind → Except Failure Value
  | .int => v.toInt64?.map .int
  | .float => v.toFloat?.map .float
  | .bool => v.toBool?.map .bool
  | .string => v.toStr?.map .str
  | target => if v.kind = target then .ok v else .error (Failure.cast target.name v.kind.name)

/-- The value as a condition. -/
def truthy : Value → Bool
  | .bool b => b
  | .int i => i != 0
  | .float f => f != 0.0 && !f.isNaN
  | .str s => s != ""
  | .content _ s => s != ""
  | v => !v.isNullish

/-- The number a value stands for: numbers and numeric text. -/
def number? (v : Value) : Except Failure Float :=
  let mismatch := Except.error (Failure.cast Kind.float.name v.kind.name)
  match v with
  | .int i => .ok i.toFloat
  | .float f => .ok f
  | .str s | .content _ s =>
    match Number.readTrimmed? s with
    | some f => .ok f
    | none => mismatch
  | _ => mismatch

/-- The binary64 number of an int or float. -/
def widened : Value → Float
  | .int i => i.toFloat
  | .float f => f
  | _ => 0.0

/-- Whether a text reads as the given number. -/
def textEqualsNumber (s : String) (n : Value) : Bool :=
  match Number.readTrimmed? s with
  | some f => f == n.widened
  | none => false

/-- Whether two values are the same list, map, record or future. -/
def sameOrigin : Value → Value → Bool
  | .list a _, .list b _ => a == b
  | .map a _, .map b _ => a == b
  | .record a _, .record b _ => a == b
  | .future a, .future b => a == b
  | _, _ => false

/-- Equality of templates. Null and undefined equal each other and nothing else. -/
def equal (a b : Value) : Bool :=
  if a.isNullish || b.isNullish then a.isNullish && b.isNullish
  else
    match a, b with
    | .int x, .int y => x == y
    | _, _ =>
      if a.isNumber && b.isNumber then a.widened == b.widened
      else
        match a.stringLike?, b.stringLike? with
        | some x, some y => x == y
        | some x, none =>
          if b.isNumber then textEqualsNumber x b else false
        | none, some y =>
          if a.isNumber then textEqualsNumber y a else false
        | none, none =>
          match a, b with
          | .bool x, .bool y => x == y
          | _, _ => sameOrigin a b

/-- The two ways in which values are ordered. -/
inductive Operands where
  | texts (a b : String)
  | numbers (a b : Float)

/-- Two texts are ordered as texts, anything else as numbers. -/
def operands (a b : Value) : Except Failure Operands :=
  match a.stringLike?, b.stringLike? with
  | some x, some y => .ok (.texts x y)
  | _, _ => do
    let x ← a.number?
    let y ← b.number?
    return .numbers x y

def less (a b : Value) : Except Failure Bool :=
  match a, b with
  | .int x, .int y => .ok (x < y)
  | _, _ =>
    (operands a b).map fun
      | .texts x y => x < y
      | .numbers x y => x < y

def lessEq (a b : Value) : Except Failure Bool :=
  match a, b with
  | .int x, .int y => .ok (x ≤ y)
  | _, _ =>
    (operands a b).map fun
      | .texts x y => x ≤ y
      | .numbers x y => x ≤ y

end Value

end Interlude
