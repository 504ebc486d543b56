import Interlude.Term.Basic
import Interlude.Value.Coerce
import Interlude.Number.Arith
/-!
# Operators

Arithmetic and comparison on integers, numbers, texts and boxed values. Two integers stay integers
and wrap around; anything else widens to numbers; division is always of numbers.
-/

namespace Interlude

/-- The remainder with the sign of the dividend. -/
def Arith.modInt (a b : Int64) : Except Failure Int64 :=
  if b = 0 then
    .error (.fault ((Failure.argument .invalidArgument "modulo by zero").detail "dividend"
      (toString a.toInt)))
  else .ok (Int64.ofInt (a.toInt.tmod b.toInt))

namespace Arith

def ints (op : Arith) (a b : Int64) : Except Failure Int64 :=
  match op with
  | add => .ok (a + b)
  | sub => .ok (a - b)
  | mul => .ok (a * b)
  | div => .ok (a / b)
  | mod => modInt a b

def floats (op : Arith) (a b : Float) : Float :=
  match op with
  | add => a + b
  | sub => a - b
  | mul => a * b
  | div => a / b
  | mod => Number.remainder a b

/-- Two values as numbers; the first one that is none is reported. -/
def numbers (a b : Value) : Except Failure (Float × Float) := do
  let x ← a.toFloat?
  let y ← b.toFloat?
  return (x, y)

/-- Arithmetic on boxed numbers. -/
def values (op : Arith) (a b : Value) : Except Failure Value :=
  match op, a, b with
  | div, a, b => do
    let (x, y) ← numbers a b
    return .float (x / y)
  | op, .int x, .int y => return .int (← op.ints x y)
  | op, a, b => do
    let (x, y) ← numbers a b
    return .float (op.floats x y)

end Arith

/-- The negative of a number. -/
def Value.neg : Value → Except Failure Value
  | .int i => .ok (.int (-i))
  | .float f => .ok (.float (-f))
  | v => .error (Failure.cast "number" v.kind.name)

namespace Comparison

def ints (op : Comparison) (a b : Int64) : Bool :=
  match op with
  | eq => a == b
  | notEq => a != b
  | less => a < b
  | lessEq => a ≤ b
  | greater => b < a
  | greaterEq => b ≤ a

/-- The number that is none differs from every number and is in no order with any. -/
def floats (op : Comparison) (a b : Float) : Bool :=
  match op with
  | eq => a == b
  | notEq => a != b
  | less => a < b
  | lessEq => a ≤ b
  | greater => b < a
  | greaterEq => b ≤ a

def texts (op : Comparison) (a b : String) : Bool :=
  match op with
  | eq => a == b
  | notEq => a != b
  | less => a < b
  | lessEq => a ≤ b
  | greater => b < a
  | greaterEq => b ≤ a

def values (op : Comparison) (a b : Value) : Except Failure Bool :=
  match op with
  | eq => .ok (a.equal b)
  | notEq => .ok (!a.equal b)
  | less => a.less b
  | lessEq => a.lessEq b
  | greater => b.less a
  | greaterEq => b.lessEq a

end Comparison

end Interlude
