import Interlude.Number.Read
/-!
# Arithmetic beyond the machine's own

The remainder of two numbers, the smaller and the greater of two, and powers of ten, with the rules
for zeros, infinities and the number that is none.
-/

namespace Interlude.Number

def nan : Float := 0.0 / 0.0

def infinity : Float := 1.0 / 0.0

/-- Whether the sign of a number is set; zeros have signs too. -/
def isNegative (f : Float) : Bool :=
  Nat.pow 2 63 ≤ f.toBits.toNat

/-- The bits of a number; all numbers that are none share one pattern. -/
def bitsOf (f : Float) : UInt64 :=
  if f.isNaN then 0x7FF8000000000001 else f.toBits

/-- The exact remainder of `x` by `y`, with the sign of `x`. -/
def remainder (x y : Float) : Float :=
  if x.isNaN || y.isNaN || x.isInf || y == 0.0 then nan
  else if y.isInf then x
  else
    match decodeBits x.toBits.toNat, (decodeBits y.toBits.toNat).2 with
    | (negative, some a), some b =>
      let least := min a.exp b.exp
      let num := a.mant * Nat.pow 2 (a.exp - least).toNat
      let den := b.mant * Nat.pow 2 (b.exp - least).toNat
      let r := ofBinary (num % den) least
      if negative then -r else r
    | _, _ => x

/-- The smaller of two numbers; of two zeros a negative one. -/
def least (x y : Float) : Float :=
  if x == -infinity || y == -infinity then -infinity
  else if x.isNaN || y.isNaN then nan
  else if x == 0.0 && x == y then (if isNegative x then x else y)
  else if x < y then x else y

/-- The greater of two numbers; of two zeros a positive one. -/
def greatest (x y : Float) : Float :=
  if x == infinity || y == infinity then infinity
  else if x.isNaN || y.isNaN then nan
  else if x == 0.0 && x == y then (if isNegative x then y else x)
  else if y < x then x else y

/-- A number `frac * 2 ^ exp` with `frac` of magnitude from a half to one. -/
structure Split where
  frac : Float
  exp : Int

/-- Repeated squaring on split numbers: `acc * base ^ n`. Stops early once the exponent decides
that the result is infinite. -/
def powGo : Nat → Split → Split → Nat → Split
  | 0, acc, _, _ => acc
  | fuel + 1, acc, base, n =>
    if n = 0 then acc
    else if 4096 < base.exp then { acc with exp := acc.exp + base.exp }
    else
      let acc := if n % 2 = 1 then ⟨acc.frac * base.frac, acc.exp + base.exp⟩ else acc
      let square : Split := ⟨base.frac * base.frac, base.exp * 2⟩
      let square := if square.frac < 0.5 then ⟨square.frac + square.frac, square.exp - 1⟩
        else square
      powGo fuel acc square (n / 2)

/-- `10 ^ n` by repeated squaring in binary64, with the rounding of each product. -/
def powerOfTen (n : Nat) : Float :=
  if n = 0 then 1.0
  else if n = 1 then 10.0
  else
    let r := powGo 64 ⟨1.0, 0⟩ ⟨0.625, 4⟩ n
    if 2000 < r.exp then infinity
    else
      match (decodeBits r.frac.toBits.toNat).2 with
      | some b => ofBinary b.mant (b.exp + r.exp)
      | none => 0.0

/-- Rounds a half up. -/
def roundHalfUp (f : Float) : Float := (f + 0.5).floor

end Interlude.Number
