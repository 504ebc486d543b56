/-!
# Number text

How numbers are written: with the fewest decimal digits that still read back as the same binary64
number. The digits are tried by count, and for each count the two neighbours of the number on that
decimal grid are tested against the interval of reals that round to it. All arithmetic is exact.
Templates write the digits positionally from `1e-6` up to below `1e21` and with an exponent
otherwise; a zero of either sign is `0`.
-/

namespace Interlude.Number

/-! ## Digits -/

/-- A positive binary number `mant * 2 ^ exp`; `narrow` says that the next smaller number is only
half a step away. -/
structure Binary where
  mant : Nat
  exp : Int
  narrow : Bool

/-- The sign and the absolute value of a finite number, from its bits; `none` for zero. -/
def decodeBits (bits : Nat) : Bool × Option Binary :=
  let negative := Nat.pow 2 63 ≤ bits
  let biased : Nat := bits / Nat.pow 2 52 % Nat.pow 2 11
  let fraction : Nat := bits % Nat.pow 2 52
  if biased = 0 then
    (negative, if fraction = 0 then none else some ⟨fraction, -1074, false⟩)
  else
    (negative, some ⟨fraction + Nat.pow 2 52, (biased : Int) - 1075, fraction = 0 && 1 < biased⟩)

/-- A decimal `0.d₁d₂… * 10 ^ point`, without leading or trailing zero digits. -/
structure Decimal where
  digits : List Nat
  point : Int
deriving DecidableEq

/-- The decimal digits of a number, most significant first. -/
def digitsOf (n : Nat) : List Nat :=
  (Nat.toDigits 10 n).map fun c => c.toNat - '0'.toNat

/-- The number written by decimal digits, most significant first. -/
def ofDigits (ds : List Nat) : Nat :=
  ds.foldl (fun acc d => acc * 10 + d) 0

/-- `n * 10 ^ exp` as a decimal without trailing zeros. -/
def Decimal.ofScaled (n : Nat) (exp : Int) : Decimal :=
  let ds := digitsOf n
  ⟨(ds.reverse.dropWhile (· == 0)).reverse, exp + ds.length⟩

/-- Least `j ≤ fuel` with `den ≤ num * 10 ^ j`, counted on from `j`. -/
def leadingPlaces (den : Nat) : Nat → Nat → Nat → Nat
  | 0, _, j => j
  | fuel + 1, num, j => if den ≤ num then j else leadingPlaces den fuel (num * 10) (j + 1)

/-- The position before the first digit of `num / den`: the number is below `10 ^ point` and not
below `10 ^ (point - 1)`. -/
def pointOf (num den : Nat) : Int :=
  if den ≤ num then (Nat.toDigits 10 (num / den)).length
  else 1 - (leadingPlaces den 400 num 0 : Int)

/-- The neighbour of `value` on the grid of multiples of `10 ^ exp` that rounds back to it, the
nearer one if both do. The number is `num / den`, the ends of its interval `low / den` and
`high / den`. -/
def gridHit (num low high den : Nat) (closed : Bool) (exp : Int) : Option Nat :=
  let up := Nat.pow 10 exp.toNat
  let down := Nat.pow 10 (-exp).toNat
  -- multiples of the grid step, compared after clearing denominators
  let below := num * down / (den * up)
  let inside (k : Nat) : Bool :=
    let x := k * up * den
    if closed then low * down ≤ x && x ≤ high * down
    else low * down < x && x < high * down
  match inside below && 0 < below, inside (below + 1) with
  | true, true =>
    if 2 * (num * down) < (2 * below + 1) * up * den then some below else some (below + 1)
  | true, false => some below
  | false, true => some (below + 1)
  | false, false => none

/-- The first digit count, from `count` on, with a hit. -/
def firstHit (num low high den : Nat) (closed : Bool) (point : Int) : Nat → Nat → Option Decimal
  | 0, _ => none
  | fuel + 1, count =>
    match gridHit num low high den closed (point - count) with
    | some n => some (Decimal.ofScaled n (point - count))
    | none => firstHit num low high den closed point fuel (count + 1)

/-- The shortest decimal that reads back as `b`, the nearest of those. -/
def Binary.shortest (b : Binary) : Decimal :=
  -- four times the number, so that a quarter step is an integer
  let scale := Nat.pow 2 b.exp.toNat
  let den := 4 * Nat.pow 2 (-b.exp).toNat
  let num := 4 * b.mant * scale
  let high := (4 * b.mant + 2) * scale
  let low := (4 * b.mant - (if b.narrow then 1 else 2)) * scale
  let point := pointOf num den
  match firstHit num low high den (b.mant % 2 = 0) point 17 1 with
  | some d => d
  | none => Decimal.ofScaled b.mant b.exp

/-- The shortest decimal of a finite number other than zero, with its sign. -/
def shortest (f : Float) : Bool × Option Decimal :=
  let (negative, b) := decodeBits f.toBits.toNat
  (negative, b.map Binary.shortest)

/-! ## Writing -/

/-- Decimal digits as text. -/
def digitText (ds : List Nat) : String :=
  String.ofList (ds.map fun d => Char.ofNat (d + '0'.toNat))

/-- Positional notation. -/
def Decimal.positional (d : Decimal) : String :=
  let n := d.digits.length
  if d.point ≤ 0 then
    "0." ++ digitText (List.replicate (-d.point).toNat 0) ++ digitText d.digits
  else if (n : Int) ≤ d.point then
    digitText (d.digits ++ List.replicate (d.point.toNat - n) 0)
  else
    digitText (d.digits.take d.point.toNat) ++ "." ++ digitText (d.digits.drop d.point.toNat)

/-- One digit, the rest after a point, and the exponent with its sign, of at least `width`
digits. -/
def Decimal.scientific (d : Decimal) (width : Nat) : String :=
  let exp := d.point - 1
  let mantissa :=
    match d.digits with
    | [] => "0"
    | [a] => digitText [a]
    | a :: rest => digitText [a] ++ "." ++ digitText rest
  let size := Nat.toDigits 10 exp.natAbs
  let padded := String.ofList (List.replicate (width - size.length) '0' ++ size)
  mantissa ++ "e" ++ (if exp < 0 then "-" else "+") ++ padded

/-- Names of the numbers that have no digits. -/
structure Names where
  nan : String
  inf : String
  negInf : String

/-- Writes a number: `layout` gives the text of the digits, `zero` that of a zero, from its
sign. -/
def write (names : Names) (zero : Bool → String) (layout : Decimal → String) (f : Float) : String :=
  if f.isNaN then names.nan
  else if f.isInf then (if 0 < f then names.inf else names.negInf)
  else
    match shortest f with
    | (negative, none) => zero negative
    | (negative, some d) => (if negative then "-" else "") ++ layout d

/-- Positional if the number is at least `1e-6` and below `1e21`. -/
def templateLayout (d : Decimal) : String :=
  if -5 ≤ d.point && d.point ≤ 21 then d.positional else d.scientific 1

/-- The text of a number without exponent, whatever its size. -/
def positionalText (f : Float) : String :=
  write ⟨"NaN", "+Inf", "-Inf"⟩ (fun negative => if negative then "-0" else "0")
    Decimal.positional f

/-- The text of a number in template output. -/
def text (f : Float) : String :=
  write ⟨"NaN", "Infinity", "-Infinity"⟩ (fun _ => "0") templateLayout f

/-- As `text`, but a negative zero shows its sign. -/
def signedText (f : Float) : String :=
  write ⟨"NaN", "Infinity", "-Infinity"⟩ (fun neg => if neg then "-0" else "0") templateLayout f

/-- The text of a number in messages and logs: positional if the exponent is at least -4 and below
6, otherwise with an exponent of at least two digits. -/
def plainText (f : Float) : String :=
  write ⟨"NaN", "+Inf", "-Inf"⟩ (fun neg => if neg then "-0" else "0")
    (fun d => if -3 ≤ d.point && d.point ≤ 6 then d.positional else d.scientific 2) f

end Interlude.Number
