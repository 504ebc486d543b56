import Interlude.Number.Read
import Interlude.Time.Instant
import Interlude.Value.Box
import Interlude.Yaml.Token
/-!
# What a scalar means

Plain scalars stand for null, booleans, integers, numbers or timestamps if they look like one, and
for strings otherwise; a tag can ask for one of these.
-/

namespace Interlude.Yaml

def nullTag : String := "!!null"
def boolTag : String := "!!bool"
def strTag : String := "!!str"
def intTag : String := "!!int"
def floatTag : String := "!!float"
def timestampTag : String := "!!timestamp"
def binaryTag : String := "!!binary"
def mergeTag : String := "!!merge"

/-- The short form of a tag of the standard schema. -/
def shortTag (tag : String) : String :=
  let lead := "tag:yaml.org,2002:"
  if tag.startsWith lead then "!!" ++ (tag.drop lead.length).toString else tag

/-! ## Looking like a number -/

/-- An integer in the notation of its leading characters: `0x`, `0b`, `0o`, or `0` for base
eight. -/
def readPrefixed? (cs : List Char) : Option Int :=
  let (negative, body) := match cs with
    | '-' :: rest => (true, rest)
    | '+' :: rest => (false, rest)
    | rest => (false, rest)
  let (base, digits) := match body with
    | '0' :: x :: rest =>
      if x = 'x' || x = 'X' then (16, rest)
      else if x = 'b' || x = 'B' then (2, rest)
      else if x = 'o' || x = 'O' then (8, rest)
      else (8, x :: rest)
    | rest => (10, rest)
  match digits.mapM (Number.digitValue? base) with
  | some (d :: ds) =>
    let n : Nat := (d :: ds).foldl (fun acc d => acc * base + d) 0
    some (if negative then -(n : Int) else n)
  | _ => none

/-- Whether a text is a decimal number: digits around an optional point, an optional exponent. -/
def isDecimal (cs : List Char) : Bool :=
  let cs := match cs with
    | '-' :: rest => rest
    | '+' :: rest => rest
    | rest => rest
  let whole := cs.takeWhile Char.isDigit
  let rest := cs.dropWhile Char.isDigit
  let (mantissa, rest) := match rest with
    | '.' :: more =>
      let fraction := more.takeWhile Char.isDigit
      (!whole.isEmpty || !fraction.isEmpty, more.dropWhile Char.isDigit)
    | rest => (!whole.isEmpty, rest)
  mantissa && match rest with
    | [] => true
    | e :: more =>
      (e = 'e' || e = 'E') &&
        (let more := match more with
          | '-' :: ds => ds
          | '+' :: ds => ds
          | ds => ds
        !more.isEmpty && more.all Char.isDigit)

/-! ## Looking like a timestamp -/

/-- One or two digits. -/
def takeShort (cs : List Char) : Option (Nat × List Char) :=
  match cs with
  | a :: b :: rest =>
    if a.isDigit && b.isDigit then some ((a.toNat - 48) * 10 + (b.toNat - 48), rest)
    else if a.isDigit then some (a.toNat - 48, b :: rest)
    else none
  | [a] => if a.isDigit then some (a.toNat - 48, []) else none
  | [] => none

/-- Year, month and day, and what follows. -/
def takeDate (cs : List Char) : Option (List Char) := do
  let year := cs.takeWhile Char.isDigit
  guard (year.length = 4)
  let y := Number.ofDigits (year.map fun d => d.toNat - 48)
  match cs.dropWhile Char.isDigit with
  | '-' :: rest =>
    let (m, rest) ← takeShort rest
    guard (1 ≤ m && m ≤ 12)
    match rest with
    | '-' :: rest =>
      let (d, rest) ← takeShort rest
      guard (1 ≤ d && d ≤ Calendar.daysIn y m)
      return rest
    | _ => none
  | _ => none

/-- Hour, minute, second and a fraction, and what follows. -/
def takeClock (cs : List Char) : Option (List Char) := do
  let (h, rest) ← takeShort cs
  guard (h < 24)
  match rest with
  | ':' :: rest =>
    let (m, rest) ← takeShort rest
    guard (m < 60)
    match rest with
    | ':' :: rest =>
      let (s, rest) ← takeShort rest
      guard (s < 60)
      match rest with
      | p :: d :: more =>
        if (p = '.' || p = ',') && d.isDigit then return (d :: more).dropWhile Char.isDigit
          else return rest
      | rest => return rest
    | _ => none
  | _ => none

/-- A zone: `Z` or a signed offset of hours and minutes. -/
def isZone (cs : List Char) : Bool :=
  match cs with
  | ['Z'] => true
  | [s, a, b, ':', c, d] =>
    (s = '+' || s = '-') && [a, b, c, d].all Char.isDigit &&
      (a.toNat - 48) * 10 + (b.toNat - 48) ≤ 24 && (c.toNat - 48) * 10 + (d.toNat - 48) ≤ 60
  | _ => false

def isTimestamp (s : String) : Bool :=
  match takeDate s.toList with
  | none => false
  | some [] => true
  | some (t :: rest) =>
    if t = 'T' || t = 't' then ((takeClock rest).map isZone).getD false
    else if t = ' ' then ((takeClock rest).map List.isEmpty).getD false
    else false

/-! ## Resolution -/

/-- A scalar's meaning with the tag of that meaning. -/
abbrev Meaning := String × Datum

/-- Words with a meaning of their own. -/
def word? : String → Option Meaning
  | "true" | "True" | "TRUE" => some (boolTag, .bool true)
  | "false" | "False" | "FALSE" => some (boolTag, .bool false)
  | "" | "~" | "null" | "Null" | "NULL" => some (nullTag, .null)
  | ".nan" | ".NaN" | ".NAN" => some (floatTag, .float (0.0 / 0.0))
  | ".inf" | ".Inf" | ".INF" | "+.inf" | "+.Inf" | "+.INF" => some (floatTag, .float (1.0 / 0.0))
  | "-.inf" | "-.Inf" | "-.INF" => some (floatTag, .float (-(1.0 / 0.0)))
  | _ => none

/-- The meaning of a text that starts with a digit or a sign. -/
def numeric? (tag text : String) : Option Meaning :=
  if (tag.isEmpty || tag = timestampTag) && isTimestamp text then
    some (timestampTag, .foreign "time.Time")
  else
    let plain := text.toList.filter (· != '_')
    match readPrefixed? plain with
    | some n =>
      if Number.fitsInt64 n then some (intTag, .int (Int64.ofInt n))
      else if 0 ≤ n && n < Nat.pow 2 64 && plain.head? ≠
        some '+' then some (intTag, .unsigned n.toNat)
      else decimal plain
    | none => decimal plain
where
  /-- A decimal number, if it is one and not too large. -/
  decimal (plain : List Char) : Option Meaning :=
    if isDecimal plain then (Number.read? (String.ofList plain)).map fun f => (floatTag, .float f)
    else none

/-- What a scalar looks like, given the tag it carries, if any. -/
def lookedUp (tag text : String) : Meaning :=
  if tag = strTag then (strTag, .str text)
  else
    match text.toList.head? with
    | none => (nullTag, .null)
    | some c =>
      let known := if "yYnNtTfFoO~.+-".toList.contains c || c.isDigit then word? text else none
      match known with
      | some m => m
      | none =>
        if c = '.' then
          match Number.read? text with
          | some f => (floatTag, .float f)
          | none => (strTag, .str text)
        else if c.isDigit || c = '+' || c = '-' then (numeric? tag text).getD (strTag, .str text)
        else (strTag, .str text)

/-- The tags that ask for a meaning of the standard schema. -/
def isSchemaTag (tag : String) : Bool :=
  ["", strTag, boolTag, intTag, floatTag, nullTag, timestampTag].contains tag

/-- The meaning of a scalar under a tag; a tag that does not fit the text is an error. An integer
may be tagged as a number, and any text may carry a tag outside the schema. -/
def resolve (tag text : String) : Except String Meaning :=
  let tag := shortTag tag
  if !isSchemaTag tag then .ok (tag, .str text)
  else
    let (found, d) := lookedUp tag text
    if tag.isEmpty || tag = found || tag = strTag then .ok (found, d)
    else
      match tag == floatTag, d with
      | true, .int i => .ok (floatTag, .float i.toFloat)
      | _, _ => .error ("yaml: cannot decode " ++ found ++ " as a " ++ tag)

/-- The tag of a scalar node: the one it carries, or that of what it looks like. -/
def scalarTag (tag : Option String) (style : ScalarStyle) (text : String) : String :=
  match tag with
  | some t => if t = "" || t = "!" then ofStyle else shortTag t
  | none => ofStyle
where
  /-- The tag of an untagged scalar. -/
  ofStyle : String :=
    if style ≠ .plain then strTag
    else if text = "<<" then mergeTag
    else (lookedUp "" text).1

end Interlude.Yaml
