import Interlude.Markup.EntityTable
import Interlude.Text.Space
import Interlude.Number.Read
/-!
# Character references

References such as `&amp;` or `&#39;` and the characters they stand for. Some names need no
semicolon in text; in an attribute such a name counts only if no equals sign follows.
-/

namespace Interlude.Markup

def hexNumber (s : String) : Nat :=
  s.toList.foldl (fun acc c => acc * 16 + (Number.hexValue? c).getD 0) 0

/-- The names with their characters. -/
def entities : List (String × List Char) :=
  entityLines.flatMap fun line => (Text.split ' ' line).filterMap fun item =>
    (Text.cut? '=' item).map fun (name, codes) =>
      (name, (Text.split '+' codes).map fun c => Char.ofNat (hexNumber c))

def entity? (name : List Char) : Option (List Char) := entities.lookup (String.ofList name)

/-- What the numbers from 0x80 to 0x9F stand for. -/
def windowsChars : List Nat := [
  0x20AC, 0x81, 0x201A, 0x192, 0x201E, 0x2026, 0x2020, 0x2021, 0x2C6, 0x2030, 0x160, 0x2039,
  0x152, 0x8D, 0x17D,
  0x8F, 0x90, 0x2018, 0x2019, 0x201C, 0x201D, 0x2022, 0x2013, 0x2014, 0x2DC, 0x2122, 0x161,
    0x203A, 0x153, 0x9D,
  0x17E, 0x178]

/-- The character of a number, of which the last 32 bits count. -/
def numericChar (number : Nat) : Char :=
  let n := number % 4294967296
  if 0x80 ≤ n && n ≤ 0x9F then Char.ofNat (windowsChars.getD (n - 0x80) 0xFFFD)
  else if n = 0 || (0xD800 ≤ n && n ≤ 0xDFFF) || 0x10FFFF < n then Char.ofNat 0xFFFD
  else Char.ofNat n

/-- A reference by number, after `&#`: its character and what follows. -/
def readNumeric (cs : List Char) : Option (List Char × List Char) :=
  let (base, digits) := match cs with
    | x :: rest => if x == 'x' || x == 'X' then (16, rest) else (10, cs)
    | [] => (10, [])
  let run := digits.takeWhile fun c => (Number.digitValue? base c).isSome
  let after := digits.drop run.length
  let (used, after) := match after with
    | ';' :: rest => (run.length + 1, rest)
    | rest => (run.length, rest)
  -- two characters at least, the mark of the base included, have to follow
  if cs.length < 2 || (if base = 16 then used + 1 else used) < 2 then none
  else
    let n := run.foldl (fun acc c => acc * base + (Number.digitValue? base c).getD 0) 0
    some ([numericChar n], after)

/-- The longest name without a semicolon that `name` begins with, at most six letters long. -/
def shortName (name : List Char) : Nat → Option (List Char × Nat)
  | 0 => none
  | 1 => none
  | n + 2 =>
    match entity? (name.take (n + 2)) with
    | some [c] => some ([c], n + 2)
    | _ => shortName name (n + 1)

/-- A reference by name, after `&`: its characters and what follows. -/
def readNamed (inAttr : Bool) (cs : List Char) : Option (List Char × List Char) :=
  let letters := cs.takeWhile Char.isAlphanum
  let after := cs.drop letters.length
  let (name, after) := match after with
    | ';' :: rest => (letters ++ [';'], rest)
    | rest => (letters, rest)
  if name.isEmpty then none
  else if inAttr && name.getLast? != some ';' && after.head? == some '=' then none
  else
    match entity? name with
    | some chars => some (chars, after)
    | none =>
      if inAttr then none
      else (shortName name (min (name.length - 1) 6)).map fun (chars, n) => (chars, cs.drop n)

/-- Replaces references, reading at most `fuel` characters or references. -/
def unescapeFrom (inAttr : Bool) : Nat → List Char → List Char
  | 0, cs => cs
  | _, [] => []
  | fuel + 1, c :: rest =>
    if c != '&' then c :: unescapeFrom inAttr fuel rest
    else
      let found := match rest with
        | '#' :: digits => readNumeric digits
        | rest => readNamed inAttr rest
      match found with
      | some (chars, after) => chars ++ unescapeFrom inAttr fuel after
      | none => c :: unescapeFrom inAttr fuel rest

/-- Replaces the character references of a text. -/
def unescape (inAttr : Bool) (cs : List Char) : List Char := unescapeFrom inAttr cs.length cs

end Interlude.Markup
