import Interlude.Json.Basic
import Interlude.Text.Quoted
import Interlude.Yaml.Scalar
/-!
# Writing documents

Block documents of lists, fields and scalars. A text is written plain if it reads back as itself
that way, between single quotes if only its characters forbid that, as a literal block if it has
line breaks, and between double quotes otherwise.
-/

namespace Interlude.Yaml

/-- A document to write. A plain scalar is written as it stands. -/
inductive Block where
  | plain (text : String)
  | text (s : String)
  | items (blocks : List Block)
  | fields (members : List (String × Block))
deriving Inhabited

namespace Block

mutual

/-- The block of a JSON document. -/
def ofJson : Json → Block
  | .null => .plain "null"
  | .bool b => .plain (if b then "true" else "false")
  | .num t => .plain t
  | .str s => .text s
  | .arr js => .items (ofItems js)
  | .obj ms => .fields (ofMembers ms)

def ofItems : List Json → List Block
  | [] => []
  | j :: rest => ofJson j :: ofItems rest

def ofMembers : List (String × Json) → List (String × Block)
  | [] => []
  | (k, j) :: rest => (k, ofJson j) :: ofMembers rest

end

end Block

/-! ## What a text allows -/

/-- Words that older readers take for truth values. -/
def isOldFlag (s : String) : Bool :=
  ["y", "Y", "yes", "Yes", "YES", "on", "On", "ON", "n", "N", "no", "No", "NO", "off", "Off",
    "OFF"].contains s

/-- Whether digits are a number below sixty. -/
def isBelowSixty : List Char → Bool
  | [_] => true
  | [a, _] => a ≤ '5'
  | _ => false

/-- Groups of `:` and a number below sixty, then an optional fraction. Each takes a character. -/
def isSixties : Nat → List Char → Bool
  | fuel + 1, ':' :: rest =>
    isBelowSixty (rest.takeWhile Char.isDigit) && match rest.dropWhile Char.isDigit with
      | [] => true
      | '.' :: more => more.all fun c => c.isDigit || c = '_'
      | more => isSixties fuel more
  | _, _ => false

/-- Whether older readers take a text for a number in base sixty. -/
def isBaseSixty (s : String) : Bool :=
  let cs := match s.toList with
    | '+' :: rest => rest
    | '-' :: rest => rest
    | cs => cs
  match cs with
  | d :: rest =>
    d.isDigit && isSixties (rest.length + 1) (rest.dropWhile fun c => c.isDigit || c = '_')
  | [] => false

/-- Whether a text, written plain, means itself. -/
def meansItself (s : String) : Bool :=
  s != "<<" && (lookedUp "" s).1 == strTag && !isBaseSixty s && !isOldFlag s

def isLineBreak (c : Char) : Bool := [0xA, 0xD, 0x85, 0x2028, 0x2029].contains c.toNat

/-- Characters that stand in a document as they are. -/
def isWritable (c : Char) : Bool :=
  let n := c.toNat
  n = 0xA || (0x20 ≤ n && n ≤ 0x7E) || (0xA0 ≤ n && n ≤ 0xFFFD && n ≠ 0xFEFF)

/-- Whether the character at the front of a text starts something else than a plain scalar. -/
def isIndicator (cs : List Char) : Bool :=
  match cs with
  | [] => false
  | c :: rest =>
    let apart := match rest with
      | [] => true
      | d :: _ => d = ' ' || d = '\t'
    if "#,[]\x7b\x7d&*!|>'\"%@\x60".toList.contains c then true
    else (c = '?' || c = ':' || c = '-') && apart

/-- Whether a later character ends a plain scalar: a colon before a blank or the end, or a number
sign after white space. -/
def hasIndicator : Char → List Char → Bool
  | _, [] => false
  | before, c :: rest =>
    let apart := match rest with
      | [] => true
      | d :: _ => d = ' ' || d = '\t'
    (c = ':' && apart) || (c = '#' && (before = ' ' || before = '\t' || isLineBreak before)) ||
      hasIndicator c rest

/-- Whether a neighbouring pair of characters fits two tests. -/
def hasPair (p q : Char → Bool) : List Char → Bool
  | a :: b :: rest => (p a && q b) || hasPair p q (b :: rest)
  | _ => false

/-- Whether nothing but quotes or a block can hold a text: blanks or line breaks at its ends, or
line breaks in it. -/
def isLoose (cs : List Char) : Bool :=
  let ends (c : Option Char) : Bool := c == some ' '
  ends cs.head? || ends cs.getLast? || cs.any isLineBreak

/-- Whether a text has characters that only escapes can write. -/
def needsEscapes (cs : List Char) : Bool :=
  cs.any (fun c => !isWritable c) || hasPair (· == ' ') isLineBreak cs

/-- Whether a text can stand plain in a block. -/
def allowsPlain (s : String) : Bool :=
  let cs := s.toList
  let marks := s.startsWith "---" || s.startsWith "..."
  !marks && !isIndicator cs && !isLoose cs && !needsEscapes cs
    && !(match cs with | [] => false | c :: rest => hasIndicator c rest)

def allowsSingle (s : String) : Bool :=
  !needsEscapes s.toList && !hasPair isLineBreak (· == ' ') s.toList

def allowsLiteral (s : String) : Bool :=
  s.toList.getLast? != some ' ' && !hasPair (· == ' ') isLineBreak s.toList
    && s.toList.all fun c => isWritable c || c = '\t'

/-! ## Scalars -/

/-- A character between double quotes. -/
def escaped (c : Char) : String :=
  match c.toNat with
  | 0x00 => "\\0"
  | 0x07 => "\\a"
  | 0x08 => "\\b"
  | 0x09 => "\\t"
  | 0x0A => "\\n"
  | 0x0B => "\\v"
  | 0x0C => "\\f"
  | 0x0D => "\\r"
  | 0x1B => "\\e"
  | 0x22 => "\\\""
  | 0x5C => "\\\\"
  | 0x85 => "\\N"
  | 0x2028 => "\\L"
  | 0x2029 => "\\P"
  | n =>
    if isWritable c then String.singleton c
    else if n ≤ 0xFF then "\\x" ++ Text.hexPaddedUpper 2 n
    else if n ≤ 0xFFFF then "\\u" ++ Text.hexPaddedUpper 4 n
    else "\\U" ++ Text.hexPaddedUpper 8 n

def doubleQuoted (s : String) : String := "\"" ++ String.join (s.toList.map escaped) ++ "\""

def singleQuoted (s : String) : String :=
  "'" ++ String.join (s.toList.map fun c => if c = '\'' then "''" else String.singleton c) ++ "'"

/-- How a literal block ends: without a line break, with one, or with several. -/
def chomping (cs : List Char) : String :=
  match cs.reverse with
  | [] => "-"
  | [c] => if isLineBreak c then "+" else "-"
  | c :: d :: _ => if !isLineBreak c then "-" else if isLineBreak d then "+" else ""

/-- A literal block, its lines indented. -/
def literal (indent : Nat) (s : String) : String :=
  let cs := s.toList
  let hint := match cs with
    | c :: _ => if c = ' ' || isLineBreak c then "4" else ""
    | [] => ""
  let lines := (Text.split '\n' s).map fun l => if l.isEmpty then "" else "".pushn ' ' indent ++ l
  let lines := if lines.getLast? == some "" then lines.dropLast else lines
  "|" ++ hint ++ chomping cs ++ "\n" ++ Text.join "\n" lines

/-- The text of a scalar whose literal lines would be indented so far. -/
def scalarText (indent : Nat) (s : String) : String :=
  if s.toList.contains '\n' then
    if allowsLiteral s then literal indent s else doubleQuoted s
  else if !meansItself s then doubleQuoted s
  else if allowsPlain s then s
  else if allowsSingle s then singleQuoted s
  else doubleQuoted s

/-! ## Blocks -/

/-- How far the entries of fields are indented below their own. -/
def nextIndent (indent : Nat) : Nat := 4 * ((indent + 4) / 4)

/-- How far the content of an item is indented below the item. -/
def itemIndent (indent : Nat) : Nat := indent + 2

mutual

/-- A block at an indentation; its first line is not indented. -/
def writeBlock (indent : Nat) : Block → String
  | .plain t => t
  | .text s => scalarText indent s
  | .items bs =>
    if bs.isEmpty then "[]" else Text.join ("\n" ++ "".pushn ' ' indent) (writeItems indent bs)
  | .fields ms =>
    if ms.isEmpty then "\x7b\x7d"
      else Text.join ("\n" ++ "".pushn ' ' indent) (writeFields indent ms)

def writeItems (indent : Nat) : List Block → List String
  | [] => []
  | b :: rest => ("- " ++ writeBlock (itemIndent indent) b) :: writeItems indent rest

def writeFields (indent : Nat) : List (String × Block) → List String
  | [] => []
  | (k, b) :: rest =>
    let inner := nextIndent indent
    let lead := match b with
      | .items (_ :: _) => "\n" ++ "".pushn ' ' inner
      | .fields (_ :: _) => "\n" ++ "".pushn ' ' inner
      | _ => " "
    (k ++ ":" ++ lead ++ writeBlock inner b) :: writeFields indent rest

end

/-- A whole document. -/
def Block.write (b : Block) : String := writeBlock 0 b ++ "\n"

end Interlude.Yaml
