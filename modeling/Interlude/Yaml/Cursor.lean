/-!
# Positions in a document

A cursor walks over the characters of a document and counts lines and columns from zero. Lines end
at the breaks of the format: carriage return, line feed, their pair, next line, and the line and
paragraph separators.
-/

namespace Interlude.Yaml

/-- A place in a document, counted from zero. -/
structure Mark where
  index : Nat
  line : Nat
  column : Nat
deriving DecidableEq, Repr, Inhabited

/-- Why a text is no document. -/
structure Malformed where
  line : Nat
  reason : String
deriving Repr, Inhabited

/-- The wording starts with the name of the format. -/
def Malformed.text (m : Malformed) : String :=
  "yaml: line " ++ toString (m.line + 1) ++ ": " ++ m.reason

/-- The characters still to be read, and where they start. -/
structure Cursor where
  rest : List Char
  mark : Mark

def isBreak (c : Char) : Bool :=
  c = '\n' || c = '\r' || c.toNat = 0x85 || c.toNat = 0x2028 || c.toNat = 0x2029

def isBlank (c : Char) : Bool :=
  c = ' ' || c = '\t'

/-- Characters a document may hold. -/
def isAllowed (c : Char) : Bool :=
  let n := c.toNat
  n = 0x09 || n = 0x0A || n = 0x0D || (0x20 ≤ n && n ≤ 0x7E) || n = 0x85 ||
    (0xA0 ≤ n && n ≤ 0xD7FF) || (0xE000 ≤ n && n ≤ 0xFFFD) || 0x10000 ≤ n

namespace Cursor

/-- The next character. -/
def peek (c : Cursor) : Option Char := c.rest.head?

/-- The character `n` places ahead. -/
def ahead (c : Cursor) (n : Nat) : Option Char := c.rest[n]?

/-- Steps over one character of a line. -/
def skip (c : Cursor) : Cursor :=
  match c.rest with
  | [] => c
  | _ :: rest => ⟨rest, ⟨c.mark.index + 1, c.mark.line, c.mark.column + 1⟩⟩

/-- Steps over `n` characters of a line. -/
def skipN : Nat → Cursor → Cursor
  | 0, c => c
  | n + 1, c => skipN n c.skip

/-- Steps over one line break and gives the characters it stands for: one line feed, except for
the separators, which stand for themselves. -/
def takeBreak (c : Cursor) : List Char × Cursor :=
  let next (n : Nat) (rest : List Char) : Cursor := ⟨rest, ⟨c.mark.index + n, c.mark.line + 1, 0⟩⟩
  match c.rest with
  | '\r' :: '\n' :: rest => (['\n'], next 2 rest)
  | ch :: rest =>
    if ch.toNat = 0x2028 || ch.toNat = 0x2029 then ([ch], next 1 rest)
    else if isBreak ch then (['\n'], next 1 rest)
    else ([], c)
  | [] => ([], c)

def skipBreak (c : Cursor) : Cursor := c.takeBreak.2

def atEnd (c : Cursor) : Bool := c.rest.isEmpty

/-- Whether the character `n` places ahead is a blank, a break or the end. -/
def blankOrEnd (c : Cursor) (n : Nat) : Bool :=
  match c.ahead n with
  | none => true
  | some ch => isBlank ch || isBreak ch

/-- Whether the next character is a break or the end. -/
def breakOrEnd (c : Cursor) : Bool :=
  match c.peek with
  | none => true
  | some ch => isBreak ch

def is (c : Cursor) (ch : Char) : Bool := c.peek == some ch

/-- Whether the next three characters, at the start of a line, mark the border of a document. -/
def atIndicator (c : Cursor) (ch : Char) : Bool :=
  c.mark.column == 0 && c.ahead 0 == some ch && c.ahead 1 == some ch && c.ahead 2 == some ch &&
    c.blankOrEnd 3

def atDocumentBorder (c : Cursor) : Bool := c.atIndicator '-' || c.atIndicator '.'

/-- Steps over the characters of a line that satisfy `p`. -/
def takeLine (p : Char → Bool) : List Char → Mark → List Char × Cursor
  | [], m => ([], ⟨[], m⟩)
  | ch :: rest, m =>
    if p ch then
      let (taken, c) := takeLine p rest ⟨m.index + 1, m.line, m.column + 1⟩
      (ch :: taken, c)
    else ([], ⟨ch :: rest, m⟩)

def takeWhile (c : Cursor) (p : Char → Bool) : List Char × Cursor := takeLine p c.rest c.mark

def dropWhile (c : Cursor) (p : Char → Bool) : Cursor := (c.takeWhile p).2

def malformed (c : Cursor) (reason : String) : Malformed := ⟨c.mark.line, reason⟩

end Cursor

end Interlude.Yaml
