import Interlude.Text.Utf8
import Interlude.Yaml.Token.Scalar
/-!
# From text to tokens

A text in which a key may stand is remembered until a colon shows that it is one; then the tokens
that open the key, and if need be the mapping, are put in before it. Indentation opens and closes
block collections.

The scan runs ahead of the reader: a token is settled only once the two behind it are known, and
once it is decided whether a key starts at it. So a fault hides the tokens shortly before it.
-/

namespace Interlude.Yaml

/-- A place where a simple key may have started: the number of tokens before it, and whether
nothing but a key may stand there. -/
structure KeyStart where
  required : Bool
  before : Nat
  mark : Mark

/-- Whether a colon at `here` can still show that the key is one: it has to come on the same line
and within 1024 characters. -/
def KeyStart.isOpen (k : KeyStart) (here : Mark) : Bool :=
  here.line ≤ k.mark.line && here.index ≤ k.mark.index + 1024

/-- The state of scanning. `tokens` is in reverse, `keys` holds one entry per open flow collection
and one for the block around them. -/
structure Scanner where
  cursor : Cursor
  tokens : List Token
  count : Nat
  flow : Nat
  indent : Int
  indents : List Int
  keyAllowed : Bool
  keys : List (Option KeyStart)

/-- Scanning steps. -/
abbrev Scanning := Except Malformed

namespace Scanner

def start (text : List Char) : Scanner :=
  ⟨⟨text, ⟨0, 0, 0⟩⟩, [], 0, 0, -1, [], true, [none]⟩

def fail (s : Scanner) (reason : String) : Scanning α := .error (s.cursor.malformed reason)

/-- Adds a token at the end. -/
def push (s : Scanner) (t : Token) : Scanner :=
  { s with tokens := t :: s.tokens, count := s.count + 1 }

/-- Puts a token in after the first `before` tokens. -/
def insertBehind (s : Scanner) (before : Nat) (t : Token) : Scanner :=
  let later := s.count - before
  { s with tokens := s.tokens.take later ++ t :: s.tokens.drop later, count := s.count + 1 }

/-- Closes the block collections that are indented more than `column`. -/
def unroll (column : Int) : Nat → Scanner → Scanner
  | 0, s => s
  | fuel + 1, s =>
    if s.flow = 0 && column < s.indent then
      let s := s.push ⟨.blockEnd, s.cursor.mark, s.cursor.mark⟩
      match s.indents with
      | [] => unroll column fuel { s with indent := -1 }
      | i :: rest => unroll column fuel { s with indent := i, indents := rest }
    else s

def unrollTo (s : Scanner) (column : Int) : Scanner := unroll column (s.indents.length + 1) s

/-- How deep block collections, or flow collections, may lie in each other. -/
def depthLimit : Nat := 10000

/-- Opens a block collection if `column` is further right than the current one. -/
def roll (s : Scanner) (column : Nat) (before : Option Nat) (lexeme : Lexeme) (mark : Mark) :
    Scanning Scanner :=
  if s.flow = 0 && s.indent < column then
    let s := { s with indents := s.indent :: s.indents, indent := column }
    let t : Token := ⟨lexeme, mark, mark⟩
    if depthLimit < s.indents.length then s.fail "exceeded max depth of 10000"
    else
      match before with
      | some n => .ok (s.insertBehind n t)
      | none => .ok (s.push t)
  else .ok s

/-- Forgets the key that may have started here; one that was required is missing its colon. -/
def dropKey (s : Scanner) : Scanning Scanner :=
  match s.keys with
  | some k :: rest =>
    if k.required then s.fail "could not find expected ':'" else .ok { s with keys := none :: rest }
  | _ => .ok s

/-- Remembers that a key may start here. -/
def saveKey (s : Scanner) : Scanning Scanner :=
  if s.keyAllowed then do
    let required := s.flow = 0 && s.indent = s.cursor.mark.column
    let s ← s.dropKey
    return { s with keys := some ⟨required, s.count, s.cursor.mark⟩ :: s.keys.drop 1 }
  else .ok s

/-- The remembered key, if the colon comes on its line and soon enough. -/
def currentKey (s : Scanner) : Scanning (Option KeyStart) :=
  match s.keys with
  | some k :: _ =>
    if k.isOpen s.cursor.mark then .ok (some k)
    else if k.required then s.fail "could not find expected ':'"
    else .ok none
  | _ => .ok none

/-- Steps over blanks, comments and line breaks. -/
def toNext : Nat → Scanner → Scanner
  | 0, s => s
  | fuel + 1, s =>
    let c := s.cursor
    let c := if c.mark.column = 0 && (c.peek.map (·.toNat)) == some 0xFEFF then c.skip else c
    let tabs := 0 < s.flow || !s.keyAllowed
    let c := c.dropWhile fun ch => ch = ' ' || (tabs && ch = '\t')
    let c := if c.is '#' then c.dropWhile (!isBreak ·) else c
    match c.peek with
    | some ch =>
      if isBreak ch then
        toNext fuel { s with cursor := c.skipBreak, keyAllowed := s.keyAllowed || s.flow = 0 }
      else { s with cursor := c }
    | none => { s with cursor := c }

/-! ## Indicators -/

/-- Adds a token that is `width` characters long. -/
def indicator (s : Scanner) (width : Nat) (lexeme : Lexeme) : Scanner :=
  let c := s.cursor.skipN width
  { s.push ⟨lexeme, s.cursor.mark, c.mark⟩ with cursor := c }

def streamEnd (s : Scanner) : Scanning Scanner := do
  let m := s.cursor.mark
  let m : Mark := if m.column = 0 then m else ⟨m.index, m.line + 1, 0⟩
  let s := { s with cursor := ⟨[], m⟩ }
  let s ← (s.unrollTo (-1)).dropKey
  return s.push ⟨.streamEnd, m, m⟩

def documentBorder (s : Scanner) (lexeme : Lexeme) : Scanning Scanner := do
  let s ← (s.unrollTo (-1)).dropKey
  return { s with keyAllowed := false }.indicator 3 lexeme

def flowStart (s : Scanner) (lexeme : Lexeme) : Scanning Scanner := do
  let s ← s.saveKey
  if s.flow = depthLimit then s.fail "exceeded max depth of 10000"
  else
    return { s with keys := none :: s.keys, flow := s.flow + 1,
                    keyAllowed := true }.indicator 1 lexeme

def flowEnd (s : Scanner) (lexeme : Lexeme) : Scanning Scanner := do
  let s ← s.dropKey
  let s := if 0 < s.flow then { s with flow := s.flow - 1, keys := s.keys.drop 1 } else s
  return { s with keyAllowed := false }.indicator 1 lexeme

def flowEntry (s : Scanner) : Scanning Scanner := do
  let s ← s.dropKey
  return { s with keyAllowed := true }.indicator 1 .flowEntry

def blockEntry (s : Scanner) : Scanning Scanner := do
  if s.flow = 0 && !s.keyAllowed then
    s.fail "block sequence entries are not allowed in this context"
  else
    let s ← s.roll s.cursor.mark.column none .blockSequenceStart s.cursor.mark
    let s ← s.dropKey
    return { s with keyAllowed := true }.indicator 1 .blockEntry

def explicitKey (s : Scanner) : Scanning Scanner := do
  if s.flow = 0 && !s.keyAllowed then s.fail "mapping keys are not allowed in this context"
  else
    let s ← s.roll s.cursor.mark.column none .blockMappingStart s.cursor.mark
    let s ← s.dropKey
    return { s with keyAllowed := s.flow = 0 }.indicator 1 .key

def value (s : Scanner) : Scanning Scanner := do
  match ← s.currentKey with
  | some k =>
    let s := s.insertBehind k.before ⟨.key, k.mark, k.mark⟩
    let s ← s.roll k.mark.column (some k.before) .blockMappingStart k.mark
    return { s with keys := none :: s.keys.drop 1, keyAllowed := false }.indicator 1 .value
  | none =>
    if s.flow = 0 && !s.keyAllowed then s.fail "mapping values are not allowed in this context"
    else
      let s ← s.roll s.cursor.mark.column none .blockMappingStart s.cursor.mark
      return { s with keyAllowed := s.flow = 0 }.indicator 1 .value

/-! ## Names, tags and scalars -/

def isWordChar (c : Char) : Bool :=
  c.isAlphanum || c = '_' || c = '-'

/-- Adds a token that starts where the scanner is and ends at `c`. -/
def scanned (s : Scanner) (lexeme : Lexeme) (c : Cursor) : Scanner :=
  { s.push ⟨lexeme, s.cursor.mark, c.mark⟩ with cursor := c }

def anchorOrAlias (s : Scanner) (lexeme : String → Lexeme) : Scanning Scanner := do
  let s ← s.saveKey
  let (name, c) := s.cursor.skip.takeWhile isWordChar
  let closes := c.blankOrEnd 0 || (c.peek.map ("?:,]\x7d%@`".toList.contains ·)).getD true
  if name.isEmpty || !closes then
    s.fail "did not find expected alphabetic or numeric character"
  else return { s with keyAllowed := false }.scanned (lexeme (String.ofList name)) c

def isUriChar (c : Char) : Bool :=
  isWordChar c || ";/?:@&=+$.,!~*'()[]%".toList.contains c

/-- How many bytes a character takes whose first byte is `n`. -/
def byteWidth? (n : Nat) : Option Nat :=
  if n < 0x80 then some 1
  else if n / 32 = 6 then some 2
  else if n / 16 = 14 then some 3
  else if n / 8 = 30 then some 4
  else none

/-- The bytes that a URI stands for. `%` and two hexadecimal digits are one byte, and of a character
written in this way `due` more bytes have to follow. -/
def uriBytes : Nat → List Char → Except String (List Nat)
  | due, '%' :: a :: b :: rest =>
    match Number.hexValue? a, Number.hexValue? b with
    | some x, some y =>
      let n := 16 * x + y
      if 0 < due then
        if n / 64 = 2 then (n :: ·) <$> uriBytes (due - 1) rest
        else .error "found an incorrect trailing UTF-8 octet"
      else
        match byteWidth? n with
        | some width => (n :: ·) <$> uriBytes (width - 1) rest
        | none => .error "found an incorrect leading UTF-8 octet"
    | _, _ => .error "did not find URI escaped octet"
  | 0, [] => .ok []
  | 0, c :: rest =>
    if c = '%' then .error "did not find URI escaped octet" else (c.toNat :: ·) <$> uriBytes 0 rest
  | _ + 1, _ => .error "did not find URI escaped octet"

/-- The text of a URI, which may be empty. -/
def uriText (s : Scanner) (c : Cursor) : Scanning (String × Cursor) :=
  let (taken, c) := c.takeWhile isUriChar
  match uriBytes 0 taken with
  | .ok bytes => .ok (Text.ofBytes bytes, c)
  | .error reason => s.fail reason

/-- The text of a URI that has to be there. -/
def uri (s : Scanner) (c : Cursor) : Scanning (String × Cursor) := do
  let (text, c) ← s.uriText c
  if text.isEmpty then s.fail "did not find expected tag URI" else return (text, c)

/-- The word after a `!`, and whether another `!` makes the whole a handle. -/
def tagWord (c : Cursor) : String × Bool × Cursor :=
  let (word, c) := c.skip.takeWhile isWordChar
  if c.is '!' then (String.ofList word, true, c.skip) else (String.ofList word, false, c)

/-- A tag: a URI in angle brackets, a handle and the rest of the URI, or a `!` and a name. -/
def tag (s : Scanner) : Scanning Scanner := do
  let s ← s.saveKey
  let (handle, suffix, c) ←
    if s.cursor.ahead 1 == some '<' then do
      let (whole, c) ← s.uri (s.cursor.skipN 2)
      if c.is '>' then pure ("", whole, c.skip) else s.fail "did not find the expected '>'"
    else
      match tagWord s.cursor with
      | (word, true, c) => do
        let (suffix, c) ← s.uri c
        pure ("!" ++ word ++ "!", suffix, c)
      | (word, false, c) => do
        let (more, c) ← s.uriText c
        let suffix := word ++ more
        if suffix.isEmpty then pure ("", "!", c) else pure ("!", suffix, c)
  if !c.blankOrEnd 0 then s.fail "did not find expected whitespace or line break"
  else return { s with keyAllowed := false }.scanned (.tag handle suffix) c

def quotedScalar (s : Scanner) (quote : Char) (style : ScalarStyle) : Scanning Scanner := do
  let s ← s.saveKey
  let (text, c) ← takeQuoted quote (s.cursor.rest.length + 1) [] s.cursor.skip
  return { s with keyAllowed := false }.scanned (.scalar style (String.ofList text)) c

def blockScalar (s : Scanner) (literal : Bool) : Scanning Scanner := do
  let s ← s.dropKey
  let (text, c) ← takeBlock literal s.indent s.cursor.skip
  let style := if literal then ScalarStyle.literal else .folded
  return { s with keyAllowed := true }.scanned (.scalar style (String.ofList text)) c

def plainScalar (s : Scanner) : Scanning Scanner := do
  let s ← s.saveKey
  let p ← takePlain (0 < s.flow) (s.indent + 1).toNat (s.cursor.rest.length + 1) []
    none s.cursor.mark s.cursor
  let t : Token := ⟨.scalar .plain (String.ofList p.text), s.cursor.mark, p.stop⟩
  return { s.push t with cursor := p.cursor, keyAllowed := p.crossed }

/-- A part of a version, of one or two digits. -/
def versionNumber (s : Scanner) (c : Cursor) : Scanning (Nat × Cursor) :=
  let (digits, c) := c.takeWhile Char.isDigit
  if digits.isEmpty then s.fail "did not find expected version number"
  else if 2 < digits.length then s.fail "found extremely long version number"
  else .ok (Number.ofDigits (digits.map fun d => d.toNat - '0'.toNat), c)

/-- The version a document is written in. -/
def versionDirective (s : Scanner) (c : Cursor) : Scanning (Lexeme × Cursor) := do
  let (major, c) ← s.versionNumber c
  if !c.is '.' then s.fail "did not find expected digit or '.' character"
  else
    let (minor, c) ← s.versionNumber c.skip
    return (.versionDirective major minor, c)

/-- A tag handle and what it stands for. -/
def tagDirective (s : Scanner) (c : Cursor) : Scanning (Lexeme × Cursor) := do
  let (word, closed, c) := if c.is '!' then tagWord c else ("!", false, c)
  if !closed && !word.isEmpty then s.fail "did not find expected '!'"
  else if !(c.peek.map isBlank).getD false then s.fail "did not find expected whitespace"
  else
    let (lead, c) ← s.uri (c.dropWhile isBlank)
    if !c.blankOrEnd 0 then s.fail "did not find expected whitespace or line break"
    else return (.tagDirective (if closed then "!" ++ word ++ "!" else "!") lead, c)

/-- A `%` line: a version or the meaning of a tag handle. -/
def directive (s : Scanner) : Scanning Scanner := do
  let s ← (s.unrollTo (-1)).dropKey
  let s := { s with keyAllowed := false }
  let (name, c) := s.cursor.skip.takeWhile isWordChar
  if !c.blankOrEnd 0 then s.fail "found unexpected non-alphabetical character"
  else
    let c := c.dropWhile isBlank
    let (lexeme, c) ← match String.ofList name with
      | "YAML" => s.versionDirective c
      | "TAG" => s.tagDirective c
      | _ => s.fail "found unknown directive name"
    let t := s.scanned lexeme c
    let c := c.dropWhile isBlank
    let c := if c.is '#' then c.dropWhile (!isBreak ·) else c
    if c.breakOrEnd then return { t with cursor := c.skipBreak }
    else s.fail "did not find expected comment or line break"

/-! ## The scan -/

/-- Characters with which a plain scalar cannot start unless more is known. -/
def isIndicator (c : Char) : Bool :=
  "-?:,[]\x7b\x7d#&*!|>'\"%@`".toList.contains c

/-- Adds the next token. -/
def next (s : Scanner) : Scanning Scanner :=
  let s := toNext (s.cursor.rest.length + 1) s
  let s := s.unrollTo s.cursor.mark.column
  let c := s.cursor
  match c.peek with
  | none => s.streamEnd
  | some ch =>
    if c.mark.column = 0 && ch = '%' then s.directive
    else if c.atIndicator '-' then s.documentBorder .documentStart
    else if c.atIndicator '.' then s.documentBorder .documentEnd
    else
      match ch with
      | '[' => s.flowStart .flowSequenceStart
      | '\x7b' => s.flowStart .flowMappingStart
      | ']' => s.flowEnd .flowSequenceEnd
      | '\x7d' => s.flowEnd .flowMappingEnd
      | ',' => s.flowEntry
      | '*' => s.anchorOrAlias .reference
      | '&' => s.anchorOrAlias .anchor
      | '!' => s.tag
      | '\'' => s.quotedScalar '\'' .single
      | '"' => s.quotedScalar '"' .double
      | ch =>
        if ch = '-' && c.blankOrEnd 1 then s.blockEntry
        else if ch = '?' && (0 < s.flow || c.blankOrEnd 1) then s.explicitKey
        else if ch = ':' && (0 < s.flow || c.blankOrEnd 1) then s.value
        else if ch = '|' && s.flow = 0 then s.blockScalar true
        else if ch = '>' && s.flow = 0 then s.blockScalar false
        else if !(isBlank ch || isBreak ch || isIndicator ch) ||
            (ch = '-' && !((c.ahead 1).map isBlank).getD false) ||
            (s.flow = 0 && (ch = '?' || ch = ':') && !c.blankOrEnd 1) then s.plainScalar
        else s.fail "found character that cannot start any token"

/-- How many tokens are settled when the scan fails behind them: those with two more after them,
up to the first where a key may still start, or where one that is required has not been found. -/
def settled (s : Scanner) : Nat :=
  let undecided := s.keys.filterMap fun key => key.bind fun k =>
    if k.required || k.isOpen s.cursor.mark then some k.before else none
  undecided.foldl min (s.count - 2)

/-- All tokens of the rest of the text; those of a malformed text end, after the settled ones, in a
token that says so. -/
def run : Nat → Scanner → List Token
  | 0, s => s.tokens.reverse
  | fuel + 1, s =>
    match s.next with
    | .error e => s.tokens.reverse.take s.settled ++ [⟨.malformed e, s.cursor.mark, s.cursor.mark⟩]
    | .ok s' =>
      match s'.tokens with
      | ⟨.streamEnd, _, _⟩ :: _ => s'.tokens.reverse
      | _ => run fuel s'

end Scanner

/-- The tokens of a document text, without a leading byte order mark. -/
def tokens (text : String) : List Token :=
  let cs := match text.toList with
    | c :: rest => if c.toNat = 0xFEFF then rest else c :: rest
    | [] => []
  match cs.find? (!isAllowed ·) with
  | some _ => [⟨.malformed ⟨0, "control characters are not allowed"⟩, ⟨0, 0, 0⟩, ⟨0, 0, 0⟩⟩]
  | none => Scanner.run (cs.length + 2) (Scanner.start cs)

end Interlude.Yaml
