import Interlude.Yaml.Token
import Interlude.Number.Read
/-!
# Scalars

Plain, quoted and block scalars. Line breaks inside plain, quoted and folded scalars fold: a single
break becomes a blank, and of several all but the first are kept.
-/

namespace Interlude.Yaml

/-- Line breaks seen since the last character of the text: the first, and those after it. -/
structure Breaks where
  first : List Char := []
  more : List Char := []

namespace Breaks

/-- What folded breaks contribute to the text. -/
def fold (b : Breaks) : List Char :=
  if b.first.head? = some '\n' then (if b.more.isEmpty then [' '] else b.more)
  else b.first ++ b.more

end Breaks

/-- Blanks and breaks between two parts of a scalar. -/
inductive Gap where
  | blanks (text : List Char)
  | breaks (b : Breaks)

/-- What a gap contributes to the text. -/
def Gap.text : Gap → List Char
  | blanks text => text
  | breaks b => b.fold

/-- Steps over blanks and breaks. In a block, a tab may not stand where a line is still indented
less than `indent`. -/
def takeGap (tabsFrom : Option Nat) : Nat → Gap → Cursor → Except Malformed (Gap × Cursor)
  | 0, gap, c => .ok (gap, c)
  | fuel + 1, gap, c =>
    match c.peek with
    | none => .ok (gap, c)
    | some ch =>
      if isBlank ch then
        match gap with
        | .blanks text => takeGap tabsFrom fuel (.blanks (text ++ [ch])) c.skip
        | .breaks b =>
          if ch = '\t' && (tabsFrom.map fun i => decide (c.mark.column < i)).getD false then
            .error (c.malformed "found a tab character that violates indentation")
          else takeGap tabsFrom fuel (.breaks b) c.skip
      else if isBreak ch then
        let (br, c') := c.takeBreak
        match gap with
        | .blanks _ => takeGap tabsFrom fuel (.breaks ⟨br, []⟩) c'
        | .breaks b => takeGap tabsFrom fuel (.breaks { b with more := b.more ++ br }) c'
      else .ok (gap, c)

/-! ## Plain scalars -/

/-- Whether a plain scalar ends before the next character. -/
def plainEnds (flow : Bool) (c : Cursor) : Bool :=
  match c.peek with
  | none => true
  | some ch =>
    isBlank ch || isBreak ch || (ch = ':' && c.blankOrEnd 1) ||
      (flow && (ch = ',' || ch = '?' || ch = '[' || ch = ']' || ch = '\x7b' || ch = '\x7d'))

/-- The characters of a plain scalar up to a blank or an indicator, after those in `acc`, which
are in reverse. -/
def takePlainRun (flow : Bool) : Nat → List Char → Cursor → List Char × Cursor
  | 0, acc, c => (acc.reverse, c)
  | fuel + 1, acc, c =>
    if plainEnds flow c then (acc.reverse, c)
    else takePlainRun flow fuel (c.peek.toList ++ acc) c.skip

/-- A plain scalar: its text, the place after its last character, where reading goes on, and
whether a line break was passed. -/
structure PlainScalar where
  text : List Char
  stop : Mark
  cursor : Cursor
  crossed : Bool

/-- Reads the runs of a plain scalar. Text before a gap is kept in `acc`, the gap in `gap`. -/
def takePlain (flow : Bool) (indent : Nat) :
    Nat → List Char → Option Gap → Mark → Cursor → Except Malformed PlainScalar
  | 0, acc, _, stop, c => .ok ⟨acc, stop, c, false⟩
  | fuel + 1, acc, gap, stop, c =>
    let crossed := match gap with
      | some (.breaks _) => true
      | _ => false
    if c.atDocumentBorder || c.is '#' then .ok ⟨acc, stop, c, crossed⟩
    else
      let (run, c') := takePlainRun flow c.rest.length [] c
      let (acc', stop', crossed') :=
        if run.isEmpty then (acc, stop, crossed)
        else (acc ++ ((gap.map Gap.text).getD []) ++ run, c'.mark, false)
      let gap' := if run.isEmpty then gap else none
      match c'.peek with
      | none => .ok ⟨acc', stop', c', crossed'⟩
      | some ch =>
        if !(isBlank ch || isBreak ch) then .ok ⟨acc', stop', c', crossed'⟩
        else
          match takeGap (some indent) c'.rest.length (gap'.getD (.blanks [])) c' with
          | .error e => .error e
          | .ok (gap'', c'') =>
            let crossed'' := match gap'' with
              | .breaks _ => true
              | _ => false
            if !flow && c''.mark.column < indent then .ok ⟨acc', stop', c'', crossed''⟩
            else takePlain flow indent fuel acc' (some gap'') stop' c''

/-! ## Quoted scalars -/

/-- The character that a one-letter escape stands for. -/
def simpleEscape? : Char → Option Char
  | '0' => some (Char.ofNat 0)
  | 'a' => some (Char.ofNat 7)
  | 'b' => some (Char.ofNat 8)
  | 't' => some '\t'
  | '\t' => some '\t'
  | 'n' => some '\n'
  | 'v' => some (Char.ofNat 11)
  | 'f' => some (Char.ofNat 12)
  | 'r' => some '\r'
  | 'e' => some (Char.ofNat 0x1B)
  | ' ' => some ' '
  | '"' => some '"'
  | '\'' => some '\''
  | '\\' => some '\\'
  | 'N' => some (Char.ofNat 0x85)
  | '_' => some (Char.ofNat 0xA0)
  | 'L' => some (Char.ofNat 0x2028)
  | 'P' => some (Char.ofNat 0x2029)
  | _ => none

/-- The number of hexadecimal digits of a numeric escape. -/
def escapeWidth? : Char → Option Nat
  | 'x' => some 2
  | 'u' => some 4
  | 'U' => some 8
  | _ => none

/-- Reads `n` hexadecimal digits. -/
def takeHex : Nat → Nat → Cursor → Option (Nat × Cursor)
  | 0, acc, c => some (acc, c)
  | n + 1, acc, c =>
    match c.peek.bind Number.hexValue? with
    | some d => takeHex n (acc * 16 + d) c.skip
    | none => none

/-- The characters of a quoted scalar up to a blank, a break or the closing quote, after those in
`acc`, which are in reverse. The flag tells that an escaped line break was passed. -/
def takeQuotedRun (quote : Char) : Nat → List Char → Cursor →
    Except Malformed (List Char × Bool × Cursor)
  | 0, acc, c => .ok (acc.reverse, false, c)
  | fuel + 1, acc, c =>
    match c.peek with
    | none => .ok (acc.reverse, false, c)
    | some ch =>
      if isBlank ch || isBreak ch then .ok (acc.reverse, false, c)
      else if ch = quote then
        if quote = '\'' && c.ahead 1 == some '\'' then takeQuotedRun quote fuel
          ('\'' :: acc) c.skip.skip
        else .ok (acc.reverse, false, c)
      else if quote = '"' && ch = '\\' then
        match c.ahead 1 with
        | none => .error (c.malformed "found unexpected end of stream")
        | some e =>
          if isBreak e then .ok (acc.reverse, true, c.skip.skipBreak)
          else
            match simpleEscape? e, escapeWidth? e with
            | some out, _ => takeQuotedRun quote fuel (out :: acc) c.skip.skip
            | none, some width =>
              match takeHex width 0 c.skip.skip with
              | none => .error (c.malformed "did not find expected hexdecimal number")
              | some (n, c') =>
                if (0xD800 ≤ n && n ≤ 0xDFFF) || 0x10FFFF < n then
                  .error (c.malformed "found invalid Unicode character escape code")
                else takeQuotedRun quote fuel (Char.ofNat n :: acc) c'
            | none, none => .error (c.malformed "found unknown escape character")
      else takeQuotedRun quote fuel (ch :: acc) c.skip

/-- Reads a quoted scalar after its opening quote, up to the closing one. -/
def takeQuoted (quote : Char) : Nat → List Char → Cursor → Except Malformed (List Char × Cursor)
  | 0, _, c => .error (c.malformed "found unexpected end of stream")
  | fuel + 1, acc, c =>
    if c.atDocumentBorder then .error (c.malformed "found unexpected document indicator")
    else if c.atEnd then .error (c.malformed "found unexpected end of stream")
    else
      match takeQuotedRun quote c.rest.length [] c with
      | .error e => .error e
      | .ok (run, escaped, c') =>
        if c'.is quote && !escaped then .ok (acc ++ run, c'.skip)
        else
          let start := if escaped then Gap.breaks {} else Gap.blanks []
          match takeGap none c'.rest.length start c' with
          | .error e => .error e
          | .ok (gap, c'') => takeQuoted quote fuel (acc ++ run ++ gap.text) c''

/-! ## Block scalars -/

/-- What happens to the line breaks at the end of a block scalar. -/
inductive Chomping where
  | strip
  | clip
  | keep
deriving DecidableEq

/-- The signs after a block scalar's indicator: chomping and an explicit indentation. -/
def takeHeader (c : Cursor) : Except Malformed (Chomping × Option Nat × Cursor) :=
  let chomping? (c : Cursor) : Option Chomping :=
    if c.is '+' then some .keep else if c.is '-' then some .strip else none
  let digit? (c : Cursor) : Option Nat := c.peek.bind (Number.digitValue? 10)
  match chomping? c with
  | some ch =>
    match digit? c.skip with
    | some 0 => .error (c.malformed "found an indentation indicator equal to 0")
    | some d => .ok (ch, some d, c.skip.skip)
    | none => .ok (ch, none, c.skip)
  | none =>
    match digit? c with
    | some 0 => .error (c.malformed "found an indentation indicator equal to 0")
    | some d =>
      match chomping? c.skip with
      | some ch => .ok (ch, some d, c.skip.skip)
      | none => .ok (.clip, some d, c.skip)
    | none => .ok (.clip, none, c)

/-- Steps over the indentation and the empty lines before a line of a block scalar. An `indent`
of zero is still to be found; `widest` is the widest indentation seen. -/
def takeBlockBreaks (indent : Nat) : Nat → Nat → List Char → Cursor →
    Except Malformed (List Char × Nat × Cursor)
  | 0, widest, breaks, c => .ok (breaks, widest, c)
  | fuel + 1, widest, breaks, c =>
    let (_, c') := takeIndent indent c.rest.length c
    let widest := max widest c'.mark.column
    if (indent = 0 || c'.mark.column < indent) && c'.is '\t' then
      .error (c'.malformed "found a tab character where an indentation space is expected")
    else
      match c'.peek with
      | some ch =>
        if isBreak ch then
          let (br, c'') := c'.takeBreak
          takeBlockBreaks indent fuel widest (breaks ++ br) c''
        else .ok (breaks, widest, c')
      | none => .ok (breaks, widest, c')
where
  /-- Steps over the blanks of the indentation. -/
  takeIndent (indent : Nat) : Nat → Cursor → Unit × Cursor
    | 0, c => ((), c)
    | fuel + 1, c =>
      if (indent = 0 || c.mark.column < indent) && c.is ' ' then takeIndent indent fuel c.skip
      else ((), c)

/-- Reads the lines of a block scalar. `leading` is the break before the current line, `trailing`
the empty lines after it, `blankBefore` tells that the line before started with a blank. -/
def takeBlockLines (literal : Bool) (indent : Nat) :
    Nat → List Char → List Char → List Char → Bool → Cursor →
    Except Malformed (List Char × List Char × List Char × Cursor)
  | 0, acc, leading, trailing, _, c => .ok (acc, leading, trailing, c)
  | fuel + 1, acc, leading, trailing, blankBefore, c =>
    if c.mark.column ≠ indent || c.atEnd then .ok (acc, leading, trailing, c)
    else
      let blankNow := (c.peek.map isBlank).getD false
      let joined :=
        if !literal && !blankBefore && !blankNow && leading.head? = some '\n' then
          (if trailing.isEmpty then [' '] else [])
        else leading
      let (line, c') := c.takeWhile (!isBreak ·)
      let (br, c'') := c'.takeBreak
      match takeBlockBreaks indent c''.rest.length 0 [] c'' with
      | .error e => .error e
      | .ok (trailing', _, c''') =>
        takeBlockLines literal indent fuel (acc ++ joined ++ trailing ++ line)
          br trailing' blankNow c'''

/-- Reads a block scalar after its indicator, inside a block indented by `parent`. -/
def takeBlock (literal : Bool) (parent : Int) (c : Cursor) :
    Except Malformed (List Char × Cursor) :=
  match takeHeader c with
  | .error e => .error e
  | .ok (chomping, increment, c) =>
    let c := c.dropWhile isBlank
    let c := if c.is '#' then c.dropWhile (!isBreak ·) else c
    if !c.breakOrEnd then .error (c.malformed "did not find expected comment or line break")
    else
      let c := c.skipBreak
      let given : Nat := match increment with
        | some n => if 0 ≤ parent then parent.toNat + n else n
        | none => 0
      match takeBlockBreaks given (c.rest.length + 1) 0 [] c with
      | .error e => .error e
      | .ok (trailing, widest, c) =>
        let indent := if given = 0 then max (max widest (parent + 1).toNat) 1 else given
        match takeBlockLines literal indent (c.rest.length + 1) [] [] trailing false c with
        | .error e => .error e
        | .ok (text, leading, trailing, c) =>
          let tail := match chomping with
            | .strip => []
            | .clip => leading
            | .keep => leading ++ trailing
          .ok (text ++ tail, c)

end Interlude.Yaml
