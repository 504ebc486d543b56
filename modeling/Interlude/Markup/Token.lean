import Interlude.Markup.Entity
import Interlude.Text.Utf8
/-!
# Markup tokens

Text, tags and comments of an HTML fragment. Some elements hold raw text up to their end tag. A tag
that is not closed at the end of the input is no token.
-/

namespace Interlude.Markup

structure Attr where
  key : String
  val : String
deriving DecidableEq, Repr

inductive Token where
  | text (s : String)
  | start (name : String) (attrs : List Attr)
  | selfClosing (name : String) (attrs : List Attr)
  | stop (name : String)
  | comment
deriving DecidableEq, Repr

/-! ## Reading -/

def isBlank (c : Char) : Bool := c == ' ' || c == '\n' || c == '\r' || c == '\t' || c == '\x0c'

def skipBlank (cs : List Char) : List Char := cs.dropWhile isBlank

/-- Line ends as single line feeds. -/
def unifyLines : List Char → List Char
  | [] => []
  | '\r' :: '\n' :: rest => '\n' :: unifyLines rest
  | c :: rest => (if c == '\r' then '\n' else c) :: unifyLines rest

def lowerName (cs : List Char) : String := String.ofList (cs.map Char.toLower)

/-- The name of an attribute and what follows; an equals sign may only begin it. -/
def readKey (cs : List Char) : List Char × List Char :=
  let ends (c : Char) : Bool := isBlank c || c == '/' || c == '>' || c == '='
  match cs with
  | '=' :: rest =>
    let run := rest.takeWhile (!ends ·)
    ('=' :: run, rest.drop run.length)
  | cs =>
    let run := cs.takeWhile (!ends ·)
    (run, cs.drop run.length)

/-- The value after an attribute's name and what follows; `bare` says that it was not quoted. -/
def readVal (cs : List Char) : List Char × Bool × List Char :=
  match skipBlank cs with
  | '/' :: rest => ([], false, rest)
  | '=' :: rest =>
    match skipBlank rest with
    | '>' :: rest => ([], false, '>' :: rest)
    | c :: rest =>
      if c == '\'' || c == '"' then
        let run := rest.takeWhile (· != c)
        (run, false, (rest.drop run.length).drop 1)
      else
        let run := (c :: rest).takeWhile fun d => !isBlank d && d != '>'
        (run, true, (c :: rest).drop run.length)
    | [] => ([], false, [])
  | rest => ([], false, rest)

/-- The attributes of a tag up to its end, whether it closes itself, and what follows. `none` if
the tag has no end. `slash` says that the last character was a solidus outside any value. -/
def readAttrs : Nat → List Attr → Bool → List Char → Option (List Attr × Bool × List Char)
  | 0, _, _, _ => none
  | fuel + 1, attrs, slash, cs =>
    match cs with
    | [] => none
    | '>' :: rest => some (attrs.reverse, slash, rest)
    | cs =>
      let (key, rest) := readKey cs
      let (val, bare, rest') := readVal rest
      let used := cs.take (cs.length - rest'.length)
      let closes := used.getLast? == some '/' && !(bare && val.getLast? == some '/')
      let attrs := if key.isEmpty then attrs
        else ⟨lowerName key, String.ofList (unescape true (unifyLines val))⟩ :: attrs
      let blank := rest'.head?.any isBlank
      readAttrs fuel attrs (closes && !blank) (skipBlank rest')

/-- A tag after its angle bracket or solidus. -/
def readTag (cs : List Char) : Option (String × List Attr × Bool × List Char) :=
  let name := cs.takeWhile fun c => !isBlank c && c != '/' && c != '>'
  let rest := cs.drop name.length
  (readAttrs (rest.length + 1) [] false (skipBlank rest)).map fun (attrs, closed, after) =>
    (lowerName name, attrs, closed, after)

/-- What follows the next closing angle bracket. -/
def afterAngle (cs : List Char) : List Char := (cs.dropWhile (· != '>')).drop 1

/-- What follows a comment, after its opening. -/
def afterComment (dashes : Nat) (first : Bool) : List Char → List Char
  | [] => []
  | '-' :: rest => afterComment (dashes + 1) first rest
  | '>' :: rest => if 2 ≤ dashes || first then rest else afterComment 0 false rest
  | '!' :: '>' :: rest => if 2 ≤ dashes then rest else afterComment 0 false rest
  | _ :: rest => afterComment 0 false rest

/-- The elements whose content is raw. -/
def rawElements : List String :=
  ["iframe", "noembed", "noframes", "noscript", "plaintext", "script", "style", "textarea",
    "title", "xmp"]

/-- Whether the end tag of a raw element stands here. -/
def endsRaw (name : String) (cs : List Char) : Bool :=
  match cs with
  | '<' :: '/' :: rest =>
    lowerName (rest.take name.length) == name &&
      (match rest.drop name.length with
       | c :: _ => isBlank c || c == '/' || c == '>'
       | [] => false)
  | _ => false

/-- Raw content and what follows. -/
def readRaw (name : String) : List Char → List Char × List Char
  | [] => ([], [])
  | c :: rest =>
    if name != "plaintext" && endsRaw name (c :: rest) then ([], c :: rest)
    else
      let (raw, after) := readRaw name rest
      (c :: raw, after)

/-- How a script's end tag is read: as what it is, inside a comment, or inside an element of that
name in a comment, where it only ends that element. -/
inductive ScriptMode where
  | plain
  | commented
  | nested
deriving DecidableEq, Repr

/-- Where the reading of a script stands. `dashes` counts those right before, up to two, and `skip`
the characters that are read already. -/
structure ScriptState where
  mode : ScriptMode := .plain
  dashes : Nat := 0
  skip : Nat := 0
deriving DecidableEq, Repr

/-- The length of a script's tag after the given opening, its last character included. -/
def scriptTag? (opening : List Char) (cs : List Char) : Option Nat :=
  let name := cs.drop opening.length
  if cs.take opening.length == opening && lowerName (name.take 6) == "script" then
    (name.drop 6).head?.bind fun c =>
      if isBlank c || c == '/' || c == '>' then some (opening.length + 7) else none
  else none

/-- The state after the first of the characters that are left; `none` if the script ends here. After
an angle bracket in a comment that begins no tag, the comment no longer counts. -/
def ScriptState.step (st : ScriptState) (cs : List Char) : Option ScriptState :=
  if 0 < st.skip then some { st with skip := st.skip - 1 }
  else
    match st.mode, cs with
    | .plain, '<' :: '!' :: '-' :: '-' :: _ => some { mode := .commented, dashes := 2, skip := 3 }
    | .plain, cs => if (scriptTag? ['<', '/'] cs).isSome then none else some {}
    | mode, '-' :: _ => some { mode, dashes := min 2 (st.dashes + 1) }
    | mode, '>' :: _ => if st.dashes = 2 then some {} else some { mode }
    | .commented, '<' :: next :: _ =>
      if (scriptTag? ['<', '/'] cs).isSome then none
      else
        match scriptTag? ['<'] cs with
        | some n => some { mode := .nested, skip := n - 1 }
        | none => if next == '/' || next.isAlpha then some { mode := .commented } else some {}
    | .nested, '<' :: _ =>
      match scriptTag? ['<', '/'] cs with
      | some n => some { mode := .commented, skip := n - 1 }
      | none => some { mode := .nested }
    | mode, _ => some { mode }

/-- A script and what follows. -/
def readScript (st : ScriptState) : List Char → List Char × List Char
  | [] => ([], [])
  | c :: rest =>
    match st.step (c :: rest) with
    | none => ([], c :: rest)
    | some st =>
      let (raw, after) := readScript st rest
      (c :: raw, after)

/-- The text of raw content: a null character is replaced, and only some elements have
references. -/
def rawToken (name : String) (raw : List Char) : Token :=
  let cs := (unifyLines raw).map fun c => if c.toNat = 0 then Text.replacement else c
  .text (String.ofList (if name == "textarea" || name == "title" then unescape false cs else cs))

/-- Whether markup begins here. -/
def beginsMarkup : List Char → Bool
  | '<' :: c :: _ => c.isAlpha || c == '/' || c == '!' || c == '?'
  | _ => false

/-- Text up to the next markup, and what follows. -/
def readText : List Char → List Char × List Char
  | [] => ([], [])
  | c :: rest =>
    if beginsMarkup (c :: rest) then ([], c :: rest)
    else
      let (text, after) := readText rest
      (c :: text, after)

def textToken (cs : List Char) : Token := .text (String.ofList (unescape false (unifyLines cs)))

/-- Reads at most `fuel` tokens. -/
def tokensFrom : Nat → List Char → List Token
  | 0, _ => []
  | fuel + 1, cs =>
    match cs with
    | [] => []
    | '<' :: '/' :: rest =>
      match rest with
      | [] => [textToken cs]
      | '>' :: rest => .comment :: tokensFrom fuel rest
      | c :: _ =>
        if c.isAlpha then
          match readTag rest with
          | none => []
          | some (name, _, _, after) => .stop name :: tokensFrom fuel after
        else .comment :: tokensFrom fuel (afterAngle rest)
    | '<' :: '!' :: '-' :: '-' :: rest => .comment :: tokensFrom fuel (afterComment 0 true rest)
    | '<' :: '!' :: rest => .comment :: tokensFrom fuel (afterAngle rest)
    | '<' :: '?' :: rest => .comment :: tokensFrom fuel (afterAngle rest)
    | cs =>
      if beginsMarkup cs then
        match readTag (cs.drop 1) with
        | none => []
        | some (name, attrs, closed, after) =>
          let token := if closed then Token.selfClosing name attrs else .start name attrs
          if rawElements.contains name then
            let (raw, after) := if name == "script" then readScript {} after else readRaw name after
            token :: (if raw.isEmpty then [] else [rawToken name raw]) ++ tokensFrom fuel after
          else token :: tokensFrom fuel after
      else
        let (text, after) := readText cs
        textToken text :: tokensFrom fuel after

/-- The tokens of a fragment. -/
def tokens (s : String) : List Token := tokensFrom (s.length + 1) s.toList

end Interlude.Markup
