import Interlude.Yaml.Node
import Interlude.Yaml.Scalar
import Interlude.Yaml.Token.Scan
/-!
# From tokens to documents

Reads the documents of a token list by recursive descent. A text may hold several documents; those
before a malformed one are still given.
-/

namespace Interlude.Yaml

/-- What an anchor names: a node still being read, known by its place, or a finished one. -/
inductive Anchored where
  | open (mark : Mark)
  | closed (node : Node)

/-- The state of reading: the tokens left, the anchors seen, and the meanings of tag handles. -/
structure Reader where
  tokens : List Token
  anchors : List (String × Anchored)
  handles : List (String × String)

/-- Reading steps. -/
abbrev Reading := StateT Reader (Except Malformed)

namespace Reading

/-- The next token. Reaching a malformed part ends the reading. -/
def peek : Reading Token := do
  match (← get).tokens with
  | [] => return ⟨.streamEnd, default, default⟩
  | t :: _ =>
    match t.lexeme with
    | .malformed e => throw e
    | _ => return t

def skip : Reading Unit := modify fun r => { r with tokens := r.tokens.drop 1 }

def fail (t : Token) (reason : String) : Reading α := throw ⟨t.start.line, reason⟩

/-- The node an empty place stands for. -/
def empty (mark : Mark) : Node := .scalar mark nullTag .plain ""

/-- Names a node that is about to be read. -/
def openAnchor (name : Option String) (mark : Mark) : Reading Unit :=
  match name with
  | some n => modify fun r => { r with anchors := (n, .open mark) :: r.anchors }
  | none => pure ()

/-- Records the node an anchor names, unless the name was taken again inside it. -/
def closeAnchor (name : Option String) (mark : Mark) (node : Node) : Reading Node := do
  match name with
  | none => return node
  | some n =>
    modify fun r =>
      match r.anchors.lookup n with
      | some (.open m) =>
        if m = mark then { r with anchors := (n, .closed node) :: r.anchors } else r
      | _ => r
    return node

/-- The full form of a tag. -/
def resolveTag (t : Token) (handle suffix : String) : Reading String := do
  if handle.isEmpty then return suffix
  else
    match (← get).handles.lookup handle with
    | some lead => return lead ++ suffix
    | none => fail t "found undefined tag handle"

/-- Anchor and tag before a node, in either order, and the place where the node starts. -/
def properties : Reading (Option String × Option String × Mark) := do
  let t ← peek
  let mark := t.start
  match t.lexeme with
  | .anchor name =>
    skip
    let u ← peek
    match u.lexeme with
    | .tag handle suffix =>
      skip
      return (some name, some (← resolveTag u handle suffix), mark)
    | _ => return (some name, none, mark)
  | .tag handle suffix =>
    skip
    let tag ← resolveTag t handle suffix
    let u ← peek
    match u.lexeme with
    | .anchor name =>
      skip
      return (some name, some tag, mark)
    | _ => return (none, some tag, mark)
  | _ => return (none, none, mark)

mutual

/-- Reads a node. Block collections are read only in a `block`, sequences without indentation of
their own only if `indentless`. -/
def node : Nat → Bool → Bool → Reading Node
  | 0, _, _ => do fail (← peek) "did not find expected node content"
  | fuel + 1, block, indentless => do
    let t ← peek
    match t.lexeme with
    | .reference name =>
      skip
      match (← get).anchors.lookup name with
      | none => fail t ("unknown anchor '" ++ name ++ "' referenced")
      | some (.open _) => return .reference t.start name none
      | some (.closed n) => return .reference t.start name (some n)
    | _ =>
      let (anchor, tag, mark) ← properties
      let t ← peek
      let plain := anchor.isNone && tag.isNone
      match t.lexeme with
      | .scalar style text =>
        skip
        openAnchor anchor mark
        closeAnchor anchor mark (.scalar mark (scalarTag tag style text) style text)
      | .flowSequenceStart =>
        skip
        openAnchor anchor mark
        let items ← flowItems fuel true
        closeAnchor anchor mark (.sequence mark items)
      | .flowMappingStart =>
        skip
        openAnchor anchor mark
        let pairs ← flowPairs fuel true
        closeAnchor anchor mark (.mapping mark pairs)
      | lexeme =>
        match lexeme, block, indentless with
        | .blockEntry, _, true =>
          openAnchor anchor mark
          let items ← indentlessItems fuel
          closeAnchor anchor mark (.sequence mark items)
        | .blockSequenceStart, true, _ =>
          skip
          openAnchor anchor mark
          let items ← blockItems fuel
          closeAnchor anchor mark (.sequence mark items)
        | .blockMappingStart, true, _ =>
          skip
          openAnchor anchor mark
          let pairs ← blockPairs fuel
          closeAnchor anchor mark (.mapping mark pairs)
        | _, _, _ =>
          if plain then fail t "did not find expected node content"
          else
            openAnchor anchor mark
            closeAnchor anchor mark (.scalar mark (scalarTag tag .plain "") .plain "")

/-- Items of an indented block sequence, up to its end. -/
def blockItems : Nat → Reading (List Node)
  | 0 => do fail (← peek) "did not find expected '-' indicator"
  | fuel + 1 => do
    let t ← peek
    match t.lexeme with
    | .blockEntry =>
      skip
      let u ← peek
      let item ← match u.lexeme with
        | .blockEntry | .blockEnd => pure (empty t.stop)
        | _ => node fuel true false
      return item :: (← blockItems fuel)
    | .blockEnd =>
      skip
      return []
    | _ => fail t "did not find expected '-' indicator"

/-- Items of a block sequence that is indented like the mapping around it. -/
def indentlessItems : Nat → Reading (List Node)
  | 0 => do fail (← peek) "did not find expected '-' indicator"
  | fuel + 1 => do
    let t ← peek
    match t.lexeme with
    | .blockEntry =>
      skip
      let u ← peek
      let item ← match u.lexeme with
        | .blockEntry | .key | .value | .blockEnd => pure (empty t.stop)
        | _ => node fuel true false
      return item :: (← indentlessItems fuel)
    | _ => return []

/-- Entries of a block mapping, up to its end. -/
def blockPairs : Nat → Reading (List (Node × Node))
  | 0 => do fail (← peek) "did not find expected key"
  | fuel + 1 => do
    let t ← peek
    match t.lexeme with
    | .key =>
      skip
      let u ← peek
      let key ← match u.lexeme with
        | .key | .value | .blockEnd => pure (empty t.stop)
        | _ => node fuel true true
      let v ← peek
      let value ← match v.lexeme with
        | .value => do
          skip
          let w ← peek
          match w.lexeme with
          | .key | .value | .blockEnd => pure (empty v.stop)
          | _ => node fuel true true
        | _ => pure (empty v.start)
      return (key, value) :: (← blockPairs fuel)
    | .blockEnd =>
      skip
      return []
    | _ => fail t "did not find expected key"

/-- Items of a flow sequence, up to its bracket. A key makes a mapping of one entry. -/
def flowItems : Nat → Bool → Reading (List Node)
  | 0, _ => do fail (← peek) "did not find expected ',' or ']'"
  | fuel + 1, first => do
    let t ← peek
    match t.lexeme with
    | .flowSequenceEnd =>
      skip
      return []
    | _ =>
      if !first then
        match t.lexeme with
        | .flowEntry => skip
        | _ => fail t "did not find expected ',' or ']'"
      let t ← peek
      match t.lexeme with
      | .flowSequenceEnd =>
        skip
        return []
      | .key =>
        skip
        let u ← peek
        let key ← match u.lexeme with
          | .value | .flowEntry | .flowSequenceEnd => do
            skip
            pure (empty u.stop)
          | _ => node fuel false false
        let v ← peek
        let value ← match v.lexeme with
          | .value => do
            skip
            let w ← peek
            match w.lexeme with
            | .flowEntry | .flowSequenceEnd => pure (empty w.start)
            | _ => node fuel false false
          | _ => pure (empty v.start)
        return .mapping t.start [(key, value)] :: (← flowItems fuel false)
      | _ =>
        let item ← node fuel false false
        return item :: (← flowItems fuel false)

/-- Entries of a flow mapping, up to its brace. -/
def flowPairs : Nat → Bool → Reading (List (Node × Node))
  | 0, _ => do fail (← peek) "did not find expected ',' or '\x7d'"
  | fuel + 1, first => do
    let t ← peek
    match t.lexeme with
    | .flowMappingEnd =>
      skip
      return []
    | _ =>
      if !first then
        match t.lexeme with
        | .flowEntry => skip
        | _ => fail t "did not find expected ',' or '\x7d'"
      let t ← peek
      match t.lexeme with
      | .flowMappingEnd =>
        skip
        return []
      | .key =>
        skip
        let u ← peek
        let key ← match u.lexeme with
          | .value | .flowEntry | .flowMappingEnd => pure (empty u.start)
          | _ => node fuel false false
        let v ← peek
        let value ← match v.lexeme with
          | .value => do
            skip
            let w ← peek
            match w.lexeme with
            | .flowEntry | .flowMappingEnd => pure (empty w.start)
            | _ => node fuel false false
          | _ => pure (empty v.start)
        return (key, value) :: (← flowPairs fuel false)
      | _ =>
        let key ← node fuel false false
        let v ← peek
        return (key, empty v.start) :: (← flowPairs fuel false)

end

/-- The handles that need no directive. -/
def defaultHandles : List (String × String) :=
  [("!", "!"), ("!!", "tag:yaml.org,2002:")]

/-- Directives before a document: at most one version, and for each handle one meaning. `declared`
holds the handles that already have theirs. -/
def directives : Nat → Bool → List String → Reading Unit
  | 0, _, _ => pure ()
  | fuel + 1, versioned, declared => do
    let t ← peek
    match t.lexeme with
    | .versionDirective major minor =>
      if versioned then fail t "found duplicate %YAML directive"
      else if major = 1 && minor = 1 then skip; directives fuel true declared
      else fail t "found incompatible YAML document"
    | .tagDirective handle lead =>
      if declared.contains handle then fail t "found duplicate %TAG directive"
      else
        skip
        modify fun r => { r with handles := (handle, lead) :: r.handles }
        directives fuel versioned (handle :: declared)
    | _ => pure ()

/-- Steps over document ends. -/
def skipEnds : Nat → Reading Unit
  | 0 => pure ()
  | fuel + 1 => do
    match (← peek).lexeme with
    | .documentEnd => skip; skipEnds fuel
    | _ => pure ()

/-- The content of a document. -/
def content (fuel : Nat) : Reading Node := do
  let t ← peek
  match t.lexeme with
  | .versionDirective .. | .tagDirective .. | .documentStart | .documentEnd | .streamEnd =>
    return empty t.start
  | _ => node fuel true false

/-- The next document, if there is one. Only the first may lack its start marker. -/
def document (fuel : Nat) (first : Bool) : Reading (Option Node) := do
  if !first then skipEnds fuel
  let t ← peek
  let implicit := match t.lexeme with
    | .versionDirective .. | .tagDirective .. | .documentStart | .streamEnd => false
    | _ => first
  match t.lexeme with
  | .streamEnd => return none
  | _ =>
    modify fun r => { r with handles := defaultHandles }
    let n ←
      if implicit then node fuel true false
      else do
        directives fuel false []
        let t ← peek
        match t.lexeme with
        | .documentStart => skip; content fuel
        | _ => fail t "did not find expected <document start>"
    match (← peek).lexeme with
    | .documentEnd => skip
    | _ => pure ()
    return some n

end Reading

/-- The documents of a text, and why it is malformed after them, if it is. -/
structure Documents where
  roots : List Node
  malformed : Option Malformed

/-- Reads at most `fuel` documents. -/
def readDocuments : Nat → Bool → Reader → Documents
  | 0, _, _ => ⟨[], none⟩
  | fuel + 1, first, r =>
    match (Reading.document (2 * r.tokens.length + 4) first).run r with
    | .error e => ⟨[], some e⟩
    | .ok (none, _) => ⟨[], none⟩
    | .ok (some n, r') =>
      let more := readDocuments fuel false r'
      ⟨n :: more.roots, more.malformed⟩

/-- Reads the documents of a text. -/
def documents (text : String) : Documents :=
  let ts := tokens text
  readDocuments (ts.length + 1) true ⟨ts, [], Reading.defaultHandles⟩

end Interlude.Yaml
