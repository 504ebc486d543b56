import Interlude.Json.Basic
import Interlude.Number.Read
import Interlude.Value.Box
import Interlude.Value.Text
/-!
# Values as documents

JSON documents for data and values. What JSON cannot spell is an object with one tag: numbers that
have no JSON text, undefined, content, maps with any keys, and futures. A future with a name is the
same one wherever the name stands.
-/

namespace Interlude.Document

/-- What reading documents has made so far: futures, the names of some, and those that are to
complete later with the value they will have. -/
structure Session where
  futures : Futures := {}
  names : List (String × FutureId) := []
  fresh : Identity := 0
  delayed : List (FutureId × Value) := []

abbrev Reading := StateT Session (Except Failure)

namespace Reading

def newFuture (state : Future) : Reading FutureId := modifyGet fun s =>
  let (id, futures) := s.futures.push state
  (id, { s with futures })

/-- The future of a name; a new name gets a pending one. -/
def named (name : String) : Reading FutureId := do
  match (← get).names.lookup name with
  | some id => return id
  | none =>
    let id ← newFuture .pending
    modify fun s => { s with names := s.names ++ [(name, id)] }
    return id

/-- Settles a future; tells whether it was pending. -/
def settle (id : FutureId) (state : Future) : Reading Bool := modifyGet fun s =>
  let (ok, futures) := s.futures.settle id state
  (ok, { s with futures })

/-- Runs boxing with the session's identities. -/
def boxing (b : Boxing α) : Reading α := do
  match b (← get).fresh with
  | .ok (a, fresh) =>
    modify fun s => { s with fresh }
    return a
  | .error e => throw e

end Reading

/-- The number a text stands for; infinities and not-a-number have names. -/
def readFloat (s : String) : Float :=
  if s == "NaN" then 0.0 / 0.0
  else if s == "Infinity" then 1.0 / 0.0
  else if s == "-Infinity" then -(1.0 / 0.0)
  else (Number.read? s).getD 0.0

/-- A number without point and exponent is an integer if it fits in sixty-four bits. -/
def readNumber (t : String) : Datum :=
  if t.toList.any (fun c => c == '.' || c == 'e' || c == 'E') then .float (readFloat t)
  else
    match Number.readInt? t with
    | some n =>
      if Number.fitsInt64 n then .int (Int64.ofInt n)
      else if 0 ≤ n && n < Nat.pow 2 64 then .unsigned n.toNat
      else .float (readFloat t)
    | none => .null

/-- The content of a kind's name and a text. -/
def readContent (kind text : String) : Datum :=
  .boxed (Value.ofContent ((ContentKind.ofName? kind).getD .html) text)

mutual

/-- The datum of a document. -/
def readDatum : Json → Reading Datum
  | .null => return .null
  | .bool b => return .bool b
  | .num t => return readNumber t
  | .str s => return .str s
  | .arr items => return .list (← readItems items)
  | .obj [("$float", .str s)] => return .float (readFloat s)
  | .obj [("$undefined", _)] => return .boxed .undefined
  | .obj [("$content", .arr [.str kind, .str text])] => return readContent kind text
  | .obj [("$map", .arr entries)] => do
    let entries ← readEntries [] entries
    return .boxed (.map (← Reading.boxing Boxing.fresh) entries)
  | .obj [("$future", .str name)] => return .boxed (.future (← Reading.named name))
  | .obj [("$resolved", j)] => do
    let v ← Reading.boxing (← readDatum j).box
    return .boxed (.future (← Reading.newFuture (.complete v)))
  | .obj [("$failed", .str message)] =>
    return .boxed (.future (← Reading.newFuture (.failed (.plain message))))
  | .obj [("$delayed", j)] => do
    let v ← Reading.boxing (← readDatum j).box
    let id ← Reading.newFuture .pending
    modify fun s => { s with delayed := s.delayed ++ [(id, v)] }
    return .boxed (.future id)
  | .obj members => return .named (← readMembers members)

def readItems : List Json → Reading (List Datum)
  | [] => return []
  | j :: rest => do
    let d ← readDatum j
    return d :: (← readItems rest)

/-- The data of named members. -/
def readMembers : List (String × Json) → Reading (List (String × Datum))
  | [] => return []
  | (name, j) :: rest => do
    let d ← readDatum j
    return (name, d) :: (← readMembers rest)

def readEntries (entries : List (Value × Value)) : List Json → Reading (List (Value × Value))
  | [] => return entries
  | .arr [k, v] :: rest => do
    let k ← Reading.boxing (← readDatum k).box
    let v ← Reading.boxing (← readDatum v).box
    readEntries ((Value.setEntry? entries k v).getD entries) rest
  | _ :: rest => readEntries entries rest

end

/-- The value of a document. -/
def readValue (j : Json) : Reading Value := do Reading.boxing (← readDatum j).box

mutual

/-- The document of a value. The value of a map entry whose key cannot be found again is left
out. -/
def ofValue (s : Session) : Value → Json
  | .null => .null
  | .undefined => .obj [("$undefined", .bool true)]
  | .bool b => .bool b
  | .int i => .int i.toInt
  | .float f => .obj [("$float", .str (Number.signedText f))]
  | .str t => .str t
  | .list _ items => .arr (ofItems s items)
  | .map _ entries => .obj [("$map", .arr (ofEntries s entries entries))]
  | .record _ fields => .obj (ofFields s fields)
  | .content kind t => .obj [("$content", .arr [.str kind.name, .str t])]
  | .future id =>
    match s.names.find? (·.2 == id) with
    | some (name, _) => .obj [("$future", .str name)]
    | none => .obj [("$pending", .str ((Value.future id).text s.futures))]

def ofItems (s : Session) : List Value → List Json
  | [] => []
  | v :: rest => ofValue s v :: ofItems s rest

def ofEntries (s : Session) (all : List (Value × Value)) : List (Value × Value) → List Json
  | [] => []
  | (k, v) :: rest =>
    .arr (ofValue s k :: (if (Value.entry? all k).isSome then [ofValue s v] else [])) ::
      ofEntries s all rest

def ofFields (s : Session) : List (String × Value) → List (String × Json)
  | [] => []
  | (name, v) :: rest => (name, ofValue s v) :: ofFields s rest

end

/-- A future by its name, else by its text. -/
def futureName (s : Session) (id : FutureId) : String :=
  match s.names.find? (·.2 == id) with
  | some (name, _) => name
  | none => (Value.future id).text s.futures

end Interlude.Document
