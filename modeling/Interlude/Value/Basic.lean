/-!
# Values

The values a template computes with. Lists, maps and records carry their origin, because templates
compare them by origin and not by content; a pending value is a reference into a store of
futures (`Interlude.Futures`).
-/

namespace Interlude

/-- What a piece of content is safe to be used as. -/
inductive ContentKind where
  | html
  | text
  | attributes
  | uri
  | css
  | js
deriving DecidableEq, Repr, Inhabited

namespace ContentKind

def name : ContentKind → String
  | html => "html"
  | text => "text"
  | attributes => "attributes"
  | uri => "uri"
  | css => "css"
  | js => "js"

/-- Reads a kind's name; no name means HTML. -/
def ofName? : String → Option ContentKind
  | "" => some html
  | "html" => some html
  | "text" => some text
  | "attributes" => some attributes
  | "uri" => some uri
  | "css" => some css
  | "js" => some js
  | _ => none

end ContentKind

/-- A number that is given out once: to every list, map and record of data from outside, and to
every evaluation. -/
abbrev Identity := Nat

/-- Where a list, map or record comes from, which tells it apart from others with the same content:
what made it, and the place in the expression that did. An evaluation that is run again makes the
same origins again; of what an earlier attempt made nothing is left to compare with, unless it was
kept, and then it is not made again. -/
structure Origin where
  maker : Identity
  place : List Nat := []
deriving DecidableEq, Repr, Inhabited

/-- Names a pending value. -/
abbrev FutureId := Nat

/-- A template value. Maps keep their entries in the order of first insertion, records theirs
sorted by name. -/
inductive Value where
  | null
  | undefined
  | bool (b : Bool)
  | int (i : Int64)
  | float (f : Float)
  | str (s : String)
  | list (self : Origin) (items : List Value)
  | map (self : Origin) (entries : List (Value × Value))
  | record (self : Origin) (fields : List (String × Value))
  | content (kind : ContentKind) (text : String)
  | future (id : FutureId)
deriving Inhabited

/-- The dynamic kind of a value. -/
inductive Kind where
  | null
  | undefined
  | bool
  | int
  | float
  | string
  | list
  | map
  | record
  | sanitized
  | pending
deriving DecidableEq, Repr, Inhabited

namespace Kind

def name : Kind → String
  | null => "null"
  | undefined => "undefined"
  | bool => "bool"
  | int => "int"
  | float => "float"
  | string => "string"
  | list => "list"
  | map => "map"
  | record => "record"
  | sanitized => "sanitized"
  | pending => "pending"

def all : List Kind :=
  [null, undefined, bool, int, float, string, list, map, record, sanitized, pending]

def ofName? (s : String) : Option Kind :=
  all.find? (·.name == s)

end Kind

namespace Value

def kind : Value → Kind
  | null => .null
  | undefined => .undefined
  | bool _ => .bool
  | int _ => .int
  | float _ => .float
  | str _ => .string
  | list .. => .list
  | map .. => .map
  | record .. => .record
  | content .. => .sanitized
  | future _ => .pending

/-- The value of a content block; a block of kind text is a plain string. -/
def ofContent (kind : ContentKind) (text : String) : Value :=
  match kind with
  | .text => .str text
  | kind => .content kind text

def isNullish : Value → Bool
  | null => true
  | undefined => true
  | _ => false

def isNumber : Value → Bool
  | int _ => true
  | float _ => true
  | _ => false

/-- The text of a string or of content. -/
def stringLike? : Value → Option String
  | str s => some s
  | content _ s => some s
  | _ => none

mutual

/-- Whether a value is a future or holds one, so that its text tells how far that is. -/
def holdsFuture : Value → Bool
  | .future _ => true
  | .list _ items => holdsFutureAny items
  | .map _ entries => holdsFutureEntries entries
  | .record _ fields => holdsFutureFields fields
  | _ => false

def holdsFutureAny : List Value → Bool
  | [] => false
  | v :: rest => v.holdsFuture || holdsFutureAny rest

def holdsFutureEntries : List (Value × Value) → Bool
  | [] => false
  | (k, v) :: rest => k.holdsFuture || v.holdsFuture || holdsFutureEntries rest

def holdsFutureFields : List (String × Value) → Bool
  | [] => false
  | (_, v) :: rest => v.holdsFuture || holdsFutureFields rest

end

/-- A record of these fields; of two fields of one name the later counts. -/
def recordOf (self : Origin) (fields : List (String × Value)) : Value :=
  let latest := fields.foldl (fun acc kv => acc.filter (·.1 != kv.1) ++ [kv]) []
  .record self (latest.mergeSort fun a b => a.1 ≤ b.1)

/-- The item at an index, undefined outside the list. -/
def itemAt (items : List Value) (i : Int64) : Value :=
  if i.toInt < 0 then .undefined else (items[i.toInt.toNat]?).getD .undefined

/-- The field of this name. -/
def field? (fields : List (String × Value)) (name : String) : Option Value :=
  fields.lookup name

end Value

/-! ## Map keys -/

/-- What decides whether two map keys are the same: integral numbers by value whatever their kind,
strings and content by text. -/
inductive MapKey where
  | int (i : Int)
  | float (f : Float)
  | str (s : String)
  | bool (b : Bool)

namespace MapKey

/-- Whether a number is integral and fits 64 signed bits up to its sign. -/
def isSmallInteger (f : Float) : Bool :=
  f == (if f < 0 then f.ceil else f.floor) && f.abs < 9223372036854775808.0

/-- The key of a primitive value; other values are no keys. -/
def ofValue? : Value → Option MapKey
  | .int i => some (.int i.toInt)
  | .float f => if isSmallInteger f then some (.int f.toInt64.toInt) else some (.float f)
  | .str s => some (.str s)
  | .content _ s => some (.str s)
  | .bool b => some (.bool b)
  | _ => none

/-- Sameness of keys. The number that is none is no key of any entry. -/
def same : MapKey → MapKey → Bool
  | int a, int b => a == b
  | float a, float b => a == b
  | str a, str b => a == b
  | bool a, bool b => a == b
  | _, _ => false

end MapKey

namespace Value

/-- The entry whose key is the same as `key`. -/
def entry? (entries : List (Value × Value)) (key : Value) : Option Value :=
  match MapKey.ofValue? key with
  | none => none
  | some k =>
    (entries.find? fun e => ((MapKey.ofValue? e.1).map (k.same ·)).getD false).map (·.2)

/-- Replaces the value of the entry with the same key, or adds an entry at the end. Fails for a
key that is no primitive. -/
def setEntry? (entries : List (Value × Value)) (key value : Value) :
    Option (List (Value × Value)) :=
  match MapKey.ofValue? key with
  | none => none
  | some k =>
    let hit (e : Value × Value) : Bool := ((MapKey.ofValue? e.1).map (k.same ·)).getD false
    if entries.any hit then some (entries.map fun e => if hit e then (e.1, value) else e)
    else some (entries ++ [(key, value)])

end Value

end Interlude
