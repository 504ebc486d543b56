import Interlude.Number.Format
import Interlude.Text.Case
import Interlude.Value.Box
/-!
# Settings

Settings before they are a configuration: layers of named values, one over the other. A setting is
named by a path of lower-case keys joined with dots, and the topmost layer that has a value for a
path decides. A plain value in an upper layer hides whatever lower layers have below its path.
-/

namespace Interlude

/-- One layer: values by key, nested layers as named fields. -/
abbrev Layer := List (String × Datum)

namespace Layer

/-- The text of a key. -/
def keyText : Datum → String
  | .str s => s
  | .bool b => if b then "true" else "false"
  | .int i => toString i.toInt
  | .unsigned n => toString n
  | .float f => Number.positionalText f
  | _ => ""

mutual

/-- A value with all its keys in lower case and every mapping a layer. -/
def folded : Datum → Datum
  | .named members => .named (foldedFields members)
  | .keyed members => .named (foldedEntries members)
  | .list items => .list (foldedItems items)
  | d => d

def foldedFields : List (String × Datum) → Layer
  | [] => []
  | (k, d) :: rest => (Text.lowerEach k, folded d) :: foldedFields rest

def foldedEntries : List (Datum × Datum) → Layer
  | [] => []
  | (k, d) :: rest => (Text.lowerEach (keyText k), folded d) :: foldedEntries rest

def foldedItems : List Datum → List Datum
  | [] => []
  | d :: rest => folded d :: foldedItems rest

end

/-- The layer of a document's fields. -/
def ofFields (fields : List (String × Datum)) : Layer := foldedFields fields

/-- The keys of a path. -/
def pathOf (key : String) : List String := Text.split '.' (Text.lowerEach key)

/-- A value under a key, null counting as none. -/
def at? (layer : Layer) (key : String) : Option Datum :=
  match layer.lookup key with
  | some .null => none
  | found => found

/-- What stands at the end of a path, key by key. -/
def get? (layer : Layer) : List String → Option Datum
  | [] => some (.named layer)
  | [key] => layer.at? key
  | key :: rest =>
    match layer.at? key with
    | some (.named inner) => get? inner rest
    | _ => none

/-- Sets a value under a key. -/
def set (key : String) (d : Datum) : Layer → Layer
  | [] => [(key, d)]
  | e :: rest => if e.1 == key then (key, d) :: rest else e :: set key d rest

/-- Sets the value at a path. A plain value on the way gives way to a layer. -/
def put (d : Datum) : List String → Layer → Layer
  | [], layer => layer
  | [key], layer => set key d layer
  | key :: rest, layer =>
    let inner := match layer.lookup key with
      | some (.named inner) => inner
      | _ => []
    set key (.named (put d rest inner)) layer

/-- Whether a plain value stands on the way to the end of a path. -/
def hides (layer : Layer) : List String → Bool
  | [] => false
  | [_] => false
  | key :: rest =>
    match layer.at? key with
    | none => false
    | some (.named inner) => hides inner rest
    | some _ => true

mutual

/-- The paths of all plain values in a value that stands at a path. -/
def pathsBelow (path : List String) : Datum → List (List String)
  | .named members => pathsOf path members
  | _ => [path]

def pathsOf (path : List String) : List (String × Datum) → List (List String)
  | [] => []
  | (k, d) :: rest => pathsBelow (path ++ [k]) d ++ pathsOf path rest

end

/-- The dotted names of all plain values. -/
def names (layer : Layer) : List String := (pathsOf [] layer).map (Text.join ".")

/-- The ways to take a key of one or more parts off a path, the longest first. -/
def leads (path : List String) : List (String × List String) :=
  ((List.range path.length).map fun i =>
    (Text.join "." (path.take (i + 1)), path.drop (i + 1))).reverse

/-- What stands at the end of a path in a layer whose own keys may have dots. The fuel bounds the
number of keys taken. -/
def getDotted? : Nat → Layer → List String → Option Datum
  | 0, _, _ => none
  | fuel + 1, layer, path =>
    (leads path).findSome? fun (key, rest) =>
      match layer.at? key, rest with
      | found, [] => found
      | some (.named inner), rest => getDotted? fuel inner rest
      | _, _ => none

end Layer

/-- The layers of settings, the topmost first: what is set by hand, what a file says, and what holds
otherwise. -/
structure Settings where
  overrides : Layer := []
  file : Layer := []
  defaults : Layer := []

namespace Settings

/-- The value of a setting. -/
def get? (s : Settings) (name : String) : Option Datum :=
  let path := Layer.pathOf name
  match s.overrides.get? path with
  | some d => some d
  | none =>
    if s.overrides.hides path then none
    else
      match Layer.getDotted? path.length s.file path with
      | some d => some d
      | none => if s.file.hides path then none else s.defaults.get? path

/-- Whether one of the names is at, or above, a dotted name. -/
def isHidden (shown : List String) (name : String) : Bool :=
  let path := Text.split '.' name
  (List.range path.length).any fun i => shown.contains (Text.join "." (path.take (i + 1)))

/-- The names of all settings that some layer has a value for. -/
def names (s : Settings) : List String :=
  let add (shown : List String) (layer : Layer) : List String :=
    shown ++ layer.names.filter (!isHidden shown ·)
  add (add s.overrides.names s.file) s.defaults

/-- All settings as one layer. -/
def merged (s : Settings) : Layer :=
  s.names.foldl (fun layer name =>
    match s.get? name with
    | some d => Layer.put d (Layer.pathOf name) layer
    | none => layer) []

end Settings

end Interlude
