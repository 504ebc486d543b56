import Interlude.Yaml.Node.Read
import Interlude.Yaml.Scalar
import Interlude.Text.Utf8
/-!
# What a node means

The data a node stands for. A mapping whose keys are all strings has named fields; entries under
the merge key `<<` fill in the keys that the mapping itself does not have.

The first document of a text gives its data as it stands or as named fields. What follows it is not
looked at, and a text without any stands for null.
-/

namespace Interlude.Yaml

/-! ## Binary data -/

def base64Value? (c : Char) : Option Nat :=
  if 'A' ≤ c && c ≤ 'Z' then some (c.toNat - 'A'.toNat)
  else if 'a' ≤ c && c ≤ 'z' then some (c.toNat - 'a'.toNat + 26)
  else if '0' ≤ c && c ≤ '9' then some (c.toNat - '0'.toNat + 52)
  else if c = '+' then some 62
  else if c = '/' then some 63
  else none

/-- The bytes of base 64 text: groups of four characters, the last padded with `=`. -/
def decodeGroups : List Char → Option (List Nat)
  | [] => some []
  | [a, b, '=', '='] => do
    let a ← base64Value? a
    let b ← base64Value? b
    return [(a * 64 + b) / 16]
  | [a, b, c, '='] => do
    let a ← base64Value? a
    let b ← base64Value? b
    let c ← base64Value? c
    let n := (a * 64 + b) * 64 + c
    return [n / 1024, n / 4 % 256]
  | a :: b :: c :: d :: rest => do
    let a ← base64Value? a
    let b ← base64Value? b
    let c ← base64Value? c
    let d ← base64Value? d
    let n := ((a * 64 + b) * 64 + c) * 64 + d
    return n / 65536 :: n / 256 % 256 :: n % 256 :: (← decodeGroups rest)
  | _ => none

/-- The text of base 64 data; line breaks inside it do not count. Bytes that are no character are
replaced here, once, so every later text is made of whole characters. -/
def decodeBase64 (s : String) : Option String :=
  (decodeGroups (s.toList.filter fun c => c != '\n' && c != '\r')).map Text.ofBytes

/-! ## Scalars -/

/-- The meaning of a scalar node. -/
def scalarDatum (tag : String) (style : ScalarStyle) (value : String) : Except String Datum :=
  if tag = strTag || ((tag = "" || tag = "!") && style ≠ .plain) then .ok (.str value)
  else do
    let (found, d) ← resolve tag value
    if found = binaryTag then
      match decodeBase64 value with
      | some s => return .str s
      | none => throw "yaml: !!binary value contains invalid base64 data"
    else return d

/-! ## Mappings -/

/-- The tag of a node, through aliases. -/
def tagOf : Node → String
  | .scalar _ tag _ _ => tag
  | .sequence .. => "!!seq"
  | .mapping .. => "!!map"
  | .reference _ _ (some n) => tagOf n
  | .reference _ _ none => ""

def isMerge : Node → Bool
  | .scalar _ tag _ value => value == "<<" && (tag == "" || tag == "!" || tag == mergeTag)
  | _ => false

/-- Nodes of one sort; a key is repeated if it has the sort and text of another. -/
def sameSort : Node → Node → Bool
  | .scalar .., .scalar .. => true
  | .sequence .., .sequence .. => true
  | .mapping .., .mapping .. => true
  | .reference .., .reference .. => true
  | _, _ => false

def hasRepeatedKey : List (Node × Node) → Bool
  | [] => false
  | (k, _) :: rest =>
    rest.any (fun p => sameSort k p.1 && k.value == p.1.value) || hasRepeatedKey rest

/-- Whether all keys are strings. -/
def isNamed (pairs : List (Node × Node)) : Bool :=
  pairs.all fun p => tagOf p.1 == strTag || tagOf p.1 == mergeTag

/-- Sameness of keys. -/
def sameKey : Datum → Datum → Bool
  | .null, .null => true
  | .bool a, .bool b => a == b
  | .int a, .int b => a == b
  | .unsigned a, .unsigned b => a == b
  | .float a, .float b => a == b
  | .str a, .str b => a == b
  | _, _ => false

/-- The entries of `first`, and those of `second` with other keys. -/
def fillIn (first second : List (Datum × Datum)) : List (Datum × Datum) :=
  first ++ second.filter fun e => !first.any fun f => sameKey f.1 e.1

/-- Whether a key can be one: not a sequence or mapping. -/
def isKey : Datum → Bool
  | .list _ => false
  | .named _ => false
  | .keyed _ => false
  | _ => true

def keyText : Datum → String
  | .str s => s
  | _ => ""

mutual

/-- The data a node stands for. -/
def datum : Node → Except String Datum
  | .scalar _ tag style value => scalarDatum tag style value
  | .sequence _ items => do return .list (← itemData items)
  | .mapping _ pairs => do
    if hasRepeatedKey pairs then throw "yaml: mapping key already defined"
    let named := isNamed pairs
    let (own, merged) ← entryData named pairs
    let entries := fillIn own merged
    if named then return .named (entries.map fun e => (keyText e.1, e.2))
    else return .keyed entries
  | .reference _ _ (some n) => datum n
  | .reference _ name none => throw ("yaml: anchor '" ++ name ++ "' value contains itself")

def itemData : List Node → Except String (List Datum)
  | [] => .ok []
  | n :: rest => do return (← datum n) :: (← itemData rest)

/-- A mapping's own entries, and those it merges. Keys of named fields are their texts. -/
def entryData (named : Bool) : List (Node × Node) →
    Except String (List (Datum × Datum) × List (Datum × Datum))
  | [] => .ok ([], [])
  | (k, v) :: rest => do
    if isMerge k then
      let merged ← mergeData named v
      let (own, _) ← entryData named rest
      return (own, merged)
    else
      let key ← datum k
      let key := match named, k with
        | true, .scalar _ tag _ value => if tag = binaryTag then key else .str value
        | _, _ => key
      if !isKey key then throw "yaml: invalid map key"
      let value ← datum v
      let (own, merged) ← entryData named rest
      return ((key, value) :: own, merged)

/-- The entries of a mapping, or of several, that are merged into another. -/
def mergeData (named : Bool) : Node → Except String (List (Datum × Datum))
  | .mapping _ pairs => do
    if hasRepeatedKey pairs then throw "yaml: mapping key already defined"
    let (own, merged) ← entryData named pairs
    return fillIn own merged
  | .reference _ _ (some (.mapping _ pairs)) => do
    if hasRepeatedKey pairs then throw "yaml: mapping key already defined"
    let (own, merged) ← entryData named pairs
    return fillIn own merged
  | .sequence _ items => mergeItems named items
  | _ => throw "yaml: map merge requires map or sequence of maps as the value"

def mergeItems (named : Bool) : List Node → Except String (List (Datum × Datum))
  | [] => .ok []
  | .sequence .. :: _ => throw "yaml: map merge requires map or sequence of maps as the value"
  | n :: rest => do
    let first ← mergeData named n
    let more ← mergeItems named rest
    return fillIn first more

end

/-! ## Nodes of a fixed type -/

/-- A boolean field. Text accepts the older words too; null leaves it false. -/
def asBool (n : Node) : Except String Bool := do
  match ← datum n with
  | .bool b => return b
  | .null => return false
  | .str s =>
    if ["y", "Y", "yes", "Yes", "YES", "on", "On", "ON"].contains s then return true
    else if ["n", "N", "no", "No", "NO", "off", "Off", "OFF"].contains s then return false
    else throw "yaml: cannot unmarshal into bool"
  | _ => throw "yaml: cannot unmarshal into bool"

/-- An integer field; numbers lose their fraction. Null leaves the field as it was. -/
def asInt? (n : Node) : Except String (Option Int64) := do
  match ← datum n with
  | .int i => return some i
  | .null => return none
  | .float f =>
    if f.isNaN || 9223372036854775808.0 < f then throw "yaml: cannot unmarshal into int"
    else return some f.toInt64
  | _ => throw "yaml: cannot unmarshal into int"

/-! ## Single documents -/

/-- The root of the first document, if there is one. -/
def root (text : String) : Except String (Option Node) :=
  let docs := documents text
  match docs.roots, docs.malformed with
  | n :: _, _ => .ok (some n)
  | [], some m => .error m.text
  | [], none => .ok none

/-- The data of the first document. -/
def value (text : String) : Except String Datum := do
  match ← root text with
  | some n => datum n
  | none => return .null

/-- The fields of a mapping, named by the texts of its keys. A key that is null is passed over; null
instead of a mapping has no fields. -/
def Node.fields : Node → Except String (List (String × Datum))
  | .mapping _ pairs => do
    if hasRepeatedKey pairs then throw "yaml: mapping key already defined"
    let (own, merged) ← entryData true (pairs.filter fun p => tagOf p.1 != nullTag)
    return (fillIn own merged).map fun e => (keyText e.1, e.2)
  | n => do
    match ← datum n with
    | .null => return []
    | _ => throw "yaml: cannot unmarshal into a mapping"

/-- The fields of the first document. -/
def fields (text : String) : Except String (List (String × Datum)) := do
  match ← root text with
  | some n => n.fields
  | none => return []

end Interlude.Yaml
