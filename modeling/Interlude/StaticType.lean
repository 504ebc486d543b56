import Interlude.Text.Space
import Interlude.Text.Quoted
import Interlude.Value.Basic
/-!
# Static types

The types of params and expressions: a kind, whether null is admitted, and the types of elements.
`StaticType.text` writes a type and `StaticType.parse` reads the notation of bundles, which also
has unions: `int`, `?int`, `int|null`, `list<string>`, `map<string,int>`.
-/

namespace Interlude

/-- The kind of a static type. -/
inductive TypeKind where
  | unknown
  | any
  | null
  | bool
  | int
  | float
  | number
  | string
  | list
  | map
  | record
  | html
  | attributes
  | uri
  | css
  | js
  | text
deriving DecidableEq, Repr, Inhabited

namespace TypeKind

def name : TypeKind → String
  | unknown => "?"
  | any => "any"
  | null => "null"
  | bool => "bool"
  | int => "int"
  | float => "float"
  | number => "number"
  | string => "string"
  | list => "list"
  | map => "map"
  | record => "record"
  | html => "html"
  | attributes => "attributes"
  | uri => "uri"
  | css => "css"
  | js => "js"
  | text => "text"

/-- The kinds that have a name in type notation. -/
def named : List TypeKind :=
  [any, null, bool, int, float, number, string, list, map, record, html, attributes, uri,
    css, js, text]

def ofName? (s : String) : Option TypeKind :=
  named.find? (·.name == s)

def ofContent : ContentKind → TypeKind
  | .html => html
  | .text => text
  | .attributes => attributes
  | .uri => uri
  | .css => css
  | .js => js

end TypeKind

/-- A static type. `elems` holds the element type of a list, or the key and value type of a map. -/
inductive StaticType where
  | mk (kind : TypeKind) (nullable : Bool) (elems : List StaticType)
deriving Repr, Inhabited

namespace StaticType

def kind : StaticType → TypeKind
  | mk k _ _ => k

def nullable : StaticType → Bool
  | mk _ n _ => n

def elems : StaticType → List StaticType
  | mk _ _ es => es

/-- The type of a kind, without null and without element types. -/
def of (k : TypeKind) : StaticType := mk k false []

def unknown : StaticType := of .unknown
def any : StaticType := of .any
def null : StaticType := mk .null true []
def bool : StaticType := of .bool
def int : StaticType := of .int
def float : StaticType := of .float
def number : StaticType := of .number
def string : StaticType := of .string
def html : StaticType := of .html
def listOf (elem : StaticType) : StaticType := mk .list false [elem]
def mapOf (key value : StaticType) : StaticType := mk .map false [key, value]

/-- The type with or without null. -/
def withNullable (t : StaticType) (n : Bool) : StaticType := mk t.kind n t.elems

/-- The type with null admitted. -/
def orNull (t : StaticType) : StaticType := t.withNullable true

mutual

/-- Structural equality. -/
def beq : StaticType → StaticType → Bool
  | mk k n es, mk k' n' es' => k == k' && n == n' && beqList es es'

def beqList : List StaticType → List StaticType → Bool
  | [], [] => true
  | t :: ts, u :: us => t.beq u && beqList ts us
  | _, _ => false

end

instance : BEq StaticType := ⟨beq⟩

/-- Whether values of the type can be held unboxed: null has no unboxed form. -/
def isPrimitive (t : StaticType) : Bool :=
  !t.nullable && (t.kind == .bool || t.kind == .int || t.kind == .float || t.kind == .string)

def isNumeric (t : StaticType) : Bool :=
  !t.nullable && (t.kind == .int || t.kind == .float || t.kind == .number)

/-- Whether the type is a kind of content. -/
def isContent (t : StaticType) : Bool :=
  match t.kind with
  | .html | .attributes | .uri | .css | .js | .text => true
  | _ => false

/-- The one kind of value that the type stands for, if there is one. -/
def valueKind? (t : StaticType) : Option Kind :=
  match t.kind with
  | .bool => some .bool
  | .int => some .int
  | .float => some .float
  | .string => some .string
  | .list => some .list
  | .map => some .map
  | .record => some .record
  | _ => none

mutual

/-- The notation of a type. -/
def text : StaticType → String
  | mk k n es =>
    (if n && k != .null then "?" else "") ++ k.name ++
      (if es.isEmpty then "" else "<" ++ String.intercalate "," (texts es) ++ ">")

def texts : List StaticType → List String
  | [] => []
  | t :: ts => t.text :: texts ts

end

/-! ## Reading -/

/-- Why a text is no type. -/
inductive ParseError where
  | unterminated (s : String)
  | unknownName (name : String)
  | listArity (got : Nat)
  | mapArity (got : Nat)
  | noArguments (name : String)
deriving DecidableEq, Repr

def ParseError.message : ParseError → String
  | unterminated s => "unterminated type arguments in " ++ Text.quote s
  | unknownName name => "unknown type " ++ Text.quote name
  | listArity got => "list takes one type argument, got " ++ toString got
  | mapArity got => "map takes two type arguments, got " ++ toString got
  | noArguments name => "type " ++ Text.quote name ++ " takes no arguments"

/-- Splits at every `sep` outside angle brackets. -/
def splitTop (sep : Char) : Int → List Char → List (List Char)
  | _, [] => [[]]
  | depth, c :: rest =>
    if c = sep && depth = 0 then [] :: splitTop sep depth rest
    else
      let depth := if c = '<' then depth + 1 else if c = '>' then depth - 1 else depth
      match splitTop sep depth rest with
      | [] => [[c]]
      | piece :: pieces => (c :: piece) :: pieces

/-- Joins the members of a union: members that differ make it `any`. -/
def joinMember (acc : Option StaticType) (t : StaticType) : Option StaticType :=
  match acc with
  | none => some t
  | some u => if u == t then some t else some any

/-- Checks the number of element types of a kind. -/
def applyArguments (kind : TypeKind) (name : List Char) (args : List StaticType) :
    Except ParseError StaticType :=
  if kind = .list && args.length != 1 then .error (.listArity args.length)
  else if kind = .map && args.length != 2 then .error (.mapArity args.length)
  else if kind != .list && kind != .map then .error (.noArguments (String.ofList name))
  else .ok (mk kind false args)

/-- Reads a type from characters; every nested text is shorter, so its length is enough fuel. -/
def parseChars : Nat → List Char → Except ParseError StaticType
  | 0, _ => .ok unknown
  | fuel + 1, cs =>
    match Text.trimChars cs with
    | [] => .ok unknown
    | '?' :: rest => (parseChars fuel rest).map orNull
    | s =>
      match splitTop '|' 0 s with
      | a :: b :: more =>
        let members := a :: b :: more
        let isNull (p : List Char) : Bool := Text.trimChars p = "null".toList
        let nullable := members.any isNull
        do
          let types ← (members.filter (!isNull ·)).mapM (parseChars fuel)
          match types.foldl joinMember none with
          | none => return null
          | some t => return t.withNullable (t.nullable || nullable)
      | _ =>
        let name := s.takeWhile (· != '<')
        let args? := s.dropWhile (· != '<')
        if args? ≠ [] && s.getLast? ≠ some '>' then .error (.unterminated (String.ofList s))
        else
          match TypeKind.ofName? (String.ofList name) with
          | none => .error (.unknownName (String.ofList name))
          | some kind =>
            match (args?.drop 1).dropLast with
            | [] => .ok (mk kind (kind = .null) [])
            | args => do
              let types ← (splitTop ',' 0 args).mapM (parseChars fuel)
              applyArguments kind name types

/-- Reads a type; an empty text is the unknown type. -/
def parse (s : String) : Except ParseError StaticType :=
  parseChars (s.length + 1) s.toList

end StaticType

end Interlude
