import Interlude.Bundle.Typing
import Interlude.Template.Basic
import Interlude.Yaml.Node.Datum
import Interlude.Yaml.Node.Read
/-!
# Reading bundles

A bundle is a document that declares templates. Reading it checks its shape, resolves names and
gives every expression its static type. A mistake is reported with its place.
-/

namespace Interlude.Bundle

open Yaml (Node)

/-- Reading gives out identities to literal lists, maps and records, and may fail. -/
abbrev Decoding := Boxing

/-- The names that are visible, and the place of the bundle. Locals of inner blocks and later
declarations come first. -/
structure Scope where
  source : String
  space : String
  params : List (String × StaticType)
  injected : List (String × StaticType)
  locals : List (String × StaticType)

namespace Scope

def bind (s : Scope) (name : String) (t : StaticType) : Scope :=
  { s with locals := (name, t) :: s.locals }

/-- A name that starts with a dot stands in the bundle's namespace. -/
def qualify (s : Scope) (name : String) : String :=
  if name.startsWith "." && !s.space.isEmpty then s.space ++ name else name

/-- A mistake at a node, or somewhere in the bundle. -/
def fault (s : Scope) (at? : Option Node) (code : Code) (message : String) : Fault :=
  match at? with
  | none => (Failure.compile code (s.source ++ ": " ++ message)).detail "source" s.source
  | some n =>
    ((Failure.compile code
      (s.source ++ ":" ++ toString n.line ++ ":" ++ toString n.column ++ ": " ++ message)).detail
        "source" s.source).detail "line" (toString n.line)

def fail (s : Scope) (n : Node) (message : String) : Decoding α :=
  throw (.fault (s.fault (some n) .invalidTemplate message))

/-- A name that is not declared. -/
def unknown (s : Scope) (n : Node) (what name : String) : Decoding α :=
  throw (.fault ((s.fault (some n) .unknownVariable ("unknown " ++ what ++ " $" ++ name)).detail
    "name" name))

end Scope

/-! ## Shapes -/

/-- The fields of a mapping by name. -/
abbrev Fields := List (String × Node)

/-- Checks the keys of a mapping: each must be allowed and occur once. -/
def checkKeys (s : Scope) (what : String) (allowed : List String) :
    Fields → List (Node × Node) → Decoding Fields
  | found, [] => pure found
  | found, (k, v) :: rest => do
    if !allowed.contains k.value then
      s.fail k ("unknown key " ++ Text.quote k.value ++ " in " ++ what)
    else if (found.lookup k.value).isSome then
      s.fail k ("duplicate key " ++ Text.quote k.value ++ " in " ++ what)
    else checkKeys s what allowed (found ++ [(k.value, v)]) rest

def fields (s : Scope) (n : Node) (what : String) (allowed : List String) : Decoding Fields :=
  match n with
  | .mapping _ pairs => checkKeys s what allowed [] pairs
  | n => s.fail n (what ++ " must be a mapping")

def str (s : Scope) (n : Node) (what : String) : Decoding String :=
  match n with
  | .scalar _ _ _ v => pure v
  | n => s.fail n (what ++ " must be a scalar")

def seq (s : Scope) (n : Node) (what : String) : Decoding (List Node) :=
  match n with
  | .sequence _ items => pure items
  | n => s.fail n (what ++ " must be a sequence")

def boolean (s : Scope) (n : Node) (what : String) : Decoding Bool :=
  match Yaml.asBool n with
  | .ok b => pure b
  | .error _ => s.fail n (what ++ " must be a boolean")

def optBoolean (s : Scope) (f : Fields) (key : String) : Decoding Bool :=
  match f.lookup key with
  | some n => boolean s n key
  | none => pure false

def contentKind (s : Scope) (n : Node) : Decoding ContentKind := do
  let name ← str s n "kind"
  match ContentKind.ofName? name with
  | some k => return k
  | none => s.fail n ("unknown content kind " ++ Text.quote name)

def optContentKind (s : Scope) (f : Fields) : Decoding ContentKind :=
  match f.lookup "kind" with
  | some n => contentKind s n
  | none => pure .html

def staticType (s : Scope) (n : Node) : Decoding StaticType := do
  let text ← str s n "type"
  match StaticType.parse text with
  | .ok t => return t
  | .error e => s.fail n e.message

/-- A literal: the data of the node, boxed. -/
def literal (s : Scope) (n : Node) : Decoding Expr := do
  match Yaml.datum n with
  | .error e => s.fail n ("bad literal: " ++ e)
  | .ok d =>
    let v ← tryCatchThe Failure d.box fun e => s.fail n ("bad literal: " ++ e.text)
    if plain : v.holdsFuture = false then return .lit (Typing.ofValue v) v plain
    else s.fail n "bad literal: pending value"

/-- A read of a declared param. -/
def paramRef (s : Scope) (n : Node) (injected : Bool) : Decoding Expr := do
  let name ← str s n "param name"
  let (declared, what) := if injected then (s.injected, "injected param") else (s.params, "param")
  match declared.lookup name with
  | some t => return .param t name injected
  | none => s.unknown n what name

/-! ## Expressions -/

/-- The keys with which an expression can start. -/
def exprKeys : List String :=
  ["lit", "param", "ij", "var", "op", "not", "neg", "cond", "field", "item", "list", "map",
    "record", "call"]

/-- A list of names as messages show it. -/
def listing (names : List String) : String := "[" ++ String.intercalate " " names ++ "]"

mutual

/-- Reads an expression. A scalar is a literal; a `type` key overrides the inferred type. The
fuel bounds the nesting of the node. -/
def expr : Nat → Scope → Option Node → Decoding Expr
  | 0, s, _ => throw (.fault (s.fault none .invalidTemplate "expression nested too deeply"))
  | fuel + 1, s, n? =>
    match n? with
    | none => throw (.fault (s.fault none .invalidTemplate "missing expression"))
    | some n =>
      match n with
      | .scalar .. => literal s n
      | .mapping _ (p :: ps) => do
        match n.get? "type" with
        | none => exprBody fuel s n (p :: ps)
        | some tn =>
          let t ← staticType s tn
          let body := n.erase "type"
          match body with
          | .mapping _ pairs => return (← exprBody fuel s body pairs).withType t
          | _ => s.fail n "empty expression"
      | n => s.fail n "expression must be a scalar or a mapping"

/-- Reads the mapping of an expression by its first key. -/
def exprBody : Nat → Scope → Node → List (Node × Node) → Decoding Expr
  | 0, s, _, _ => throw (.fault (s.fault none .invalidTemplate "expression nested too deeply"))
  | _, s, n, [] => s.fail n "empty expression"
  | fuel + 1, s, n, (head, _) :: _ => do
    match head.value with
    | "lit" =>
      let f ← fields s n "literal" ["lit"]
      literal s ((f.lookup "lit").getD n)
    | "param" =>
      let f ← fields s n "param" ["param"]
      paramRef s ((f.lookup "param").getD n) false
    | "ij" =>
      let f ← fields s n "ij" ["ij"]
      paramRef s ((f.lookup "ij").getD n) true
    | "var" =>
      let f ← fields s n "var" ["var"]
      let vn := (f.lookup "var").getD n
      let name ← str s vn "variable name"
      match s.locals.lookup name with
      | some t => return .var t name
      | none => s.unknown vn "variable" name
    | "op" =>
      let f ← fields s n "operator" ["op", "args"]
      let on := (f.lookup "op").getD n
      let sym ← str s on "operator"
      match BinaryOp.ofSymbol? sym with
      | none => s.fail on ("unknown operator " ++ Text.quote sym)
      | some op =>
        match ← exprs fuel s (f.lookup "args") with
        | [x, y] => return .binary (Typing.binary op x.type y.type) op x y
        | args =>
          s.fail n ("operator " ++ sym ++ " takes two arguments, got " ++ toString args.length)
    | "not" =>
      let f ← fields s n "not" ["not"]
      let x ← expr fuel s (f.lookup "not")
      return .unary .bool .not x
    | "neg" =>
      let f ← fields s n "neg" ["neg"]
      let x ← expr fuel s (f.lookup "neg")
      return .unary (Typing.negation x.type) .neg x
    | "cond" =>
      let f ← fields s n "conditional" ["cond", "then", "else"]
      if (f.lookup "then").isNone ||
        (f.lookup "else").isNone then s.fail n "conditional needs then and else"
      else
        let c ← expr fuel s (f.lookup "cond")
        let a ← expr fuel s (f.lookup "then")
        let b ← expr fuel s (f.lookup "else")
        return .cond (Typing.common [a, b]) c a b
    | "field" =>
      let f ← fields s n "field access" ["field", "of", "nullsafe"]
      let name ← str s ((f.lookup "field").getD n) "field name"
      let x ← expr fuel s (f.lookup "of")
      let safe ← optBoolean s f "nullsafe"
      return .field .any x name safe
    | "item" =>
      let f ← fields s n "item access" ["item", "of", "nullsafe"]
      let key ← expr fuel s (f.lookup "item")
      let x ← expr fuel s (f.lookup "of")
      let safe ← optBoolean s f "nullsafe"
      return .item (Typing.item x.type) x key safe
    | "list" =>
      let f ← fields s n "list" ["list"]
      let items ← exprs fuel s (f.lookup "list")
      return .list (.listOf (Typing.common items)) items
    | "map" =>
      let f ← fields s n "map" ["map"]
      let pairs ← seq s ((f.lookup "map").getD n) "map entries"
      let entries ← pairs.mapM fun p => do
        match ← exprs fuel s (some p) with
        | [k, v] => return (k, v)
        | _ => s.fail p "map entry must be [key, value]"
      return .map (.mapOf (Typing.common (entries.map (·.1))) (Typing.common (entries.map (·.2))))
        entries
    | "record" =>
      let f ← fields s n "record" ["record"]
      match (f.lookup "record").getD n with
      | .mapping _ pairs =>
        return .record (.of .record) (← pairs.mapM fun (k, v) =>
          return (k.value, ← expr fuel s (some v)))
      | body => s.fail body "record must be a mapping"
    | "call" =>
      let f ← fields s n "function call" ["call", "args"]
      let name ← str s ((f.lookup "call").getD n) "function name"
      let args ← exprs fuel s (f.lookup "args")
      return .call (Typing.function name args) name args
    | other =>
      s.fail head ("unknown expression " ++ Text.quote other ++ ", want one of " ++
        listing exprKeys)

/-- Reads a sequence of expressions; an absent one is empty. -/
def exprs : Nat → Scope → Option Node → Decoding (List Expr)
  | 0, s, _ => throw (.fault (s.fault none .invalidTemplate "expression nested too deeply"))
  | _, _, none => pure []
  | fuel + 1, s, some n => do
    (← seq s n "expression list").mapM fun item => expr fuel s (some item)

end

end Interlude.Bundle
