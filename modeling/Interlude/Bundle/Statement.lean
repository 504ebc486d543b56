import Interlude.Bundle.Decode
/-!
# Statements, templates and bundles

Reads the statements of a body, the templates of a bundle and the bundles of a text.
-/

namespace Interlude.Bundle

open Yaml (Node)

/-- The keys with which a statement can start. -/
def statementKeys : List String :=
  ["text", "print", "if", "switch", "for", "let", "call", "delcall", "log"]

/-- Reads the directives of a print or call. -/
def directives (fuel : Nat) (s : Scope) (n? : Option Node) : Decoding (List Directive) :=
  match n? with
  | none => pure []
  | some n => do
    (← seq s n "directives").mapM fun item =>
      match item with
      | .scalar _ _ _ v => pure ⟨v, []⟩
      | item => do
        let f ← fields s item "directive" ["name", "args"]
        match f.lookup "name" with
        | none => s.fail item "directive without a name"
        | some nn =>
          let name ← str s nn "directive name"
          return ⟨name, ← exprs fuel s (f.lookup "args")⟩

mutual

/-- Reads a body. Bindings hold for the statements that follow them. -/
def block : Nat → Scope → Node → Decoding (List Stmt)
  | 0, s, n => s.fail n "body nested too deeply"
  | fuel + 1, s, n => do
    let items ← seq s n "body"
    let (out, _) ← items.foldlM (fun (acc : List Stmt × Scope) item => do
      let (st, s') ← stmt fuel acc.2 item
      return (acc.1 ++ [st], s')) ([], s)
    return out

/-- Reads a body that may be absent. -/
def optBlock : Nat → Scope → Option Node → Decoding (List Stmt)
  | 0, s, _ => throw (.fault (s.fault none .invalidTemplate "body nested too deeply"))
  | _, _, none => pure []
  | fuel + 1, s, some n => block fuel s n

/-- Reads a condition and the body under it. -/
def branch : Nat → Scope → Fields → Decoding (Expr × List Stmt)
  | 0, s, _ => throw (.fault (s.fault none .invalidTemplate "body nested too deeply"))
  | fuel + 1, s, f => do
    match f.lookup "if" with
    | none =>
      throw (.fault (s.fault (f.lookup "then") .invalidTemplate "branch without a condition"))
    | some c =>
      let cond ← expr fuel s (some c)
      return (cond, ← optBlock fuel s (f.lookup "then"))

/-- Reads a statement, and gives the scope of the statements after it. -/
def stmt : Nat → Scope → Node → Decoding (Stmt × Scope)
  | 0, s, n => s.fail n "statement nested too deeply"
  | fuel + 1, s, n => do
    match n with
    | .scalar _ _ _ v => return (.text v, s)
    | .mapping _ ((head, _) :: _) =>
      match head.value with
      | "text" =>
        let f ← fields s n "text" ["text"]
        return (.text (← str s ((f.lookup "text").getD n) "text"), s)
      | "print" =>
        let f ← fields s n "print" ["print", "directives"]
        let e ← expr fuel s (f.lookup "print")
        return (.print e (← directives fuel s (f.lookup "directives")), s)
      | "if" =>
        let f ← fields s n "if" ["if", "then", "elif", "else"]
        let first ← branch fuel s f
        let more ← match f.lookup "elif" with
          | none => pure []
          | some en => do
            (← seq s en "elif").mapM fun item => do
              branch fuel s (← fields s item "elif branch" ["if", "then"])
        let otherwise ← optBlock fuel s (f.lookup "else")
        return (.cond (first :: more) otherwise, s)
      | "switch" =>
        let f ← fields s n "switch" ["switch", "cases", "default"]
        let subject ← expr fuel s (f.lookup "switch")
        let cases ← match f.lookup "cases" with
          | none => pure []
          | some cn => do
            (← seq s cn "cases").mapM fun item => do
              let cf ← fields s item "case" ["case", "body"]
              let values ← match cf.lookup "case" with
                | none => s.fail item "case without values"
                | some v =>
                  match v with
                  | .sequence .. => exprs fuel s (some v)
                  | v => List.singleton <$> expr fuel s (some v)
              let body ← optBlock fuel s (cf.lookup "body")
              pure (values, body)
        let default ← match f.lookup "default" with
          | none => pure none
          | some dn => some <$> block fuel s dn
        return (.switch subject cases default, s)
      | "for" =>
        let f ← fields s n "for" ["for", "range", "in", "body", "ifempty"]
        let name ← str s ((f.lookup "for").getD n) "loop variable"
        match f.lookup "range", f.lookup "in" with
        | some _, some _ => s.fail n ("loop over $" ++ name ++ " has both range and in")
        | none, none => s.fail n ("loop over $" ++ name ++ " needs range or in")
        | some rn, none =>
          match f.lookup "ifempty" with
          | some en => s.fail en "ifempty applies only to loops over lists"
          | none =>
            let (start, stop, step) ← match ← exprs fuel s (some rn) with
              | [b] => pure (none, b, none)
              | [a, b] => pure (some a, b, none)
              | [a, b, c] => pure (some a, b, some c)
              | args =>
                s.fail rn ("range takes one to three arguments, got " ++ toString args.length)
            let body ← optBlock fuel (s.bind name .int) (f.lookup "body")
            return (.forRange name start stop step body, s)
        | none, some ln =>
          let list ← expr fuel s (some ln)
          let body ← optBlock fuel (s.bind name (Typing.element list.type)) (f.lookup "body")
          let ifEmpty ← optBlock fuel s (f.lookup "ifempty")
          return (.forEach name list body ifEmpty, s)
      | "let" =>
        let f ← fields s n "let" ["let", "value", "kind", "body"]
        let name ← str s ((f.lookup "let").getD n) "let name"
        match f.lookup "value" with
        | some v =>
          if (f.lookup "body").isSome || (f.lookup "kind").isSome then
            s.fail n ("let $" ++ name ++ " has both a value and a body")
          else
            let e ← expr fuel s (some v)
            return (.letValue name e, s.bind name e.type)
        | none =>
          let kind ← optContentKind s f
          let body ← optBlock fuel s (f.lookup "body")
          return (.letContent name kind body, s.bind name (.of (TypeKind.ofContent kind)))
      | "call" =>
        let f ← fields s n "call" ["call", "data", "params", "directives"]
        let callee ← str s ((f.lookup "call").getD n) "callee"
        return (← callRest fuel s f (s.qualify callee) .template, s)
      | "delcall" =>
        let f ← fields s n "delcall" ["delcall", "data", "params", "directives", "variant",
          "allowemptydefault"]
        let callee ← str s ((f.lookup "delcall").getD n) "callee"
        let variant ← match f.lookup "variant" with
          | none => pure none
          | some v => some <$> expr fuel s (some v)
        let allowEmpty ← optBoolean s f "allowemptydefault"
        return (← callRest fuel s f (s.qualify callee) (.delegate variant allowEmpty), s)
      | "log" =>
        let f ← fields s n "log" ["log"]
        return (.log (← block fuel s ((f.lookup "log").getD n)), s)
      | other =>
        s.fail head ("unknown statement " ++ Text.quote other ++ ", want one of " ++
          listing statementKeys)
    | n => s.fail n "statement must be a mapping"

/-- Reads the data, params and directives of a call. -/
def callRest : Nat → Scope → Fields → String → CallTarget → Decoding Stmt
  | 0, s, _, _, _ => throw (.fault (s.fault none .invalidTemplate "call nested too deeply"))
  | fuel + 1, s, f, callee, target => do
    let data ← match f.lookup "data" with
      | none => pure CallData.none
      | some dn =>
        if dn.isScalar && dn.value == "all" then pure .all
        else CallData.expr <$> expr fuel s (some dn)
    let params ← match f.lookup "params" with
      | none => pure []
      | some pn => do (← seq s pn "call params").mapM (callParam fuel s)
    return .call callee target data params (← directives fuel s (f.lookup "directives"))

def callParam : Nat → Scope → Node → Decoding (CallParam (List Stmt))
  | 0, s, n => s.fail n "call param nested too deeply"
  | fuel + 1, s, n => do
    let f ← fields s n "call param" ["name", "value", "kind", "body"]
    match f.lookup "name" with
    | none => s.fail n "call param without a name"
    | some nn =>
      let name ← str s nn "call param name"
      match f.lookup "value" with
      | some v =>
        if (f.lookup "body").isSome then
          s.fail n ("call param " ++ name ++ " has both a value and a body")
        else return .value name (← expr fuel s (some v))
      | none =>
        let kind ← optContentKind s f
        return .content name kind (← optBlock fuel s (f.lookup "body"))

end

/-! ## Templates -/

/-- Reads a param. Its default sees no params and no locals. -/
def param (fuel : Nat) (s : Scope) (n : Node) : Decoding Param := do
  let f ← fields s n "param" ["name", "type", "optional", "injected", "default"]
  match f.lookup "name" with
  | none => s.fail n "param without a name"
  | some nn =>
    let name ← str s nn "param name"
    let t ← match f.lookup "type" with
      | some tn => staticType s tn
      | none => pure .any
    let optional ← optBoolean s f "optional"
    let injected ← optBoolean s f "injected"
    let default ← match f.lookup "default" with
      | none => pure none
      | some d => some <$> expr fuel { s with params := [], locals := [] } (some d)
    let optional := optional || default.isSome
    let t := if optional && !t.nullable && default.isNone && t.kind != .any then t.orNull else t
    return ⟨name, t, !optional, injected, default⟩

/-- Declares a param. -/
def declare (s : Scope) (p : Param) : Scope :=
  if p.injected then { s with injected := (p.name, p.type) :: s.injected }
  else { s with params := (p.name, p.type) :: s.params }

/-- The priority of an implementation that names a package and no priority. -/
def defaultPriority : Int64 := 1

def delegate (s : Scope) (n : Node) : Decoding Delegate := do
  let f ← fields s n "delegate" ["package", "variant", "priority"]
  let package ← match f.lookup "package" with
    | some p => str s p "delegate package"
    | none => pure ""
  let variant ← match f.lookup "variant" with
    | some v => str s v "delegate variant"
    | none => pure ""
  let unset := if package.isEmpty then 0 else defaultPriority
  let priority ← match f.lookup "priority" with
    | none => pure unset
    | some p =>
      match Yaml.asInt? p with
      | .ok (some i) => pure i
      | .ok none => pure unset
      | .error _ => s.fail p "delegate priority must be an integer"
  return ⟨package, variant, priority⟩

def template (fuel : Nat) (s : Scope) (n : Node) : Decoding Template := do
  let f ← fields s n "template" ["name", "kind", "params", "delegate", "body"]
  match f.lookup "name" with
  | none => s.fail n "template without a name"
  | some nn =>
    let name ← str s nn "template name"
    let kind ← optContentKind s f
    let (params, s) ← match f.lookup "params" with
      | none => pure ([], s)
      | some pn => do
        (← seq s pn "params").foldlM (fun (acc : List Param × Scope) item => do
          let p ← param fuel acc.2 item
          return (acc.1 ++ [p], declare acc.2 p)) ([], s)
    let del ← match f.lookup "delegate" with
      | none => pure none
      | some dn => some <$> delegate s dn
    let body ← match f.lookup "body" with
      | none => pure []
      | some b => block fuel s b
    return ⟨s.qualify name, kind, s.source, params, del, body⟩

/-- Reads the templates of one document. The fuel bounds the nesting of the node. -/
def templates (fuel : Nat) (source : String) (root : Node) : Decoding (List Template) := do
  let s : Scope := ⟨source, "", [], [], []⟩
  let f ← fields s root "bundle" ["namespace", "templates"]
  let space ← match f.lookup "namespace" with
    | some ns => str s ns "namespace"
    | none => pure ""
  match f.lookup "templates" with
  | none => return []
  | some ts => do
    (← seq s ts "templates").mapM (template fuel { s with space := space })

/-- Reads the templates of one document, with more fuel than its nesting can use up. -/
def document (source : String) (root : Node) : Decoding (List Template) :=
  templates (8 * root.depth + 8) source root

/-- Reads the templates of a bundle, document by document. -/
def parse (text source : String) : Decoding (List Template) := do
  let docs := Yaml.documents text
  let found ← docs.roots.mapM (document source)
  match docs.malformed with
  | none => return found.flatten
  | some m =>
    throw (.fault ((Failure.compile .invalidTemplate (source ++ ": " ++ m.text)).detail
      "source" source))

end Interlude.Bundle
