import Interlude.Document.Value
import Interlude.Registry
/-!
# Templates as documents

JSON documents that show templates: their expressions with static types, their statements, and what
is declared about them.
-/

namespace Interlude.Document

mutual

/-- The document of an expression; `value` gives that of a literal. -/
def ofExpr (value : Value → Json) : Expr → Json
  | .lit t v _ => .obj [("t", .str t.text), ("lit", value v)]
  | .param t name injected =>
    .obj [("t", .str t.text), ("param", .str name), ("injected", .bool injected)]
  | .var t name => .obj [("t", .str t.text), ("var", .str name)]
  | .unary t op x => .obj [("t", .str t.text), ("unary", .str op.symbol), ("x", ofExpr value x)]
  | .binary t op x y =>
    .obj [("t", .str t.text), ("binary", .str op.symbol), ("x", ofExpr value x),
      ("y", ofExpr value y)]
  | .cond t c x y =>
    .obj [("t", .str t.text), ("cond", ofExpr value c), ("then", ofExpr value x),
      ("else", ofExpr value y)]
  | .field t x name nullSafe =>
    .obj [("t", .str t.text), ("field", .str name), ("x", ofExpr value x),
      ("nullsafe", .bool nullSafe)]
  | .item t x key nullSafe =>
    .obj [("t", .str t.text), ("item", ofExpr value key), ("x", ofExpr value x),
      ("nullsafe", .bool nullSafe)]
  | .list t items => .obj [("t", .str t.text), ("list", .arr (ofExprs value items))]
  | .map t entries =>
    let es := ofPairs value entries
    .obj [("t", .str t.text), ("keys", .arr (es.map (·.1))), ("values", .arr (es.map (·.2)))]
  | .record t fields =>
    let fs := ofNamed value fields
    .obj [("t", .str t.text), ("names", .ofTexts (fs.map (·.1))), ("values", .arr (fs.map (·.2)))]
  | .call t name args =>
    .obj [("t", .str t.text), ("call", .str name), ("args", .arr (ofExprs value args))]

def ofExprs (value : Value → Json) : List Expr → List Json
  | [] => []
  | e :: rest => ofExpr value e :: ofExprs value rest

def ofPairs (value : Value → Json) : List (Expr × Expr) → List (Json × Json)
  | [] => []
  | (k, v) :: rest => (ofExpr value k, ofExpr value v) :: ofPairs value rest

def ofNamed (value : Value → Json) : List (String × Expr) → List (String × Json)
  | [] => []
  | (name, e) :: rest => (name, ofExpr value e) :: ofNamed value rest

end

def ofExpr? (value : Value → Json) (e : Option Expr) : Json := (e.map (ofExpr value)).getD .null

def ofDirectives (value : Value → Json) (ds : List Directive) : Json :=
  .arr (ds.map fun d => .obj [("name", .str d.name), ("args", .arr (ofExprs value d.args))])

mutual

/-- The document of a statement. -/
def ofStmt (value : Value → Json) : Stmt → Json
  | .text s => .obj [("text", .str s)]
  | .print e ds => .obj [("print", ofExpr value e), ("directives", ofDirectives value ds)]
  | .cond branches otherwise =>
    .obj [("if", .arr (ofBranches value branches)), ("else", .arr (ofStmts value otherwise))]
  | .switch subject cases default =>
    .obj [("switch", ofExpr value subject), ("cases", .arr (ofCases value cases)),
      ("default", .arr (ofDefault value default)), ("hasDefault", .bool default.isSome)]
  | .forRange var start stop step body =>
    .obj [("for", .str var), ("start", ofExpr? value start), ("stop", ofExpr value stop),
      ("step", ofExpr? value step), ("body", .arr (ofStmts value body))]
  | .forEach var list body ifEmpty =>
    .obj [("for", .str var), ("in", ofExpr value list), ("body", .arr (ofStmts value body)),
      ("ifempty", .arr (ofStmts value ifEmpty))]
  | .letValue name e => .obj [("let", .str name), ("value", ofExpr value e)]
  | .letContent name kind body =>
    .obj [("let", .str name), ("kind", .str kind.name), ("body", .arr (ofStmts value body))]
  | .call callee target data params ds =>
    let (delegate, variant, allowEmpty) := match target with
      | .template => (false, none, false)
      | .delegate variant allowEmpty => (true, variant, allowEmpty)
    let (mode, record) := match data with
      | .none => ("none", none)
      | .all => ("all", none)
      | .expr e => ("expr", some e)
    .obj [("call", .str callee), ("delegate", .bool delegate), ("variant", ofExpr? value variant),
      ("allowEmpty", .bool allowEmpty), ("data", .str mode), ("dataExpr", ofExpr? value record),
      ("params", .arr (ofParams value params)), ("directives", ofDirectives value ds)]
  | .log body => .obj [("log", .arr (ofStmts value body))]

def ofStmts (value : Value → Json) : List Stmt → List Json
  | [] => []
  | s :: rest => ofStmt value s :: ofStmts value rest

def ofDefault (value : Value → Json) : Option (List Stmt) → List Json
  | none => []
  | some body => ofStmts value body

def ofBranches (value : Value → Json) : List (Expr × List Stmt) → List Json
  | [] => []
  | (c, body) :: rest =>
    .obj [("cond", ofExpr value c), ("body", .arr (ofStmts value body))] :: ofBranches value rest

def ofCases (value : Value → Json) : List (List Expr × List Stmt) → List Json
  | [] => []
  | (vs, body) :: rest =>
    .obj [("values", .arr (ofExprs value vs)), ("body", .arr (ofStmts value body))] ::
      ofCases value rest

def ofParams (value : Value → Json) : List (CallParam (List Stmt)) → List Json
  | [] => []
  | .value name e :: rest =>
    .obj [("name", .str name), ("value", ofExpr value e)] :: ofParams value rest
  | .content name kind body :: rest =>
    .obj [("name", .str name), ("kind", .str kind.name), ("body", .arr (ofStmts value body))] ::
      ofParams value rest

end

def ofDelegate (d : Delegate) : Json :=
  .obj [("package", .str d.package), ("variant", .str d.variant),
    ("priority", .int d.priority.toInt)]

/-- The document of a template. -/
def ofTemplate (value : Value → Json) (t : Template) : Json :=
  Json.ofPresent [("name", some (.str t.name)), ("kind", some (.str t.kind.name)),
    ("source", some (.str t.source)),
      ("params", some (.arr (t.params.map fun p =>
        .obj [("name", .str p.name), ("type", .str p.type.text), ("required", .bool p.required),
          ("injected", .bool p.injected), ("default", ofExpr? value p.default)]))),
    ("body", some (.arr (ofStmts value t.body))), ("delegate", t.delegate.map ofDelegate)]

/-- What a program declares. -/
def ofProgram (p : Program) : Json :=
  Json.ofPresent [("name", some (.str p.name)), ("kind", some (.str p.kind.name)),
    ("source", some (.str p.source)),
      ("params", some (.arr (p.params.map fun d =>
        .obj [("name", .str d.name), ("type", .str d.type.text), ("required", .bool d.required),
          ("injected", .bool d.injected)]))),
    ("delegate", p.delegate.map ofDelegate)]

/-- What the programs of a registry declare. -/
def ofRegistry (r : Registry) : Json := .arr (r.listing.map ofProgram)

/-- What a program declares, without what is empty. -/
def summary (p : Program) : Json :=
  let params := p.params.map fun d =>
    Json.ofPresent [("name", some (.str d.name)), ("type", some (.str d.type.text)),
    ("required", some (.bool d.required)),
      ("injected", if d.injected then some (.bool true) else none)]
  Json.ofPresent [("name", some (.str p.name)), ("kind", some (.str p.kind.name)),
    ("source", if p.source.isEmpty then none else some (.str p.source)),
    ("delegate", p.delegate.map ofDelegate),
    ("params", if params.isEmpty then none else some (.arr params))]

/-- The summaries of all programs. -/
def summaries (r : Registry) : List Json := r.listing.map summary

end Interlude.Document
