import Interlude.Template.Basic
import Interlude.Suspension
import Interlude.Filter
/-!
# Plans

A body in which it is decided how every local is computed. A value nobody reads is skipped; one that
the next statement reading it reads on every path is computed at once; any other is deferred to its
first use. Content that is read once, by a print of its own, renders where it is printed instead of
being collected first.
-/

namespace Interlude

namespace Expr

mutual

/-- Whether evaluation always reads the variable `name`. -/
def readsAlways (name : String) : Expr → Bool
  | lit .. => false
  | param .. => false
  | var _ n => n == name
  | unary _ _ x => x.readsAlways name
  | binary _ op x y =>
    match op with
    | .and => x.readsAlways name
    | .or => x.readsAlways name
    | .coalesce => x.readsAlways name
    | _ => x.readsAlways name || y.readsAlways name
  | cond _ c _ _ => c.readsAlways name
  | field _ x _ _ => x.readsAlways name
  | item _ x k nullSafe => x.readsAlways name || (!nullSafe && k.readsAlways name)
  | list _ es => readsAlwaysAny name es
  | map _ es => readsAlwaysEntries name es
  | record _ fs => readsAlwaysFields name fs
  | call _ f es => !isLoopHelper f && readsAlwaysAny name es

def readsAlwaysAny (name : String) : List Expr → Bool
  | [] => false
  | e :: es => e.readsAlways name || readsAlwaysAny name es

def readsAlwaysEntries (name : String) : List (Expr × Expr) → Bool
  | [] => false
  | (k, v) :: es => k.readsAlways name || v.readsAlways name || readsAlwaysEntries name es

def readsAlwaysFields (name : String) : List (String × Expr) → Bool
  | [] => false
  | (_, e) :: fs => e.readsAlways name || readsAlwaysFields name fs

end

end Expr

namespace Stmt

/-- The expressions a statement always evaluates when it runs. -/
def headExprs : Stmt → List Expr
  | cond ((c, _) :: _) _ => [c]
  | switch subject _ _ => [subject]
  | letValue .. => []
  | s => s.exprs

end Stmt

/-- When the value of a local is computed. -/
inductive LetMode where
  | skip
  | eager
  | deferred
deriving DecidableEq, Repr, Inhabited

/-- The mode of a value bound to `name` before the rest of its block. -/
def classifyLet (name : String) : List Stmt → LetMode
  | [] => .skip
  | s :: rest =>
    if !Stmt.references [s] name then classifyLet name rest
    else
      match s with
      | .letValue other e =>
        if other == name then .eager
        else if e.readsAlways name && classifyLet other rest == .eager then .eager
        else .deferred
      | s => if s.headExprs.any (·.readsAlways name) then .eager else .deferred

/-- Whether every directive has a filter with a stage. -/
def canStream (ds : List Directive) : Bool :=
  ds.all fun d =>
    match Filter.resolve d.name d.args.length with
    | .ok f => f.streams
    | .error _ => false

/-- The position of the print that is the only reader of the content `name` in the rest of its
block and prints nothing else. No other local may be bound before it, so that the content sees the
same locals there. -/
def streamSite (name : String) : List Stmt → Option Nat
  | [] => none
  | s :: rest =>
    match s with
    | .letValue .. => none
    | .letContent .. => none
    | .print (.var _ n) ds =>
      if n == name then
        if (Stmt.directiveArgs ds).any (·.reads.contains name) || Stmt.references rest name ||
          !canStream ds then none
        else some 0
      else if Stmt.references [s] name then none
      else (streamSite name rest).map (· + 1)
    | s => if Stmt.references [s] name then none else (streamSite name rest).map (· + 1)

/-- A statement with its locals decided. `source` keeps the body of a loop as it was written. -/
inductive Plan where
  | text (s : String)
  | print (e : Expr) (directives : List Directive)
  | cond (branches : List (Expr × List Plan)) (otherwise : List Plan)
  | switch (subject : Expr) (cases : List (List Expr × List Plan)) (default : Option (List Plan))
  | forRange (var : String) (start : Option Expr) (stop : Expr) (step : Option Expr)
      (source : List Stmt) (body : List Plan)
  | forEach (var : String) (list : Expr) (source : List Stmt) (body ifEmpty : List Plan)
  | eager (name : String) (e : Expr)
  | deferred (name : String) (e : Expr)
  | content (name : String) (kind : ContentKind) (body : List Plan)
  | stream (kind : ContentKind) (body : List Plan) (directives : List Directive)
  | call (callee : String) (target : CallTarget) (data : CallData)
      (params : List (CallParam (List Plan))) (directives : List Directive)
  | log (body : List Plan)

instance : Inhabited Plan := ⟨.text ""⟩

namespace Plan

/-- A print that renders the content it prints in place. -/
def streaming (kind : ContentKind) (body : List Plan) : Plan → Plan
  | print _ ds => stream kind body ds
  | p => p

mutual

/-- The plan of a block. Every statement that is no local has exactly one entry in it. -/
def ofBlock : List Stmt → List Plan
  | [] => []
  | s :: rest =>
    let later := ofBlock rest
    match s with
    | .text t => text t :: later
    | .print e ds => print e ds :: later
    | .cond branches otherwise => cond (ofBranches branches) (ofBlock otherwise) :: later
    | .switch subject cases default => switch subject (ofCases cases) (ofDefault default) :: later
    | .forRange var start stop step body =>
      forRange var start stop step body (ofBlock body) :: later
    | .forEach var list body ifEmpty =>
      forEach var list body (ofBlock body) (ofBlock ifEmpty) :: later
    | .letValue name e =>
      match classifyLet name rest with
      | .skip => later
      | .eager => eager name e :: later
      | .deferred => deferred name e :: later
    | .letContent name kind body =>
      let body := ofBlock body
      if !Stmt.references rest name then later
      else
        match streamSite name rest with
        | some i => later.modify i (streaming kind body)
        | none => content name kind body :: later
    | .call callee target data params ds => call callee target data (ofParams params) ds :: later
    | .log body => log (ofBlock body) :: later

def ofBranches : List (Expr × List Stmt) → List (Expr × List Plan)
  | [] => []
  | (c, body) :: rest => (c, ofBlock body) :: ofBranches rest

def ofCases : List (List Expr × List Stmt) → List (List Expr × List Plan)
  | [] => []
  | (vs, body) :: rest => (vs, ofBlock body) :: ofCases rest

def ofDefault : Option (List Stmt) → Option (List Plan)
  | none => none
  | some body => some (ofBlock body)

def ofParams : List (CallParam (List Stmt)) → List (CallParam (List Plan))
  | [] => []
  | .value name e :: rest => .value name e :: ofParams rest
  | .content name kind body :: rest => .content name kind (ofBlock body) :: ofParams rest

end

end Plan

end Interlude
