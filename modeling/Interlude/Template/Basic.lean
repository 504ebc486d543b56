import Interlude.Template.Expr
/-!
# Templates

Statements, params and templates, as a bundle declares them.
-/

namespace Interlude

/-- A print directive with its arguments. -/
structure Directive where
  name : String
  args : List Expr

/-- What a call hands over besides its explicit params. -/
inductive CallData where
  | none
  | all
  | expr (e : Expr)

/-- Whom a call calls: a template by name, or the implementation of a delegate. -/
inductive CallTarget where
  | template
  | delegate (variant : Option Expr) (allowEmpty : Bool)

/-- An explicit param of a call: a value, or the content its body renders to. -/
inductive CallParam (Body : Type) where
  | value (name : String) (e : Expr)
  | content (name : String) (kind : ContentKind) (body : Body)

def CallParam.name : CallParam Body → String
  | value name _ => name
  | content name _ _ => name

/-- A statement. A binding of `letValue` or `letContent` holds for the rest of its block. -/
inductive Stmt where
  | text (s : String)
  | print (e : Expr) (directives : List Directive)
  | cond (branches : List (Expr × List Stmt)) (otherwise : List Stmt)
  | switch (subject : Expr) (cases : List (List Expr × List Stmt)) (default : Option (List Stmt))
  | forRange (var : String) (start : Option Expr) (stop : Expr) (step : Option Expr)
    (body : List Stmt)
  | forEach (var : String) (list : Expr) (body ifEmpty : List Stmt)
  | letValue (name : String) (value : Expr)
  | letContent (name : String) (kind : ContentKind) (body : List Stmt)
  | call (callee : String) (target : CallTarget) (data : CallData)
      (params : List (CallParam (List Stmt))) (directives : List Directive)
  | log (body : List Stmt)

instance : Inhabited Stmt := ⟨.text ""⟩

namespace Stmt

/-- The arguments of directives. -/
def directiveArgs (ds : List Directive) : List Expr := ds.flatMap (·.args)

/-- The expressions a statement evaluates itself, without those of nested bodies. -/
def exprs : Stmt → List Expr
  | text _ => []
  | print e ds => e :: directiveArgs ds
  | cond branches _ => branches.map (·.1)
  | switch subject cases _ => subject :: cases.flatMap (·.1)
  | forRange _ start stop step _ => start.toList ++ [stop] ++ step.toList
  | forEach _ list _ _ => [list]
  | letValue _ e => [e]
  | letContent .. => []
  | call _ target data params ds =>
    let variant := match target with
      | .delegate (some v) _ => [v]
      | _ => []
    let base := match data with
      | .expr e => [e]
      | _ => []
    let values := params.filterMap fun
      | .value _ e => some e
      | .content .. => none
    variant ++ base ++ values ++ directiveArgs ds
  | log _ => []

/-- The nested bodies of a statement. -/
def bodies : Stmt → List (List Stmt)
  | text _ => []
  | print .. => []
  | cond branches otherwise => branches.map (·.2) ++ [otherwise]
  | switch _ cases default => cases.map (·.2) ++ [default.getD []]
  | forRange _ _ _ _ body => [body]
  | forEach _ _ body ifEmpty => [body, ifEmpty]
  | letValue .. => []
  | letContent _ _ body => [body]
  | call _ _ _ params _ => params.filterMap fun
      | .content _ _ body => some body
      | .value .. => none
  | log body => [body]

mutual

/-- The statement and all statements nested in it. -/
def flatten : Stmt → List Stmt
  | text s => [text s]
  | print e ds => [print e ds]
  | cond branches otherwise =>
    cond branches otherwise :: (flattenBranches branches ++ flattenAll otherwise)
  | switch subject cases default =>
    switch subject cases default :: (flattenCases cases ++ flattenOption default)
  | forRange var start stop step body => forRange var start stop step body :: flattenAll body
  | forEach var list body ifEmpty =>
    forEach var list body ifEmpty :: (flattenAll body ++ flattenAll ifEmpty)
  | letValue name e => [letValue name e]
  | letContent name kind body => letContent name kind body :: flattenAll body
  | call callee target data params ds => call callee target data params ds :: flattenParams params
  | log body => log body :: flattenAll body

def flattenAll : List Stmt → List Stmt
  | [] => []
  | s :: rest => s.flatten ++ flattenAll rest

def flattenOption : Option (List Stmt) → List Stmt
  | none => []
  | some body => flattenAll body

def flattenBranches : List (Expr × List Stmt) → List Stmt
  | [] => []
  | (_, body) :: rest => flattenAll body ++ flattenBranches rest

def flattenCases : List (List Expr × List Stmt) → List Stmt
  | [] => []
  | (_, body) :: rest => flattenAll body ++ flattenCases rest

def flattenParams : List (CallParam (List Stmt)) → List Stmt
  | [] => []
  | .value .. :: rest => flattenParams rest
  | .content _ _ body :: rest => flattenAll body ++ flattenParams rest

end

/-- Whether a statement of a block, or one nested in it, reads a local variable. -/
def references (body : List Stmt) (name : String) : Bool :=
  (flattenAll body).any fun s => s.exprs.any fun e => e.reads.contains name

end Stmt

/-- A declared param. An injected one comes from the data of the whole render. -/
structure Param where
  name : String
  type : StaticType
  required : Bool
  injected : Bool
  default : Option Expr

/-- The place of a delegate implementation: its package, variant and priority. -/
structure Delegate where
  package : String
  variant : String
  priority : Int64
deriving DecidableEq

/-- A template. -/
structure Template where
  name : String
  kind : ContentKind
  source : String
  params : List Param
  delegate : Option Delegate
  body : List Stmt

end Interlude
