/-!
# Failures

What can go wrong, from a malformed bundle to a sink that stops accepting output. A failure has a
category and a stable code, so that callers can branch on it, and one function gives its wording.
Waiting for a value is not a failure and never appears here.
-/

namespace Interlude

/-- The area a failure belongs to. -/
inductive Category where
  | compile
  | data
  | cast
  | call
  | argument
  | config
  | io
  | internal
  | other (name : String)
deriving DecidableEq, Repr, Inhabited

namespace Category

def name : Category → String
  | compile => "compile"
  | data => "data"
  | cast => "cast"
  | call => "call"
  | argument => "argument"
  | config => "config"
  | io => "io"
  | internal => "internal"
  | other name => name

def ofName : String → Category
  | "compile" => compile
  | "data" => data
  | "cast" => cast
  | "call" => call
  | "argument" => argument
  | "config" => config
  | "io" => io
  | "internal" => internal
  | name => other name

end Category

/-- The stable code of a failure. -/
inductive Code where
  | duplicateSlot
  | layoutRedefined
  | unknownDirective
  | unknownFunction
  | unknownVariable
  | invalidTemplate
  | missingParam
  | cast
  | delegateNotFound
  | ambiguousDelegate
  | templateNotFound
  | invalidRange
  | invalidArgument
  | abandoned
  | configInvalid
  | fileNotFound
  | internal
  | directiveFailed
  | duplicateTemplate
  | futureFailed
  | nullDereference
  | sinkFailed
  | other (name : String)
deriving DecidableEq, Repr, Inhabited

namespace Code

def name : Code → String
  | duplicateSlot => "ERR_DUPLICATE_SLOT"
  | layoutRedefined => "ERR_LAYOUT_REDEFINED"
  | unknownDirective => "ERR_UNKNOWN_DIRECTIVE"
  | unknownFunction => "ERR_UNKNOWN_FUNCTION"
  | unknownVariable => "ERR_UNKNOWN_VARIABLE"
  | invalidTemplate => "ERR_INVALID_TEMPLATE"
  | missingParam => "ERR_MISSING_PARAM"
  | cast => "ERR_CAST"
  | delegateNotFound => "ERR_DELEGATE_NOT_FOUND"
  | ambiguousDelegate => "ERR_AMBIGUOUS_DELEGATE"
  | templateNotFound => "ERR_TEMPLATE_NOT_FOUND"
  | invalidRange => "ERR_INVALID_RANGE"
  | invalidArgument => "ERR_INVALID_ARGUMENT"
  | abandoned => "ERR_ABANDONED"
  | configInvalid => "ERR_CONFIG_INVALID"
  | fileNotFound => "ERR_FILE_NOT_FOUND"
  | internal => "ERR_INTERNAL"
  | directiveFailed => "ERR_DIRECTIVE_FAILED"
  | duplicateTemplate => "ERR_DUPLICATE_TEMPLATE"
  | futureFailed => "ERR_FUTURE_FAILED"
  | nullDereference => "ERR_NULL_DEREFERENCE"
  | sinkFailed => "ERR_SINK_FAILED"
  | other name => name

end Code

/-- A failure with its structure, apart from what caused it. `context` holds named details. -/
structure Fault where
  category : Category
  code : Code
  message : String
  template : String
  context : List (String × String)
deriving DecidableEq, Repr, Inhabited

namespace Fault

/-- A fault without template and details. -/
def new (category : Category) (code : Code) (message : String) : Fault :=
  ⟨category, code, message, "", []⟩

/-- Sets a detail; a later one of the same name replaces the earlier. -/
def detail (f : Fault) (key value : String) : Fault :=
  { f with context := f.context.filter (·.1 != key) ++ [(key, value)] }

/-- Names the template a fault arose in; a template already named stays, so the innermost wins. -/
def within (f : Fault) (template : String) : Fault :=
  if f.template.isEmpty then { f with template := template } else f

/-- Code in brackets, template, message, and the details sorted by name; absent parts are left
out. -/
def text (f : Fault) : String :=
  let parts := [
    (if f.code.name.isEmpty then [] else ["[" ++ f.code.name ++ "]"]),
    (if f.template.isEmpty then [] else ["template:" ++ f.template]),
    [f.message],
    (if f.context.isEmpty then []
     else
      let sorted := f.context.mergeSort fun a b => a.1 ≤ b.1
      ["(" ++ String.intercalate ", " (sorted.map fun kv => kv.1 ++ "=" ++ kv.2) ++ ")"])]
  String.intercalate " " parts.flatten

end Fault

/-- A failure: a fault, possibly with the failure that caused it, a plain text, or a failure
reported under a wording of its own. -/
inductive Failure where
  | plain (text : String)
  | fault (f : Fault)
  | because (f : Fault) (cause : Failure)
  | noted (text : String) (cause : Failure)
deriving DecidableEq, Repr, Inhabited

namespace Failure

/-- The whole wording. -/
def text : Failure → String
  | plain text => text
  | fault f => f.text
  | because f cause => f.text ++ ": " ++ cause.text
  | noted text _ => text

/-- The outermost fault, looking through other wordings. -/
def fault? : Failure → Option Fault
  | plain _ => none
  | fault f => some f
  | because f _ => some f
  | noted _ cause => cause.fault?

/-- The failure that all others here follow from. -/
def root : Failure → Failure
  | because _ cause => cause.root
  | noted _ cause => cause.root
  | other => other

/-- Changes the outermost fault. A wording that was given to it before stays as it is. -/
def mapFault (g : Fault → Fault) : Failure → Failure
  | plain text => plain text
  | fault f => fault (g f)
  | because f cause => because (g f) cause
  | noted text cause => noted text (cause.mapFault g)

/-- The failure as it stands at its outermost fault. -/
def atFault : Failure → Failure
  | noted text cause => if cause.fault?.isSome then cause.atFault else noted text cause
  | other => other

/-- Reports a failure after a lead text and a colon. -/
def under (lead : String) (cause : Failure) : Failure :=
  noted (lead ++ ": " ++ cause.text) cause

/-- Names the template a failure arose in. -/
def within (failure : Failure) (template : String) : Failure :=
  failure.mapFault (·.within template)

def isCategory (failure : Failure) (category : Category) : Bool :=
  match failure.fault? with
  | some f => f.category == category
  | none => false

def hasCode (failure : Failure) (code : Code) : Bool :=
  match failure.fault? with
  | some f => f.code == code
  | none => false

/-- Whether some fault along the chain of causes has this category and code name. -/
def matchesFault (category : Category) (code : String) : Failure → Bool
  | plain _ => false
  | fault f => f.category == category && f.code.name == code
  | because f cause =>
    (f.category == category && f.code.name == code) || cause.matchesFault category code
  | noted _ cause => cause.matchesFault category code

end Failure

/-! ## The failures of the engine -/

namespace Failure

def compile (code : Code) (message : String) : Fault := .new .compile code message
def data (code : Code) (message : String) : Fault := .new .data code message
def call (code : Code) (message : String) : Fault := .new .call code message
def argument (code : Code) (message : String) : Fault := .new .argument code message
def config (code : Code) (message : String) : Fault := .new .config code message

/-- A required param that was not given. -/
def missingParam (template param : String) : Failure :=
  .fault (((data .missingParam ("missing required param: " ++ param)).within template).detail
    "param" param)

/-- A value of another kind than the one asked for. -/
def cast (want got : String) : Failure :=
  .fault (((Fault.new .cast .cast ("expected " ++ want ++ ", got " ++ got)).detail "want"
    want).detail "got" got)

/-- A call to a template nobody registered. -/
def templateNotFound (name : String) : Failure :=
  .fault ((call .templateNotFound ("template not found: " ++ name)).detail "callee" name)

/-- Range bounds and a step that describe no range. -/
def invalidRange (start stop step : Int64) (reason : String) : Failure :=
  .fault ((((argument .invalidRange ("invalid range: " ++ reason)).detail "start"
    (toString start.toInt)).detail "stop" (toString stop.toInt)).detail "step"
    (toString step.toInt))

/-- Two claims for one name in one scope. -/
def duplicateSlot (name : String) : Failure :=
  .fault ((compile .duplicateSlot ("duplicate slot claim: " ++ name)).detail "name" name)

/-- Use of a render that was given up. -/
def abandoned (template : String) : Failure :=
  .fault ((data .abandoned "render state was abandoned").within template)

/-- A sink that does not accept output. -/
def sink (cause : Failure) : Failure :=
  .because (Fault.new .io .sinkFailed "output sink failed") cause

/-- A pending value that failed. -/
def futureFailed (cause : Failure) : Failure :=
  .because (data .futureFailed "pending value failed") cause

end Failure

end Interlude
