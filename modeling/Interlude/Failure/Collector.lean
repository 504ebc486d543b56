import Interlude.Failure
/-!
# Collected issues

Problems found while a set of templates is built are collected, so that one bad template does not
hide the problems of the others, and folded into one failure at the end.
-/

namespace Interlude

/-- How bad an issue is. -/
structure Severity where
  level : Int
deriving DecidableEq, Repr, Inhabited

namespace Severity

def error : Severity := ⟨2⟩

def name (s : Severity) : String :=
  match s.level with
  | 0 => "info"
  | 1 => "warning"
  | 2 => "error"
  | 3 => "fatal"
  | _ => "unknown"

/-- Errors and worse make the build fail. -/
def fails (s : Severity) : Bool := error.level ≤ s.level

end Severity

/-- One problem of one template. -/
structure Issue where
  template : String
  source : String
  message : String
  severity : Severity
  cause : Option Failure

namespace Issue

/-- Where the problem is, how bad, and what it is. -/
def text (i : Issue) : String :=
  let place := if i.source.isEmpty then i.template else i.source ++ ":" ++ i.template
  place ++ ": " ++ i.severity.name ++ ": " ++ i.message

def failure (i : Issue) : Failure :=
  match i.cause with
  | some cause => .noted i.text cause
  | none => .plain i.text

/-- A failure that stopped a template from being built. -/
def ofFailure (template : String) (cause : Failure) : Issue :=
  ⟨template, "", cause.text, .error, some cause⟩

end Issue

/-- The issues found so far, in the order they were found. -/
structure Collector where
  issues : List Issue := []

namespace Collector

def add (c : Collector) (i : Issue) : Collector := ⟨c.issues ++ [i]⟩

def fails (c : Collector) : Bool := c.issues.any (·.severity.fails)

def ofTemplate (c : Collector) (template : String) : List Issue :=
  c.issues.filter (·.template == template)

/-- The failure that stands for all issues that make the build fail: the issue itself if it is the
only one, otherwise a count with all texts, caused by the first. -/
def failure? (c : Collector) : Option Failure :=
  match c.issues.filter (·.severity.fails) with
  | [] => none
  | [i] => some i.failure
  | i :: more =>
    let texts := (i :: more).map Issue.text
    some (.because
      (Failure.compile .invalidTemplate
        (toString texts.length ++ " templates failed to compile: " ++
          String.intercalate "; " texts))
      i.failure)

end Collector

end Interlude
