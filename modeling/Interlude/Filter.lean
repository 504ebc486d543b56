import Interlude.Markup.Clean
import Interlude.Text.Case
import Interlude.Value.Text
import Interlude.Value.Coerce
import Interlude.Output.Sink
/-!
# Filters

What print directives do to a value. Every filter has a pure form on whole values; most also have a
stage that changes output piece by piece, so that a call need not collect it first.
-/

namespace Interlude

inductive Filter where
  | escapeHtml
  | cleanHtml
  | changeNewlineToBr
  | truncate
  | upper
  | lower
  | title
  | escapeUri
  | id
  | noAutoescape
deriving DecidableEq, Repr, Inhabited

namespace Filter

def name : Filter → String
  | escapeHtml => "escapeHtml"
  | cleanHtml => "cleanHtml"
  | changeNewlineToBr => "changeNewlineToBr"
  | truncate => "truncate"
  | upper => "upper"
  | lower => "lower"
  | title => "title"
  | escapeUri => "escapeUri"
  | id => "id"
  | noAutoescape => "noAutoescape"

def all : List Filter :=
  [escapeHtml, cleanHtml, changeNewlineToBr, truncate, upper, lower, title, escapeUri, id,
    noAutoescape]

/-- The least and the greatest number of arguments. -/
def arity : Filter → Nat × Nat
  | truncate => (1, 2)
  | _ => (0, 0)

/-- The filter of a directive with that many arguments. -/
def resolve (name : String) (count : Nat) : Except Failure Filter :=
  match all.find? (·.name == name) with
  | none =>
    .error (.fault (Failure.compile .unknownDirective
      ("unknown print directive " ++ Text.quote name)))
  | some f =>
    let (low, high) := f.arity
    if low ≤ count && count ≤ high then .ok f
    else .error (.fault (Failure.compile .invalidArgument
      ("directive " ++ Text.quote name ++ " takes " ++ toString low ++ " to " ++ toString high ++
        " arguments, got " ++ toString count)))

/-- Whether a filter has a stage. -/
def streams : Filter → Bool
  | cleanHtml => false
  | truncate => false
  | title => false
  | _ => true

/-- Changes the text of a value; content keeps its kind. -/
def onText (fs : Futures) (change : String → String) (v : Value) : Value :=
  let s := change (v.text fs)
  match v with
  | .content kind _ => .content kind s
  | _ => .str s

/-- Cuts a text to `length` characters; a longer one may end in three dots. -/
def cutText (s : String) (length : Nat) (dots : Bool) : String :=
  if s.length ≤ length then s
  else if dots && 3 < length then String.ofList (s.toList.take (length - 3)) ++ "..."
  else String.ofList (s.toList.take length)

/-- The length and the dots that the arguments of a cut ask for. -/
def truncation (args : List Value) : Except Failure (Nat × Bool) := do
  let length ← (args.head?.getD .undefined).toInt64?
  if length < 0 then
    throw (.fault ((Failure.argument .invalidArgument "truncate length must not be negative").detail
      "length" (toString length.toInt)))
  let dots := match args with
    | _ :: dots :: _ => dots.truthy
    | _ => true
  return (length.toInt.toNat, dots)

def truncateValue (fs : Futures) (v : Value) (args : List Value) : Except Failure Value := do
  let (length, dots) ← truncation args
  return .str (cutText (v.text fs) length dots)

/-- The pure form. -/
def apply (fs : Futures) (f : Filter) (v : Value) (args : List Value) : Except Failure Value :=
  match f with
  | escapeHtml =>
    match v with
    | .content .html s => .ok (.content .html s)
    | v => .ok (.content .html (Text.escapeHtml (v.text fs)))
  | cleanHtml => .ok (.content .html (Markup.clean (v.text fs)))
  | changeNewlineToBr => .ok (onText fs Text.lineBreaks v)
  | truncate => truncateValue fs v args
  | upper => .ok (onText fs Text.upper v)
  | lower => .ok (onText fs Text.lower v)
  | title => .ok (onText fs Text.title v)
  | escapeUri => .ok (.content .uri (Text.escapeUri (v.text fs)))
  | id => .ok v
  | noAutoescape => .ok v

/-- Whether filters take the text of the value they are applied to. The first filter that changes
the value does, unless its arguments are refused. -/
def takeText : List (Filter × List Value) → Bool
  | [] => false
  | (id, _) :: rest => takeText rest
  | (noAutoescape, _) :: rest => takeText rest
  | (truncate, args) :: _ => (truncation args).isOk
  | _ => true

/-- Applies filters from left to right; a failure names the filter it arose in. -/
def applyAll (fs : Futures) : List (Filter × List Value) → Value → Except Failure Value
  | [], v => .ok v
  | (f, args) :: rest, v =>
    match f.apply fs v args with
    | .ok v => applyAll fs rest v
    | .error e => .error (e.atFault.mapFault (·.detail "directive" f.name))

/-- The stage that does to output of a kind what the pure form does to content of that kind. -/
def stage? (f : Filter) (kind : ContentKind) : Option Stage :=
  match f with
  | escapeHtml => some (if kind = .html then .unchanged else .escapeHtml)
  | changeNewlineToBr => some .lineBreaks
  | upper => some .upper
  | lower => some .lower
  | escapeUri => some .escapeUri
  | id => some .unchanged
  | noAutoescape => some .unchanged
  | _ => none

/-- The kind of content that a filter makes of content of a kind. -/
def resultKind (fs : Futures) (f : Filter) (kind : ContentKind) (args : List Value) : ContentKind :=
  match f.apply fs (Value.ofContent kind "") args with
  | .ok (.content kind _) => kind
  | _ => .text

/-- The stages of filters, each for the kind of output that reaches it. -/
def stages (fs : Futures) : List (Filter × List Value) → ContentKind → Except Failure (List Stage)
  | [], _ => .ok []
  | (f, args) :: rest, kind => do
    let later ← stages fs rest (f.resultKind fs kind args)
    match f.stage? kind with
    | some stage => return stage :: later
    | none =>
      throw (.fault (.new .internal .internal
        ("directive " ++ Text.quote f.name ++ " cannot stream")))

end Filter

/-- What a stage does to a piece of text, apart from line ends that pieces may cut in two. -/
def Stage.change : Stage → String → String
  | unchanged => fun s => s
  | escapeHtml => Text.escapeHtml
  | lineBreaks => Text.lineBreaks
  | upper => Text.upper
  | lower => Text.lower
  | escapeUri => Text.escapeUri

end Interlude
