import Interlude.Program.Compile
import Interlude.Failure.Collector
import Interlude.Context
/-!
# Registries

The templates of a program, compiled once and never changed. A basic template is found by its name;
the implementations of a delegate compete for its name and variant, and among those whose package is
active the one of highest priority is taken.
-/

namespace Interlude

/-- Templates in some form, with what they are found by. -/
structure Directory (α : Type) where
  all : List α
  name : α → String
  delegate : α → Option Delegate

namespace Directory

variable {α : Type} (d : Directory α)

/-- The template of this name that is no delegate implementation. -/
def find? (name : String) : Option α :=
  d.all.find? fun a => (d.delegate a).isNone && d.name a == name

def template (name : String) : Except Failure α :=
  match d.find? name with
  | some a => .ok a
  | none => .error (Failure.templateNotFound name)

/-- A template with its place among the implementations of its delegate. -/
def implementation? (name : String) (a : α) : Option (Delegate × α) :=
  if d.name a == name then (d.delegate a).map (·, a) else none

/-- The implementations of a delegate. -/
def implementations (name : String) : List (Delegate × α) :=
    d.all.filterMap (d.implementation? name)

/-- The implementations of a delegate for one variant, highest priority first. -/
def variants (name variant : String) : List (Delegate × α) :=
  ((d.implementations name).filter (·.1.variant == variant)).mergeSort fun a b =>
    b.1.priority ≤ a.1.priority

def ambiguousDelegate (name variant first second : String) : Failure :=
  .fault (((Failure.call .ambiguousDelegate
    ("delegate " ++ Text.quote name ++ " (variant " ++ Text.quote variant ++
      ") has two active impls with the same priority: " ++ first ++ " and " ++ second)).detail
      "callee" name).detail
    "variant" variant)

def delegateNotFound (name variant : String) : Failure :=
  .fault (((Failure.call .delegateNotFound
    ("found no active impl for delegate call to " ++ Text.quote name ++ " (variant " ++
      Text.quote variant ++ ") and empty default is not allowed")).detail "callee" name).detail
    "variant" variant)

/-- The active implementation of highest priority for exactly this variant. -/
def active? (context : Context) (name variant : String) : Except Failure (Option α) :=
  match (d.variants name variant).filter (fun d => context.isActive d.1.package) with
  | [] => .ok none
  | [best] => .ok (some best.2)
  | best :: next :: _ =>
    if next.1.priority < best.1.priority then .ok (some best.2)
    else .error (ambiguousDelegate name variant best.1.package next.1.package)

/-- The implementation a delegate call takes: one of the variant asked for, else one without a
variant, else none if the call allows that. -/
def select (context : Context) (name variant : String) (allowEmpty : Bool) :
    Except Failure (Option α) := do
  match ← d.active? context name variant with
  | some a => return some a
  | none =>
    let fallback ← if variant.isEmpty then pure none else d.active? context name ""
    match fallback with
    | some a => return some a
    | none => if allowEmpty then return none else throw (delegateNotFound name variant)

end Directory

/-- The compiled templates, in the order they were given. -/
structure Registry where
  programs : List Program := []

namespace Registry

/-- What two templates must not share. -/
def keyOf (t : Template) : String :=
  match t.delegate with
  | none => t.name
  | some d => t.name ++ ":" ++ d.variant ++ "@" ++ d.package

/-- A registry in the making: the programs so far, the source of each key, and the issues. -/
structure Draft where
  programs : List Program := []
  seen : List (String × String) := []
  issues : Collector := {}

/-- Adds a template. One that does not compile, or has the key of an earlier one, is an issue. -/
def Draft.add (analyzer : Analyzer) (d : Draft) (t : Template) : Draft :=
  let problem (message : String) (cause : Failure) : Draft :=
    let issue : Issue := ⟨t.name, t.source, message, .error, some cause⟩
    { d with issues := d.issues.add issue }
  match Program.compile analyzer t with
  | .error e => problem e.text e
  | .ok p =>
    let key := keyOf t
    match d.seen.lookup key with
    | some first =>
      problem ("duplicate template, first defined in " ++ first)
        (.fault ((Failure.compile .duplicateTemplate ("duplicate template " ++ key)).within t.name))
    | none => { d with programs := d.programs ++ [p], seen := (key, t.source) :: d.seen }

/-- Compiles templates. All problems are collected, and any of them makes the whole fail. -/
def build (analyzer : Analyzer) (templates : List Template) : Except Failure Registry :=
  let draft := templates.foldl (Draft.add analyzer) {}
  match draft.issues.failure? with
  | some e => .error e
  | none => .ok ⟨draft.programs⟩

/-- The programs, found by their names and delegates. -/
def directory (r : Registry) : Directory Program :=
    { all := r.programs, name := (·.name), delegate := (·.delegate) }

/-- The template of this name that is no delegate implementation. -/
def find? (r : Registry) (name : String) : Option Program := r.directory.find? name

def template (r : Registry) (name : String) : Except Failure Program := r.directory.template name

/-- The implementation a delegate call takes. -/
def select (r : Registry) (context : Context) (name variant : String) (allowEmpty : Bool) :
    Except Failure (Option Program) :=
  r.directory.select context name variant allowEmpty

/-- All names, sorted. -/
def names (r : Registry) : List String :=
  ((r.programs.map (·.name)).mergeSort (· ≤ ·)).eraseDups

/-- The number of templates that are no delegate implementations. -/
def count (r : Registry) : Nat := (r.programs.filter (·.delegate.isNone)).length

/-- The implementations of a delegate by variant, and for each variant highest priority first. -/
def implementations (r : Registry) (name : String) : List Program :=
  let sorted := (r.directory.implementations name).mergeSort fun a b =>
    if a.1.variant == b.1.variant then b.1.priority ≤ a.1.priority else a.1.variant ≤ b.1.variant
  sorted.map (·.2)

/-- All programs by name; under one name the basic template comes first. -/
def listing (r : Registry) : List Program :=
  r.names.flatMap fun name => (r.find? name).toList ++ r.implementations name

/-- The distinct layouts of all programs. -/
def layouts (r : Registry) : Layouts :=
  (r.programs.flatMap Program.layouts).foldl Layouts.insert {}

end Registry

end Interlude
