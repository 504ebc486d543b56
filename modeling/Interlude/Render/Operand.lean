import Interlude.Render.Store
/-!
# What instructions evaluate

The operands of instructions: everything an instruction computes before it changes anything. Only
here can an instruction meet a pending value, so that one that stops there has done nothing yet and
is run again as a whole.
-/

namespace Interlude

namespace Eval

variable (s : Strategy)

/-- The values of expressions in a row. -/
def values (place : List Nat) : List Compiled → Eval (List Value)
  | [] => pure []
  | c :: rest => do
    let v ← c.value s (0 :: place)
    let vs ← values (1 :: place) rest
    return v :: vs

/-- The arguments of filters, filter by filter. -/
def filterArgs (place : List Nat) : List FilterCall → Eval (List (List Value))
  | [] => pure []
  | f :: rest => do
    let vs ← values s (0 :: place) f.args
    let later ← filterArgs (1 :: place) rest
    return vs :: later

/-- Filters with their arguments. -/
def applied (fs : List FilterCall) (args : List (List Value)) : List (Filter × List Value) :=
  (fs.map (·.filter)).zip args

/-- Applies filters with their arguments to a value. -/
def filtered (fs : List FilterCall) (args : List (List Value)) (v : Value) : Eval Value := do
  let chain := applied fs args
  if Filter.takeText chain then blur v
  ofExcept (Filter.applyAll (← get).heap.futures chain v)

/-- The text that a print writes. -/
def printed (e : Compiled) (filters : List FilterCall) : Eval String :=
  match filters with
  | [] => e.str s []
  | fs => do
    let v ← e.value s [0]
    let args ← filterArgs s [1] fs
    let v ← filtered fs args v
    text v

/-- Whether one of the values equals the subject; values after the first that does are not
evaluated. -/
def anyEqual (subject : Value) (place : List Nat) : List Compiled → Eval Bool
  | [] => pure false
  | c :: rest => do
    let v ← c.value s (0 :: place)
    if subject.equal v then pure true else anyEqual subject (1 :: place) rest

/-- Whether one of the values equals the subject in a cell. -/
def matchesCase (slot : Nat) (values : List Compiled) : Eval Bool := do
  let c ← cell slot
  anyEqual s (c.value?.getD .null) [] values

/-- Evaluates to the form of a slot's kind. -/
def cellOf (kind : SlotKind) (e : Compiled) : Eval Cell :=
  match kind with
  | .int => Cell.ofInt <$> e.int s []
  | .float => Cell.ofFloat <$> e.float s []
  | .bool => Cell.ofBool <$> e.bool s []
  | .string => Cell.str <$> e.str s []
  | _ => Cell.value <$> e.value s []

/-- A bound of a range: an integer, or a number that is one. -/
def boundOf (v : Value) : Except Failure Int64 :=
  match v with
  | .int i => .ok i
  | .float f =>
    if f == (if f < 0 then f.ceil else f.floor) && -9223372036854775808.0 ≤ f && f <
        9223372036854775808.0 then
      .ok f.toInt64
    else
      .error (.fault ((Failure.argument .invalidRange
        "invalid range: bound is not an integer").detail "bound" (Number.text f)))
  | v => .error (Failure.cast Kind.int.name v.kind.name)

def bound (place : List Nat) (default : Int64) : Option Compiled → Eval Int64
  | none => pure default
  | some e => do
    let v ← e.value s place
    ofExcept (boundOf v)

/-- The bounds and step of a range, checked: the step is positive and the length no overflow. -/
def range (start stop step : Option Compiled) : Eval (Int64 × Int64 × Int64) := do
  let start ← bound s [0] 0 start
  let stop ← bound s [1] 0 stop
  let step ← bound s [2] 1 step
  if step ≤ 0 then fail (Failure.invalidRange start stop step "step must be positive")
  else if start < stop && stop - start < 0 then
    fail (Failure.invalidRange start stop step "range length overflows")
  else return (start, stop, step)

/-- The list a loop runs over and its length; null has no items. -/
def items (e : Compiled) : Eval (Value × Nat) := do
  match ← e.value s [0] with
  | .list self items => return (.list self items, items.length)
  | v =>
    if v.isNullish then return (← newList [] [], 0)
    else fail (Failure.cast Kind.list.name v.kind.name)

/-! ## Calls -/

/-- The variant a call asks for; none and null stand for no variant. -/
def variant : Option Compiled → Eval String
  | none => pure ""
  | some e => do
    let v ← e.value s [0]
    if v.isNullish then pure "" else text v

/-- The template a call goes to; none if it goes nowhere. -/
def callee (registry : Registry) (site : CallSite) : Eval (Option Program) := do
  match site.callee with
  | .template =>
    let p ← ofExcept (registry.template site.name)
    return some p
  | .delegate e allowEmpty =>
    let variant ← variant s e
    ofExcept (registry.select (← read).context site.name variant allowEmpty)

/-- The data a call hands over besides its arguments; `data` is what its caller was given. -/
def passed (data : List (String × Value)) : Passed → Eval (List (String × Value))
  | .none => pure []
  | .all => pure data
  | .record e => do
    match ← e.value s [1] with
    | .record _ fields => pure fields
    | v => if v.isNullish then pure [] else fail (Failure.cast Kind.record.name v.kind.name)

/-- The content a call finds in a cell. -/
def content (slot : Nat) : Eval Value := do
  match ← cell slot with
  | .value v => pure v
  | _ => throw .broken

/-- Adds the arguments of a call to its data. A later argument of a name replaces an earlier one. -/
def arguments (place : List Nat) (params : List (String × Value)) : List Argument →
    Eval (List (String × Value))
  | [] => pure params
  | .content name slot :: rest => do
    let v ← content slot
    arguments (1 :: place) ((name, v) :: params) rest
  | .forward name param :: rest => do
    match (← read).params.lookup param with
    | some v => arguments (1 :: place) ((name, v) :: params) rest
    | none => arguments (1 :: place) params rest
  | .value name e :: rest => do
    let v ← e.value s (0 :: place)
    arguments (1 :: place) ((name, v) :: params) rest

/-- What a call is about to do: the program it calls, the params it hands over, and the arguments of
its filters. -/
structure Dispatch where
  program : Program
  params : List (String × Value)
  args : List (List Value)

/-- Evaluates all a call needs; none if it goes nowhere. -/
def dispatch (registry : Registry) (data : List (String × Value)) (site : CallSite)
    (filters : List FilterCall) :
    Eval (Option Dispatch) := do
  match ← callee s registry site with
  | none => return none
  | some program =>
    let given ← passed s data site.passed
    let params ← arguments s [2] given site.args
    let args ← filterArgs s [3] filters
    return some { program, params, args }

end Eval

end Interlude
