import Interlude.Proofs.Eval.Alike
import Interlude.Proofs.Registry
/-!
# What statements evaluate

The expressions of a statement evaluated as they stand: what a print writes, what a test comes to,
over what a loop runs, and what a call hands over. Locals are read by name. The operands of
instructions come to the same end, if the code of each of their expressions does (`dispatch_alike`).
-/

namespace Interlude

namespace Direct

/-- The filters of directives with their arguments. -/
def chain (r : Reading) (place : List Nat) : List Directive → Eval (List (Filter × List Value))
  | [] => pure []
  | d :: ds => do
    let filter ← Eval.ofExcept (Filter.resolve d.name d.args.length)
    let args ← Expr.evalAll r (0 :: place) d.args
    let later ← chain r (1 :: place) ds
    return (filter, args) :: later

/-- Applies filters with their arguments to a value. -/
def filtered (chain : List (Filter × List Value)) (v : Value) : Eval Value := do
  if Filter.takeText chain then Eval.blur v
  Eval.ofExcept (Filter.applyAll (← get).heap.futures chain v)

/-- The text that a print writes. -/
def printed (r : Reading) (e : Expr) (ds : List Directive) : Eval String :=
  match ds with
  | [] => text (e.eval r [])
  | ds => do
    let v ← e.eval r [0]
    let chain ← chain r [1] ds
    let v ← filtered chain v
    Eval.text v

/-- Whether one of the values equals the subject; values after the first that does are not
evaluated. -/
def anyEqual (r : Reading) (subject : Value) (place : List Nat) : List Expr → Eval Bool
  | [] => pure false
  | e :: rest => do
    let v ← e.eval r (0 :: place)
    if subject.equal v then pure true else anyEqual r subject (1 :: place) rest

/-- A value in the form of a slot's kind. A number goes through its sixty-four bits. -/
def converted (kind : SlotKind) (x : Eval Value) : Eval Value :=
  match kind with
  | .int => Value.int <$> int x
  | .float => (fun f => Value.float (Cell.ofFloat f).float) <$> float x
  | .bool => Value.bool <$> bool x
  | .string => Value.str <$> text x
  | _ => x

def bound (r : Reading) (place : List Nat) (default : Int64) : Option Expr → Eval Int64
  | none => pure default
  | some e => do
    let v ← e.eval r place
    Eval.ofExcept (Eval.boundOf v)

/-- The bounds and step of a range, checked: the step is positive and the length no overflow. -/
def range (r : Reading) (start : Option Expr) (stop : Expr) (step : Option Expr) :
    Eval (Int64 × Int64 × Int64) := do
  let start ← bound r [0] 0 start
  let stop ← bound r [1] 0 (some stop)
  let step ← bound r [2] 1 step
  if step ≤ 0 then Eval.fail (Failure.invalidRange start stop step "step must be positive")
  else if start < stop && stop - start < 0 then
    Eval.fail (Failure.invalidRange start stop step "range length overflows")
  else return (start, stop, step)

/-- The items a loop runs over; null has none. -/
def items (r : Reading) (e : Expr) : Eval (List Value) := do
  match ← e.eval r [0] with
  | .list _ items => return items
  | v => if v.isNullish then return [] else Eval.fail (Failure.cast Kind.list.name v.kind.name)

/-! ## Calls -/

/-- The variant a call asks for; none and null stand for no variant. -/
def variant (r : Reading) : Option Expr → Eval String
  | none => pure ""
  | some e => do
    let v ← e.eval r [0]
    if v.isNullish then pure "" else Eval.text v

/-- The template a call goes to; none if it goes nowhere. -/
def callee (ts : Directory Template) (r : Reading) (name : String) : CallTarget →
    Eval (Option Template)
  | .template => do
    let t ← Eval.ofExcept (ts.template name)
    return some t
  | .delegate e allowEmpty => do
    let variant ← variant r e
    Eval.ofExcept (ts.select (← read).context name variant allowEmpty)

/-- The data a call hands over besides its arguments; `data` is what its caller was given. -/
def passed (r : Reading) (data : List (String × Value)) : CallData → Eval (List (String × Value))
  | .none => pure []
  | .all => pure data
  | .expr e => do
    match ← e.eval r [1] with
    | .record _ fields => pure fields
    | v => if v.isNullish then pure [] else Eval.fail (Failure.cast Kind.record.name v.kind.name)

/-- Adds the arguments of a call to its data, given what its content params were rendered to. A
param of the caller is passed on without being read. -/
def arguments {Body : Type} (r : Reading) (place : List Nat) (params : List (String × Value)) :
    List (CallParam Body) → List (Option Value) → Eval (List (String × Value))
  | .content name _ _ :: rest, content :: contents =>
    arguments r (1 :: place) ((name, content.getD .undefined) :: params) rest contents
  | .value name (.param _ param false) :: rest, _ :: contents => do
    match (← read).params.lookup param with
    | some v => arguments r (1 :: place) ((name, v) :: params) rest contents
    | none => arguments r (1 :: place) params rest contents
  | .value name e :: rest, _ :: contents => do
    let v ← e.eval r (0 :: place)
    arguments r (1 :: place) ((name, v) :: params) rest contents
  | _, _ => pure params

/-- What a call is about to do: the template it calls, the params it hands over, and its filters. -/
structure Handover where
  template : Template
  params : List (String × Value)
  chain : List (Filter × List Value)

/-- Evaluates all a call needs; none if it goes nowhere. -/
def dispatch {Body : Type} (ts : Directory Template) (r : Reading) (data : List (String × Value))
    (name : String) (target : CallTarget) (passes : CallData) (params : List (CallParam Body))
    (contents : List (Option Value)) (ds : List Directive) : Eval (Option Handover) := do
  match ← callee ts r name target with
  | none => return none
  | some template =>
    let given ← passed r data passes
    let params ← arguments r [2] given params contents
    let chain ← chain r [3] ds
    return some { template, params, chain }

end Direct

/-! ## Code that comes to the same -/

/-- The code of an expression comes to the same end as a direct evaluation. -/
def Compiled.Comes (c : Compiled) (P : Pairing) (force : ThunkId → Eval Value)
    (d : List Nat → Eval Value) : Prop :=
  ∀ p, P.Alike Value (c.value (.plain force) p) (d p)

namespace Compiled.Comes

variable {P : Pairing} {force : ThunkId → Eval Value} {c : Compiled} {d : List Nat → Eval Value}
  (h : c.Comes P force d) (p : List Nat)

include h

theorem int : P.Alike Int64 (c.int (.plain force) p) (Direct.int (d p)) := by
  have hc : c.int (.plain force) p = Direct.int (c.value (.plain force) p) := Lowered.eval_toInt ..
  rw [hc]
  exact Direct.int_alike (h p)

theorem float : P.Alike Float (c.float (.plain force) p) (Direct.float (d p)) := by
  have hc : c.float (.plain force) p = Direct.float (c.value (.plain force) p) :=
    Lowered.eval_toFloat ..
  rw [hc]
  exact Direct.float_alike (h p)

theorem bool : P.Alike Bool (c.bool (.plain force) p) (Direct.bool (d p)) := by
  have hc : c.bool (.plain force) p = Direct.bool (c.value (.plain force) p) :=
    Lowered.eval_toBool ..
  rw [hc]
  exact Direct.bool_alike (h p)

theorem str : P.Alike String (c.str (.plain force) p) (Direct.text (d p)) := by
  have hc : c.str (.plain force) p = Direct.text (c.value (.plain force) p) := Lowered.eval_toStr ..
  rw [hc]
  exact Direct.text_alike (h p)

end Compiled.Comes

/-- The code of expressions that may be missing. -/
inductive Compiled.OptionComes (P : Pairing) (force : ThunkId → Eval Value) (r : Reading) :
    Option Compiled → Option Expr → Prop
  | none : OptionComes P force r none none
  | some {c : Compiled} {e : Expr} (h : c.Comes P force (e.eval r)) :
    OptionComes P force r (some c) (some e)

/-- The filters of directives, with the code of their arguments. -/
def FilterCall.Comes (P : Pairing) (force : ThunkId → Eval Value) (r : Reading) (f : FilterCall)
    (d : Directive) : Prop :=
  Filter.resolve d.name d.args.length = .ok f.filter ∧
    List.Forall₂ (fun c (e : Expr) => c.Comes P force (e.eval r)) f.args d.args

@[simp] theorem Cell.int_ofInt (i : Int64) : (Cell.ofInt i).int = i := rfl

@[simp] theorem Cell.bool_ofBool (b : Bool) : (Cell.ofBool b).bool = b := by cases b <;> rfl

/-- The value in a cell of a kind. -/
def Cell.held (kind : SlotKind) (c : Cell) : Value :=
  match kind with
  | .int => .int c.int
  | .float => .float c.float
  | .bool => .bool c.bool
  | .string => .str c.text
  | _ => c.value?.getD .undefined

namespace Direct

variable {P : Pairing} {force : ThunkId → Eval Value} {r : Reading}

theorem values_alike {cs : List Compiled} {es : List Expr}
    (h : List.Forall₂ (fun c (e : Expr) => c.Comes P force (e.eval r)) cs es) (p : List Nat) :
    P.Alike (List Value) (Eval.values (.plain force) p cs) (Expr.evalAll r p es) := by
  induction h generalizing p with
  | nil => exact P.compatible.pure _
  | cons hc _ ih => exact (hc _).bind fun _ => (ih _).bind fun _ => P.compatible.pure _

theorem chain_alike {fs : List FilterCall} {ds : List Directive}
    (h : List.Forall₂ (FilterCall.Comes P force r) fs ds) (p : List Nat) :
    P.Alike (List (Filter × List Value)) (Eval.applied fs <$> Eval.filterArgs (.plain force) p fs)
      (chain r p ds) := by
  induction h generalizing p with
  | nil => exact P.compatible.pure _
  | @cons f d fs ds hf _ ih =>
    obtain ⟨hresolve, hargs⟩ := hf
    simp only [Eval.filterArgs, chain, map_bind, hresolve, Eval.ofExcept, pure_bind, map_pure]
    refine (values_alike hargs _).bind fun vs => ?_
    have hlater := ih (1 :: p)
    rw [map_eq_pure_bind] at hlater
    have hsplit : (Eval.filterArgs (.plain force) (1 :: p) fs >>= fun later =>
        (pure (Eval.applied (f :: fs) (vs :: later)) : Eval _)) =
        (Eval.filterArgs (.plain force) (1 :: p) fs >>= fun later =>
            pure (Eval.applied fs later)) >>= fun later =>
          pure ((f.filter, vs) :: later) := by
      rw [bind_assoc]
      rfl
    rw [hsplit]
    exact hlater.bind fun _ => P.compatible.pure _

theorem filterArgs_length {s : Strategy} {fs : List FilterCall} {p : List Nat} {env : Env}
    {m m' : Memory} {args : List (List Value)} (h : Eval.filterArgs s p fs env m = .ok args m') :
    args.length = fs.length := by
  induction fs generalizing p m args with
  | nil => cases h; rfl
  | cons f rest ih =>
    rw [Eval.filterArgs, Eval.bind_apply] at h
    cases hvs : Eval.values s (0 :: p) f.args env m with
    | error e k => rw [hvs] at h; cases h
    | ok vs k =>
      rw [hvs] at h
      simp only at h
      rw [Eval.bind_apply] at h
      cases hlater : Eval.filterArgs s (1 :: p) rest env k with
      | error e l => rw [hlater] at h; cases h
      | ok later l =>
        rw [hlater] at h
        cases h
        rw [List.length_cons, List.length_cons, ih hlater]

theorem applied_length {fs : List FilterCall} {args : List (List Value)}
    (h : args.length = fs.length) :
    (Eval.applied fs args).length = fs.length := by
  rw [Eval.applied, List.length_zip, List.length_map, h, Nat.min_self]

theorem filtered_applied (fs : List FilterCall) (args : List (List Value)) (v : Value) :
    Eval.filtered fs args v = filtered (Eval.applied fs args) v := rfl

theorem filtered_alike (chain : List (Filter × List Value)) (v : Value) :
    P.Alike Value (filtered chain v) (filtered chain v) := by
  have hchain : Eval.applied (chain.map fun f => ⟨f.1, []⟩) (chain.map (·.2)) = chain := by
    have hzip := List.zip_unzip chain
    rw [List.unzip_eq_map] at hzip
    unfold Eval.applied
    rw [List.map_map]
    exact hzip
  rw [← hchain, ← filtered_applied]
  exact P.compatible.filtered _ _ v

theorem printed_alike {c : Compiled} {e : Expr} {fs : List FilterCall} {ds : List Directive}
    (hc : c.Comes P force (e.eval r)) (h : List.Forall₂ (FilterCall.Comes P force r) fs ds) :
    P.Alike String (Eval.printed (.plain force) c fs) (printed r e ds) := by
  cases h with
  | nil => exact hc.str _
  | @cons f d fs ds hf hrest =>
    have hchain := chain_alike (.cons hf hrest) [1]
    rw [map_eq_pure_bind] at hchain
    refine (hc _).bind fun v => ?_
    have hsplit : (Eval.filterArgs (.plain force) [1] (f :: fs) >>= fun args =>
        Eval.filtered (f :: fs) args v >>= Eval.text) =
        (Eval.filterArgs (.plain force) [1] (f :: fs) >>= fun args =>
            pure (Eval.applied (f :: fs) args)) >>= fun chain =>
          filtered chain v >>= Eval.text := by
      rw [bind_assoc]
      rfl
    rw [hsplit]
    exact hchain.bind fun chain => (filtered_alike chain v).bind fun w => P.compatible.text w

theorem anyEqual_alike {cs : List Compiled} {es : List Expr}
    (h : List.Forall₂ (fun c (e : Expr) => c.Comes P force (e.eval r)) cs es) (subject : Value)
    (p : List Nat) :
    P.Alike Bool (Eval.anyEqual (.plain force) subject p cs) (anyEqual r subject p es) := by
  induction h generalizing p with
  | nil => exact P.compatible.pure _
  | cons hc _ ih =>
    refine (hc _).bind fun v => ?_
    split
    · exact P.compatible.pure _
    · exact ih _

/-- What a cell is made to hold is the value in the form of the slot's kind. -/
theorem cellOf_alike {c : Compiled} {d : List Nat → Eval Value} (hc : c.Comes P force d)
    (kind : SlotKind) :
    P.Alike Value (Cell.held kind <$> Eval.cellOf (.plain force) kind c)
      (converted kind (d [])) := by
  cases kind with
  | int =>
    simp only [Eval.cellOf, converted, Functor.map_map, Cell.held, Cell.int_ofInt]
    exact .map _ (hc.int [])
  | float =>
    simp only [Eval.cellOf, converted, Functor.map_map, Cell.held]
    exact .map _ (hc.float [])
  | bool =>
    simp only [Eval.cellOf, converted, Functor.map_map, Cell.held, Cell.bool_ofBool]
    exact .map _ (hc.bool [])
  | string =>
    simp only [Eval.cellOf, converted, Functor.map_map, Cell.held, Cell.text]
    exact .map _ (hc.str [])
  | _ =>
    simp only [Eval.cellOf, converted, Functor.map_map, Cell.held, Cell.value?,
      Option.getD_some, id_map']
    exact hc []

theorem bound_alike {c : Option Compiled} {e : Option Expr} (h : Compiled.OptionComes P force r c e)
    (p : List Nat) (default : Int64) :
    P.Alike Int64 (Eval.bound (.plain force) p default c) (bound r p default e) := by
  cases h with
  | none => exact P.compatible.pure _
  | some h => exact (h _).bind fun _ => P.congruence.ofExcept _

theorem range_alike {start step : Option Compiled} {stop : Compiled} {a c : Option Expr} {b : Expr}
    (hstart : Compiled.OptionComes P force r start a) (hstop : stop.Comes P force (b.eval r))
    (hstep : Compiled.OptionComes P force r step c) :
    P.Alike (Int64 × Int64 × Int64) (Eval.range (.plain force) start (some stop) step)
      (range r a b c) := by
  refine (bound_alike hstart _ _).bind fun x => (bound_alike (.some hstop) _ _).bind fun y =>
    (bound_alike hstep _ _).bind fun z => ?_
  split
  · exact P.compatible.fail _
  · split
    · exact P.compatible.fail _
    · exact P.compatible.pure _

/-- The items of a list; nothing else has any. -/
def listItems : Value → List Value
  | .list _ items => items
  | _ => []

/-- The list a loop runs over, with its length. -/
theorem items_alike {c : Compiled} {e : Expr} (hc : c.Comes P force (e.eval r)) :
    P.Alike (List Value × Nat) ((fun x => (listItems x.1, x.2)) <$> Eval.items (.plain force) c)
      ((fun xs => (xs, xs.length)) <$> items r e) := by
  simp only [Eval.items, items, map_bind]
  refine (hc _).bind fun v => ?_
  cases v with
  | list self xs => exact P.compatible.pure _
  | null | undefined => exact P.compatible.pure _
  | _ => exact P.compatible.fail _

/-! ## Calls -/

theorem variant_alike {c : Option Compiled} {e : Option Expr}
    (h : Compiled.OptionComes P force r c e) :
    P.Alike String (Eval.variant (.plain force) c) (variant r e) := by
  cases h with
  | none => exact P.compatible.pure _
  | some h =>
    refine (h _).bind fun v => ?_
    split
    · exact P.compatible.pure _
    · exact P.compatible.text v

end Direct

/-- Whom a call instruction calls. -/
inductive Callee.Comes (P : Pairing) (force : ThunkId → Eval Value) (r : Reading) : Callee →
    CallTarget → Prop
  | template : Comes P force r .template .template
  | delegate {c : Option Compiled} {e : Option Expr} (h : Compiled.OptionComes P force r c e)
    (allowEmpty : Bool) :
    Comes P force r (.delegate c allowEmpty) (.delegate e allowEmpty)

/-- What a call instruction hands over besides its arguments. -/
inductive Passed.Comes (P : Pairing) (force : ThunkId → Eval Value) (r : Reading) : Passed →
    CallData → Prop
  | none : Comes P force r .none .none
  | all : Comes P force r .all .all
  | record {c : Compiled} {e : Expr} (h : c.Comes P force (e.eval r)) :
    Comes P force r (.record c) (.expr e)

/-- The arguments of a call instruction, with the contents that were rendered before. -/
inductive Argument.Come {Body : Type} (P : Pairing) (force : ThunkId → Eval Value) (r : Reading) :
    List Argument → List (CallParam Body) → List (Option Value) → Prop
  | nil : Come P force r [] [] []
  | content {name : String} {kind : ContentKind} {body : Body} {slot : Nat} {v : Value}
      {args : List Argument} {params : List (CallParam Body)} {contents : List (Option Value)}
      (hv : P.left.read slot = .value v)
      (h : Come P force r args params contents) :
    Come P force r (.content name slot :: args) (.content name kind body :: params)
      (some v :: contents)
  | forward {name param : String} {t : StaticType} {content : Option Value} {args : List Argument}
      {params : List (CallParam Body)} {contents : List (Option Value)}
      (h : Come P force r args params contents) :
    Come P force r (.forward name param :: args) (.value name (.param t param false) :: params)
      (content :: contents)
  | value {name : String} {c : Compiled} {e : Expr} {content : Option Value} {args : List Argument}
      {params : List (CallParam Body)} {contents : List (Option Value)}
      (hc : c.Comes P force (e.eval r))
      (he : ∀ t param, e ≠ .param t param false) (h : Come P force r args params contents) :
    Come P force r (.value name c :: args) (.value name e :: params) (content :: contents)

namespace Direct

variable {P : Pairing} {force : ThunkId → Eval Value} {r : Reading} {ts : Directory Template}
  {reg : Registry}
  {f : Template → Program}

theorem ofExcept_alike {α β : Type} (g : α → β) (x : Except Failure α) :
    P.Alike β (Eval.ofExcept (x.map g)) (g <$> Eval.ofExcept x) := by
  cases x with
  | ok a => exact P.compatible.pure _
  | error e => exact P.compatible.fail e

theorem callee_alike (hm : Directory.Maps f ts reg.directory) {site : CallSite}
    {target : CallTarget} (h : site.callee.Comes P force r target) :
    P.Alike (Option Program) (Eval.callee (.plain force) reg site)
      (Option.map f <$> callee ts r site.name target) := by
  unfold Eval.callee callee
  generalize site.callee = whom at h
  cases h with
  | template =>
    simp only [map_bind, map_pure, Registry.template, hm.template]
    have hfind := ofExcept_alike (P := P) f (ts.template site.name)
    rw [map_eq_pure_bind] at hfind
    have hsplit : (Eval.ofExcept (ts.template site.name) >>= fun t =>
        (pure (Option.map f (some t)) : Eval _)) =
            (Eval.ofExcept (ts.template site.name) >>= fun t => pure (f t)) >>= fun p =>
                pure (some p) := by
      rw [bind_assoc]
      rfl
    rw [hsplit]
    exact hfind.bind fun _ => P.compatible.pure _
  | delegate h allowEmpty =>
    simp only [map_bind]
    refine (variant_alike h).bind fun v => ?_
    refine P.compatible.bind P.compatible.env fun env => ?_
    rw [Registry.select, hm.select]
    exact ofExcept_alike _ _

theorem passed_alike {what : Passed} {data : CallData} (h : what.Comes P force r data)
    (given : List (String × Value)) :
    P.Alike (List (String × Value)) (Eval.passed (.plain force) given what)
      (passed r given data) := by
  cases h with
  | none => exact P.compatible.pure _
  | all => exact P.compatible.pure _
  | record h =>
    refine (h _).bind fun v => ?_
    cases v with
    | record self fields => exact P.compatible.pure _
    | null | undefined => exact P.compatible.pure _
    | _ => exact P.compatible.fail _

/-- A cell that holds a value. -/
theorem content_alike {α : Type} {slot : Nat} {v : Value} (hv : P.left.read slot = .value v)
    {g : Value → Eval α} {y : Eval α} (h : P.Alike α (g v) y) :
    P.Alike α (Eval.content slot >>= g) y := by
  intro m n hms hmc hns hnc
  have hcell : Eval.cell slot P.env m = .ok (.value v) m := by rw [← hv, ← hmc]; rfl
  have hrun : Eval.content slot P.env m = .ok v m := by
    unfold Eval.content
    rw [Eval.bind_apply, hcell]
    rfl
  rw [Eval.bind_apply, hrun]
  exact h m n hms hmc hns hnc

theorem arguments_value {Body : Type} {e : Expr} (he : ∀ t param, e ≠ .param t param false)
    (p : List Nat) (given : List (String × Value)) (name : String) (params : List (CallParam Body))
    (content : Option Value) (contents : List (Option Value)) :
    arguments r p given (.value name e :: params) (content :: contents) = (do
      let v ← e.eval r (0 :: p)
      arguments r (1 :: p) ((name, v) :: given) params contents) := by
  rw [arguments]
  intro t param h
  exact he t param h

theorem arguments_alike {Body : Type} {args : List Argument} {params : List (CallParam Body)}
    {contents : List (Option Value)} (h : Argument.Come P force r args params contents)
    (p : List Nat) (given : List (String × Value)) :
    P.Alike (List (String × Value)) (Eval.arguments (.plain force) p given args)
      (arguments r p given params contents) := by
  induction h generalizing p given with
  | nil => exact P.compatible.pure _
  | content hv _ ih =>
    rw [Eval.arguments, arguments]
    exact content_alike hv (ih _ _)
  | forward _ ih =>
    rw [Eval.arguments, arguments]
    refine P.compatible.bind P.compatible.env fun env => ?_
    cases env.params.lookup _ with
    | some v => exact ih _ _
    | none => exact ih _ _
  | value hc he _ ih =>
    rw [Eval.arguments, arguments_value he]
    exact (hc _).bind fun v => ih _ _

/-- What a call instruction is about to do. -/
theorem dispatch_alike {Body : Type} (hm : Directory.Maps f ts reg.directory) {site : CallSite}
    {target : CallTarget} {data : CallData} {params : List (CallParam Body)}
    {contents : List (Option Value)} {fs : List FilterCall} {ds : List Directive}
    (hcallee : site.callee.Comes P force r target) (hpassed : site.passed.Comes P force r data)
    (hargs : Argument.Come P force r site.args params contents)
    (hfs : List.Forall₂ (FilterCall.Comes P force r) fs ds) (given : List (String × Value)) :
    P.Alike (Option (Program × List (String × Value) × List (Filter × List Value)))
      (Option.map (fun d => (d.program, d.params, Eval.applied fs d.args)) <$>
        Eval.dispatch (.plain force) reg given site fs)
      (Option.map (fun h => (f h.template, h.params, h.chain)) <$>
        dispatch ts r given site.name target data params contents ds) := by
  have hwhom := callee_alike hm hcallee
  unfold Eval.dispatch dispatch
  simp only [map_bind]
  have hsplit {α : Type} (g : Option Program → Eval α) :
      ((Option.map f <$> callee ts r site.name target) >>= g) = callee ts r site.name target >>=
          fun t => g (t.map f) := by
    rw [bind_map_left]
  have hrun := hwhom.bind (f := fun found =>
      Option.map (fun d => (d.program, d.params, Eval.applied fs d.args)) <$>
          found.elim (return none : Eval (Option Eval.Dispatch)) fun program => do
        let given ← Eval.passed (.plain force) given site.passed
        let params ← Eval.arguments (.plain force) [2] given site.args
        let args ← Eval.filterArgs (.plain force) [3] fs
        return some { program, params, args })
    (g := fun found => found.elim (return none : Eval _) fun program => do
        let given ← passed r given data
        let params ← arguments r [2] given params contents
        let chain ← chain r [3] ds
        return some (program, params, chain)) fun found => ?_
  · rw [hsplit] at hrun
    refine Eq.mp (congrArg₂ (P.Alike _) ?_ ?_) hrun
    · refine bind_congr fun found => ?_
      cases found <;> rfl
    · refine bind_congr fun found => ?_
      cases found with
      | none => rfl
      | some t => simp
  · cases found with
    | none => exact P.compatible.pure _
    | some p =>
      simp only [Option.elim_some, map_bind, map_pure]
      refine (passed_alike hpassed given).bind fun given =>
        (arguments_alike hargs _ given).bind fun params => ?_
      have hchain := chain_alike hfs [3]
      rw [map_eq_pure_bind] at hchain
      have hargs := hchain.bind (f := fun chain => pure (some (p, params, chain)))
        (g := fun chain => pure (some (p, params, chain))) fun _ => P.compatible.pure _
      rw [bind_assoc] at hargs
      exact hargs

end Direct

end Interlude
