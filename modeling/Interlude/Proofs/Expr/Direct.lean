import Mathlib.Data.List.Forall2
import Interlude.Proofs.Eval.Meaning
import Interlude.Proofs.Term.Lower
/-!
# Expressions evaluated directly

An expression can be evaluated as it stands, without code, cells or forms: every part gives a boxed
value, and an operator asks its operands for what the static types say. Locals are read by name. The
code of an expression, for either analyzer and in whatever form it is asked for, means exactly this
(`Expr.compile_means`).
-/

namespace Interlude

/-- How names are read: a local as a value, a for-each variable as its index and length. `check` may
look at the value of every part, with the type by which operators choose. -/
structure Reading where
  var : String → Eval Value
  loop : String → Eval (Int64 × Int64)
  check : StaticType → Value → Eval Value := fun _ v => pure v

namespace Direct

/-! ## What operators ask of an operand -/

def int (x : Eval Value) : Eval Int64 := do Eval.ofExcept (← x).toInt64?

def float (x : Eval Value) : Eval Float := do Eval.ofExcept (← x).toFloat?

def bool (x : Eval Value) : Eval Bool := do return (← x).truthy

def text (x : Eval Value) : Eval String := do Eval.text (← x)

/-! ## Operators -/

def unary (op : UnaryOp) (t : StaticType) (x : Eval Value) : Eval Value :=
  match op with
  | .not => do return .bool (!(← bool x))
  | .neg =>
    if t.isInt then do return .int (-(← int x))
    else if t.isFloat then do return .float (-(← float x))
    else do Eval.ofExcept (← x).neg

def arithInt (op : Arith) (x y : Eval Value) : Eval Value := do
  let a ← int x
  let b ← int y
  return .int (← Eval.ofExcept (op.ints a b))

def arithFloat (op : Arith) (x y : Eval Value) : Eval Value := do
  let a ← float x
  let b ← float y
  return .float (op.floats a b)

def arithBoxed (op : Arith) (x y : Eval Value) : Eval Value := do
  let a ← x
  let b ← y
  Eval.arith op a b

def arith (op : Arith) (t u : StaticType) (x y : Eval Value) : Eval Value :=
  let ints := t.isInt && u.isInt
  let numbers := t.isNum && u.isNum
  match op with
  | .div => if numbers then arithFloat .div x y else arithBoxed .div x y
  | .mod => if ints then arithInt .mod x y else arithBoxed .mod x y
  | op =>
    if ints then arithInt op x y
    else if numbers then arithFloat op x y
    else if op == .add && (t.isStr || u.isStr) then do
      let a ← text x
      let b ← text y
      return .str (a ++ b)
    else arithBoxed op x y

def comparison (op : Comparison) (t u : StaticType) (x y : Eval Value) : Eval Value :=
  if t.isInt && u.isInt then do
    let a ← int x
    let b ← int y
    return .bool (op.ints a b)
  else if t.isNum && u.isNum then do
    let a ← float x
    let b ← float y
    return .bool (op.floats a b)
  else if t.isStr && u.isStr then do
    let a ← text x
    let b ← text y
    return .bool (op.texts a b)
  else do
    let a ← x
    let b ← y
    return .bool (← Eval.ofExcept (op.values a b))

def binary (op : BinaryOp) (t u : StaticType) (x y : Eval Value) : Eval Value :=
  match op with
  | .add => arith .add t u x y
  | .sub => arith .sub t u x y
  | .mul => arith .mul t u x y
  | .div => arith .div t u x y
  | .mod => arith .mod t u x y
  | .eq => comparison .eq t u x y
  | .notEq => comparison .notEq t u x y
  | .less => comparison .less t u x y
  | .lessEq => comparison .lessEq t u x y
  | .greater => comparison .greater t u x y
  | .greaterEq => comparison .greaterEq t u x y
  | .and => do if ← bool x then return .bool (← bool y) else return .bool false
  | .or => do if ← bool x then return .bool true else return .bool (← bool y)
  | .coalesce => do
    let a ← x
    if a.isNullish then y else return a

def cond (c x y : Eval Value) : Eval Value := do if ← bool c then x else y

def item (x key : Eval Value) (nullSafe : Bool) : Eval Value := do
  let v ← x
  if v.isNullish then
    if nullSafe then return .null else Eval.fail (Eval.nullDereference "item")
  else
    let k ← key
    Eval.item v k

/-- The functions on loops. -/
def loopHelper (r : Reading) (name : String) : List Expr → Eval Value
  | [.var _ v] => do
    let (index, length) ← r.loop v
    if name == "isFirst" then return .bool (index == 0)
    else if name == "isLast" then return .bool (index == length - 1)
    else return .int index
  | _ => pure .undefined

/-- A function that is none on loops. -/
def call (name : String) (place : List Nat) (args : List Value) : Eval Value :=
  match Function.ofName? name with
  | some f => Eval.call place f args
  | none => pure .undefined

end Direct

namespace Expr

mutual

/-- The value of an expression that stands at a place of its instruction. -/
def eval (r : Reading) (place : List Nat) (e : Expr) : Eval Value :=
  let own : Eval Value := match e with
    | lit _ v _ => pure v
    | param _ name injected => do
      let env ← read
      match (if injected then env.injected else env.params).lookup name with
      | some v => Eval.resolve v
      | none => pure .undefined
    | var _ name => r.var name
    | unary _ op x => Direct.unary op x.operandType (x.eval r place)
    | binary _ op x y =>
      Direct.binary op x.operandType y.operandType (x.eval r (0 :: place)) (y.eval r (1 :: place))
    | cond _ c x y =>
      Direct.cond (c.eval r (0 :: place)) (x.eval r (1 :: place)) (y.eval r (2 :: place))
    | field _ x name nullSafe => do Eval.field (← x.eval r place) name nullSafe
    | item _ x key nullSafe =>
      Direct.item (x.eval r (0 :: place)) (key.eval r (1 :: place)) nullSafe
    | list _ es => do Eval.newList place (← evalAll r (0 :: place) es)
    | map _ es => do
      let entries ← evalEntries r (0 :: place) es
      let merged := entries.foldl (fun acc (k, v) => (Value.setEntry? acc k v).getD acc) []
      return .map (← Eval.origin place) merged
    | record _ fs => do
      let values ← evalFields r (0 :: place) fs
      return Value.recordOf (← Eval.origin place) ((fs.map (·.1)).zip values)
    | call _ name es =>
      if isLoopHelper name then Direct.loopHelper r name es
      else do Direct.call name place (← evalAll r (0 :: place) es)
  own >>= r.check e.operandType

def evalAll (r : Reading) (place : List Nat) : List Expr → Eval (List Value)
  | [] => pure []
  | e :: es => do
    let v ← e.eval r (0 :: place)
    let vs ← evalAll r (1 :: place) es
    return v :: vs

def evalEntries (r : Reading) (place : List Nat) : List (Expr × Expr) → Eval (List (Value × Value))
  | [] => pure []
  | (k, x) :: es => do
    let key ← k.eval r (0 :: place)
    let v ← x.eval r (1 :: place)
    match MapKey.ofValue? key with
    | none => Eval.fail (Failure.cast "primitive map key" key.kind.name)
    | some _ =>
      let vs ← evalEntries r (2 :: place) es
      return (key, v) :: vs

def evalFields (r : Reading) (place : List Nat) : List (String × Expr) → Eval (List Value)
  | [] => pure []
  | (_, e) :: fs => do
    let v ← e.eval r (0 :: place)
    let vs ← evalFields r (1 :: place) fs
    return v :: vs

end

end Expr

/-- Reading locals where the compiler has put them. -/
def Locals.reading (ls : Locals) (force : ThunkId → Eval Value) : Reading where
  var name :=
    match ls.lookup name with
    | some b => b.eval force
    | none => pure .undefined
  loop name :=
    match (ls.lookup name).bind (·.loop) with
    | some (index, length) => do return ((← Eval.cell index).int, (← Eval.cell length).int)
    | none => pure (0, 0)

/-! ## The text of what is held without a box -/

namespace Eval

/-- Taking the text of a value that holds no future leaves memory as it was. -/
theorem text_of_calm {v : Value} (h : v.holdsFuture = false) {s : String}
    (hs : ∀ fs, v.text fs = s) :
    Eval.text v = pure s := by
  funext env m
  rw [text_apply, h, hs]
  simp [touched]
  rfl

@[simp] theorem text_int (i : Int64) : Eval.text (.int i) = pure (toString i.toInt) :=
  text_of_calm rfl fun _ => by simp [Value.text, Value.write]

@[simp] theorem text_float (f : Float) : Eval.text (.float f) = pure (Number.text f) :=
  text_of_calm rfl fun _ => by simp [Value.text, Value.write]

@[simp] theorem text_bool (b : Bool) : Eval.text (.bool b) = pure (if b then "true" else "false") :=
  text_of_calm rfl fun _ => by simp [Value.text, Value.write]

@[simp] theorem text_str (s : String) : Eval.text (.str s) = pure s :=
  text_of_calm rfl fun _ => by simp [Value.text, Value.write]

end Eval

/-! ## Forms -/

attribute [local simp] Term.eval

namespace Lowered

theorem toBoxed_bool (x : Term .bool) : (Lowered.bool x).toBoxed = .boxBool x := rfl

variable (s : Strategy) (x y c : Lowered) (p : List Nat)

theorem eval_toInt : x.toInt.eval s p = Direct.int (x.toBoxed.eval s p) := by
  cases x <;> simp [toInt, toBoxed, Term.eval, Direct.int, Value.toInt64?, Eval.ofExcept]

theorem eval_toFloat : x.toFloat.eval s p = Direct.float (x.toBoxed.eval s p) := by
  cases x <;> simp [toFloat, toBoxed, Term.eval, Direct.float, Value.toFloat?, Eval.ofExcept]

theorem eval_toBool : x.toBool.eval s p = Direct.bool (x.toBoxed.eval s p) := by
  cases x <;> simp [toBool, toBoxed, Term.eval, Direct.bool, Value.truthy]

theorem eval_toStr : x.toStr.eval s p = Direct.text (x.toBoxed.eval s p) := by
  cases x <;> simp [toStr, toBoxed, Term.eval, Direct.text]

/-! ## Operators -/

theorem eval_unary (op : UnaryOp) (t : StaticType) :
    (unary op t x).toBoxed.eval s p = Direct.unary op t (x.toBoxed.eval s p) := by
  cases op with
  | not => simp [unary, Direct.unary, toBoxed, Term.eval, eval_toBool]
  | neg =>
    simp only [unary, Direct.unary]
    split
    · simp [toBoxed, Term.eval, eval_toInt]
    · split
      · simp [toBoxed, Term.eval, eval_toFloat]
      · simp [toBoxed, Term.eval]

theorem eval_arithInt (op : Arith) :
    (Lowered.int (.arithInt op x.toInt y.toInt)).toBoxed.eval s p =
      Direct.arithInt op (x.toBoxed.eval s (0 :: p)) (y.toBoxed.eval s (1 :: p)) := by
  simp [toBoxed, Term.eval, eval_toInt, Direct.arithInt]

theorem eval_arithFloat (op : Arith) :
    (Lowered.float (.arithFloat op x.toFloat y.toFloat)).toBoxed.eval s p =
      Direct.arithFloat op (x.toBoxed.eval s (0 :: p)) (y.toBoxed.eval s (1 :: p)) := by
  simp [toBoxed, Term.eval, eval_toFloat, Direct.arithFloat]

theorem eval_arith (op : Arith) (t u : StaticType) :
    (arith op t u x y).toBoxed.eval s p =
      Direct.arith op t u (x.toBoxed.eval s (0 :: p)) (y.toBoxed.eval s (1 :: p)) := by
  have hboxed (op : Arith) : (Lowered.boxed (.arith op x.toBoxed y.toBoxed)).toBoxed.eval s p =
      Direct.arithBoxed op (x.toBoxed.eval s (0 :: p)) (y.toBoxed.eval s (1 :: p)) := by
    simp [toBoxed, Term.eval, Direct.arithBoxed]
  have htext : (Lowered.str (.concat x.toStr y.toStr)).toBoxed.eval s p = (do
      let a ← Direct.text (x.toBoxed.eval s (0 :: p))
      let b ← Direct.text (y.toBoxed.eval s (1 :: p))
      return .str (a ++ b)) := by
    simp [toBoxed, Term.eval, eval_toStr]
  cases op <;> simp only [arith, Direct.arith]
  case div =>
    split
    · exact eval_arithFloat s x y p _
    · exact hboxed _
  case mod =>
    split
    · exact eval_arithInt s x y p _
    · exact hboxed _
  all_goals
    split
    · exact eval_arithInt s x y p _
    · split
      · exact eval_arithFloat s x y p _
      · split
        · exact htext
        · exact hboxed _

theorem eval_comparison (op : Comparison) (t u : StaticType) :
    (comparison op t u x y).toBoxed.eval s p =
      Direct.comparison op t u (x.toBoxed.eval s (0 :: p)) (y.toBoxed.eval s (1 :: p)) := by
  simp only [comparison, Direct.comparison]
  split
  · simp [toBoxed, Term.eval, eval_toInt]
  · split
    · simp [toBoxed, Term.eval, eval_toFloat]
    · split
      · simp [toBoxed, Term.eval, eval_toStr]
      · simp [toBoxed, Term.eval]

theorem eval_binary (op : BinaryOp) (t u : StaticType) :
    (binary op t u x y).toBoxed.eval s p =
      Direct.binary op t u (x.toBoxed.eval s (0 :: p)) (y.toBoxed.eval s (1 :: p)) := by
  cases op with
  | add => exact eval_arith s x y p .add t u
  | sub => exact eval_arith s x y p .sub t u
  | mul => exact eval_arith s x y p .mul t u
  | div => exact eval_arith s x y p .div t u
  | mod => exact eval_arith s x y p .mod t u
  | eq => exact eval_comparison s x y p .eq t u
  | notEq => exact eval_comparison s x y p .notEq t u
  | less => exact eval_comparison s x y p .less t u
  | lessEq => exact eval_comparison s x y p .lessEq t u
  | greater => exact eval_comparison s x y p .greater t u
  | greaterEq => exact eval_comparison s x y p .greaterEq t u
  | and =>
    simp only [binary, Direct.binary, toBoxed_bool, Term.eval, eval_toBool, bind_assoc]
    refine bind_congr fun a => ?_
    cases a <;> simp
  | or =>
    simp only [binary, Direct.binary, toBoxed_bool, Term.eval, eval_toBool, bind_assoc]
    refine bind_congr fun a => ?_
    cases a <;> simp
  | coalesce => rfl

theorem eval_cond : (cond c x y).toBoxed.eval s p =
    Direct.cond (c.toBoxed.eval s (0 :: p)) (x.toBoxed.eval s (1 :: p))
      (y.toBoxed.eval s (2 :: p)) := by
  have hboxed (a b : Term .boxed) : (Lowered.boxed (.cond c.toBool a b)).toBoxed.eval s p =
      Direct.cond (c.toBoxed.eval s (0 :: p)) (a.eval s (1 :: p)) (b.eval s (2 :: p)) := by
    simp [toBoxed, Term.eval, eval_toBool, Direct.cond]
  cases x <;> cases y <;> try exact hboxed _ _
  case int.int a b =>
    simp only [cond, toBoxed, Term.eval, eval_toBool, Direct.cond, bind_assoc]
    -- a box around two branches is the same as a box in each of them
    exact bind_congr fun b => by cases b <;> rfl
  case str.str a b =>
    simp only [cond, toBoxed, Term.eval, eval_toBool, Direct.cond, bind_assoc]
    exact bind_congr fun b => by cases b <;> rfl

theorem eval_ofBinding (force : ThunkId → Eval Value) (b : Binding) :
    (ofBinding b).toBoxed.eval (.plain force) p = b.eval force := by
  obtain ⟨slot, kind, loop⟩ := b
  cases loop with
  | some il => rfl
  | none => cases kind <;> simp [ofBinding, toBoxed, Term.eval, Binding.eval, Strategy.plain]

theorem eval_ofLiteral (v : Value) (plain : v.holdsFuture = false) :
    (ofLiteral v plain).toBoxed.eval s p = pure v := by
  cases v <;> simp [ofLiteral, toBoxed, Term.eval]

end Lowered

namespace Expr

/-! ## Terms in a row -/

section

variable {r : Reading} {st : Strategy}

theorem eval_valueList {xs : List (Term .boxed)} {es : List Expr}
    (h : List.Forall₂ (fun (x : Term .boxed) e => ∀ p, x.eval st p = e.eval r p) xs es)
    (p : List Nat) :
    (valueList xs).eval st p = evalAll r p es := by
  induction h generalizing p with
  | nil => rfl
  | cons hx _ ih =>
    simp only [valueList, List.foldr_cons, Term.eval, evalAll, hx]
    simp only [valueList] at ih
    simp only [ih]

theorem eval_pairEntries {ks vs : List (Term .boxed)} {es : List (Expr × Expr)}
    (hk : List.Forall₂ (fun (x : Term .boxed) e => ∀ p, x.eval st p = e.eval r p) ks (es.map (·.1)))
    (hv : List.Forall₂ (fun (x : Term .boxed) e => ∀ p, x.eval st p = e.eval r p) vs (es.map (·.2)))
    (p : List Nat) :
    (pairEntries ks vs).eval st p = evalEntries r p es := by
  induction es generalizing p ks vs with
  | nil =>
    cases hk
    rfl
  | cons e rest ih =>
    obtain ⟨key, x⟩ := e
    cases hk with
    | cons hkx hk =>
      cases hv with
      | cons hvx hv =>
        refine Eq.trans ?_ (evalEntries.eq_2 r p key x rest).symm
        rw [pairEntries, Term.eval, hkx]
        refine bind_congr fun key => ?_
        rw [hvx]
        refine bind_congr fun v => ?_
        cases MapKey.ofValue? key with
        | none => rfl
        | some _ => simp only [ih hk hv]

theorem evalAll_fields (fs : List (String × Expr)) (p : List Nat) :
    evalAll r p (fs.map (·.2)) = evalFields r p fs := by
  induction fs generalizing p with
  | nil => rfl
  | cons f rest ih => simp only [List.map_cons, evalAll, evalFields, ih]

end

/-! ## Lowering -/

/-- The code of a function on a loop reads the loop. -/
theorem loopHelper_means {s : Scope} (force : ThunkId → Eval Value) {name : String} {es : List Expr}
    {x : Lowered} (h : loopHelper s name es = .ok x) (p : List Nat) :
    x.toBoxed.eval (.plain force) p = Direct.loopHelper (s.locals.reading force) name es := by
  unfold loopHelper at h
  split at h
  · next t v =>
    split at h
    · next index length hloop =>
      simp only [Direct.loopHelper, Locals.reading, hloop]
      split at h
      · next hname =>
        cases h
        simp [Lowered.toBoxed, Term.eval, hname]
        rfl
      · next hfirst =>
        split at h
        · next hname =>
          cases h
          simp [Lowered.toBoxed, Term.eval, hname, hfirst]
        · next hlast =>
          cases h
          simp [Lowered.toBoxed, Term.eval, hfirst, hlast]
          rfl
    · cases h
  · cases h
  · cases h

/-- Keeping a result does not change what a term means. -/
theorem keepIf_means (force : ThunkId → Eval Value) {needed : Bool} {act : Lowering Lowered}
    {n n' : Nat} {x : Lowered} (h : keepIf needed act n = .ok (x, n')) :
    ∃ y m, act n = .ok (y, m) ∧
    ∀ p, x.toBoxed.eval (.plain force) p = y.toBoxed.eval (.plain force) p := by
  obtain ⟨y, m, hy, h⟩ := StateT.bind_ok h
  refine ⟨y, m, hy, ?_⟩
  cases needed with
  | true =>
    cases h
    exact fun _ => rfl
  | false =>
    cases h
    exact fun _ => rfl

theorem reading_check (ls : Locals) (force : ThunkId → Eval Value) (t : StaticType)
    (x : Eval Value) :
    x >>= (ls.reading force).check t = x :=
  bind_pure x

section

variable {s : Scope} {force : ThunkId → Eval Value}

mutual

/-- The code of an expression means what the expression comes to when it is evaluated directly. -/
theorem lower_means (e : Expr) {under : Bool} {n n' : Nat} {x : Lowered}
    (h : e.lower s under n = .ok (x, n')) (p : List Nat) :
    x.toBoxed.eval (.plain force) p = e.eval (s.locals.reading force) p := by
  unfold lower at h
  obtain ⟨y, m, hy, heq⟩ := keepIf_means force h
  rw [heq, eval.eq_def, reading_check]
  generalize s.may e = may at hy
  match e with
  | lit _ v plain =>
    cases hy
    exact Lowered.eval_ofLiteral _ p v plain
  | param _ name injected =>
    cases hy
    rfl
  | var _ name =>
    simp only [Locals.reading]
    cases hb : s.locals.lookup name with
    | none =>
      simp only [hb] at hy
      cases hy
    | some b =>
      simp only [hb] at hy
      cases hy
      exact Lowered.eval_ofBinding p force b
  | unary _ op a =>
    obtain ⟨c, k, hc, hy⟩ := StateT.bind_ok hy
    cases hy
    rw [Lowered.eval_unary, lower_means a hc]
  | binary _ op a b =>
    obtain ⟨c, k, hc, hy⟩ := StateT.bind_ok hy
    obtain ⟨d, l, hd, hy⟩ := StateT.bind_ok hy
    cases hy
    rw [Lowered.eval_binary, lower_means a hc, lower_means b hd]
  | cond _ c a b =>
    obtain ⟨x₀, k₀, h₀, hy⟩ := StateT.bind_ok hy
    obtain ⟨x₁, k₁, h₁, hy⟩ := StateT.bind_ok hy
    obtain ⟨x₂, k₂, h₂, hy⟩ := StateT.bind_ok hy
    cases hy
    rw [Lowered.eval_cond, lower_means c h₀, lower_means a h₁, lower_means b h₂]
  | field _ a name nullSafe =>
    obtain ⟨c, k, hc, hy⟩ := StateT.bind_ok hy
    cases hy
    dsimp only
    rw [← lower_means a hc]
    rfl
  | item _ a key nullSafe =>
    obtain ⟨c, k, hc, hy⟩ := StateT.bind_ok hy
    obtain ⟨d, l, hd, hy⟩ := StateT.bind_ok hy
    cases hy
    dsimp only
    rw [← lower_means a hc, ← lower_means key hd]
    rfl
  | list _ es =>
    obtain ⟨xs, k, hxs, hy⟩ := StateT.bind_ok hy
    cases hy
    dsimp only
    rw [← eval_valueList (lowerAll_means es hxs)]
    rfl
  | map _ es =>
    obtain ⟨ks, k, hks, hy⟩ := StateT.bind_ok hy
    obtain ⟨vs, l, hvs, hy⟩ := StateT.bind_ok hy
    cases hy
    dsimp only
    rw [← eval_pairEntries (lowerKeys_means es hks) (lowerValues_means es hvs)]
    rfl
  | record _ fs =>
    obtain ⟨xs, k, hxs, hy⟩ := StateT.bind_ok hy
    cases hy
    dsimp only
    rw [← evalAll_fields, ← eval_valueList (lowerFields_means fs hxs)]
    rfl
  | call _ name es =>
    by_cases hname : isLoopHelper name = true
    · simp only [hname, if_true] at hy ⊢
      exact loopHelper_means force (lift_ok hy).1 p
    · simp only [hname, if_false, Bool.false_eq_true] at hy ⊢
      obtain ⟨f, k, hk, hcall⟩ := StateT.bind_ok hy
      obtain ⟨xs, l, hxs, hend⟩ := StateT.bind_ok hcall
      cases hend
      rw [← eval_valueList (lowerAll_means es hxs)]
      have hf : Function.ofName? name = some f := by
        have := (lift_ok hk).1
        unfold function at this
        split at this
        · cases this
        · next g hg =>
          split at this
          · cases this
            exact hg
          · cases this
      simp only [Direct.call, hf]
      rfl

theorem lowerAll_means (es : List Expr) {under : Bool} {n n' : Nat} {xs : List (Term .boxed)}
    (h : lowerAll s under es n = .ok (xs, n')) :
    List.Forall₂ (fun (x : Term .boxed) e =>
      ∀ p, x.eval (.plain force) p = e.eval (s.locals.reading force) p) xs es := by
  match es with
  | [] =>
    cases h
    exact .nil
  | e :: rest =>
    obtain ⟨x, k, hx, h⟩ := StateT.bind_ok h
    obtain ⟨ys, l, hys, h⟩ := StateT.bind_ok h
    cases h
    exact .cons (lower_means e hx) (lowerAll_means rest hys)

theorem lowerKeys_means (es : List (Expr × Expr)) {under : Bool} {n n' : Nat}
    {xs : List (Term .boxed)} (h : lowerKeys s under es n = .ok (xs, n')) :
    List.Forall₂ (fun (x : Term .boxed) e =>
      ∀ p, x.eval (.plain force) p = e.eval (s.locals.reading force) p) xs (es.map (·.1)) := by
  match es with
  | [] =>
    cases h
    exact .nil
  | (e, _) :: rest =>
    obtain ⟨x, k, hx, h⟩ := StateT.bind_ok h
    obtain ⟨ys, l, hys, h⟩ := StateT.bind_ok h
    cases h
    exact .cons (lower_means e hx) (lowerKeys_means rest hys)

theorem lowerValues_means (es : List (Expr × Expr)) {under : Bool} {n n' : Nat}
    {xs : List (Term .boxed)} (h : lowerValues s under es n = .ok (xs, n')) :
    List.Forall₂ (fun (x : Term .boxed) e =>
      ∀ p, x.eval (.plain force) p = e.eval (s.locals.reading force) p) xs (es.map (·.2)) := by
  match es with
  | [] =>
    cases h
    exact .nil
  | (_, e) :: rest =>
    obtain ⟨x, k, hx, h⟩ := StateT.bind_ok h
    obtain ⟨ys, l, hys, h⟩ := StateT.bind_ok h
    cases h
    exact .cons (lower_means e hx) (lowerValues_means rest hys)

theorem lowerFields_means (fs : List (String × Expr)) {under : Bool} {n n' : Nat}
    {xs : List (Term .boxed)} (h : lowerFields s under fs n = .ok (xs, n')) :
    List.Forall₂ (fun (x : Term .boxed) e =>
      ∀ p, x.eval (.plain force) p = e.eval (s.locals.reading force) p) xs (fs.map (·.2)) := by
  match fs with
  | [] =>
    cases h
    exact .nil
  | (_, e) :: rest =>
    obtain ⟨x, k, hx, h⟩ := StateT.bind_ok h
    obtain ⟨ys, l, hys, h⟩ := StateT.bind_ok h
    cases h
    exact .cons (lower_means e hx) (lowerFields_means rest hys)

end

end

end Expr

/-! ## Compiled expressions -/

/-- A compiled expression means what a direct evaluation comes to. -/
def Compiled.Means (c : Compiled) (force : ThunkId → Eval Value)
    (d : List Nat → Eval Value) : Prop :=
  ∀ p, c.value (.plain force) p = d p

theorem Expr.compile_means {s : Expr.Scope} {slots slots' : Slots} {e : Expr} {c : Compiled}
    (h : e.compile s slots = .ok (c, slots')) (force : ThunkId → Eval Value) :
    c.Means force (e.eval (s.locals.reading force)) := by
  unfold Expr.compile at h
  simp only at h
  split at h
  all_goals
    obtain ⟨r, hr, h⟩ := Except.bind_ok h
    cases h
    exact Expr.lower_means e hr

end Interlude
