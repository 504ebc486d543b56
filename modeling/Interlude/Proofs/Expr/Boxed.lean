import Interlude.Proofs.Eval.Paired
import Interlude.Proofs.Expr.Sound
/-!
# Boxed evaluation

An expression can also be evaluated without a look at its static types: operators then get boxed
values and find out what these are. With types that are all inferred, and names that stand for
values of their types, nothing is gained or lost by looking: the code of an expression, which works
without boxes wherever the types allow it, comes to the same end. And whatever form the result of an
expression is asked for in, it is the boxed result in that form (`Bundle.expr_boxed`).
-/

namespace Interlude

namespace Boxed

def unary (op : UnaryOp) (x : Eval Value) : Eval Value := do
  let v ← x
  match op with
  | .not => return .bool (!v.truthy)
  | .neg => Eval.ofExcept v.neg

def comparison (op : Comparison) (x y : Eval Value) : Eval Value := do
  let a ← x
  let b ← y
  return .bool (← Eval.ofExcept (op.values a b))

def binary (op : BinaryOp) (x y : Eval Value) : Eval Value :=
  match op with
  | .add => Direct.arithBoxed .add x y
  | .sub => Direct.arithBoxed .sub x y
  | .mul => Direct.arithBoxed .mul x y
  | .div => Direct.arithBoxed .div x y
  | .mod => Direct.arithBoxed .mod x y
  | .eq => comparison .eq x y
  | .notEq => comparison .notEq x y
  | .less => comparison .less x y
  | .lessEq => comparison .lessEq x y
  | .greater => comparison .greater x y
  | .greaterEq => comparison .greaterEq x y
  | .and => do if (← x).truthy then return .bool (← y).truthy else return .bool false
  | .or => do if (← x).truthy then return .bool true else return .bool (← y).truthy
  | .coalesce => do
    let a ← x
    if a.isNullish then y else return a

def cond (c x y : Eval Value) : Eval Value := do if (← c).truthy then x else y

end Boxed

namespace Expr

mutual

/-- The value of an expression that stands at a place of its instruction, whatever its static types
are. -/
def boxed (r : Reading) (place : List Nat) : Expr → Eval Value
  | lit _ v _ => pure v
  | param _ name injected => do
    let env ← read
    match (if injected then env.injected else env.params).lookup name with
    | some v => Eval.resolve v
    | none => pure .undefined
  | var _ name => r.var name
  | unary _ op x => Boxed.unary op (x.boxed r place)
  | binary _ op x y => Boxed.binary op (x.boxed r (0 :: place)) (y.boxed r (1 :: place))
  | cond _ c x y =>
    Boxed.cond (c.boxed r (0 :: place)) (x.boxed r (1 :: place)) (y.boxed r (2 :: place))
  | field _ x name nullSafe => do Eval.field (← x.boxed r place) name nullSafe
  | item _ x key nullSafe =>
    Direct.item (x.boxed r (0 :: place)) (key.boxed r (1 :: place)) nullSafe
  | list _ es => do Eval.newList place (← boxedAll r (0 :: place) es)
  | map _ es => do
    let entries ← boxedEntries r (0 :: place) es
    let merged := entries.foldl (fun acc (k, v) => (Value.setEntry? acc k v).getD acc) []
    return .map (← Eval.origin place) merged
  | record _ fs => do
    let values ← boxedFields r (0 :: place) fs
    return Value.recordOf (← Eval.origin place) ((fs.map (·.1)).zip values)
  | call _ name es =>
    if isLoopHelper name then Direct.loopHelper r name es
    else do Direct.call name place (← boxedAll r (0 :: place) es)

def boxedAll (r : Reading) (place : List Nat) : List Expr → Eval (List Value)
  | [] => pure []
  | e :: es => do
    let v ← e.boxed r (0 :: place)
    let vs ← boxedAll r (1 :: place) es
    return v :: vs

def boxedEntries (r : Reading) (place : List Nat) : List (Expr × Expr) → Eval (List (Value × Value))
  | [] => pure []
  | (k, x) :: es => do
    let key ← k.boxed r (0 :: place)
    let v ← x.boxed r (1 :: place)
    match MapKey.ofValue? key with
    | none => Eval.fail (Failure.cast "primitive map key" key.kind.name)
    | some _ =>
      let vs ← boxedEntries r (2 :: place) es
      return (key, v) :: vs

def boxedFields (r : Reading) (place : List Nat) : List (String × Expr) → Eval (List Value)
  | [] => pure []
  | (_, e) :: fs => do
    let v ← e.boxed r (0 :: place)
    let vs ← boxedFields r (1 :: place) fs
    return v :: vs

end

end Expr

/-! ## Evaluations that concur -/

namespace Setting

/-- Two evaluations come to the same end, wherever each of them runs, and to no values but such as
`Q` tells. One of them may have read futures and taken texts that the other has not. -/
def Concur (S : Setting) {α : Type} (x y : Eval α) (Q : α → Prop) : Prop :=
  ∀ n n', S.View n → S.View n' → ∃ r b b' k k', x S.env n = Eval.ending r k ∧
    y S.env n' = Eval.ending r k' ∧ Calm b n k ∧ Calm b' n' k' ∧ ∀ a, r = .ok a → Q a

namespace Concur

variable {S : Setting} {α β : Type}

theorem weaken {x y : Eval α} {Q R : α → Prop} (h : S.Concur x y Q) (hQ : ∀ a, Q a → R a) :
    S.Concur x y R := by
  intro n n' hn hn'
  obtain ⟨r, b, b', k, k', hx, hy, hc, hc', hr⟩ := h n n' hn hn'
  exact ⟨r, b, b', k, k', hx, hy, hc, hc', fun a ha => hQ a (hr a ha)⟩

/-- What is known of the values of one of the evaluations is known of both. -/
theorem yields {x y z : Eval α} {P Q : α → Prop} (h : S.Concur x y P) (hz : S.Yields z x Q) :
    S.Concur x y Q := by
  intro n n' hn hn'
  obtain ⟨r, b, b', k, k', hx, hy, hc, hc', _⟩ := h n n' hn hn'
  obtain ⟨s, _, l, _, hs, _, hQ⟩ := hz n hn
  obtain ⟨rfl, rfl⟩ := Eval.ending_inj (hx.symm.trans hs)
  exact ⟨r, b, b', k, k', hx, hy, hc, hc', hQ⟩

theorem pure {a : α} {Q : α → Prop} (h : Q a) : S.Concur (Pure.pure a) (Pure.pure a) Q :=
    fun n n' _ _ =>
  ⟨.ok a, false, false, n, n', rfl, rfl, Calm.refl n, Calm.refl n',
    fun _ hb => by cases hb; exact h⟩

theorem fail (e : Failure) (Q : α → Prop) : S.Concur (Eval.fail e) (Eval.fail e) Q :=
    fun n n' _ _ =>
  ⟨.error (.failed e), false, false, n, n', rfl, rfl, Calm.refl n, Calm.refl n',
    fun _ hb => by cases hb⟩

theorem bind {x y : Eval α} {f g : α → Eval β} {Q : α → Prop} {R : β → Prop} (hx : S.Concur x y Q)
    (hf : ∀ a, Q a → S.Concur (f a) (g a) R) : S.Concur (x >>= f) (y >>= g) R := by
  intro n n' hn hn'
  obtain ⟨r, b, b', k, k', hxn, hyn, hc, hc', hr⟩ := hx n n' hn hn'
  rw [Eval.bind_apply, Eval.bind_apply, hxn, hyn]
  cases r with
  | error e => exact ⟨.error e, b, b', k, k', rfl, rfl, hc, hc', fun _ ha => by cases ha⟩
  | ok a =>
    obtain ⟨r, d, d', l, l', hfn, hgn, hd, hd', hr⟩ :=
      hf a (hr a rfl) k k' (hn.calm hc) (hn'.calm hc')
    exact ⟨r, _, _, l, l', hfn, hgn, hc.trans hd, hc'.trans hd', hr⟩

/-- An evaluation that reads nothing but the states of futures concurs with itself. -/
theorem of_states {x : Eval α} (blurs : Bool) (result : Futures → Except Stop α)
    (reads : Futures → Futures)
    (hr : ∀ fs gs : Futures, fs.states = gs.states → result fs = result gs)
    (hs : ∀ fs, (reads fs).states = fs.states)
    (h : ∀ m, x S.env m = Eval.ending (result m.heap.futures)
      (Eval.touched m (reads m.heap.futures) blurs)) :
    S.Concur x x fun _ => True := by
  intro n n' hn hn'
  have hsame := hr n'.heap.futures n.heap.futures (hn'.states.trans hn.states.symm)
  have hn' := hsame ▸ h n'
  exact ⟨_, blurs, blurs, _, _, h n, hn', ⟨rfl, hs _, rfl⟩, ⟨rfl, hs _, rfl⟩, fun _ _ => trivial⟩

/-- All that evaluations are made of concurs with itself. -/
theorem compatible (S : Setting) :
    Compatible (fun α x y => S.Concur (α := α) x y fun _ => True) fun i => S.kept i = none where
  pure a := .pure trivial
  bind hx hf := hx.bind fun a _ => hf a
  fail e := .fail e _
  env n n' _ _ := ⟨.ok S.env, false, false, n, n', rfl, rfl, Calm.refl n, Calm.refl n',
    fun _ _ => trivial⟩
  resolve v := by
    refine of_states false (fun fs => (fs.resolve v).1.result) (fun fs => (fs.resolve v).2) ?_
      (fun fs => Futures.resolve_states fs v) (Eval.resolve_apply v S.env)
    intro fs gs h
    simp only [Futures.resolve_congr h v]
  text v := by
    refine of_states v.holdsFuture (fun fs => .ok (v.text fs)) id ?_ (fun _ => rfl)
      (Eval.text_apply v S.env)
    intro fs gs h
    simp only [Value.text_congr h v]
  filtered fs args v := by
    refine of_states (Filter.takeText (Eval.applied fs args) && v.holdsFuture)
      (fun gs => (Filter.applyAll gs (Eval.applied fs args) v).mapError .failed) id ?_
      (fun _ => rfl)
      (Eval.filtered_apply fs args v S.env)
    intro gs hs h
    simp only [Filter.applyAll_congr h]
  mapFailure change x y h := by
    intro n n' hn hn'
    obtain ⟨r, b, b', k, k', hx, hy, hc, hc', _⟩ := h n n' hn hn'
    rw [Eval.mapFailure_apply, Eval.mapFailure_apply, hx, hy]
    cases r with
    | ok a => exact ⟨.ok a, b, b', k, k', rfl, rfl, hc, hc', fun _ _ => trivial⟩
    | error e =>
      cases e with
      | failed cause =>
        exact ⟨.error (.failed (change cause)), b, b', k, k', rfl, rfl, hc, hc', fun _ _ => trivial⟩
      | _ => exact ⟨.error _, b, b', k, k', rfl, rfl, hc, hc', fun _ _ => trivial⟩
  cell i hi n n' hn hn' := by
    refine ⟨.ok (n.cells.read i), false, false, n, n', rfl, ?_, Calm.refl n, Calm.refl n',
      fun _ _ => trivial⟩
    rw [hn.base i hi, ← hn'.base i hi]
    rfl

/-- Whatever is done with values concurs, since locals are read alike and nothing is kept. -/
theorem congruence (S : Setting) : Congruence (fun α x y => S.Concur (α := α) x y fun _ => True)
    (fun _ => False) (fun _ _ _ => False) (.plain fun _ => .pure .undefined) (.plain fun _ =>
        .pure .undefined) where
  toCompatible := (compatible S).weaken fun _ h => h.elim
  binding _ hb := hb.1.elim
  memo _ _ _ h := h.elim

theorem ofExcept (r : Except Failure α) : S.Concur (Eval.ofExcept r) (Eval.ofExcept r) fun _ =>
    True :=
  (congruence S).ofExcept r

/-- It does not matter when the text of a value is taken. -/
theorem text_later {x y : Eval α} {f g : String → α → Eval β} {h : α → Eval β} {Q : α → Prop}
    {R : β → Prop} (v : Value) (hx : S.Concur x y Q) (hf : ∀ s a, Q a → S.Concur (f s a) (g s a) R)
    (hh : ∀ a, Q a → h a = Eval.text v >>= fun s => g s a) :
    S.Concur (Eval.text v >>= fun s => x >>= f s) (y >>= h) R := by
  intro n n' hn hn'
  have hc (n : Memory) : Calm v.holdsFuture n (Eval.touched n n.heap.futures v.holdsFuture) :=
    ⟨rfl, rfl, rfl⟩
  have hview := hn.calm (hc n)
  obtain ⟨r, b, b', k, k', hxn, hyn, hk, hk', hr⟩ := hx _ n' hview hn'
  rw [Eval.bind_apply, Eval.bind_apply, Eval.text_apply, hyn]
  simp only
  rw [Eval.bind_apply, hxn]
  cases r with
  | error e =>
    exact ⟨.error e, _, b', k, k', rfl, rfl, (hc n).trans hk, hk', fun _ ha => by cases ha⟩
  | ok a =>
    have hview' := hn'.calm hk'
    have htext : v.text k'.heap.futures = v.text n.heap.futures :=
      Value.text_congr (hview'.states.trans hn.states.symm) v
    obtain ⟨s, d, d', l, l', hfn, hgn, hl, hl', hR⟩ :=
      hf (v.text n.heap.futures) a (hr a rfl) k _ (hview.calm hk) (hview'.calm (hc k'))
    refine ⟨s, _, _, l, l', hfn, ?_, ((hc n).trans hk).trans hl, (hk'.trans (hc k')).trans hl', hR⟩
    simp only [Eval.ending]
    rw [hh a (hr a rfl), Eval.bind_apply, Eval.text_apply, htext]
    exact hgn

end Concur

/-- An evaluation that is tracked comes to the same end wherever it runs. -/
theorem Tracks.concur {S : Setting} {α : Type} {x y : Eval α} (h : S.Tracks α x y) {m : Memory}
    (hm : S.Sound m) :
    S.Concur y y fun _ => True := by
  have hend (n : Memory) (hn : S.View n) :
      ∃ r m' b k, x S.env m = Eval.ending r m' ∧ y S.env n = Eval.ending r k ∧ Calm b n k := by
    have hrun := h m hm n hn
    cases hx : x S.env m <;> cases hy : y S.env n <;> rw [hx, hy] at hrun
    · obtain ⟨rfl, hs⟩ := hrun
      obtain ⟨b, _, hc⟩ := hs.calm
      exact ⟨.ok _, _, b, _, rfl, rfl, hc⟩
    · exact hrun.elim
    · exact hrun.elim
    · obtain ⟨rfl, hs⟩ := hrun
      obtain ⟨b, _, hc⟩ := hs.calm
      exact ⟨.error _, _, b, _, rfl, rfl, hc⟩
  intro n n' hn hn'
  obtain ⟨r, m₁, b, k, hx, hy, hc⟩ := hend n hn
  obtain ⟨r', m₂, b', k', hx', hy', hc'⟩ := hend n' hn'
  obtain ⟨rfl, _⟩ := Eval.ending_inj (hx.symm.trans hx')
  exact ⟨r, b, b', k, k', hy, hy', hc, hc', fun _ _ => trivial⟩

end Setting

/-! ## Operators on operands of known types -/

namespace Eval

/-- Two integers stay integers, except in a division. -/
theorem arith_int {op : Arith} (h : op ≠ .div) (i j : Int64) :
    Eval.arith op (.int i) (.int j) = (do return .int (← ofExcept (op.ints i j))) := by
  cases op with
  | div => exact absurd rfl h
  | add | sub | mul => rfl
  | mod =>
    change ofExcept (do return Value.int (← Arith.mod.ints i j)) = _
    cases Arith.mod.ints i j <;> rfl

/-- Of two numbers one of which is no integer both widen, and in a division all do. -/
theorem arith_float {op : Arith} {v w : Value} {x y : Float} (hv : v.toFloat? = .ok x)
    (hw : w.toFloat? = .ok y) (h : op = .div ∨ ¬((∃ i, v = .int i) ∧ ∃ j, w = .int j)) :
    Eval.arith op v w = pure (.float (op.floats x y)) := by
  cases v <;> cases hv <;> cases w <;> cases hw <;> cases op <;> first | rfl | simp_all

/-- A text and anything else are concatenated. -/
theorem arith_text {v w : Value} (h : (∃ s, v = .str s) ∨ ∃ s, w = .str s) :
    Eval.arith .add v w = (do
      let x ← text v
      let y ← text w
      return .str (x ++ y)) := by
  change Eval.add v w = _
  unfold Eval.add
  rw [if_pos]
  rcases h with ⟨s, rfl⟩ | ⟨s, rfl⟩ <;> simp [Value.stringLike?]

end Eval

namespace Comparison

theorem values_int (op : Comparison) (i j : Int64) :
    op.values (.int i) (.int j) = .ok (op.ints i j) := by
  cases op <;> rfl

theorem values_float {op : Comparison} {v w : Value} {x y : Float} (hv : v.toFloat? = .ok x)
    (hw : w.toFloat? = .ok y) (h : ¬((∃ i, v = .int i) ∧ ∃ j, w = .int j)) :
    op.values v w = .ok (op.floats x y) := by
  cases v <;> cases hv <;> cases w <;> cases hw <;> cases op <;> first | rfl | simp_all

theorem values_text (op : Comparison) (s t : String) :
    op.values (.str s) (.str t) = .ok (op.texts s t) := by
  cases op <;> rfl

end Comparison

namespace Typing

variable {S : Setting} {loose : Loose} {fs : Futures} {t u : StaticType} {x x' y y' : Eval Value}

/-- Of two operands of numeric types that are not both integers, one is none. -/
theorem not_both_int {v w : Value} (hv : t.Conforms loose fs v) (hw : u.Conforms loose fs w)
    (hints : (t.isInt && u.isInt) = false) (hnums : (t.isNum && u.isNum) = true) :
    ¬((∃ i, v = .int i) ∧ ∃ j, w = .int j) := by
  rintro ⟨⟨i, rfl⟩, j, rfl⟩
  simp only [StaticType.isNum, Bool.and_eq_true, Bool.or_eq_true] at hnums
  obtain ⟨ht, hu⟩ := hnums
  rcases ht with ht | ht
  · rcases hu with hu | hu
    · simp [ht, hu] at hints
    · obtain ⟨f, hf⟩ := hw.isFloat hu
      cases hf
  · obtain ⟨f, hf⟩ := hv.isFloat ht
    cases hf

section

variable (hx : S.Concur x x' (t.Conforms loose fs))

include hx

theorem unary_boxed (op : UnaryOp) : S.Concur (Direct.unary op t x) (Boxed.unary op x') fun _ =>
    True := by
  cases op with
  | not =>
    simp only [Direct.unary, Direct.bool, Boxed.unary, bind_assoc, pure_bind]
    exact hx.bind fun _ _ => .pure trivial
  | neg =>
    simp only [Direct.unary, Boxed.unary]
    split
    · next ht =>
      simp only [Direct.int, bind_assoc]
      refine hx.bind fun v hv => ?_
      obtain ⟨i, rfl⟩ := hv.isInt ht
      exact .ofExcept (Value.int i).neg
    · split
      · next ht =>
        simp only [Direct.float, bind_assoc]
        refine hx.bind fun v hv => ?_
        obtain ⟨f, rfl⟩ := hv.isFloat ht
        exact .ofExcept (Value.float f).neg
      · exact hx.bind fun v _ => .ofExcept _

variable (hy : S.Concur y y' (u.Conforms loose fs))

include hy

theorem arithInt_boxed {op : Arith} (hop : op ≠ .div) (hints : (t.isInt && u.isInt) = true) :
    S.Concur (Direct.arithInt op x y) (Direct.arithBoxed op x' y') fun _ => True := by
  obtain ⟨ht, hu⟩ := Bool.and_eq_true_iff.1 hints
  simp only [Direct.arithInt, Direct.int, Direct.arithBoxed, bind_assoc]
  refine hx.bind fun v hv => ?_
  obtain ⟨i, rfl⟩ := hv.isInt ht
  simp only [Value.toInt64?, Eval.ofExcept, pure_bind]
  refine hy.bind fun w hw => ?_
  obtain ⟨j, rfl⟩ := hw.isInt hu
  rw [Eval.arith_int hop]
  exact (Setting.Concur.ofExcept _).bind fun _ _ => .pure trivial

theorem arithFloat_boxed {op : Arith} (hnums : (t.isNum && u.isNum) = true)
    (hop : op = .div ∨ (t.isInt && u.isInt) = false) :
    S.Concur (Direct.arithFloat op x y) (Direct.arithBoxed op x' y') fun _ => True := by
  obtain ⟨ht, hu⟩ := Bool.and_eq_true_iff.1 hnums
  simp only [Direct.arithFloat, Direct.float, Direct.arithBoxed, bind_assoc]
  refine hx.bind fun v hv => ?_
  obtain ⟨f, hf⟩ := hv.isNum ht
  simp only [hf, Eval.ofExcept, pure_bind]
  refine hy.bind fun w hw => ?_
  obtain ⟨g, hg⟩ := hw.isNum hu
  simp only [hg, pure_bind]
  rw [Eval.arith_float hf hg (hop.imp_right fun hints => not_both_int hv hw hints hnums)]
  exact .pure trivial

/-- A text on one side makes the other side one, which may be taken at once or when both sides are
there. -/
theorem concat_boxed (hstr : (t.isStr || u.isStr) = true) :
    S.Concur (do
      let a ← Direct.text x
      let b ← Direct.text y
      return .str (a ++ b)) (Direct.arithBoxed .add x' y') fun _ => True := by
  simp only [Direct.text, Direct.arithBoxed, bind_assoc]
  refine hx.bind fun v hv => ?_
  have hadd (w : Value) (hw : u.Conforms loose fs w) : Eval.arith .add v w = (do
      let a ← Eval.text v
      let b ← Eval.text w
      return .str (a ++ b)) :=
    Eval.arith_text ((Bool.or_eq_true_iff.1 hstr).imp hv.isStr hw.isStr)
  exact .text_later v hy (fun a w _ => .bind ((Setting.Concur.compatible S).text w) fun b _ =>
    .pure trivial) hadd

theorem arithBoxed_boxed (op : Arith) :
    S.Concur (Direct.arithBoxed op x y) (Direct.arithBoxed op x' y') fun _ => True :=
  hx.bind fun v _ => hy.bind fun w _ => (Setting.Concur.congruence S).arith op v w

theorem arith_boxed (op : Arith) :
    S.Concur (Direct.arith op t u x y) (Direct.arithBoxed op x' y') fun _ => True := by
  have hrest {op : Arith} (hop : op ≠ .div) : S.Concur
      (if t.isInt && u.isInt then Direct.arithInt op x y
        else if t.isNum && u.isNum then Direct.arithFloat op x y else Direct.arithBoxed op x y)
      (Direct.arithBoxed op x' y') fun _ => True := by
    split
    · next hints => exact arithInt_boxed hx hy hop hints
    · next hints =>
      split
      · next hnums => exact arithFloat_boxed hx hy hnums (.inr (Bool.eq_false_iff.2 hints))
      · exact arithBoxed_boxed hx hy op
  cases op with
  | add =>
    simp only [Direct.arith, beq_self_eq_true, Bool.true_and]
    split
    · next hints => exact arithInt_boxed hx hy (by simp) hints
    · next hints =>
      split
      · next hnums => exact arithFloat_boxed hx hy hnums (.inr (Bool.eq_false_iff.2 hints))
      · split
        · next hstr => exact concat_boxed hx hy hstr
        · exact arithBoxed_boxed hx hy .add
  | sub | mul => exact hrest (by simp)
  | div =>
    simp only [Direct.arith]
    split
    · next hnums => exact arithFloat_boxed hx hy hnums (.inl rfl)
    · exact arithBoxed_boxed hx hy .div
  | mod =>
    simp only [Direct.arith]
    split
    · next hints => exact arithInt_boxed hx hy (by simp) hints
    · exact arithBoxed_boxed hx hy .mod

theorem comparison_boxed (op : Comparison) :
    S.Concur (Direct.comparison op t u x y) (Boxed.comparison op x' y') fun _ => True := by
  unfold Direct.comparison Boxed.comparison
  split
  · next hints =>
    obtain ⟨ht, hu⟩ := Bool.and_eq_true_iff.1 hints
    simp only [Direct.int, bind_assoc]
    refine hx.bind fun v hv => ?_
    obtain ⟨i, rfl⟩ := hv.isInt ht
    simp only [Value.toInt64?, Eval.ofExcept, pure_bind]
    refine hy.bind fun w hw => ?_
    obtain ⟨j, rfl⟩ := hw.isInt hu
    rw [op.values_int]
    exact .pure trivial
  · next hints =>
    split
    · next hnums =>
      obtain ⟨ht, hu⟩ := Bool.and_eq_true_iff.1 hnums
      simp only [Direct.float, bind_assoc]
      refine hx.bind fun v hv => ?_
      obtain ⟨f, hf⟩ := hv.isNum ht
      simp only [hf, Eval.ofExcept, pure_bind]
      refine hy.bind fun w hw => ?_
      obtain ⟨g, hg⟩ := hw.isNum hu
      rw [Comparison.values_float hf hg (not_both_int hv hw (Bool.eq_false_iff.2 hints) hnums), hg]
      exact .pure trivial
    · split
      · next hstrs =>
        obtain ⟨ht, hu⟩ := Bool.and_eq_true_iff.1 hstrs
        simp only [Direct.text, bind_assoc]
        refine hx.bind fun v hv => ?_
        obtain ⟨a, rfl⟩ := hv.isStr ht
        simp only [Eval.text_str, pure_bind]
        refine hy.bind fun w hw => ?_
        obtain ⟨b, rfl⟩ := hw.isStr hu
        rw [op.values_text, Eval.text_str]
        exact .pure trivial
      · exact hx.bind fun _ _ => hy.bind fun _ _ => (Setting.Concur.ofExcept _).bind fun _ _ =>
          .pure trivial

theorem binary_boxed (op : BinaryOp) :
    S.Concur (Direct.binary op t u x y) (Boxed.binary op x' y') fun _ => True := by
  cases op with
  | add => exact arith_boxed hx hy .add
  | sub => exact arith_boxed hx hy .sub
  | mul => exact arith_boxed hx hy .mul
  | div => exact arith_boxed hx hy .div
  | mod => exact arith_boxed hx hy .mod
  | eq => exact comparison_boxed hx hy .eq
  | notEq => exact comparison_boxed hx hy .notEq
  | less => exact comparison_boxed hx hy .less
  | lessEq => exact comparison_boxed hx hy .lessEq
  | greater => exact comparison_boxed hx hy .greater
  | greaterEq => exact comparison_boxed hx hy .greaterEq
  | and | or =>
    simp only [Direct.binary, Direct.bool, Boxed.binary, bind_assoc, pure_bind]
    refine hx.bind fun v _ => ?_
    split
    · first | exact .pure trivial | exact hy.bind fun _ _ => .pure trivial
    · first | exact .pure trivial | exact hy.bind fun _ _ => .pure trivial
  | coalesce =>
    refine hx.bind fun v _ => ?_
    split
    · exact hy.weaken fun _ _ => trivial
    · exact .pure trivial

end

end Typing

/-! ## Expressions -/

/-- The names of a scope are read alike wherever an expression runs. -/
structure Setting.Steady (S : Setting) (r : Reading) (ls : Locals) : Prop where
  var : ∀ name b, ls.lookup name = some b → S.Concur (r.var name) (r.var name) fun _ => True
  loop : ∀ name b il, ls.lookup name = some b → b.loop = some il →
    S.Concur (r.loop name) (r.loop name) fun _ => True

namespace Expr

variable {S : Setting} {r : Reading}

theorem evalAll_boxed {es : List Expr}
    (h : ∀ e ∈ es, ∀ p, S.Concur (e.eval r p) (e.boxed r p) fun _ => True) (p : List Nat) :
    S.Concur (evalAll r p es) (boxedAll r p es) fun _ => True := by
  induction es generalizing p with
  | nil => exact .pure trivial
  | cons e rest ih =>
    exact (h e (by simp) _).bind fun v _ => (ih (fun d hd => h d (by simp [hd])) _).bind fun vs _ =>
      .pure trivial

theorem evalEntries_boxed {es : List (Expr × Expr)}
    (hk : ∀ e ∈ es, ∀ p, S.Concur (e.1.eval r p) (e.1.boxed r p) fun _ => True)
    (hv : ∀ e ∈ es, ∀ p, S.Concur (e.2.eval r p) (e.2.boxed r p) fun _ => True) (p : List Nat) :
    S.Concur (evalEntries r p es) (boxedEntries r p es) fun _ => True := by
  induction es generalizing p with
  | nil => exact .pure trivial
  | cons e rest ih =>
    refine (hk e (by simp) _).bind fun key _ => (hv e (by simp) _).bind fun v _ => ?_
    cases MapKey.ofValue? key with
    | none => exact .fail _ _
    | some _ =>
      exact (ih (fun d hd => hk d (by simp [hd])) (fun d hd => hv d (by simp [hd])) _).bind
        fun vs _ => .pure trivial

theorem evalFields_boxed {gs : List (String × Expr)}
    (h : ∀ g ∈ gs, ∀ p, S.Concur (g.2.eval r p) (g.2.boxed r p) fun _ => True) (p : List Nat) :
    S.Concur (evalFields r p gs) (boxedFields r p gs) fun _ => True := by
  induction gs generalizing p with
  | nil => exact .pure trivial
  | cons g rest ih =>
    exact (h g (by simp) _).bind fun v _ => (ih (fun d hd => h d (by simp [hd])) _).bind fun vs _ =>
      .pure trivial

variable {loose : Loose} {fs : Futures} {scope : Bundle.Scope} {s : Scope}
  {force : ThunkId → Eval Value}

theorem unchecked {x y : Eval Value} {Q : Value → Prop} (ls : Locals) (t : StaticType)
    (h : S.Concur x y Q) :
    S.Concur (x >>= (ls.reading force).check t) y Q := by
  have hx : x >>= (ls.reading force).check t = x := bind_pure x
  rwa [hx]

/-- By induction over the ways types are inferred: the operators choose by types that their operands
have. -/
theorem eval_boxed (ht : S.Typed loose fs scope (s.locals.reading force) s.locals)
    (hs : S.Steady (s.locals.reading force) s.locals) {e : Expr} (hi : e.Inferred scope)
    (hc : e.Compiles s) (p : List Nat) :
    S.Concur (e.eval (s.locals.reading force) p) (e.boxed (s.locals.reading force) p) fun _ =>
    True := by
  -- what is shown of a part is known of values of its type
  have hpart {e : Expr} {p : List Nat} (hi : e.Inferred scope) (hc : e.Compiles s)
      (h : S.Concur (e.eval (s.locals.reading force) p) (e.boxed (s.locals.reading force) p)
        fun _ => True) :
      S.Concur (e.eval (s.locals.reading force) p) (e.boxed (s.locals.reading force) p)
          (e.type.Conforms loose fs) := by
    have hyields : S.Yields (e.eval ((s.locals.reading force).strict .broken) p)
        (e.eval (s.locals.reading force) p) (e.type.Conforms loose fs) := eval_yields ht hi hc p
    exact h.yields hyields
  have hvalues := Setting.Concur.congruence S
  induction hi generalizing p with
  | lit v plain =>
    unfold eval boxed
    exact unchecked _ _ (.pure trivial)
  | @param _ name injected ht =>
    unfold eval boxed
    refine unchecked _ _ (hvalues.env.bind fun env _ => ?_)
    cases (if injected then env.injected else env.params).lookup name with
    | some v => exact hvalues.resolve v
    | none => exact .pure trivial
  | @var t name ht =>
    unfold eval boxed
    obtain ⟨b, hb⟩ := hc.var
    exact unchecked _ _ (hs.var name b hb)
  | not hx ih =>
    unfold eval boxed
    exact unchecked _ _ (Typing.unary_boxed (hpart hx hc.unary (ih hc.unary p)) .not)
  | neg hx ih =>
    unfold eval boxed
    simp only [hx.operandType]
    exact unchecked _ _ (Typing.unary_boxed (hpart hx hc.unary (ih hc.unary p)) .neg)
  | binary hx hy ihx ihy =>
    unfold eval boxed
    simp only [hx.operandType, hy.operandType]
    exact unchecked _ _ (Typing.binary_boxed (hpart hx hc.binary.1 (ihx hc.binary.1 _))
      (hpart hy hc.binary.2 (ihy hc.binary.2 _)) _)
  | cond hc' hx hy ihc ihx ihy =>
    unfold eval boxed
    refine unchecked _ _ ?_
    simp only [Direct.cond, Direct.bool, Boxed.cond, bind_assoc, pure_bind]
    refine (ihc hc.cond.1 _).bind fun v _ => ?_
    split
    · exact ihx hc.cond.2.1 _
    · exact ihy hc.cond.2.2 _
  | field hx ih =>
    unfold eval boxed
    exact unchecked _ _ ((ih hc.field p).bind fun v _ => hvalues.field v _ _)
  | item hx hk ihx ihk =>
    unfold eval boxed
    refine unchecked _ _ ((ihx hc.item.1 _).bind fun v _ => ?_)
    split
    · split
      · exact .pure trivial
      · exact .fail _ _
    · exact (ihk hc.item.2 _).bind fun k _ => hvalues.item v k
  | list hes ih =>
    unfold eval boxed
    exact unchecked _ _ ((evalAll_boxed (fun e he p => ih e he (hc.list e he) p) _).bind fun vs _ =>
      hvalues.newList p vs)
  | map hk hv ihk ihv =>
    unfold eval boxed
    exact unchecked _ _ ((evalEntries_boxed (fun e he p => ihk e he (hc.map e he).1 p)
      (fun e he p => ihv e he (hc.map e he).2 p) _).bind fun ds _ =>
      (hvalues.origin p).bind fun _ _ => .pure trivial)
  | record hf ih =>
    unfold eval boxed
    exact unchecked _ _ ((evalFields_boxed (fun g hg p => ih g hg (hc.record g hg) p) _).bind
        fun vs _ =>
      (hvalues.origin p).bind fun _ _ => .pure trivial)
  | @call name es hes ih =>
    unfold eval boxed
    refine unchecked _ _ ?_
    cases hname : isLoopHelper name with
    | true =>
      obtain ⟨u, v, b, il, rfl, hb, hil⟩ := hc.loop hname
      simp only [hname, if_true]
      refine (hs.loop v b il hb hil).bind fun at' _ => ?_
      simp only [isLoopHelper, Bool.or_eq_true, beq_iff_eq] at hname
      rcases hname with (rfl | rfl) | rfl <;> exact .pure trivial
    | false =>
      obtain ⟨hparts, f, hf, _⟩ := hc.call hname
      simp only [hname, Bool.false_eq_true, if_false]
      refine (evalAll_boxed (fun e he p => ih e he (hparts e he) p) _).bind fun vs _ => ?_
      simp only [Direct.call, hf]
      exact hvalues.call p f vs

end Expr

/-! ## Code -/

theorem Bundle.Scope.steady {made : Array Thunk} {m : Memory} {S : Setting} {table : Table}
    (husual : Congruence S.Tracks table.see table.keep .usual (.meaning made)) (hm : S.Sound m)
    {ls : Locals} {low : Nat} (hseen : ls.Seen (· < low)) (hlow : ∀ i, i < low → table i = none) :
    S.Steady (ls.reading (Thunk.meaning made)) ls where
  var name b hb := by
    simp only [Locals.reading, hb]
    exact (husual.binding b ((hseen.mono hlow) name b hb).touches).concur hm
  loop name b il hb hil := by
    have hcell (i : Nat) (hi : i < low) := (husual.cell i (hlow i hi)).concur hm
    have hloop := (hseen name b hb).loop il.1 il.2 hil
    simp only [Locals.reading, hb, Option.bind_some, hil]
    exact (hcell _ hloop.1).bind fun _ _ => (hcell _ hloop.2).bind fun _ _ => .pure trivial

/-- Looking at types changes nothing. The code of an expression comes to the same end as the
evaluation of its boxed parts, if its types are inferred. In whatever form the result of code is
asked for, it is the boxed result, taken in that form. -/
theorem Bundle.expr_boxed {scope : Bundle.Scope} {node : Yaml.Node} {fuel : Nat}
    {n n' : Identity} {e : Expr} (hread : Bundle.expr fuel scope (some node) n = .ok (e, n'))
    (huntyped : node.untyped = true) {analyzer : Analyzer} {ls : Locals} {slots slots' : Slots}
    {c : Compiled} (hcompile : e.compile ⟨analyzer, ls⟩ slots = .ok (c, slots'))
    (hseen : ls.Seen (· < slots.mark)) {made : Array Thunk} {place : List Nat}
    {env : Env} {m : Memory} (hentered : c.Entered made slots.mark place env m) {loose : Loose}
    (hholds : scope.Holds loose ls env m) :
    (∃ r m' k, c.value .usual place env m = Eval.ending r m' ∧
      e.boxed (ls.reading (Thunk.meaning made)) place env m = Eval.ending r k) ∧
    ∀ (code : Compiled) (strategy : Strategy) (place : List Nat),
      code.int strategy place = Direct.int (code.value strategy place) ∧
      code.float strategy place = Direct.float (code.value strategy place) ∧
      code.bool strategy place = Direct.bool (code.value strategy place) ∧
      code.str strategy place = Direct.text (code.value strategy place) := by
  refine ⟨?_, fun code strategy place =>
    ⟨Lowered.eval_toInt .., Lowered.eval_toFloat .., Lowered.eval_toBool .., Lowered.eval_toStr ..⟩⟩
  have hinferred : e.Inferred scope :=
    (Bundle.infers fuel).expr hread (by rintro _ ⟨⟩; exact huntyped)
  obtain ⟨table, htouch, hlow, hsound⟩ := hentered.sound
  let S : Setting := { made, states := m.states, env, base := m.cells,
                       kept := table.meanings (Thunk.meaning made) }
  have husual : Congruence S.Tracks table.see table.keep .usual (.meaning made) :=
    S.usual hentered.tidy rfl
  have hview : S.View m := ⟨rfl, fun _ _ => rfl⟩
  have hcode : S.Tracks Value (c.value .usual place)
      (e.eval (ls.reading (Thunk.meaning made)) place) := by
    have hmeans : c.value (.meaning made) place = e.eval (ls.reading (Thunk.meaning made)) place :=
      Expr.compile_means hcompile (Thunk.meaning made) place
    rw [← hmeans]
    exact husual.value htouch
  obtain ⟨r, _, _, k, k', heval, hboxed, _⟩ :=
    Expr.eval_boxed (hholds.typed husual hsound hseen hlow)
      (Bundle.Scope.steady husual hsound hseen hlow) hinferred (Expr.compile_compiles hcompile)
      place m m hview hview
  have hrun := hcode m hsound m hview
  rw [heval] at hrun
  change S.Follows m m (c.value .usual place env m) (Eval.ending r k) at hrun
  cases r <;> cases hx : c.value .usual place env m <;> rw [hx] at hrun
  · exact hrun.elim
  · obtain ⟨rfl, _⟩ := hrun
    exact ⟨_, _, k', rfl, hboxed⟩
  · obtain ⟨rfl, _⟩ := hrun
    exact ⟨_, _, k', rfl, hboxed⟩
  · exact hrun.elim

/-- The sum of an integer and a number, without boxes and with them. -/
theorem Sample.sum_boxed :
    (∃ r m' k, sumCode.value .usual [] sumEnv sumMemory = Eval.ending r m' ∧
      sum.boxed (Locals.empty.reading (Thunk.meaning #[])) [] sumEnv sumMemory = Eval.ending r k) ∧
    ∀ (code : Compiled) (strategy : Strategy) (place : List Nat),
      code.int strategy place = Direct.int (code.value strategy place) ∧
      code.float strategy place = Direct.float (code.value strategy place) ∧
      code.bool strategy place = Direct.bool (code.value strategy place) ∧
      code.str strategy place = Direct.text (code.value strategy place) :=
  Bundle.expr_boxed sum_read (by cbv) sum_compiled (Locals.seen_empty _) sum_entered sum_holds

end Interlude
