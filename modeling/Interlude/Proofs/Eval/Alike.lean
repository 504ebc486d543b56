import Interlude.Proofs.Eval.Paired
import Interlude.Proofs.Expr.Direct
/-!
# Evaluations on different cells

An evaluation that keeps nothing depends on cells, environment and states of futures alone. Two such
evaluations that read their locals from different cells come to the same end if each local does
(`eval_alike`). So a local may be read where the compiler has put it, from the cells of a deferred
value into which it was copied, or by its name.
-/

namespace Interlude

/-- Memory whose cells and futures are as they were. -/
structure Memory.Unmoved (m m' : Memory) : Prop where
  cells : m'.cells = m.cells
  states : m'.states = m.states

theorem Memory.Unmoved.refl (m : Memory) : m.Unmoved m := ⟨rfl, rfl⟩

theorem Memory.Unmoved.trans {m₁ m₂ m₃ : Memory} (h : m₁.Unmoved m₂) (h' : m₂.Unmoved m₃) :
    m₁.Unmoved m₃ :=
  ⟨h'.cells.trans h.cells, h'.states.trans h.states⟩

/-- Where two evaluations run: with the same futures and in the same environment, each on cells of
its own. -/
structure Pairing where
  states : Array Future
  env : Env
  left : Cells
  right : Cells

namespace Pairing

/-- Two evaluations come to the same end, the first on the left cells and the second on the right
ones. -/
def Alike (P : Pairing) (α : Type) (x y : Eval α) : Prop :=
  ∀ m n : Memory, m.states = P.states → m.cells = P.left → n.states = P.states → n.cells = P.right →
    ∃ r m' n', x P.env m = Eval.ending r m' ∧ y P.env n = Eval.ending r n' ∧
    m.Unmoved m' ∧ n.Unmoved n'

variable {P : Pairing}

theorem Alike.bind {α β : Type} {x y : Eval α} {f g : α → Eval β} (hx : P.Alike α x y)
    (hf : ∀ a, P.Alike β (f a) (g a)) : P.Alike β (x >>= f) (y >>= g) := by
  intro m n hms hmc hns hnc
  obtain ⟨r, m', n', hxm, hyn, hm, hn⟩ := hx m n hms hmc hns hnc
  rw [Eval.bind_apply, Eval.bind_apply, hxm, hyn]
  cases r with
  | error e => exact ⟨.error e, m', n', rfl, rfl, hm, hn⟩
  | ok a =>
    obtain ⟨r, m'', n'', hfm, hgn, hm', hn'⟩ :=
      hf a m' n' (hm.states.trans hms) (hm.cells.trans hmc) (hn.states.trans hns)
        (hn.cells.trans hnc)
    exact ⟨r, m'', n'', hfm, hgn, hm.trans hm', hn.trans hn'⟩

/-- An evaluation that reads nothing but the states of futures. -/
theorem Alike.of_states {α : Type} {x : Eval α} (blurs : Bool) (result : Futures → Except Stop α)
    (reads : Futures → Futures)
    (hr : ∀ fs gs : Futures, fs.states = gs.states → result fs = result gs)
    (hs : ∀ fs, (reads fs).states = fs.states)
    (h : ∀ m, x P.env m = Eval.ending (result m.heap.futures)
      (Eval.touched m (reads m.heap.futures) blurs)) :
    P.Alike α x x := by
  intro m n hms _ hns _
  have hn := hr n.heap.futures m.heap.futures (hns.trans hms.symm) ▸ h n
  exact ⟨_, _, _, h m, hn, ⟨rfl, hs _⟩, ⟨rfl, hs _⟩⟩

/-- All that evaluations are made of comes to the same end on other cells, if it reads the same from
them. -/
theorem compatible (P : Pairing) : Compatible P.Alike fun i => P.left.read i = P.right.read i where
  pure a m n _ _ _ _ := ⟨.ok a, m, n, rfl, rfl, .refl m, .refl n⟩
  bind hx hf := hx.bind hf
  fail e m n _ _ _ _ := ⟨.error (.failed e), m, n, rfl, rfl, .refl m, .refl n⟩
  env m n _ _ _ _ := ⟨.ok P.env, m, n, rfl, rfl, .refl m, .refl n⟩
  resolve v := by
    refine .of_states false (fun fs => (fs.resolve v).1.result) (fun fs => (fs.resolve v).2) ?_
      (fun fs => Futures.resolve_states fs v) (Eval.resolve_apply v P.env)
    intro fs gs h
    simp only [Futures.resolve_congr h v]
  text v := by
    refine .of_states v.holdsFuture (fun fs => .ok (v.text fs)) id ?_ (fun _ => rfl)
      (Eval.text_apply v P.env)
    intro fs gs h
    simp only [Value.text_congr h v]
  filtered fs args v := by
    refine .of_states (Filter.takeText (Eval.applied fs args) && v.holdsFuture)
      (fun gs => (Filter.applyAll gs (Eval.applied fs args) v).mapError .failed) id ?_
      (fun _ => rfl)
      (Eval.filtered_apply fs args v P.env)
    intro gs hs h
    simp only [Filter.applyAll_congr h]
  mapFailure change x y h := by
    intro m n hms hmc hns hnc
    obtain ⟨r, m', n', hx, hy, hm, hn⟩ := h m n hms hmc hns hnc
    rw [Eval.mapFailure_apply, Eval.mapFailure_apply, hx, hy]
    cases r with
    | ok a => exact ⟨.ok a, m', n', rfl, rfl, hm, hn⟩
    | error e =>
      cases e with
      | failed cause => exact ⟨.error (.failed (change cause)), m', n', rfl, rfl, hm, hn⟩
      | _ => exact ⟨.error _, m', n', rfl, rfl, hm, hn⟩
  cell i hi m n _ hmc _ hnc := by
    refine ⟨.ok (m.cells.read i), m, n, rfl, ?_, .refl m, .refl n⟩
    rw [hmc, hi, ← hnc]
    rfl

theorem Alike.map {α β : Type} {x y : Eval α} (f : α → β) (hx : P.Alike α x y) :
    P.Alike β (f <$> x) (f <$> y) := by
  rw [map_eq_pure_bind, map_eq_pure_bind]
  exact hx.bind fun _ => P.compatible.pure _

/-- What is done with values does not depend on cells. -/
theorem congruence (P : Pairing) : Congruence P.Alike (fun _ => False) (fun _ _ _ => False)
    (.plain fun _ => pure .undefined) (.plain fun _ => pure .undefined) where
  toCompatible := P.compatible.weaken fun _ h => h.elim
  binding _ hb := hb.1.elim
  memo _ _ _ h := h.elim

/-- Evaluations on cells that a third evaluation has on its other side. -/
theorem Alike.trans {α : Type} {x y z : Eval α} {third : Cells} (h : P.Alike α x y)
    (h' : Alike { P with left := P.right, right := third } α y z) :
    Alike { P with right := third } α x z := by
  intro m n hms hmc hns hnc
  obtain ⟨r, m', k, hx, hy, hm, _⟩ := h m ⟨P.right, n.heap⟩ hms hmc hns rfl
  obtain ⟨r', k', n', hy', hz, _, hn⟩ := h' ⟨P.right, n.heap⟩ n hns rfl hns hnc
  obtain ⟨rfl, _⟩ := Eval.ending_inj (hy.symm.trans hy')
  exact ⟨r, m', n', hx, hz, hm, hn⟩

theorem Alike.symm {α : Type} {x y : Eval α} (h : P.Alike α x y) :
    Alike { P with left := P.right, right := P.left } α y x := by
  intro m n hms hmc hns hnc
  obtain ⟨r, n', m', hx, hy, hn, hm⟩ := h n m hns hnc hms hmc
  exact ⟨r, m', n', hy, hx, hm, hn⟩

/-- An evaluation on other cells and in another environment. -/
theorem Alike.onCells {α : Type} {x : Eval α} {cells cells' : Cells} {env : Env}
    {y : Eval α} (h : Alike ⟨P.states, env, cells, cells'⟩ α x y) :
    P.Alike α (Eval.onCells cells env x fun _ heap => heap)
      (Eval.onCells cells' env y fun _ heap => heap) := by
  intro m n hms hmc hns hnc
  obtain ⟨r, m', n', hx, hy, hm, hn⟩ :=
    h { m with cells } { n with cells := cells' } hms rfl hns rfl
  refine ⟨r, ⟨m.cells, m'.heap⟩, ⟨n.cells, n'.heap⟩, ?_, ?_, ⟨rfl, hm.states⟩, ⟨rfl, hn.states⟩⟩
  · unfold Eval.onCells
    have hx : x env { m with cells } = _ := hx
    rw [hx]
    cases r <;> rfl
  · unfold Eval.onCells
    have hy : y env { n with cells := cells' } = _ := hy
    rw [hy]
    cases r <;> rfl

end Pairing

/-! ## Deferred values -/

namespace Thunk

/-- What a deferred value means does not depend on the cells of who asks for it. -/
theorem meaningBelow_alike (made : Array Thunk) (count : Nat) :
    ∀ (P : Pairing) (id : ThunkId),
    P.Alike Value (meaningBelow made count id) (meaningBelow made count id) := by
  induction count with
  | zero => exact fun P id => P.compatible.pure _
  | succ count ih =>
    intro P id
    unfold meaningBelow
    split
    · split
      · exact P.compatible.pure _
      · next t _ =>
        refine Pairing.Alike.onCells ?_
        generalize hQ : (⟨P.states, t.env, t.cells, t.cells⟩ : Pairing) = Q
        have hcompatible : Compatible Q.Alike fun _ => True :=
          Q.compatible.weaken fun i _ => by rw [← hQ]
        have hcong : Congruence Q.Alike (fun _ => True) (fun _ _ _ => True)
            (.plain (meaningBelow made count)) (.plain (meaningBelow made count)) :=
          { hcompatible with
            binding := fun b hb => by
              refine hcompatible.binding (fun i hi =>
                hcompatible.bind (hcompatible.cell i hi) fun c => ?_) hb
              cases c with
              | thunk id => exact ih Q id
              | _ => exact hcompatible.pure _
            memo := fun _ _ _ _ h => h }
        exact hcong.term t.code.root.toBoxed [] (Term.touches_everywhere _ _)
    · exact ih P id

end Thunk

/-- A local means the same on other cells if the cells it reads are the same, and after more
deferred values were made. -/
theorem Binding.eval_alike {P : Pairing} {made later : Array Thunk} (he : Thunk.Extends made later)
    {b : Binding} (hb : b.Touches fun i => P.left.read i = P.right.read i ∧
      ∀ id, P.left.read i = .thunk id → id < made.size) :
    P.Alike Value (b.eval (Thunk.meaning made)) (b.eval (Thunk.meaning later)) := by
  have hcompatible : Compatible P.Alike fun i => P.left.read i = P.right.read i ∧
      ∀ id, P.left.read i = .thunk id → id < made.size := P.compatible.weaken fun _ h => h.1
  refine hcompatible.binding (fun i hi m n hms hmc hns hnc => ?_) hb
  have hm : Eval.cell i P.env m = .ok (P.left.read i) m := by rw [← hmc]; rfl
  have hn : Eval.cell i P.env n = .ok (P.left.read i) n := by rw [hi.1, ← hnc]; rfl
  rw [Eval.bind_apply, Eval.bind_apply, hm, hn]
  simp only
  cases hc : P.left.read i with
  | thunk id =>
    simp only [Cell.deferred]
    rw [Thunk.meaning_extends he (hi.2 id hc)]
    exact Thunk.meaningBelow_alike made (id + 1) P id m n hms hmc hns hnc
  | _ => exact P.compatible.pure _ m n hms hmc hns hnc

/-! ## Expressions -/

/-- Names are read alike, and so are parts looked at. -/
structure Reading.Alike (P : Pairing) (names : List String) (r r' : Reading) : Prop where
  var : ∀ n ∈ names, P.Alike Value (r.var n) (r'.var n)
  loop : ∀ n ∈ names, P.Alike (Int64 × Int64) (r.loop n) (r'.loop n)
  check : ∀ t v, P.Alike Value (r.check t v) (r'.check t v)

namespace Reading.Alike

variable {P : Pairing} {names names' : List String} {r r' : Reading}

theorem mono (h : r.Alike P names r') (hn : names' ⊆ names) : r.Alike P names' r' :=
  ⟨fun n hm => h.var n (hn hm), fun n hm => h.loop n (hn hm), h.check⟩

theorem left (h : r.Alike P (names ++ names') r') : r.Alike P names r' :=
    h.mono (List.subset_append_left ..)

theorem right (h : r.Alike P (names ++ names') r') : r.Alike P names' r' :=
    h.mono (List.subset_append_right ..)

end Reading.Alike

namespace Direct

variable {P : Pairing} {x x' y y' : Eval Value}

theorem int_alike (hx : P.Alike Value x x') : P.Alike Int64 (int x) (int x') :=
  hx.bind fun _ => P.congruence.ofExcept _

theorem float_alike (hx : P.Alike Value x x') : P.Alike Float (float x) (float x') :=
  hx.bind fun _ => P.congruence.ofExcept _

theorem bool_alike (hx : P.Alike Value x x') : P.Alike Bool (bool x) (bool x') :=
  hx.bind fun _ => P.compatible.pure _

theorem text_alike (hx : P.Alike Value x x') : P.Alike String (text x) (text x') :=
  hx.bind fun v => P.compatible.text v

theorem unary_alike (op : UnaryOp) (t : StaticType) (hx : P.Alike Value x x') :
    P.Alike Value (unary op t x) (unary op t x') := by
  unfold unary
  split
  · exact (bool_alike hx).bind fun _ => P.compatible.pure _
  · split
    · exact (int_alike hx).bind fun _ => P.compatible.pure _
    · split
      · exact (float_alike hx).bind fun _ => P.compatible.pure _
      · exact hx.bind fun _ => P.congruence.ofExcept _

section

variable (hx : P.Alike Value x x') (hy : P.Alike Value y y')

include hx hy

theorem arithInt_alike (op : Arith) : P.Alike Value (arithInt op x y) (arithInt op x' y') :=
  (int_alike hx).bind fun _ => (int_alike hy).bind fun _ => (P.congruence.ofExcept _).bind fun _ =>
    P.compatible.pure _

theorem arithFloat_alike (op : Arith) : P.Alike Value (arithFloat op x y) (arithFloat op x' y') :=
  (float_alike hx).bind fun _ => (float_alike hy).bind fun _ => P.compatible.pure _

theorem arithBoxed_alike (op : Arith) : P.Alike Value (arithBoxed op x y) (arithBoxed op x' y') :=
  hx.bind fun a => hy.bind fun b => P.congruence.arith op a b

theorem arith_alike (op : Arith) (t u : StaticType) :
    P.Alike Value (arith op t u x y) (arith op t u x' y') := by
  unfold arith
  simp only
  split
  · split
    · exact arithFloat_alike hx hy _
    · exact arithBoxed_alike hx hy _
  · split
    · exact arithInt_alike hx hy _
    · exact arithBoxed_alike hx hy _
  · split
    · exact arithInt_alike hx hy _
    · split
      · exact arithFloat_alike hx hy _
      · split
        · exact (text_alike hx).bind fun _ => (text_alike hy).bind fun _ => P.compatible.pure _
        · exact arithBoxed_alike hx hy _

theorem comparison_alike (op : Comparison) (t u : StaticType) :
    P.Alike Value (comparison op t u x y) (comparison op t u x' y') := by
  unfold comparison
  split
  · exact (int_alike hx).bind fun _ => (int_alike hy).bind fun _ => P.compatible.pure _
  · split
    · exact (float_alike hx).bind fun _ => (float_alike hy).bind fun _ => P.compatible.pure _
    · split
      · exact (text_alike hx).bind fun _ => (text_alike hy).bind fun _ => P.compatible.pure _
      · exact hx.bind fun _ => hy.bind fun _ => (P.congruence.ofExcept _).bind fun _ =>
          P.compatible.pure _

theorem binary_alike (op : BinaryOp) (t u : StaticType) :
    P.Alike Value (binary op t u x y) (binary op t u x' y') := by
  cases op with
  | add => exact arith_alike hx hy .add t u
  | sub => exact arith_alike hx hy .sub t u
  | mul => exact arith_alike hx hy .mul t u
  | div => exact arith_alike hx hy .div t u
  | mod => exact arith_alike hx hy .mod t u
  | eq | notEq | less | lessEq | greater | greaterEq => exact comparison_alike hx hy _ t u
  | and =>
    refine (bool_alike hx).bind fun b => ?_
    cases b with
    | true => exact (bool_alike hy).bind fun _ => P.compatible.pure _
    | false => exact P.compatible.pure _
  | or =>
    refine (bool_alike hx).bind fun b => ?_
    cases b with
    | true => exact P.compatible.pure _
    | false => exact (bool_alike hy).bind fun _ => P.compatible.pure _
  | coalesce =>
    refine hx.bind fun a => ?_
    split
    · exact hy
    · exact P.compatible.pure _

theorem item_alike (nullSafe : Bool) : P.Alike Value (item x y nullSafe) (item x' y' nullSafe) := by
  refine hx.bind fun v => ?_
  split
  · split
    · exact P.compatible.pure _
    · exact P.compatible.fail _
  · exact hy.bind fun k => P.congruence.item v k

theorem cond_alike {c c' : Eval Value} (hc : P.Alike Value c c') :
    P.Alike Value (cond c x y) (cond c' x' y') := by
  refine (bool_alike hc).bind fun b => ?_
  cases b with
  | true => exact hx
  | false => exact hy

end

theorem call_alike (name : String) (place : List Nat) (args : List Value) :
    P.Alike Value (call name place args) (call name place args) := by
  unfold call
  split
  · exact P.congruence.call place _ args
  · exact P.compatible.pure _

theorem loopHelper_alike {r r' : Reading} {name : String} {es : List Expr}
    (h : r.Alike P (Expr.readsAll es) r') :
    P.Alike Value (loopHelper r name es) (loopHelper r' name es) := by
  unfold loopHelper
  split
  · next v =>
    refine (h.loop v (by simp [Expr.readsAll, Expr.reads])).bind fun il => ?_
    simp only
    split
    · exact P.compatible.pure _
    · split <;> exact P.compatible.pure _
  · exact P.compatible.pure _

end Direct

namespace Expr

variable {P : Pairing} {r r' : Reading}

mutual

/-- An expression comes to the same end if the names it reads do. -/
theorem eval_alike (e : Expr) (h : r.Alike P e.reads r') (p : List Nat) :
    P.Alike Value (e.eval r p) (e.eval r' p) := by
  rw [eval.eq_def, eval.eq_def]
  refine Pairing.Alike.bind ?_ fun v => h.check _ v
  match e with
  | lit _ v _ => exact P.compatible.pure v
  | param _ name injected =>
    refine P.compatible.bind P.compatible.env fun env => ?_
    split
    · exact P.compatible.resolve _
    · exact P.compatible.pure _
  | var _ name => exact h.var name (by simp [reads])
  | unary _ op x => exact Direct.unary_alike op _ (eval_alike x h p)
  | binary _ op x y =>
    exact Direct.binary_alike (eval_alike x h.left _) (eval_alike y h.right _) op _ _
  | cond _ c x y =>
    exact Direct.cond_alike (eval_alike x h.left.right _) (eval_alike y h.right _)
      (eval_alike c h.left.left _)
  | field _ x name nullSafe =>
    exact (eval_alike x h p).bind fun v => P.congruence.field v name nullSafe
  | item _ x key nullSafe =>
    exact Direct.item_alike (eval_alike x h.left _) (eval_alike key h.right _) nullSafe
  | list _ es => exact (evalAll_alike es h _).bind fun vs => P.congruence.newList p vs
  | map _ es =>
    exact (evalEntries_alike es h _).bind fun _ => (P.congruence.origin p).bind fun _ =>
      P.compatible.pure _
  | record _ fs =>
    exact (evalFields_alike fs h _).bind fun _ => (P.congruence.origin p).bind fun _ =>
      P.compatible.pure _
  | call _ name es =>
    by_cases hname : isLoopHelper name = true
    · simp only [hname, if_true]
      exact Direct.loopHelper_alike h
    · simp only [hname, if_false, Bool.false_eq_true]
      exact (evalAll_alike es h _).bind fun vs => Direct.call_alike name p vs

theorem evalAll_alike (es : List Expr) (h : r.Alike P (readsAll es) r') (p : List Nat) :
    P.Alike (List Value) (evalAll r p es) (evalAll r' p es) := by
  match es with
  | [] => exact P.compatible.pure _
  | e :: rest =>
    exact (eval_alike e h.left _).bind fun _ => (evalAll_alike rest h.right _).bind fun _ =>
      P.compatible.pure _

theorem evalEntries_alike (es : List (Expr × Expr)) (h : r.Alike P (readsEntries es) r')
    (p : List Nat) :
    P.Alike (List (Value × Value)) (evalEntries r p es) (evalEntries r' p es) := by
  match es with
  | [] => exact P.compatible.pure _
  | (k, x) :: rest =>
    refine (eval_alike k h.left.left _).bind fun key => (eval_alike x h.left.right _).bind fun v =>
      ?_
    split
    · exact P.compatible.fail _
    · exact (evalEntries_alike rest h.right _).bind fun _ => P.compatible.pure _

theorem evalFields_alike (fs : List (String × Expr)) (h : r.Alike P (readsFields fs) r')
    (p : List Nat) :
    P.Alike (List Value) (evalFields r p fs) (evalFields r' p fs) := by
  match fs with
  | [] => exact P.compatible.pure _
  | (_, e) :: rest =>
    exact (eval_alike e h.left _).bind fun _ => (evalFields_alike rest h.right _).bind fun _ =>
      P.compatible.pure _

end

end Expr

end Interlude
