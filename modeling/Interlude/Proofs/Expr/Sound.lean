import Mathlib
import Interlude.Proofs.Bundle.Inferred
import Interlude.Proofs.Expr.Yield
import Interlude.Proofs.Term.Compile
import Interlude.Proofs.Value.Entries
/-!
# Inferred types are sound

If params and locals hold values of the types they are declared or inferred to have, the code of an
expression whose types are all inferred comes to values of its type only (`Bundle.expr_sound`). No
operator in it that expects an integer, a number or a text, because of the type of an operand, ever
meets something else: an evaluation that would stop there comes to the same end.
-/

namespace Interlude

/-! ## Strict evaluation -/

/-- Whether a value is of another kind than the integer, number or text that its static type
says. -/
def Value.misfits (t : StaticType) (v : Value) : Bool :=
  (t.isInt && v.kind != .int) || (t.isFloat && v.kind != .float) || (t.isStr && v.kind != .string)

/-- Stops as soon as a part of an expression misfits its type. -/
def Reading.strict (r : Reading) (stop : Stop) : Reading :=
  { r with check := fun t v => if v.misfits t then throw stop else pure v }

theorem StaticType.Conforms.fits {loose : Loose} {fs : Futures} {t : StaticType} {v : Value}
    (h : t.Conforms loose fs v) : v.misfits t = false := by
  unfold Value.misfits
  simp only [Bool.or_eq_false_iff, Bool.and_eq_false_imp]
  refine ⟨⟨fun ht => ?_, fun ht => ?_⟩, fun ht => ?_⟩
  · obtain ⟨i, rfl⟩ := h.isInt ht
    rfl
  · obtain ⟨f, rfl⟩ := h.isFloat ht
    rfl
  · obtain ⟨s, rfl⟩ := h.isStr ht
    rfl

/-! ## Expressions that have code -/

/-- An expression for which the compiler has code. -/
def Expr.Compiles (s : Expr.Scope) (e : Expr) : Prop := ∃ under n r, e.lower s under n = .ok r

namespace Expr

variable {s : Scope}

theorem lowerAll_compiles {under : Bool} {es : List Expr} {n n' : Nat} {xs : List (Term .boxed)}
    (h : lowerAll s under es n = .ok (xs, n')) : ∀ e ∈ es, e.Compiles s := by
  induction es generalizing n n' xs with
  | nil => simp
  | cons e rest ih =>
    obtain ⟨x, k, hx, h⟩ := StateT.bind_ok h
    obtain ⟨ys, l, hys, _⟩ := StateT.bind_ok h
    simpa using ⟨⟨under, n, _, hx⟩, ih hys⟩

namespace Compiles

theorem var {t : StaticType} {name : String} (h : (Expr.var t name).Compiles s) :
    ∃ b, s.locals.lookup name = some b := by
  obtain ⟨under, n, r, h⟩ := h
  unfold lower at h
  obtain ⟨y, m, hy, _⟩ := StateT.bind_ok h
  cases hb : s.locals.lookup name with
  | none =>
    simp only [hb] at hy
    cases hy
  | some b => exact ⟨b, rfl⟩

theorem unary {t : StaticType} {op : UnaryOp} {x : Expr} (h : (Expr.unary t op x).Compiles s) :
    x.Compiles s := by
  obtain ⟨under, n, r, h⟩ := h
  unfold lower at h
  obtain ⟨y, m, hy, _⟩ := StateT.bind_ok h
  obtain ⟨c, k, hc, _⟩ := StateT.bind_ok hy
  exact ⟨_, _, _, hc⟩

theorem binary {t : StaticType} {op : BinaryOp} {x y : Expr}
    (h : (Expr.binary t op x y).Compiles s) :
    x.Compiles s ∧ y.Compiles s := by
  obtain ⟨under, n, r, h⟩ := h
  unfold lower at h
  obtain ⟨z, m, hz, _⟩ := StateT.bind_ok h
  obtain ⟨a, k, ha, hz⟩ := StateT.bind_ok hz
  obtain ⟨b, l, hb, _⟩ := StateT.bind_ok hz
  exact ⟨⟨_, _, _, ha⟩, ⟨_, _, _, hb⟩⟩

theorem cond {t : StaticType} {c x y : Expr} (h : (Expr.cond t c x y).Compiles s) :
    c.Compiles s ∧ x.Compiles s ∧ y.Compiles s := by
  obtain ⟨under, n, r, h⟩ := h
  unfold lower at h
  obtain ⟨z, m, hz, _⟩ := StateT.bind_ok h
  obtain ⟨a, k, ha, hz⟩ := StateT.bind_ok hz
  obtain ⟨b, l, hb, hz⟩ := StateT.bind_ok hz
  obtain ⟨d, i, hd, _⟩ := StateT.bind_ok hz
  exact ⟨⟨_, _, _, ha⟩, ⟨_, _, _, hb⟩, ⟨_, _, _, hd⟩⟩

theorem field {t : StaticType} {x : Expr} {name : String} {nullSafe : Bool}
    (h : (Expr.field t x name nullSafe).Compiles s) : x.Compiles s := by
  obtain ⟨under, n, r, h⟩ := h
  unfold lower at h
  obtain ⟨y, m, hy, _⟩ := StateT.bind_ok h
  obtain ⟨c, k, hc, _⟩ := StateT.bind_ok hy
  exact ⟨_, _, _, hc⟩

theorem item {t : StaticType} {x key : Expr} {nullSafe : Bool}
    (h : (Expr.item t x key nullSafe).Compiles s) :
    x.Compiles s ∧ key.Compiles s := by
  obtain ⟨under, n, r, h⟩ := h
  unfold lower at h
  obtain ⟨z, m, hz, _⟩ := StateT.bind_ok h
  obtain ⟨a, k, ha, hz⟩ := StateT.bind_ok hz
  obtain ⟨b, l, hb, _⟩ := StateT.bind_ok hz
  exact ⟨⟨_, _, _, ha⟩, ⟨_, _, _, hb⟩⟩

theorem list {t : StaticType} {es : List Expr} (h : (Expr.list t es).Compiles s) : ∀ e ∈ es,
    e.Compiles s := by
  obtain ⟨under, n, r, h⟩ := h
  unfold lower at h
  obtain ⟨y, m, hy, _⟩ := StateT.bind_ok h
  obtain ⟨xs, k, hxs, _⟩ := StateT.bind_ok hy
  exact lowerAll_compiles hxs

theorem map {t : StaticType} {es : List (Expr × Expr)} (h : (Expr.map t es).Compiles s) :
    ∀ e ∈ es, e.1.Compiles s ∧ e.2.Compiles s := by
  obtain ⟨under, n, r, h⟩ := h
  unfold lower at h
  obtain ⟨y, m, hy, _⟩ := StateT.bind_ok h
  obtain ⟨ks, k, hks, hy⟩ := StateT.bind_ok hy
  obtain ⟨vs, l, hvs, _⟩ := StateT.bind_ok hy
  rw [lowerKeys_eq] at hks
  rw [lowerValues_eq] at hvs
  exact fun e he => ⟨lowerAll_compiles hks _ (List.mem_map_of_mem he),
    lowerAll_compiles hvs _ (List.mem_map_of_mem he)⟩

theorem record {t : StaticType} {fs : List (String × Expr)} (h : (Expr.record t fs).Compiles s) :
    ∀ f ∈ fs, f.2.Compiles s := by
  obtain ⟨under, n, r, h⟩ := h
  unfold lower at h
  obtain ⟨y, m, hy, _⟩ := StateT.bind_ok h
  obtain ⟨xs, k, hxs, _⟩ := StateT.bind_ok hy
  rw [lowerFields_eq] at hxs
  exact fun f hf => lowerAll_compiles hxs _ (List.mem_map_of_mem hf)

/-- A function on a loop is given the variable of one. -/
theorem loop {t : StaticType} {name : String} {es : List Expr}
    (h : (Expr.call t name es).Compiles s) (hname : isLoopHelper name = true) :
    ∃ u v b il, es = [.var u v] ∧ s.locals.lookup v = some b ∧ b.loop = some il := by
  obtain ⟨under, n, r, h⟩ := h
  unfold lower at h
  obtain ⟨y, m, hy, _⟩ := StateT.bind_ok h
  simp only [hname, if_true] at hy
  have hl := (lift_ok hy).1
  unfold loopHelper at hl
  split at hl
  · next u v _ =>
    split at hl
    · next index length hloop =>
      obtain ⟨b, hb, hil⟩ := Option.bind_eq_some_iff.1 hloop
      exact ⟨u, v, b, _, rfl, hb, hil⟩
    · cases hl
  · cases hl
  · cases hl

/-- Any other function is known and given as many arguments as it takes. -/
theorem call {t : StaticType} {name : String} {es : List Expr}
    (h : (Expr.call t name es).Compiles s) (hname : isLoopHelper name = false) :
    (∀ e ∈ es, e.Compiles s) ∧ ∃ f, Function.ofName? name = some f ∧
    f.accepts es.length = true := by
  obtain ⟨under, n, r, h⟩ := h
  unfold lower at h
  obtain ⟨y, m, hy, _⟩ := StateT.bind_ok h
  simp only [hname, if_false, Bool.false_eq_true] at hy
  obtain ⟨f, k, hk, hy⟩ := StateT.bind_ok hy
  obtain ⟨xs, l, hxs, _⟩ := StateT.bind_ok hy
  refine ⟨lowerAll_compiles hxs, ?_⟩
  have hf := (lift_ok hk).1
  unfold function at hf
  split at hf
  · cases hf
  · next g hg =>
    split at hf
    · next hacc => exact ⟨g, hg, hacc⟩
    · cases hf

end Compiles

end Expr

/-! ## Evaluation -/

/-- What is known of the values that names stand for. -/
structure Setting.Typed (S : Setting) (loose : Loose) (fs : Futures) (scope : Bundle.Scope)
    (r : Reading) (ls : Locals) : Prop where
  states : fs.states = S.states
  params : ∀ name t, scope.params.lookup name = some t →
    t.Held loose fs ((S.env.params.lookup name).getD .undefined)
  injected : ∀ name t, scope.injected.lookup name = some t →
    t.Held loose fs ((S.env.injected.lookup name).getD .undefined)
  var : ∀ name t b, scope.locals.lookup name = some t → ls.lookup name = some b →
    S.Yields (r.var name) (r.var name) (t.Conforms loose fs)
  loop : ∀ name b il, ls.lookup name = some b → b.loop = some il →
    S.Yields (r.loop name) (r.loop name) fun _ => True

namespace Expr

variable {S : Setting} {loose : Loose} {fs : Futures} {scope : Bundle.Scope} {r : Reading}
  {stop : Stop}

/-- A value of the type of an expression passes the check. -/
theorem checked {x y : Eval Value} {e : Expr} (ht : e.operandType = e.type)
    (h : S.Yields x y (e.type.Conforms loose fs)) :
    S.Yields (x >>= (r.strict stop).check e.operandType) (y >>= fun v => pure v)
      (e.type.Conforms loose fs) := by
  refine h.bind fun v hv => ?_
  simp only [Reading.strict]
  rw [ht, hv.fits]
  exact .pure hv

theorem evalAll_yields {r' : Reading} {es : List Expr}
    (h : ∀ e ∈ es, ∀ p, S.Yields (e.eval r' p) (e.eval r p) (e.type.Conforms loose fs))
    (p : List Nat) :
    S.Yields (evalAll r' p es) (evalAll r p es)
      (List.Forall₂ (fun e v => e.type.Conforms loose fs v) es) := by
  induction es generalizing p with
  | nil => exact .pure .nil
  | cons e rest ih =>
    exact (h e (by simp) _).bind fun v hv =>
        (ih (fun d hd => h d (by simp [hd])) _).bind fun vs hvs =>
      .pure (.cons hv hvs)

theorem evalEntries_yields {r' : Reading} {es : List (Expr × Expr)}
    (hk : ∀ e ∈ es, ∀ p, S.Yields (e.1.eval r' p) (e.1.eval r p) (e.1.type.Conforms loose fs))
    (hv : ∀ e ∈ es, ∀ p, S.Yields (e.2.eval r' p) (e.2.eval r p) (e.2.type.Conforms loose fs))
    (p : List Nat) :
    S.Yields (evalEntries r' p es) (evalEntries r p es) (List.Forall₂
      (fun e d => e.1.type.Conforms loose fs d.1 ∧ e.2.type.Conforms loose fs d.2) es) := by
  induction es generalizing p with
  | nil => exact .pure .nil
  | cons e rest ih =>
    refine (hk e (by simp) _).bind fun key hkey => (hv e (by simp) _).bind fun v hval => ?_
    cases MapKey.ofValue? key with
    | none => exact .fail _ _
    | some _ =>
      exact (ih (fun d hd => hk d (by simp [hd])) (fun d hd => hv d (by simp [hd])) _).bind
          fun vs hvs =>
        .pure (.cons ⟨hkey, hval⟩ hvs)

theorem evalFields_yields {r' : Reading} {gs : List (String × Expr)}
    (h : ∀ g ∈ gs, ∀ p, S.Yields (g.2.eval r' p) (g.2.eval r p) (g.2.type.Conforms loose fs))
    (p : List Nat) :
    S.Yields (evalFields r' p gs) (evalFields r p gs) fun _ => True := by
  induction gs generalizing p with
  | nil => exact .pure trivial
  | cons g rest ih =>
    exact (h g (by simp) _).bind fun v _ => (ih (fun d hd => h d (by simp [hd])) _).bind fun vs _ =>
      .pure trivial

/-- Every value that stands in a row has the type all expressions of the row share. -/
theorem common_row {es : List Expr} {vs : List Value}
    (h : List.Forall₂ (fun e v => e.type.Conforms loose fs v) es vs) :
    ∀ v ∈ vs, (Typing.common es).Conforms loose fs v := by
  intro v hv
  obtain ⟨i, hi, rfl⟩ := List.getElem_of_mem hv
  have hlen := h.length_eq
  exact Typing.common_conforms (List.getElem_mem (by omega)) (h.get (by omega) hi)

theorem common_entries {es : List (Expr × Expr)} {ds : List (Value × Value)}
    (h : List.Forall₂ (fun e d => e.1.type.Conforms loose fs d.1 ∧ e.2.type.Conforms loose fs d.2)
      es ds) :
    ∀ d ∈ ds, (Typing.common (es.map (·.1))).Held loose fs d.1 ∧
    (Typing.common (es.map (·.2))).Held loose fs d.2 := by
  intro d hd
  obtain ⟨i, hi, rfl⟩ := List.getElem_of_mem hd
  have hlen := h.length_eq
  have hi' : i < es.length := by omega
  have hboth := h.get hi' hi
  have hmem := List.getElem_mem hi'
  exact ⟨(Typing.common_conforms (List.mem_map_of_mem hmem) hboth.1).held,
    (Typing.common_conforms (List.mem_map_of_mem hmem) hboth.2).held⟩

variable {s : Scope} {force : ThunkId → Eval Value}

theorem param_yields (h : S.Typed loose fs scope r s.locals) {t : StaticType} {name : String}
    {injected : Bool} (ht : (if injected then scope.injected else scope.params).lookup name =
      some t) :
    S.Yields (do
      let env ← read
      match (if injected then env.injected else env.params).lookup name with
      | some v => Eval.resolve v
      | none => pure .undefined)
      (do
      let env ← read
      match (if injected then env.injected else env.params).lookup name with
      | some v => Eval.resolve v
      | none => pure .undefined) (t.Conforms loose fs) := by
  refine Setting.Yields.env.bind fun env henv => ?_
  subst henv
  have hheld : t.Held loose fs
      (((if injected then S.env.injected else S.env.params).lookup name).getD .undefined) := by
    cases injected with
    | true => exact h.injected name t ht
    | false => exact h.params name t ht
  cases hv : (if injected then S.env.injected else S.env.params).lookup name with
  | some v =>
    rw [hv] at hheld
    exact (Setting.Yields.resolve h.states v).weaken fun w hw => hheld w hw
  | none =>
    rw [hv] at hheld
    exact .pure (hheld .undefined rfl)

theorem loopHelper_yields (h : S.Typed loose fs scope r s.locals) {name v : String} {u : StaticType}
    {b : Binding} {il : Nat × Nat} (hname : isLoopHelper name = true)
    (hb : s.locals.lookup v = some b) (hil : b.loop = some il) :
    S.Yields (Direct.loopHelper (r.strict stop) name [.var u v])
      (Direct.loopHelper r name [.var u v])
      ((Typing.function name [.var u v]).Conforms loose fs) := by
  refine (h.loop v b il hb hil).bind fun at' _ => ?_
  simp only [isLoopHelper, Bool.or_eq_true, beq_iff_eq] at hname
  rcases hname with (rfl | rfl) | rfl
  · exact .pure (StaticType.conforms_bool _)
  · exact .pure (StaticType.conforms_bool _)
  · exact .pure (StaticType.conforms_int _)

theorem name_of_ofName {name : String} {f : Function} (h : Function.ofName? name = some f) :
    f.name = name := by
  simpa using List.find?_some h

theorem call_yields (hfs : fs.states = S.states) {name : String} {f : Function} {es : List Expr}
    {args : List Value} (hf : Function.ofName? name = some f) (hacc : f.accepts es.length = true)
    (hargs : List.Forall₂ (fun e v => e.type.Conforms loose fs v) es args) (p : List Nat) :
    S.Yields (Direct.call name p args) (Direct.call name p args)
      ((Typing.function name es).Conforms loose fs) := by
  simp only [Direct.call, hf]
  rw [← name_of_ofName hf]
  have hlen := hargs.length_eq
  refine Setting.Yields.mapFailure _ ?_
  by_cases hcheck : f = .checkNotNull
  · subst hcheck
    obtain ⟨e, rfl⟩ := List.length_eq_one_iff.1 (beq_iff_eq.1 hacc)
    obtain ⟨v, rfl⟩ := List.length_eq_one_iff.1 hlen.symm
    exact Typing.checkNotNull_yields (List.forall₂_cons.1 hargs).1
  · exact Typing.apply_yields hfs hcheck (hlen ▸ hacc) hlen

/-- By induction over the ways types are inferred: whatever a part yields fits what is asked of
it. -/
theorem eval_yields (h : S.Typed loose fs scope (s.locals.reading force) s.locals) {e : Expr}
    (hi : e.Inferred scope) (hc : e.Compiles s) (p : List Nat) :
    S.Yields (e.eval ((s.locals.reading force).strict stop) p) (e.eval (s.locals.reading force) p)
      (e.type.Conforms loose fs) := by
  induction hi generalizing p with
  | lit v plain =>
    unfold eval
    exact checked rfl (.pure (Typing.ofValue_conforms v))
  | param ht =>
    unfold eval
    exact checked rfl (param_yields h ht)
  | @var t name ht =>
    unfold eval
    obtain ⟨b, hb⟩ := hc.var
    exact checked rfl (h.var name t b ht hb)
  | not hx ih =>
    unfold eval
    exact checked rfl (Typing.not_yields (ih hc.unary p))
  | neg hx ih =>
    unfold eval
    refine checked rfl ?_
    simp only [hx.operandType]
    exact Typing.negation_yields (ih hc.unary p)
  | binary hx hy ihx ihy =>
    unfold eval
    refine checked rfl ?_
    simp only [hx.operandType, hy.operandType]
    exact Typing.binary_yields _ (ihx hc.binary.1 _) (ihy hc.binary.2 _)
  | cond hc' hx hy ihc ihx ihy =>
    unfold eval
    exact checked rfl (Typing.cond_yields (ihc hc.cond.1 _) (ihx hc.cond.2.1 _) (ihy hc.cond.2.2 _))
  | field hx ih =>
    unfold eval
    exact checked rfl ((ih hc.field p).bind fun v _ => Typing.field_yields h.states v _ _)
  | item hx hk ihx ihk =>
    unfold eval
    exact checked rfl (Typing.access_yields h.states _ (ihx hc.item.1 _) (ihk hc.item.2 _))
  | list hes ih =>
    unfold eval
    refine checked rfl ((evalAll_yields (fun e he => ih e he (hc.list e he)) _).bind fun vs hvs =>
      ?_)
    exact .newList p fun _ => StaticType.conforms_list fun v hv => (common_row hvs v hv).held
  | map hk hv ihk ihv =>
    unfold eval
    refine checked rfl ((evalEntries_yields (fun e he => ihk e he (hc.map e he).1)
      (fun e he => ihv e he (hc.map e he).2) _).bind fun ds hds => ?_)
    refine (Setting.Yields.origin p).bind fun self _ => .pure (StaticType.conforms_map ?_)
    exact Value.forall_sets (common_entries hds) (by simp)
  | record hf ih =>
    unfold eval
    refine checked rfl ((evalFields_yields (fun g hg => ih g hg (hc.record g hg)) _).bind
      fun vs _ => ?_)
    exact (Setting.Yields.origin p).bind fun self _ => .pure (StaticType.conforms_record _ _)
  | @call name es hes ih =>
    unfold eval
    refine checked (Inferred.call hes).operandType ?_
    cases hname : isLoopHelper name with
    | true =>
      obtain ⟨u, v, b, il, rfl, hb, hil⟩ := hc.loop hname
      simp only [hname, if_true]
      exact loopHelper_yields h hname hb hil
    | false =>
      obtain ⟨hparts, f, hf, hacc⟩ := hc.call hname
      simp only [hname, Bool.false_eq_true, if_false]
      exact (evalAll_yields (fun e he => ih e he (hparts e he)) _).bind fun vs hvs =>
        call_yields h.states hf hacc hvs p

end Expr

/-! ## Code -/

namespace Setting

variable {S : Setting} {α : Type}

/-- What an evaluation that keeps results comes to in one memory, the one that keeps none comes to
in all. -/
theorem Tracks.yields {x y : Eval α} {Q : α → Prop} (h : S.Tracks α x y) {m : Memory}
    (hm : S.Sound m) (hQ : ∀ a m', x S.env m = .ok a m' → Q a) : S.Yields y y Q := by
  intro n hn
  have hrun := h m hm n hn
  cases hx : x S.env m <;> cases hy : y S.env n <;> rw [hx, hy] at hrun
  · next a m' b n' =>
    obtain ⟨rfl, hs⟩ := hrun
    obtain ⟨blurs, _, hc⟩ := hs.calm
    exact ⟨.ok a, blurs, n', rfl, rfl, hc, fun _ ha => by cases ha; exact hQ a m' hx⟩
  · exact hrun.elim
  · exact hrun.elim
  · next e m' f n' =>
    obtain ⟨rfl, hs⟩ := hrun
    obtain ⟨blurs, _, hc⟩ := hs.calm
    exact ⟨.error e, blurs, n', rfl, rfl, hc, fun _ ha => by cases ha⟩

end Setting

/-- The memory in which code that stands at a place is evaluated, at first or again. The cells from
`low` on keep nothing but what parts of the code mean, and deferred values keep nothing but what
they mean. -/
structure Compiled.Entered (c : Compiled) (made : Array Thunk) (low : Nat)
    (place : List Nat) (env : Env) (m : Memory) : Prop where
  tidy : Thunk.AllTidy made
  sound : ∃ table : Table, c.Touches table.see table.keep place ∧ (∀ i, i < low → table i = none) ∧
    Setting.Sound
      { made, states := m.states, env, base := m.cells,
        kept := table.meanings (Thunk.meaning made) } m

/-- Code is entered with empty memo cells. -/
theorem Expr.compile_entered {s : Expr.Scope} {slots slots' : Slots} {e : Expr} {c : Compiled}
    (hw : slots.Wf) (hs : s.locals.Seen (· < slots.mark)) (h : e.compile s slots = .ok (c, slots'))
    {made : Array Thunk} (ht : Thunk.AllTidy made) (place : List Nat) (env : Env) {m : Memory}
    (hm : m.heap.Sound made)
    (hempty : ∀ i, slots.mark ≤ i → i < slots'.mark → ∀ v, m.cells.read i ≠ .value v) :
    c.Entered made slots.mark place env m := by
  obtain ⟨table, htouch, hrange⟩ := Expr.compile_table hw hs h place
  have hlow (i : Nat) (hi : i < slots.mark) : table i = none :=
    Classical.byContradiction fun hne => Nat.not_le.2 hi (hrange i hne).1
  refine ⟨ht, table, htouch.mono hlow fun _ _ _ h => h, hlow, ⟨rfl, hm, fun _ _ => rfl, ?_⟩⟩
  intro i d v hi hv
  simp only [Table.meanings, Option.map_eq_some_iff] at hi
  obtain ⟨px, hpx, _⟩ := hi
  obtain ⟨h₁, h₂⟩ := hrange i (by rw [hpx]; simp)
  exact absurd hv (hempty i h₁ h₂ v)

/-- The values that the names of a scope stand for are of the types of the names. -/
structure Bundle.Scope.Holds (scope : Bundle.Scope) (loose : Loose) (ls : Locals) (env : Env)
    (m : Memory) : Prop where
  params : ∀ name t, scope.params.lookup name = some t →
    t.Held loose m.heap.futures ((env.params.lookup name).getD .undefined)
  injected : ∀ name t, scope.injected.lookup name = some t →
    t.Held loose m.heap.futures ((env.injected.lookup name).getD .undefined)
  locals : ∀ name t b, scope.locals.lookup name = some t → ls.lookup name = some b →
    ∀ v m', b.eval Thunk.force env m = .ok v m' → t.Conforms loose m.heap.futures v

theorem Bundle.Scope.Holds.typed {scope : Bundle.Scope} {loose : Loose} {ls : Locals}
    {env : Env} {m : Memory} (h : scope.Holds loose ls env m) {made : Array Thunk} {base : Cells}
    {kept : Nat → Option (Eval Value)} {table : Table}
    (husual : Congruence (Setting.mk made m.states env base kept).Tracks table.see table.keep .usual
      (.meaning made)) (hm : (Setting.mk made m.states env base kept).Sound m) {low : Nat}
    (hseen : ls.Seen (· < low)) (hlow : ∀ i, i < low → table i = none) :
    (Setting.mk made m.states env base kept).Typed loose m.heap.futures scope
      (ls.reading (Thunk.meaning made)) ls where
  states := rfl
  params := h.params
  injected := h.injected
  var name t b ht hb := by
    have hloc := husual.binding b ((hseen.mono hlow) name b hb).touches
    simp only [Locals.reading, hb]
    exact hloc.yields hm (h.locals name t b ht hb)
  loop name b il hb hil := by
    have hcell (i : Nat) (hi : i < low) := husual.cell i (hlow i hi)
    have hloop := (hseen name b hb).loop il.1 il.2 hil
    simp only [Locals.reading, hb, Option.bind_some, hil]
    exact ((hcell _ hloop.1).yields hm fun _ _ _ => trivial).bind fun _ _ =>
      ((hcell _ hloop.2).yields hm fun _ _ _ => trivial).bind fun _ _ => .pure trivial

theorem Expr.compile_compiles {s : Expr.Scope} {slots slots' : Slots} {e : Expr} {c : Compiled}
    (h : e.compile s slots = .ok (c, slots')) : e.Compiles s := by
  unfold Expr.compile at h
  simp only at h
  split at h
  all_goals
    obtain ⟨r, hr, _⟩ := Except.bind_ok h
    exact ⟨_, _, _, hr⟩

/-- The types that are inferred for an expression are sound. Its code comes to values of its type
only, and to the same end as the evaluation that stops, with whatever `stop`, as soon as a part of
static type int, float or string has a value of another kind. -/
theorem Bundle.expr_sound {scope : Bundle.Scope} {node : Yaml.Node} {fuel : Nat}
    {n n' : Identity} {e : Expr} (hread : Bundle.expr fuel scope (some node) n = .ok (e, n'))
    (huntyped : node.untyped = true) {analyzer : Analyzer} {ls : Locals} {slots slots' : Slots}
    {c : Compiled} (hcompile : e.compile ⟨analyzer, ls⟩ slots = .ok (c, slots'))
    (hseen : ls.Seen (· < slots.mark)) {made : Array Thunk} {place : List Nat}
    {env : Env} {m : Memory} (hentered : c.Entered made slots.mark place env m) {loose : Loose}
    (hholds : scope.Holds loose ls env m) :
    (∀ v m', c.value .usual place env m = .ok v m' → e.type.Conforms loose m.heap.futures v) ∧
    ∀ stop, ∃ r m' k, c.value .usual place env m = Eval.ending r m' ∧
      e.eval ((ls.reading (Thunk.meaning made)).strict stop) place env m = Eval.ending r k := by
  have hinferred : e.Inferred scope :=
    (Bundle.infers fuel).expr hread (by rintro _ ⟨⟩; exact huntyped)
  obtain ⟨table, htouch, hlow, hsound⟩ := hentered.sound
  let S : Setting := { made, states := m.states, env, base := m.cells,
                       kept := table.meanings (Thunk.meaning made) }
  have husual : Congruence S.Tracks table.see table.keep .usual (.meaning made) :=
    S.usual hentered.tidy rfl
  have hcode : S.Tracks Value (c.value .usual place)
      (e.eval (ls.reading (Thunk.meaning made)) place) := by
    have hmeans : c.value (.meaning made) place = e.eval (ls.reading (Thunk.meaning made)) place :=
      Expr.compile_means hcompile (Thunk.meaning made) place
    rw [← hmeans]
    exact husual.value htouch
  have hyields (stop : Stop) :
      S.Yields (e.eval ((ls.reading (Thunk.meaning made)).strict stop) place)
          (e.eval (ls.reading (Thunk.meaning made)) place) (e.type.Conforms loose m.heap.futures) :=
    Expr.eval_yields (hholds.typed husual hsound hseen hlow) hinferred
      (Expr.compile_compiles hcompile) place
  have hrun := hcode m hsound m ⟨rfl, fun _ _ => rfl⟩
  have hends (stop : Stop) : ∃ r m' k, c.value .usual place env m = Eval.ending r m' ∧
      e.eval ((ls.reading (Thunk.meaning made)).strict stop) place env m = Eval.ending r k ∧
      ∀ v, r = .ok v → e.type.Conforms loose m.heap.futures v := by
    obtain ⟨r, b, k, hstrict, hplain, _, hr⟩ := hyields stop m ⟨rfl, fun _ _ => rfl⟩
    rw [hplain] at hrun
    change S.Follows m m (c.value .usual place env m) (Eval.ending r k) at hrun
    cases r with
    | ok v =>
      cases hx : c.value .usual place env m <;> rw [hx] at hrun
      · obtain ⟨rfl, _⟩ := hrun
        exact ⟨_, _, k, rfl, hstrict, hr⟩
      · exact hrun.elim
    | error stopped =>
      cases hx : c.value .usual place env m <;> rw [hx] at hrun
      · exact hrun.elim
      · obtain ⟨rfl, _⟩ := hrun
        exact ⟨_, _, k, rfl, hstrict, hr⟩
  refine ⟨fun v m' hv => ?_, fun stop => ?_⟩
  · obtain ⟨r, l, k, hx, _, hr⟩ := hends .broken
    rw [hv] at hx
    cases r with
    | ok w =>
      cases hx
      exact hr _ rfl
    | error _ => cases hx
  · obtain ⟨r, m', k, hx, hstrict, _⟩ := hends stop
    exact ⟨r, m', k, hx, hstrict⟩

/-! ## A sum of two params -/

namespace Sample

/-- A word of a bundle. -/
def word (text : String) : Yaml.Node := .scalar default "!!str" .plain text

/-- The sum of two params as a bundle has it. -/
def sumNode : Yaml.Node :=
  .mapping default [(word "op", word "+"), (word "args", .sequence default
    [.mapping default [(word "param", word "count")],
      .mapping default [(word "param", word "share")]])]

def sumScope : Bundle.Scope :=
  { source := "", space := "", params := [("count", .int), ("share", .float)], injected := [],
    locals := [] }

def sum : Expr := .binary .float .add (.param .int "count" false) (.param .float "share" false)

/-- The code of the sum, which keeps its operands and its result. -/
def sumCode : Compiled :=
  { type := .float, maySuspend := true, start := 0, width := 3
    root := .boxed (.memo 2
      (.boxFloat (.arithFloat .add (.unboxFloat (.memo 0 (.param "count" false)))
        (.unboxFloat (.memo 1 (.param "share" false)))))) }

def sumSlots : Slots := (Slots.new.anonymous .memo 3).2

/-- One param is known, the other is a future. -/
def sumEnv : Env := { params := [("count", .int 2), ("share", .future 0)], injected := [],
                      context := {} }

/-- The future was completed, and nothing was kept yet. -/
def sumMemory : Memory :=
  { cells := Cells.cleared 3,
    heap := { futures := { states := #[.complete (.float 0.5)], reads := #[0] } } }

/-- Anything may have a record or content type. -/
def anything : Loose := { admits := fun _ _ => True, record := by simp, settled := by simp }

theorem sum_read : Bundle.expr 8 sumScope (some sumNode) 0 = .ok (sum, 0) := by cbv

theorem sum_compiled : sum.compile ⟨.conservative, .empty⟩ .new = .ok (sumCode, sumSlots) := by cbv

theorem sum_holds : sumScope.Holds anything .empty sumEnv sumMemory where
  params name t ht := by
    by_cases hcount : name = "count"
    · subst hcount
      cases ht
      exact (StaticType.conforms_int 2).held
    · by_cases hshare : name = "share"
      · subst hshare
        cases ht
        rintro w ⟨⟩
        exact StaticType.conforms_float _
      · simp [sumScope, List.lookup_cons, beq_eq_false_iff_ne.2 hcount,
          beq_eq_false_iff_ne.2 hshare] at ht
  injected name t ht := by cases ht
  locals name t b ht := by cases ht

theorem sum_entered : sumCode.Entered #[] Slots.new.mark [] sumEnv sumMemory := by
  refine Expr.compile_entered Slots.new_wf (Locals.seen_empty _) sum_compiled
    (fun id g hg => by simp at hg) [] sumEnv ⟨rfl, fun id t g ht => ?_⟩ fun i _ _ v hv => ?_
  · simp [sumMemory] at ht
  · simp only [sumMemory, Cells.read_cleared] at hv
    cases hv

end Sample

/-- The sum of an integer and a number is a number. -/
theorem Sample.sum_sound :
    (∀ v m', sumCode.value .usual [] sumEnv sumMemory = .ok v m' →
      StaticType.float.Conforms anything sumMemory.heap.futures v) ∧
    ∀ stop, ∃ r m' k, sumCode.value .usual [] sumEnv sumMemory = Eval.ending r m' ∧
      sum.eval ((Locals.empty.reading (Thunk.meaning #[])).strict stop) [] sumEnv sumMemory =
    Eval.ending r k :=
  Bundle.expr_sound sum_read (by cbv) sum_compiled (Locals.seen_empty _) sum_entered sum_holds

end Interlude
