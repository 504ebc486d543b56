import Interlude.Proofs.Eval.Plain
import Interlude.Proofs.Expr.Direct
/-!
# Expressions that wait for nothing

An expression that reads params and locals only as plain values comes to a plain value or to a
failure, whatever the futures are: its literals are plain, and so is all that is made of them
(`Names.eval`).
-/

namespace Interlude

namespace Expr

mutual

/-- Whether evaluation reads a param, given or injected. -/
def readsParam : Expr → Bool
  | lit .. => false
  | param .. => true
  | var .. => false
  | unary _ _ x => x.readsParam
  | binary _ _ x y => x.readsParam || y.readsParam
  | cond _ c x y => c.readsParam || x.readsParam || y.readsParam
  | field _ x _ _ => x.readsParam
  | item _ x key _ => x.readsParam || key.readsParam
  | list _ es => readsParamAny es
  | map _ es => readsParamEntries es
  | record _ fs => readsParamFields fs
  | call _ _ es => readsParamAny es

def readsParamAny : List Expr → Bool
  | [] => false
  | e :: es => e.readsParam || readsParamAny es

def readsParamEntries : List (Expr × Expr) → Bool
  | [] => false
  | (k, v) :: es => k.readsParam || v.readsParam || readsParamEntries es

def readsParamFields : List (String × Expr) → Bool
  | [] => false
  | (_, e) :: fs => e.readsParam || readsParamFields fs

end

theorem readsParamAny_iff {es : List Expr} : readsParamAny es = false ↔ ∀ e ∈ es,
    e.readsParam = false := by
  induction es with
  | nil => simp [readsParamAny]
  | cons e rest ih => simp [readsParamAny, ih]

theorem readsParamEntries_iff {es : List (Expr × Expr)} : readsParamEntries es = false ↔
    ∀ e ∈ es.map (·.1) ++ es.map (·.2), e.readsParam = false := by
  induction es with
  | nil => simp [readsParamEntries]
  | cons e rest ih =>
    simp only [readsParamEntries, Bool.or_eq_false_iff, ih, List.map_cons, List.cons_append,
      List.forall_mem_cons, List.forall_mem_append]
    tauto

theorem readsParamFields_iff {fs : List (String × Expr)} :
    readsParamFields fs = false ↔ ∀ e ∈ fs.map (·.2), e.readsParam = false := by
  induction fs with
  | nil => simp [readsParamFields]
  | cons f rest ih => simp [readsParamFields, ih]

/-- The parts of an expression that reads no param read none. -/
theorem readsParam_parts {e : Expr} (h : e.readsParam = false) : ∀ c ∈ e.parts,
    c.readsParam = false := by
  cases e with
  | lit | param | var => intro c hc; cases hc
  | unary | field => simpa [parts, children, readsParam] using h
  | binary | item => simpa [parts, children, readsParam] using h
  | cond => simpa [parts, children, readsParam, and_assoc] using h
  | list _ es => exact readsParamAny_iff.1 h
  | map _ es => exact readsParamEntries_iff.1 h
  | record _ fs => exact readsParamFields_iff.1 h
  | call _ name es =>
    simp only [parts]
    split
    · intro c hc; cases hc
    · exact readsParamAny_iff.1 h

end Expr

namespace Regime

variable {R : Regime} {env : Env} {x y c : Eval Value}

/-! ## Operators -/

namespace Gives

theorem asInt (h : R.Gives env x Value.Plain) : R.Gives env (Direct.int x) fun _ => True :=
  h.bind fun _ _ => attempt _

theorem asFloat (h : R.Gives env x Value.Plain) : R.Gives env (Direct.float x) fun _ => True :=
  h.bind fun _ _ => attempt _

theorem asBool (h : R.Gives env x Value.Plain) : R.Gives env (Direct.bool x) fun _ => True :=
  h.bind fun _ _ => .pure trivial

theorem asText (h : R.Gives env x Value.Plain) : R.Gives env (Direct.text x) fun _ => True :=
  h.bind fun _ hv => text hv

theorem unary (op : UnaryOp) (t : StaticType) (hx : R.Gives env x Value.Plain) :
    R.Gives env (Direct.unary op t x) Value.Plain := by
  unfold Direct.unary
  split
  · exact hx.asBool.bind fun _ _ => .pure rfl
  · split
    · exact hx.asInt.bind fun _ _ => .pure rfl
    · split
      · exact hx.asFloat.bind fun _ _ => .pure rfl
      · exact hx.bind fun _ _ => (ofExcept _).weaken fun _ => Value.plain_neg

section

variable (hx : R.Gives env x Value.Plain) (hy : R.Gives env y Value.Plain)

include hx hy

theorem arithInt (op : Arith) : R.Gives env (Direct.arithInt op x y) Value.Plain :=
  hx.asInt.bind fun _ _ => hy.asInt.bind fun _ _ => (attempt _).bind fun _ _ => .pure rfl

theorem arithFloat (op : Arith) : R.Gives env (Direct.arithFloat op x y) Value.Plain :=
  hx.asFloat.bind fun _ _ => hy.asFloat.bind fun _ _ => .pure rfl

theorem arithBoxed (op : Arith) : R.Gives env (Direct.arithBoxed op x y) Value.Plain :=
  hx.bind fun _ ha => hy.bind fun _ hb => arith op ha hb

theorem arithmetic (op : Arith) (t u : StaticType) :
    R.Gives env (Direct.arith op t u x y) Value.Plain := by
  unfold Direct.arith
  simp only
  split
  · split
    · exact hx.arithFloat hy _
    · exact hx.arithBoxed hy _
  · split
    · exact hx.arithInt hy _
    · exact hx.arithBoxed hy _
  · split
    · exact hx.arithInt hy _
    · split
      · exact hx.arithFloat hy _
      · split
        · exact hx.asText.bind fun _ _ => hy.asText.bind fun _ _ => .pure rfl
        · exact hx.arithBoxed hy _

theorem comparison (op : Comparison) (t u : StaticType) :
    R.Gives env (Direct.comparison op t u x y) Value.Plain := by
  unfold Direct.comparison
  split
  · exact hx.asInt.bind fun _ _ => hy.asInt.bind fun _ _ => .pure rfl
  · split
    · exact hx.asFloat.bind fun _ _ => hy.asFloat.bind fun _ _ => .pure rfl
    · split
      · exact hx.asText.bind fun _ _ => hy.asText.bind fun _ _ => .pure rfl
      · exact hx.bind fun _ _ => hy.bind fun _ _ => (attempt _).bind fun _ _ => .pure rfl

theorem binary (op : BinaryOp) (t u : StaticType) :
    R.Gives env (Direct.binary op t u x y) Value.Plain := by
  cases op with
  | add => exact hx.arithmetic hy .add t u
  | sub => exact hx.arithmetic hy .sub t u
  | mul => exact hx.arithmetic hy .mul t u
  | div => exact hx.arithmetic hy .div t u
  | mod => exact hx.arithmetic hy .mod t u
  | eq | notEq | less | lessEq | greater | greaterEq => exact hx.comparison hy _ t u
  | and | or =>
    refine hx.asBool.bind fun b _ => ?_
    cases b with
    | true => first | exact .pure rfl | exact hy.asBool.bind fun _ _ => .pure rfl
    | false => first | exact .pure rfl | exact hy.asBool.bind fun _ _ => .pure rfl
  | coalesce =>
    refine hx.bind fun a ha => ?_
    split
    · exact hy
    · exact .pure ha

theorem cond (hc : R.Gives env c Value.Plain) : R.Gives env (Direct.cond c x y) Value.Plain := by
  refine hc.asBool.bind fun b _ => ?_
  cases b with
  | true => exact hx
  | false => exact hy

theorem access (nullSafe : Bool) : R.Gives env (Direct.item x y nullSafe) Value.Plain := by
  refine hx.bind fun v hv => ?_
  split
  · split
    · exact .pure rfl
    · exact .fail
  · exact hy.bind fun k _ => item hv k

end

theorem function (name : String) (p : List Nat) {args : List Value} (h : ∀ v ∈ args, v.Plain) :
    R.Gives env (Direct.call name p args) Value.Plain := by
  unfold Direct.call
  split
  · exact call p _ h
  · exact .pure rfl

end Gives

/-! ## Expressions -/

/-- Expressions whose names are read as plain values: they have none but such parts. -/
structure Names (R : Regime) (env : Env) (r : Reading) (ok : Expr → Prop) : Prop where
  parts : ∀ {e}, ok e → ∀ c ∈ e.parts, ok c
  param : ∀ {t name injected}, ok (.param t name injected) →
    ∀ v, (if injected then env.injected else env.params).lookup name = some v →
    R.Gives env (Eval.resolve v) Value.Plain
  var : ∀ {t name}, ok (.var t name) → R.Gives env (r.var name) Value.Plain
  loop : ∀ name, R.Gives env (r.loop name) fun _ => True
  check : ∀ t v, v.Plain → R.Gives env (r.check t v) Value.Plain

section

variable {r : Reading} {ok : Expr → Prop}

theorem Names.loopHelper (h : R.Names env r ok) (name : String) (es : List Expr) :
    R.Gives env (Direct.loopHelper r name es) Value.Plain := by
  unfold Direct.loopHelper
  split
  · refine (h.loop _).bind fun _ _ => ?_
    simp only
    split
    · exact .pure rfl
    · split <;> exact .pure rfl
  · exact .pure rfl

open Interlude.Expr

mutual

theorem Names.eval (h : R.Names env r ok) (e : Expr) (he : ok e) (p : List Nat) :
    R.Gives env (e.eval r p) Value.Plain := by
  rw [Expr.eval.eq_def]
  refine Gives.bind (P := Value.Plain) ?_ fun v hv => h.check _ v hv
  have hparts := h.parts he
  match e with
  | .lit _ v plain => exact .pure plain
  | .param _ name injected =>
    refine Gives.env'.bind fun env' henv => ?_
    subst henv
    split
    · next v hv => exact h.param he v hv
    · exact .pure rfl
  | .var _ name => exact h.var he
  | .unary _ op x => exact (h.eval x (hparts x (by simp [Expr.parts, children])) p).unary op _
  | .binary _ op x y =>
    have hx := h.eval x (hparts x (by simp [Expr.parts, children]))
    exact (hx _).binary (h.eval y (hparts y (by simp [Expr.parts, children])) _) op _ _
  | .cond _ c x y =>
    have hc := h.eval c (hparts c (by simp [Expr.parts, children]))
    have hx := h.eval x (hparts x (by simp [Expr.parts, children]))
    exact (hx _).cond (h.eval y (hparts y (by simp [Expr.parts, children])) _) (hc _)
  | .field _ x name nullSafe =>
    exact (h.eval x (hparts x (by simp [Expr.parts, children])) p).bind fun v hv =>
      Gives.field hv name nullSafe
  | .item _ x key nullSafe =>
    have hx := h.eval x (hparts x (by simp [Expr.parts, children]))
    exact (hx _).access (h.eval key (hparts key (by simp [Expr.parts, children])) _) nullSafe
  | .list _ es => exact (h.evalAll es hparts _).bind fun vs hvs => Gives.newList hvs p
  | .map _ es =>
    refine (h.evalEntries es (fun k hk => hparts k (List.mem_append_left _ hk))
      (fun x hx => hparts x (List.mem_append_right _ hx)) _).bind fun ds hds => ?_
    exact (Gives.origin p).bind fun _ _ => .pure (Value.plain_merged hds)
  | .record _ fs =>
    refine (h.evalFields fs hparts _).bind fun vs hvs => (Gives.origin p).bind fun _ _ =>
      .pure (Value.plain_recordOf fun f hf => ?_)
    exact hvs _ (List.of_mem_zip hf).2
  | .call _ name es =>
    simp only
    split
    · exact h.loopHelper name es
    · next hname =>
      have hes : ∀ e ∈ es, ok e := by simpa [Expr.parts, hname] using hparts
      exact (h.evalAll es hes _).bind fun vs hvs => Gives.function name p hvs

theorem Names.evalAll (h : R.Names env r ok) (es : List Expr) (he : ∀ e ∈ es, ok e) (p : List Nat) :
    R.Gives env (Expr.evalAll r p es) fun vs => ∀ v ∈ vs, v.Plain := by
  match es with
  | [] => exact .pure fun _ hv => by cases hv
  | e :: rest =>
    have he := List.forall_mem_cons.1 he
    exact (h.eval e he.1 _).bind fun _ hv => (h.evalAll rest he.2 _).bind fun _ hvs =>
      .pure (List.forall_mem_cons.2 ⟨hv, hvs⟩)

theorem Names.evalEntries (h : R.Names env r ok) (es : List (Expr × Expr))
    (hk : ∀ e ∈ es.map (·.1), ok e) (hv : ∀ e ∈ es.map (·.2), ok e) (p : List Nat) :
    R.Gives env (Expr.evalEntries r p es) fun ds => ∀ d ∈ ds, d.1.Plain ∧ d.2.Plain := by
  match es with
  | [] => exact .pure fun _ hv => by cases hv
  | (k, x) :: rest =>
    have hk := List.forall_mem_cons.1 hk
    have hv := List.forall_mem_cons.1 hv
    refine (h.eval k hk.1 _).bind fun key hkey => (h.eval x hv.1 _).bind fun v hx => ?_
    split
    · exact .fail
    · exact (h.evalEntries rest hk.2 hv.2 _).bind fun _ hds =>
        .pure (List.forall_mem_cons.2 ⟨⟨hkey, hx⟩, hds⟩)

theorem Names.evalFields (h : R.Names env r ok) (fs : List (String × Expr))
    (he : ∀ e ∈ fs.map (·.2), ok e) (p : List Nat) : R.Gives env (Expr.evalFields r p fs) fun vs =>
    ∀ v ∈ vs, v.Plain := by
  match fs with
  | [] => exact .pure fun _ hv => by cases hv
  | (_, e) :: rest =>
    have he := List.forall_mem_cons.1 he
    exact (h.eval e he.1 _).bind fun _ hv => (h.evalFields rest he.2 _).bind fun _ hvs =>
      .pure (List.forall_mem_cons.2 ⟨hv, hvs⟩)

end

end

/-- Evaluations that come to a result or a failure, in whatever memory. -/
def prompt : Regime where
  holds _ := True
  stops e := ∃ cause, e = .failed cause
  failed cause := ⟨cause, rfl⟩

end Regime

end Interlude
