import Interlude.Proofs.Expr.Direct
import Interlude.Proofs.Type.Conform
/-!
# Values that evaluations come to

Two evaluations yield values of a sort if they come to the same end and, where that is a value, to
one of the sort. The operators and functions on values yield what the rules of `Typing` say of their
results (`apply_yields`).
-/

namespace Interlude

namespace Setting

/-- Two evaluations come to the same end, and to no values but such as `Q` tells. -/
def Yields (S : Setting) {α : Type} (x y : Eval α) (Q : α → Prop) : Prop :=
  ∀ n, S.View n → ∃ r b k, x S.env n = Eval.ending r k ∧ y S.env n = Eval.ending r k ∧ Calm b n k ∧
    ∀ a, r = .ok a → Q a

namespace Yields

variable {S : Setting} {α β : Type}

theorem weaken {x y : Eval α} {Q R : α → Prop} (h : S.Yields x y Q) (hQ : ∀ a, Q a → R a) :
    S.Yields x y R := by
  intro n hn
  obtain ⟨r, b, k, hx, hy, hc, hr⟩ := h n hn
  exact ⟨r, b, k, hx, hy, hc, fun a ha => hQ a (hr a ha)⟩

theorem pure {a : α} {Q : α → Prop} (h : Q a) : S.Yields (Pure.pure a) (Pure.pure a) Q := fun n _ =>
  ⟨.ok a, false, n, rfl, rfl, Calm.refl n, fun _ hb => by cases hb; exact h⟩

theorem fail (e : Failure) (Q : α → Prop) : S.Yields (Eval.fail e) (Eval.fail e) Q := fun n _ =>
  ⟨.error (.failed e), false, n, rfl, rfl, Calm.refl n, fun _ hb => by cases hb⟩

theorem bind {x y : Eval α} {f g : α → Eval β} {Q : α → Prop} {R : β → Prop} (hx : S.Yields x y Q)
    (hf : ∀ a, Q a → S.Yields (f a) (g a) R) : S.Yields (x >>= f) (y >>= g) R := by
  intro n hn
  obtain ⟨r, b, k, hxn, hyn, hc, hr⟩ := hx n hn
  rw [Eval.bind_apply, Eval.bind_apply, hxn, hyn]
  cases r with
  | error e => exact ⟨.error e, b, k, rfl, rfl, hc, fun _ ha => by cases ha⟩
  | ok a =>
    obtain ⟨r', b', k', hfn, hgn, hc', hr'⟩ := hf a (hr a rfl) k (hn.calm hc)
    exact ⟨r', b || b', k', hfn, hgn, hc.trans hc', hr'⟩

theorem ofExcept (r : Except Failure α) : S.Yields (Eval.ofExcept r) (Eval.ofExcept r) fun a =>
    r = .ok a := by
  cases r with
  | ok a => exact .pure rfl
  | error e => exact .fail e _

theorem env : S.Yields (α := Env) read read (· = S.env) := fun n _ =>
  ⟨.ok S.env, false, n, rfl, rfl, Calm.refl n, fun _ ha => by cases ha; rfl⟩

/-- An evaluation that reads nothing but the states of futures yields what it comes to. -/
theorem of_states {x : Eval α} {Q : α → Prop} (blurs : Bool) (result : Futures → Except Stop α)
    (reads : Futures → Futures) (hs : ∀ fs, (reads fs).states = fs.states)
    (h : ∀ m, x S.env m = Eval.ending (result m.heap.futures)
      (Eval.touched m (reads m.heap.futures) blurs))
    (hQ : ∀ fs a, fs.states = S.states → result fs = .ok a → Q a) : S.Yields x x Q := fun n hn =>
  ⟨_, blurs, _, h n, h n, ⟨rfl, hs _, rfl⟩, fun a ha => hQ _ a hn.states ha⟩

theorem resolve {fs : Futures} (hfs : fs.states = S.states) (v : Value) :
    S.Yields (Eval.resolve v) (Eval.resolve v) fun w => (fs.resolve v).1 = .value w := by
  refine of_states false (fun fs => (fs.resolve v).1.result) (fun fs => (fs.resolve v).2)
    (fun fs => Futures.resolve_states fs v) (Eval.resolve_apply v S.env) fun gs w hgs hw => ?_
  rw [Futures.resolve_congr (hgs.trans hfs.symm) v]
  cases hr : (gs.resolve v).1 <;> rw [hr] at hw <;> cases hw
  rfl

theorem text (v : Value) : S.Yields (Eval.text v) (Eval.text v) fun _ => True :=
  of_states v.holdsFuture (fun fs => .ok (v.text fs)) id (fun _ => rfl) (Eval.text_apply v S.env)
    fun _ _ _ _ => trivial

theorem mapFailure {x y : Eval α} {Q : α → Prop} (change : Failure → Failure) (h : S.Yields x y Q) :
    S.Yields (Eval.mapFailure change x) (Eval.mapFailure change y) Q := by
  intro n hn
  obtain ⟨r, b, k, hx, hy, hc, hr⟩ := h n hn
  rw [Eval.mapFailure_apply, Eval.mapFailure_apply, hx, hy]
  cases r with
  | ok a => exact ⟨.ok a, b, k, rfl, rfl, hc, hr⟩
  | error e =>
    cases e with
    | failed cause =>
      exact ⟨.error (.failed (change cause)), b, k, rfl, rfl, hc, fun _ ha => by cases ha⟩
    | _ => exact ⟨.error _, b, k, rfl, rfl, hc, fun _ ha => by cases ha⟩

theorem origin (p : List Nat) : S.Yields (Eval.origin p) (Eval.origin p) fun _ => True :=
  env.bind fun _ _ => .pure trivial

theorem newList {items : List Value} {Q : Value → Prop} (p : List Nat)
    (h : ∀ self, Q (.list self items)) :
    S.Yields (Eval.newList p items) (Eval.newList p items) Q :=
  (origin p).bind fun self _ => .pure (h self)

theorem texts {fs : Futures} (hfs : fs.states = S.states) (vs : List Value) :
    S.Yields (Eval.texts vs) (Eval.texts vs) fun _ => True := by
  induction vs with
  | nil => exact .pure trivial
  | cons v rest ih =>
    exact (resolve hfs v).bind fun w _ => (text w).bind fun _ _ => ih.bind fun _ _ => .pure trivial

/-! ## What operators ask of an operand -/

theorem int {x y : Eval Value} {Q : Value → Prop} (h : S.Yields x y Q) :
    S.Yields (Direct.int x) (Direct.int y) fun _ => True :=
  h.bind fun _ _ => (ofExcept _).weaken fun _ _ => trivial

theorem float {x y : Eval Value} {Q : Value → Prop} (h : S.Yields x y Q) :
    S.Yields (Direct.float x) (Direct.float y) fun _ => True :=
  h.bind fun _ _ => (ofExcept _).weaken fun _ _ => trivial

theorem bool {x y : Eval Value} {Q : Value → Prop} (h : S.Yields x y Q) :
    S.Yields (Direct.bool x) (Direct.bool y) fun _ => True :=
  h.bind fun _ _ => .pure trivial

theorem asText {x y : Eval Value} {Q : Value → Prop} (h : S.Yields x y Q) :
    S.Yields (Direct.text x) (Direct.text y) fun _ => True :=
  h.bind fun v _ => text v

end Yields

end Setting

/-! ## Operators -/

namespace Typing

variable {S : Setting} {loose : Loose} {fs : Futures} {t u : StaticType} {x x' y y' : Eval Value}

theorem isInt_eq (t : StaticType) : isInt t = t.isInt := by
  simp [isInt, StaticType.isInt]

theorem isStr_eq (t : StaticType) : isStr t = t.isStr := by
  simp [isStr, StaticType.isStr]

theorem isNum_eq (t : StaticType) : isNum t = t.isNum := by
  simp [isNum, StaticType.isNum, StaticType.isInt, StaticType.isFloat, Bool.and_or_distrib_left]

theorem conforms_of_isInt (h : t.isInt = true) (i : Int64) : t.Conforms loose fs (.int i) := by
  obtain ⟨k, n, es⟩ := t
  simp only [StaticType.isInt, StaticType.kind, Bool.and_eq_true, beq_iff_eq] at h
  obtain ⟨_, rfl⟩ := h
  simp [StaticType.Conforms, StaticType.OfKind]

theorem conforms_of_isFloat (h : t.isFloat = true) (f : Float) :
    t.Conforms loose fs (.float f) := by
  obtain ⟨k, n, es⟩ := t
  simp only [StaticType.isFloat, StaticType.kind, Bool.and_eq_true, beq_iff_eq] at h
  obtain ⟨_, rfl⟩ := h
  simp [StaticType.Conforms, StaticType.OfKind]

theorem conforms_negation {v w : Value} (h : t.Conforms loose fs v) (hw : v.neg = .ok w) :
    (negation t).Conforms loose fs w := by
  unfold negation
  split
  · next hn =>
    obtain ⟨k, n, es⟩ := t
    simp only [StaticType.isNumeric, StaticType.nullable, StaticType.kind, Bool.and_eq_true,
      Bool.not_eq_true', Bool.or_eq_true, beq_iff_eq] at hn
    obtain ⟨rfl, hk⟩ := hn
    cases v <;> cases hw <;> rcases hk with (rfl | rfl) | rfl <;>
      simp_all [StaticType.Conforms, StaticType.OfKind]
  · exact StaticType.conforms_any w

theorem negation_yields (hx : S.Yields x x' (t.Conforms loose fs)) :
    S.Yields (Direct.unary .neg t x) (Direct.unary .neg t x') ((negation t).Conforms loose fs) := by
  have hneg (ht : t.isInt = true ∨ t.isFloat = true) : negation t = t := by
    unfold negation
    rw [if_pos]
    simp only [StaticType.isInt, StaticType.isFloat, StaticType.isNumeric] at ht ⊢
    rcases ht with ht | ht <;> simp_all
  simp only [Direct.unary]
  split
  · next ht =>
    rw [hneg (.inl ht)]
    exact hx.int.bind fun i _ => .pure (conforms_of_isInt ht _)
  · split
    · next ht =>
      rw [hneg (.inr ht)]
      exact hx.float.bind fun f _ => .pure (conforms_of_isFloat ht _)
    · exact hx.bind fun v hv => (Setting.Yields.ofExcept _).weaken fun w hw =>
        conforms_negation hv hw

theorem not_yields {Q : Value → Prop} (hx : S.Yields x x' Q) :
    S.Yields (Direct.unary .not t x) (Direct.unary .not t x') (StaticType.bool.Conforms loose fs) :=
  hx.bool.bind fun _ _ => .pure (StaticType.conforms_bool _)

section

variable {P Q : Value → Prop}

theorem arithInt_yields (op : Arith) (hx : S.Yields x x' P) (hy : S.Yields y y' Q) :
    S.Yields (Direct.arithInt op x y) (Direct.arithInt op x' y')
      (StaticType.int.Conforms loose fs) :=
  hx.int.bind fun _ _ => hy.int.bind fun _ _ => (Setting.Yields.ofExcept _).bind fun _ _ =>
    .pure (StaticType.conforms_int _)

theorem arithFloat_yields (op : Arith) (hx : S.Yields x x' P) (hy : S.Yields y y' Q) :
    S.Yields (Direct.arithFloat op x y) (Direct.arithFloat op x' y')
      (StaticType.float.Conforms loose fs) :=
  hx.float.bind fun _ _ => hy.float.bind fun _ _ => .pure (StaticType.conforms_float _)

theorem arithBoxed_yields (op : Arith) (hx : S.Yields x x' P) (hy : S.Yields y y' Q) :
    S.Yields (Direct.arithBoxed op x y) (Direct.arithBoxed op x' y')
      (StaticType.any.Conforms loose fs) := by
  refine hx.bind fun a _ => hy.bind fun b _ => ?_
  have hvalues (op : Arith) :
      S.Yields (Eval.ofExcept (op.values a b)) (Eval.ofExcept (op.values a b))
          (StaticType.any.Conforms loose fs) :=
    (Setting.Yields.ofExcept _).weaken fun _ _ => StaticType.conforms_any _
  cases op with
  | add =>
    change S.Yields (Eval.add a b) (Eval.add a b) _
    unfold Eval.add
    split
    · exact (Setting.Yields.text a).bind fun _ _ => (Setting.Yields.text b).bind fun _ _ =>
        .pure (StaticType.conforms_any _)
    · exact hvalues .add
  | sub => exact hvalues .sub
  | mul => exact hvalues .mul
  | div => exact hvalues .div
  | mod => exact hvalues .mod

theorem concat_yields (hx : S.Yields x x' P) (hy : S.Yields y y' Q) :
    S.Yields (do
      let a ← Direct.text x
      let b ← Direct.text y
      return .str (a ++ b))
      (do
      let a ← Direct.text x'
      let b ← Direct.text y'
      return .str (a ++ b)) (StaticType.string.Conforms loose fs) :=
  hx.asText.bind fun _ _ => hy.asText.bind fun _ _ => .pure (StaticType.conforms_string _)

theorem comparison_yields (op : Comparison) (hx : S.Yields x x' P) (hy : S.Yields y y' Q) :
    S.Yields (Direct.comparison op t u x y) (Direct.comparison op t u x' y')
      (StaticType.bool.Conforms loose fs) := by
  unfold Direct.comparison
  split
  · exact hx.int.bind fun _ _ => hy.int.bind fun _ _ => .pure (StaticType.conforms_bool _)
  · split
    · exact hx.float.bind fun _ _ => hy.float.bind fun _ _ => .pure (StaticType.conforms_bool _)
    · split
      · exact hx.asText.bind fun _ _ => hy.asText.bind fun _ _ => .pure (StaticType.conforms_bool _)
      · exact hx.bind fun _ _ => hy.bind fun _ _ => (Setting.Yields.ofExcept _).bind fun _ _ =>
          .pure (StaticType.conforms_bool _)

theorem add_yields (hx : S.Yields x x' P) (hy : S.Yields y y' Q) :
    S.Yields (Direct.arith .add t u x y) (Direct.arith .add t u x' y')
      ((binary .add t u).Conforms loose fs) := by
  simp only [Direct.arith, binary, arithmetic, isInt_eq, isNum_eq, isStr_eq, beq_self_eq_true,
    Bool.true_and]
  split
  · exact arithInt_yields .add hx hy
  · split
    · exact arithFloat_yields .add hx hy
    · simp only [StaticType.any, StaticType.of]
      split
      · exact concat_yields hx hy
      · exact arithBoxed_yields .add hx hy

/-- Subtraction and multiplication. -/
theorem arith_yields {op : Arith} (h : op = .sub ∨ op = .mul) (hx : S.Yields x x' P)
    (hy : S.Yields y y' Q) :
    S.Yields (Direct.arith op t u x y) (Direct.arith op t u x' y')
      ((arithmetic t u).Conforms loose fs) := by
  have hadd : (op == .add) = false := by rcases h with rfl | rfl <;> rfl
  rcases h with rfl | rfl
  all_goals
    simp only [Direct.arith, arithmetic, isInt_eq, isNum_eq, hadd, Bool.false_and,
      Bool.false_eq_true, if_false]
    split
    · exact arithInt_yields _ hx hy
    · split
      · exact arithFloat_yields _ hx hy
      · exact arithBoxed_yields _ hx hy

theorem div_yields (hx : S.Yields x x' P) (hy : S.Yields y y' Q) :
    S.Yields (Direct.arith .div t u x y) (Direct.arith .div t u x' y')
      ((binary .div t u).Conforms loose fs) := by
  simp only [Direct.arith, binary, isNum_eq]
  split
  · exact arithFloat_yields .div hx hy
  · exact arithBoxed_yields .div hx hy

theorem mod_yields (hx : S.Yields x x' P) (hy : S.Yields y y' Q) :
    S.Yields (Direct.arith .mod t u x y) (Direct.arith .mod t u x' y')
      ((binary .mod t u).Conforms loose fs) := by
  simp only [Direct.arith, binary, isInt_eq]
  split
  · exact arithInt_yields .mod hx hy
  · exact arithBoxed_yields .mod hx hy

end

/-- The second operand stands in for null. -/
theorem coalesce_yields (hx : S.Yields x x' (t.Conforms loose fs))
    (hy : S.Yields y y' (u.Conforms loose fs)) :
    S.Yields (Direct.binary .coalesce t u x y) (Direct.binary .coalesce t u x' y')
      ((binary .coalesce t u).Conforms loose fs) := by
  have hnull {v : Value} (hv : t.Conforms loose fs v) (hn : v.isNullish = false) :
      (binary .coalesce t u).Conforms loose fs v := by
    simp only [binary]
    split
    · next heq => exact StaticType.eq_of_beq heq ▸ hv.nonNull hn
    · exact StaticType.conforms_any v
  have hother {v : Value} (hv : u.Conforms loose fs v) :
      (binary .coalesce t u).Conforms loose fs v := by
    simp only [binary]
    split
    · exact hv
    · exact StaticType.conforms_any v
  refine hx.bind fun a ha => ?_
  cases hn : a.isNullish with
  | true => simpa using hy.weaken fun _ => hother
  | false => simpa using Setting.Yields.pure (hnull ha hn)

theorem binary_yields (op : BinaryOp) (hx : S.Yields x x' (t.Conforms loose fs))
    (hy : S.Yields y y' (u.Conforms loose fs)) :
    S.Yields (Direct.binary op t u x y) (Direct.binary op t u x' y')
      ((binary op t u).Conforms loose fs) := by
  cases op with
  | add => exact add_yields hx hy
  | sub => exact arith_yields (.inl rfl) hx hy
  | mul => exact arith_yields (.inr rfl) hx hy
  | div => exact div_yields hx hy
  | mod => exact mod_yields hx hy
  | eq | notEq | less | lessEq | greater | greaterEq => exact comparison_yields _ hx hy
  | and =>
    refine hx.bool.bind fun a _ => ?_
    cases a with
    | true => exact hy.bool.bind fun _ _ => .pure (StaticType.conforms_bool _)
    | false => exact .pure (StaticType.conforms_bool _)
  | or =>
    refine hx.bool.bind fun a _ => ?_
    cases a with
    | true => exact .pure (StaticType.conforms_bool _)
    | false => exact hy.bool.bind fun _ _ => .pure (StaticType.conforms_bool _)
  | coalesce => exact coalesce_yields hx hy

/-! ## Literals and the type of several expressions -/

theorem ofValue_conforms (v : Value) : (ofValue v).Conforms loose fs v := by
  cases v with
  | null | undefined => exact StaticType.conforms_of_nullish rfl rfl
  | bool b => exact StaticType.conforms_bool b
  | int i => exact StaticType.conforms_int i
  | float f => exact StaticType.conforms_float f
  | str s => exact StaticType.conforms_string s
  | list => exact StaticType.conforms_list fun _ _ _ _ => StaticType.conforms_any _
  | map =>
    exact StaticType.conforms_map fun _ _ =>
      ⟨fun _ _ => StaticType.conforms_any _, fun _ _ => StaticType.conforms_any _⟩
  | record => exact StaticType.conforms_record _ _
  | content | future => exact StaticType.conforms_any _

theorem common_conforms {es : List Expr} {e : Expr} {v : Value} (he : e ∈ es)
    (hv : e.type.Conforms loose fs v) :
    (common es).Conforms loose fs v := by
  cases es with
  | nil => cases he
  | cons first rest =>
    simp only [common]
    split
    · next hall =>
      rcases List.mem_cons.1 he with rfl | he
      · exact hv
      · exact StaticType.eq_of_beq (List.all_eq_true.1 hall e he) ▸ hv
    · exact StaticType.conforms_any v

theorem cond_yields {c c' : Eval Value} {Q : Value → Prop} {a b : Expr} (hc : S.Yields c c' Q)
    (hx : S.Yields x x' (a.type.Conforms loose fs))
    (hy : S.Yields y y' (b.type.Conforms loose fs)) :
    S.Yields (Direct.cond c x y) (Direct.cond c' x' y') ((common [a, b]).Conforms loose fs) := by
  refine hc.bool.bind fun p _ => ?_
  cases p with
  | true => exact hx.weaken fun _ => common_conforms (by simp)
  | false => exact hy.weaken fun _ => common_conforms (by simp)

/-! ## Access -/

theorem part_yields (hfs : fs.states = S.states) (ht : t.nullable = true) {v : Option Value}
    (hv : ∀ w, v = some w → t.Held loose fs w) :
    S.Yields (Eval.part v) (Eval.part v) (t.Conforms loose fs) := by
  cases v with
  | none => exact .pure (StaticType.conforms_of_nullish ht rfl)
  | some w => exact (Setting.Yields.resolve hfs w).weaken fun _ hw => hv w rfl _ hw

theorem field_yields (hfs : fs.states = S.states) (v : Value) (name : String) (nullSafe : Bool) :
    S.Yields (Eval.field v name nullSafe) (Eval.field v name nullSafe)
      (StaticType.any.Conforms loose fs) := by
  have hpart (v : Option Value) :
      S.Yields (Eval.part v) (Eval.part v) (StaticType.any.Conforms loose fs) := by
    cases v with
    | none => exact .pure (StaticType.conforms_any _)
    | some w => exact (Setting.Yields.resolve hfs w).weaken fun _ _ => StaticType.conforms_any _
  unfold Eval.field
  split
  · exact hpart _
  · exact hpart _
  · split
    · split
      · exact .pure (StaticType.conforms_any _)
      · exact .fail _ _
    · exact .fail _ _

theorem held_orNull {v : Value} (h : t.Held loose fs v) : t.orNull.Held loose fs v := fun w hw =>
    (h w hw).orNull

/-- Outside the list there is nothing, which is admitted. -/
theorem held_itemAt {items : List Value} (h : ∀ v ∈ items, t.Held loose fs v) (i : Int64) :
    t.orNull.Held loose fs (Value.itemAt items i) := by
  have hundefined : t.orNull.Held loose fs .undefined := by
    intro w hw
    simp only [Futures.resolve, Futures.resolveFrom, Read.value.injEq] at hw
    exact hw ▸ StaticType.conforms_of_nullish rfl rfl
  unfold Value.itemAt
  split
  · exact hundefined
  · cases hget : items[i.toInt.toNat]? with
    | none => exact hundefined
    | some v => exact held_orNull (h v (List.mem_of_getElem? hget))

theorem mem_of_entry {entries : List (Value × Value)} {key v : Value}
    (h : Value.entry? entries key = some v) :
    ∃ k, (k, v) ∈ entries := by
  unfold Value.entry? at h
  split at h
  · cases h
  · obtain ⟨e, he, rfl⟩ := Option.map_eq_some_iff.1 h
    exact ⟨e.1, List.mem_of_find?_eq_some he⟩

theorem item_any_yields (hfs : fs.states = S.states) (v key : Value) :
    S.Yields (Eval.item v key) (Eval.item v key) (StaticType.any.Conforms loose fs) := by
  have hpart (v : Option Value) :
      S.Yields (Eval.part v) (Eval.part v) (StaticType.any.Conforms loose fs) := by
    cases v with
    | none => exact .pure (StaticType.conforms_any _)
    | some w => exact (Setting.Yields.resolve hfs w).weaken fun _ _ => StaticType.conforms_any _
  unfold Eval.item
  split
  · exact (Setting.Yields.ofExcept _).bind fun _ _ =>
      (Setting.Yields.resolve hfs _).weaken fun _ _ => StaticType.conforms_any _
  · exact hpart _
  · exact (Setting.Yields.ofExcept _).bind fun _ _ => hpart _
  · exact .fail _ _

theorem item_yields (hfs : fs.states = S.states) {v : Value} (hv : t.Conforms loose fs v)
    (hn : v.isNullish = false) (key : Value) :
    S.Yields (Eval.item v key) (Eval.item v key) ((item t).Conforms loose fs) := by
  have hsome {e : StaticType}
    (h : S.Yields (Eval.item v key) (Eval.item v key) (e.Conforms loose fs)) :
      S.Yields (Eval.item v key) (Eval.item v key)
          ((if e.kind == .any then StaticType.any else e).Conforms loose fs) := by
    split
    · exact item_any_yields hfs v key
    · exact h
  obtain ⟨kind, nullable, elems⟩ := t
  rw [StaticType.Conforms, hn] at hv
  replace hv := hv.resolve_left (by simp)
  refine hsome ?_
  simp only [StaticType.kind, StaticType.elems]
  split
  · next e =>
    rw [StaticType.OfKind] at hv
    obtain ⟨self, items, rfl, hitems⟩ := hv
    exact (Setting.Yields.ofExcept _).bind fun i _ =>
      (Setting.Yields.resolve hfs _).weaken fun _ hw => held_itemAt hitems i _ hw
  · next k e =>
    rw [StaticType.OfKind] at hv
    obtain ⟨self, entries, rfl, hentries⟩ := hv
    refine part_yields hfs rfl fun w hw => ?_
    obtain ⟨k, hk⟩ := mem_of_entry hw
    exact held_orNull (hentries _ hk).2
  · exact item_any_yields hfs v key

/-- An item may be missing. -/
theorem item_nullable (t : StaticType) : (item t).nullable = true ∨ item t = .any := by
  have hsome (e : StaticType) (h : e.nullable = true ∨ e = .any) :
      (if e.kind == .any then StaticType.any else e).nullable = true ∨
        (if e.kind == .any then StaticType.any else e) = .any := by
    split
    · exact .inr rfl
    · exact h
  refine hsome _ ?_
  split
  · exact .inl rfl
  · exact .inl rfl
  · exact .inr rfl

theorem access_yields (hfs : fs.states = S.states) {Q : Value → Prop} (nullSafe : Bool)
    (hx : S.Yields x x' (t.Conforms loose fs)) (hy : S.Yields y y' Q) :
    S.Yields (Direct.item x y nullSafe) (Direct.item x' y' nullSafe)
      ((item t).Conforms loose fs) := by
  refine hx.bind fun v hv => ?_
  cases hn : v.isNullish with
  | false => simpa using hy.bind fun k _ => item_yields hfs hv hn k
  | true =>
    cases nullSafe with
    | false => exact .fail _ _
    | true =>
      refine .pure ?_
      rcases item_nullable t with ht | ht
      · exact StaticType.conforms_of_nullish ht rfl
      · exact ht ▸ StaticType.conforms_any _

/-! ## Functions -/

section

variable {p : List Nat} {args : List Value}

/-- A list of which nothing is known but that it is one. -/
theorem newList_yields (items : List Value) :
    S.Yields (Eval.newList p items) (Eval.newList p items)
      ((StaticType.listOf .any).Conforms loose fs) :=
  .newList p fun _ => StaticType.conforms_list fun _ _ _ _ => StaticType.conforms_any _

theorem integral_int {cut : Float → Float} {v w : Value} (h : Eval.integral cut v = .ok w) :
    ∃ i, w = .int i := by
  unfold Eval.integral at h
  split at h
  · cases h
    exact ⟨_, rfl⟩
  · obtain ⟨f, _, h⟩ := Except.bind_ok h
    cases h
    exact ⟨_, rfl⟩

/-- The functions that give a result of one type, whatever their arguments are. -/
theorem apply_yields (hfs : fs.states = S.states) {f : Function} (hf : f ≠ .checkNotNull)
    (hacc : f.accepts args.length = true) {es : List Expr} (hlen : es.length = args.length) :
    S.Yields (Eval.apply p f args) (Eval.apply p f args)
      ((function f.name es).Conforms loose fs) := by
  have one (h : (args.length == 1) = true) : ∃ v, args = [v] :=
    List.length_eq_one_iff.1 (beq_iff_eq.1 h)
  have two (h : (args.length == 2) = true) : ∃ v w, args = [v, w] :=
    List.length_eq_two.1 (beq_iff_eq.1 h)
  have hint (i : Int64) : StaticType.int.Conforms loose fs (.int i) := StaticType.conforms_int i
  have hstr (s : String) : StaticType.string.Conforms loose fs (.str s) :=
    StaticType.conforms_string s
  have hbool (b : Bool) : StaticType.bool.Conforms loose fs (.bool b) := StaticType.conforms_bool b
  cases f with
  | checkNotNull => exact absurd rfl hf
  | length =>
    obtain ⟨v, rfl⟩ := one hacc
    cases v with
    | list | map => exact .pure (hint _)
    | _ => exact .fail _ _
  | keys =>
    obtain ⟨v, rfl⟩ := one hacc
    cases v with
    | map | record => exact newList_yields _
    | _ => exact .fail _ _
  | round =>
    rcases Bool.or_eq_true_iff.1 hacc with h | h
    · obtain ⟨v, rfl⟩ := one h
      obtain ⟨e, rfl⟩ := List.length_eq_one_iff.1 hlen
      have hround : S.Yields (Eval.ofExcept v.toFloat? >>= fun x => pure (Eval.round x 0))
          (Eval.ofExcept v.toFloat? >>= fun x => pure (Eval.round x 0))
              (StaticType.int.Conforms loose fs) :=
        (Setting.Yields.ofExcept _).bind fun x _ => .pure (hint _)
      cases v with
      | int => exact .pure (hint _)
      | _ => exact hround
    · obtain ⟨v, w, rfl⟩ := two h
      obtain ⟨d, e, rfl⟩ := List.length_eq_two.1 hlen
      have hround : S.Yields (do
          let x ← Eval.ofExcept v.toFloat?
          let digits ← Eval.ofExcept w.toInt64?
          return Eval.round x digits) (do
          let x ← Eval.ofExcept v.toFloat?
          let digits ← Eval.ofExcept w.toInt64?
          return Eval.round x digits) (StaticType.any.Conforms loose fs) :=
        (Setting.Yields.ofExcept _).bind fun x _ => (Setting.Yields.ofExcept _).bind fun _ _ =>
          .pure (StaticType.conforms_any _)
      cases v <;> exact hround
  | floor | ceil =>
    obtain ⟨v, rfl⟩ := one hacc
    refine (Setting.Yields.ofExcept _).weaken fun w hw => ?_
    obtain ⟨i, rfl⟩ := integral_int hw
    exact hint i
  | min | max =>
    obtain ⟨v, w, rfl⟩ := two hacc
    exact (Setting.Yields.ofExcept _).weaken fun _ _ => StaticType.conforms_any _
  | isNonnull =>
    obtain ⟨v, rfl⟩ := one hacc
    exact .pure (hbool _)
  | concatLists => exact (Setting.Yields.ofExcept _).bind fun _ _ => newList_yields _
  | join =>
    obtain ⟨v, w, rfl⟩ := two hacc
    cases v with
    | list =>
      exact (Setting.Yields.text _).bind fun _ _ => (Setting.Yields.texts hfs _).bind fun _ _ =>
        .pure (hstr _)
    | _ => exact .fail _ _
  | strContains =>
    obtain ⟨v, w, rfl⟩ := two hacc
    exact (Setting.Yields.text _).bind fun _ _ => (Setting.Yields.text _).bind fun _ _ =>
      .pure (hbool _)
  | strIndexOf =>
    obtain ⟨v, w, rfl⟩ := two hacc
    refine (Setting.Yields.text _).bind fun s _ => (Setting.Yields.text _).bind fun pat _ => ?_
    cases Text.index? s pat <;> exact .pure (hint _)
  | strSub =>
    rcases Bool.or_eq_true_iff.1 hacc with h | h
    · obtain ⟨v, w, rfl⟩ := two h
      exact (Setting.Yields.text _).bind fun _ _ => (Setting.Yields.ofExcept _).bind fun _ _ =>
        .pure (hstr _)
    · obtain ⟨u, v, w, rfl⟩ := List.length_eq_three.1 (beq_iff_eq.1 h)
      exact (Setting.Yields.text _).bind fun _ _ => (Setting.Yields.ofExcept _).bind fun _ _ =>
        (Setting.Yields.ofExcept _).bind fun _ _ => .pure (hstr _)
  | strLen =>
    obtain ⟨v, rfl⟩ := one hacc
    exact (Setting.Yields.text _).bind fun _ _ => .pure (hint _)
  | css =>
    rcases Bool.or_eq_true_iff.1 hacc with h | h
    · obtain ⟨v, rfl⟩ := one h
      exact (Setting.Yields.text _).bind fun _ _ => Setting.Yields.env.bind fun _ _ =>
        .pure (hstr _)
    · obtain ⟨v, w, rfl⟩ := two h
      exact (Setting.Yields.text _).bind fun _ _ => (Setting.Yields.text _).bind fun _ _ =>
        Setting.Yields.env.bind fun _ _ => .pure (hstr _)
  | xid =>
    obtain ⟨v, rfl⟩ := one hacc
    exact (Setting.Yields.text _).bind fun _ _ => Setting.Yields.env.bind fun _ _ => .pure (hstr _)

/-- What passes the check is not null. -/
theorem checkNotNull_yields {e : Expr} {v : Value} (hv : e.type.Conforms loose fs v) :
    S.Yields (Eval.apply p .checkNotNull [v]) (Eval.apply p .checkNotNull [v])
      ((function "checkNotNull" [e]).Conforms loose fs) := by
  change S.Yields (if v.isNullish then _ else _) (if v.isNullish then _ else _) _
  cases hn : v.isNullish with
  | true => exact .fail _ _
  | false => exact .pure (hv.nonNull hn)

end

end Typing

end Interlude
