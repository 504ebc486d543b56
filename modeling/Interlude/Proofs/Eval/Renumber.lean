import Interlude.Proofs.Direct.Operand
import Interlude.Proofs.Value.Renumber
/-!
# Evaluation under other numbers

An evaluation marks the lists, maps and records that it makes with the number it goes by. If it goes
by another number, and reads params and locals under other numbers, then it comes to the same value
under other numbers, or it stops where the first stops (`Turns`). This holds of operators and
functions, of expressions, and of all that a statement evaluates.
-/

namespace Interlude

/-- Numbers exchanged for others, different ones for different ones. Settled futures keep the
numbers they have. -/
structure Renumbering where
  number : Identity → Identity
  injective : number.Injective
  states : Array Future
  settled : ∀ v, Future.complete v ∈ states → v.renumber number = v

namespace Renumbering

variable (N : Renumbering)

abbrev value : Value → Value := Value.renumber N.number

abbrev values : List Value → List Value := List.map N.value

abbrev data : List (String × Value) → List (String × Value) :=
    List.map (Value.renumberField N.number)

abbrev chain : List (Filter × List Value) → List (Filter × List Value) :=
    List.map (Filter.renumberCall N.number)

/-- What a call is about to do, under other numbers. -/
def handover (d : Direct.Handover) : Direct.Handover :=
  { template := d.template, params := N.data d.params, chain := N.chain d.chain }

/-- The environment under other numbers. -/
def env (e : Env) : Env :=
  { params := N.data e.params, injected := N.data e.injected, context := e.context,
    maker := N.number e.maker }

/-- Two evaluations have ended alike: both stopped, or the second has come to what `f` makes of the
value of the first. -/
inductive Meets {α β : Type} (f : α → β) : EStateM.Result Stop Memory α →
    EStateM.Result Stop Memory β → Prop where
  | ok (a : α) {m n : Memory} (hm : m.states = N.states) (hn : n.states = N.states) :
    Meets f (.ok a m) (.ok (f a) n)
  | error (e e' : Stop) {m n : Memory} : Meets f (.error e m) (.error e' n)

/-- The second evaluation is the first under other numbers. -/
def Turns {α β : Type} (e : Env) (f : α → β) (x : Eval α) (y : Eval β) : Prop :=
  ∀ m n : Memory, m.states = N.states → n.states = N.states → N.Meets f (x e m) (y (N.env e) n)

namespace Turns

variable {N} {e : Env} {α β γ δ : Type}

theorem pure (f : α → β) (a : α) : N.Turns e f (Pure.pure a) (Pure.pure (f a)) :=
    fun _ _ hm hn => .ok a hm hn

theorem throw {f : α → β} (s t : Stop) : N.Turns e f (throw s) (throw t) :=
    fun _ _ _ _ => .error s t

theorem fail {f : α → β} (c d : Failure) : N.Turns e f (Eval.fail c) (Eval.fail d) := throw _ _

theorem bind {f : α → β} {g : γ → δ} {x : Eval α} {y : Eval β} {k : α → Eval γ} {l : β → Eval δ}
    (hx : N.Turns e f x y) (hk : ∀ a, N.Turns e g (k a) (l (f a))) :
    N.Turns e g (x >>= k) (y >>= l) := by
  intro m n hm hn
  have h := hx m n hm hn
  rw [Eval.bind_apply, Eval.bind_apply]
  generalize x e m = p at h
  generalize y (N.env e) n = q at h
  cases h with
  | ok a hm' hn' => exact hk a _ _ hm' hn'
  | error s t => exact .error s t

/-- What is evaluated reads the environment. -/
theorem read {g : γ → δ} {k : Env → Eval γ} {l : Env → Eval δ}
    (hk : N.Turns e g (k e) (l (N.env e))) :
    N.Turns e g (MonadReader.read >>= k) (MonadReader.read >>= l) := fun m n hm hn => hk m n hm hn

theorem ofExcept {r : Except Failure α} {f : α → β} :
    N.Turns e f (Eval.ofExcept r) (Eval.ofExcept (r.map f)) := by
  cases r with
  | ok a => exact pure f a
  | error c => exact fail c c

/-- The same computation on the same arguments. -/
theorem same (r : Except Failure α) : N.Turns e id (Eval.ofExcept r) (Eval.ofExcept r) := by
  cases r with
  | ok a => exact pure id a
  | error c => exact fail c c

/-- A computation that gives values without numbers. -/
theorem bare {r : Except Failure Value} (h : ∀ v, r = .ok v → v.Bare) :
    N.Turns e N.value (Eval.ofExcept r) (Eval.ofExcept r) := by
  cases r with
  | ok v =>
    have hv := pure (N := N) (e := e) N.value v
    rwa [value, (h v rfl).renumber] at hv
  | error c => exact fail c c

theorem mapFailure {f : α → β} {x : Eval α} {y : Eval β} (change change' : Failure → Failure)
    (h : N.Turns e f x y) :
    N.Turns e f (Eval.mapFailure change x) (Eval.mapFailure change' y) := by
  intro m n hm hn
  have h := h m n hm hn
  rw [Eval.mapFailure_apply, Eval.mapFailure_apply]
  generalize x e m = p at h
  generalize y (N.env e) n = q at h
  cases h with
  | ok a hm' hn' => exact .ok a hm' hn'
  | error s t => cases s <;> cases t <;> exact .error ..

theorem map {f : α → β} {g : γ → δ} {x : Eval α} {y : Eval β} {k : α → γ} {l : β → δ}
    (hx : N.Turns e f x y) (hk : ∀ a, l (f a) = g (k a)) : N.Turns e g (k <$> x) (l <$> y) := by
  rw [map_eq_pure_bind, map_eq_pure_bind]
  refine hx.bind fun a => ?_
  rw [hk]
  exact pure g (k a)

/-- On other cells and in an environment of its own. -/
theorem onCells {own : Env} {f : α → β} {x : Eval α} {y : Eval β} (h : N.Turns own f x y)
    (cells : Cells) :
    N.Turns e f (Eval.onCells cells own x fun _ heap => heap)
      (Eval.onCells cells (N.env own) y fun _ heap => heap) := by
  intro m n hm hn
  have h := h { m with cells } { n with cells } hm hn
  unfold Eval.onCells
  generalize x own { m with cells } = p at h
  generalize y (N.env own) { n with cells } = q at h
  cases h with
  | ok a hm' hn' => exact .ok a hm' hn'
  | error s t => exact .error s t

end Turns

/-! ## Futures and texts -/

theorem value_of_settled {fs : Futures} (hfs : fs.states = N.states) (fuel : Nat)
    (id : FutureId) {w : Value} (h : (fs.resolveFrom fuel (.future id)).1 = .value w) :
    N.value w = w := by
  induction fuel generalizing fs id with
  | zero => cases h
  | succ fuel ih =>
    rw [Futures.resolveFrom] at h
    cases hg : fs.get id with
    | pending => rw [hg] at h; cases h
    | failed c => rw [hg] at h; cases h
    | complete v =>
      rw [hg] at h
      have hv : N.value v = v := by
        refine N.settled v ?_
        unfold Futures.get at hg
        cases hs : fs.states[id]? with
        | none => rw [hs] at hg; cases hg
        | some s =>
          rw [hs] at hg
          cases hg
          rw [← hfs]
          exact Array.mem_of_getElem? hs
      cases v with
      | future other =>
        have hread : (fs.countRead id).states = fs.states := rfl
        exact ih (hread.trans hfs) other h
      | _ => cases fuel <;> cases h <;> exact hv

variable {N} {e : Env}

theorem resolve_turns (v : Value) :
    N.Turns e N.value (Eval.resolve v) (Eval.resolve (N.value v)) := by
  cases v with
  | future id =>
    intro m n hm hn
    have hsame : (n.heap.futures.resolve (.future id)).1 =
        (m.heap.futures.resolve (.future id)).1 :=
      Futures.resolve_congr (hm.trans hn.symm) _
    rw [value, Value.renumber_future, Eval.resolve_apply, Eval.resolve_apply, hsame]
    cases hr : (m.heap.futures.resolve (.future id)).1 with
    | value w =>
      -- a settled value keeps its numbers
      have h := Meets.ok (N := N) (f := N.value) w
        (m := Eval.touched m (m.heap.futures.resolve (.future id)).2 false)
        (n := Eval.touched n (n.heap.futures.resolve (.future id)).2 false)
        ((Futures.resolve_states ..).trans hm) ((Futures.resolve_states ..).trans hn)
      rwa [N.value_of_settled hm _ id hr] at h
    | waiting | failed | endless => exact .error ..
  | _ => exact .pure N.value _

theorem text_turns (v : Value) : N.Turns e id (Eval.text v) (Eval.text (N.value v)) := by
  intro m n hm hn
  have hsame : v.text n.heap.futures = v.text m.heap.futures :=
    Value.text_congr (hn.trans hm.symm) v
  rw [Eval.text_apply, Eval.text_apply, Value.text_renumber, hsame]
  exact .ok _ hm hn

/-! ## Operations on values -/

theorem origin_turns (p : List Nat) :
    N.Turns e (Origin.renumber N.number) (Eval.origin p) (Eval.origin p) :=
  .read (.pure _ _)

theorem newList_turns (p : List Nat) (items : List Value) :
    N.Turns e N.value (Eval.newList p items) (Eval.newList p (N.values items)) := by
  refine (origin_turns p).bind fun self => ?_
  rw [← Value.renumber_list]
  exact .pure _ _

theorem part_turns (v : Option Value) :
    N.Turns e N.value (Eval.part v) (Eval.part (v.map N.value)) := by
  cases v with
  | none => exact .pure N.value .undefined
  | some v => exact resolve_turns v

theorem arith_turns (op : Arith) (a b : Value) :
    N.Turns e N.value (Eval.arith op a b) (Eval.arith op (N.value a) (N.value b)) := by
  have hvalues : N.Turns e N.value (Eval.ofExcept (op.values a b))
      (Eval.ofExcept (op.values (N.value a) (N.value b))) := by
    rw [Value.arith_renumber]
    exact .bare fun _ => Value.bare_arith
  cases op with
  | add =>
    change N.Turns e N.value (Eval.add a b) (Eval.add (N.value a) (N.value b))
    unfold Eval.add
    simp only [Value.stringLike?_renumber]
    split
    · exact (text_turns a).bind fun x => (text_turns b).bind fun y => .pure N.value (.str (x ++ y))
    · exact hvalues
  | _ => exact hvalues

theorem field_turns (v : Value) (name : String) (nullSafe : Bool) :
    N.Turns e N.value (Eval.field v name nullSafe) (Eval.field (N.value v) name nullSafe) := by
  cases v with
  | record self fields =>
    rw [value, Value.renumber_record]
    simp only [Eval.field, Value.field?_renumber]
    exact part_turns _
  | map self entries =>
    have hentry := Value.entry?_renumber (ρ := N.number) entries (.str name)
    rw [Value.renumber_str] at hentry
    rw [value, Value.renumber_map]
    simp only [Eval.field, hentry]
    exact part_turns _
  | null | undefined =>
    cases nullSafe with
    | true => exact .pure N.value .null
    | false => exact .fail _ _
  | _ => exact .fail _ _

theorem item_turns (v key : Value) :
    N.Turns e N.value (Eval.item v key) (Eval.item (N.value v) (N.value key)) := by
  cases v with
  | list self items =>
    rw [value, Value.renumber_list]
    simp only [Eval.item, Value.listIndex_renumber]
    refine (Turns.same _).bind fun i => ?_
    rw [id, Value.itemAt_renumber]
    exact resolve_turns _
  | map self entries =>
    rw [value, Value.renumber_map]
    simp only [Eval.item, Value.entry?_renumber]
    exact part_turns _
  | record self fields =>
    rw [value, Value.renumber_record]
    simp only [Eval.item, Value.toStr?_renumber]
    refine (Turns.same _).bind fun name => ?_
    rw [id, Value.field?_renumber]
    exact part_turns _
  | _ => exact .fail _ _

theorem texts_turns (vs : List Value) :
    N.Turns e id (Eval.texts vs) (Eval.texts (N.values vs)) := by
  induction vs with
  | nil => exact .pure id []
  | cons v rest ih =>
    exact (resolve_turns v).bind fun w => (text_turns w).bind fun s => ih.bind fun later =>
      .pure id (s :: later)

/-! ## Functions -/

section

variable (p : List Nat)

/-- A function of a value that gives one without numbers. -/
theorem Turns.bareAt {f : Value → Except Failure Value} (hf : ∀ v, f (N.value v) = f v)
    (h : ∀ v w, f v = .ok w → w.Bare) (v : Value) :
    N.Turns e N.value (Eval.ofExcept (f v)) (Eval.ofExcept (f (N.value v))) := by
  rw [hf]
  exact .bare (h v)

theorem length_turns (v : Value) :
    N.Turns e N.value (Eval.apply p .length [v]) (Eval.apply p .length [N.value v]) := by
  cases v with
  | list self items =>
    rw [value, Value.renumber_list]
    simp only [Eval.apply, List.length_map]
    exact .pure N.value (.int _)
  | map self entries =>
    rw [value, Value.renumber_map]
    simp only [Eval.apply, List.length_map]
    exact .pure N.value (.int _)
  | _ => exact .fail _ _

theorem keys_turns (v : Value) :
    N.Turns e N.value (Eval.apply p .keys [v]) (Eval.apply p .keys [N.value v]) := by
  cases v with
  | map self entries =>
    have h := newList_turns (N := N) (e := e) p (entries.map (·.1))
    rw [value, Value.renumber_map]
    simpa only [Eval.apply, List.map_map, Function.comp_def, Value.renumberEntry] using h
  | record self fields =>
    have h := newList_turns (N := N) (e := e) p (fields.map fun f => .str f.1)
    rw [value, Value.renumber_record]
    simpa only [Eval.apply, List.map_map, Function.comp_def, Value.renumberField,
      Value.renumber_str] using h
  | _ => exact .fail _ _

theorem join_turns (v : Value) (rest : List Value) :
    N.Turns e N.value (Eval.apply p .join (v :: rest))
      (Eval.apply p .join (N.value v :: N.values rest)) := by
  cases v with
  | list self items =>
    match rest with
    | [sep] =>
      rw [value, Value.renumber_list]
      exact (text_turns sep).bind fun sep => (texts_turns items).bind fun parts =>
        .pure N.value (.str _)
    | [] | _ :: _ :: _ =>
      rw [value, Value.renumber_list]
      exact .fail _ _
  | _ => exact .fail _ _

theorem rounded_turns (x : Float) (digits : Int64) :
    N.Turns e N.value (pure (Eval.round x digits)) (pure (Eval.round x digits)) := by
  have h := Turns.pure (N := N) (e := e) N.value (Eval.round x digits)
  rwa [value, (Value.bare_round x digits).renumber] at h

theorem round_turns (v : Value) :
    N.Turns e N.value (Eval.apply p .round [v]) (Eval.apply p .round [N.value v]) := by
  cases v with
  | int i => exact .pure N.value (.int i)
  | float x => exact rounded_turns x 0
  | _ => exact .fail _ _

theorem roundTo_turns (v d : Value) :
    N.Turns e N.value (Eval.apply p .round [v, d])
      (Eval.apply p .round [N.value v, N.value d]) := by
  have h : N.Turns e N.value (do
      let x ← Eval.ofExcept v.toFloat?
      let digits ← Eval.ofExcept d.toInt64?
      return Eval.round x digits) (do
      let x ← Eval.ofExcept (N.value v).toFloat?
      let digits ← Eval.ofExcept (N.value d).toInt64?
      return Eval.round x digits) := by
    rw [value, Value.toFloat?_renumber, Value.toInt64?_renumber]
    exact (Turns.same _).bind fun x => (Turns.same _).bind fun digits => rounded_turns x digits
  cases v <;> exact h

theorem apply_turns (f : Function) (args : List Value) :
    N.Turns e N.value (Eval.apply p f args) (Eval.apply p f (N.values args)) := by
  have nothing : N.Turns e N.value (pure .undefined) (pure .undefined) := .pure N.value .undefined
  cases f with
  | length =>
    match args with
    | [] => exact nothing
    | [v] => exact length_turns p v
    | v :: _ :: _ => cases v <;> exact nothing
  | keys =>
    match args with
    | [] => exact nothing
    | [v] => exact keys_turns p v
    | v :: _ :: _ => cases v <;> exact nothing
  | join =>
    match args with
    | v :: rest => exact join_turns p v rest
    | [] => exact nothing
  | concatLists =>
    have hconcat : Eval.concat (N.values args) = (Eval.concat args).map N.values :=
      Value.concat_renumber args
    change N.Turns e N.value (Eval.ofExcept (Eval.concat args) >>= Eval.newList p)
      (Eval.ofExcept (Eval.concat (N.values args)) >>= Eval.newList p)
    rw [hconcat]
    exact Turns.ofExcept.bind fun items => newList_turns p items
  | round =>
    match args with
    | [] => exact nothing
    | [v] => exact round_turns p v
    | [v, d] => exact roundTo_turns p v d
    | v :: _ :: _ :: _ => cases v <;> exact nothing
  | floor | ceil =>
    match args with
    | [v] => exact .bareAt (fun v => Value.integral_renumber v _) (fun _ _ => Value.bare_integral) v
    | [] | _ :: _ :: _ => exact nothing
  | min | max =>
    match args with
    | [a, b] =>
      simp only [Eval.apply, List.map_cons, List.map_nil, Value.extreme_renumber]
      exact .bare fun _ => Value.bare_extreme
    | [] | [_] | _ :: _ :: _ :: _ => exact nothing
  | isNonnull =>
    match args with
    | [v] =>
      simp only [Eval.apply, List.map_cons, List.map_nil, Value.isNullish_renumber]
      exact .pure N.value (.bool _)
    | [] | _ :: _ :: _ => exact nothing
  | checkNotNull =>
    match args with
    | [v] =>
      simp only [Eval.apply, List.map_cons, List.map_nil, Value.isNullish_renumber]
      split
      · exact .fail _ _
      · exact .pure N.value v
    | [] | _ :: _ :: _ => exact nothing
  | strContains =>
    match args with
    | [a, b] =>
      exact (text_turns a).bind fun s => (text_turns b).bind fun t => .pure N.value (.bool _)
    | [] | [_] | _ :: _ :: _ :: _ => exact nothing
  | strIndexOf =>
    match args with
    | [a, b] =>
      refine (text_turns a).bind fun s => (text_turns b).bind fun t => ?_
      simp only [id]
      split <;> exact .pure N.value (.int _)
    | [] | [_] | _ :: _ :: _ :: _ => exact nothing
  | strSub =>
    rcases args with _ | ⟨a, _ | ⟨start, _ | ⟨stop, _ | ⟨d, rest⟩⟩⟩⟩
    · exact nothing
    · exact nothing
    · simp only [Eval.apply, List.map_cons, List.map_nil, Value.toInt64?_renumber]
      exact (text_turns a).bind fun s => (Turns.same _).bind fun i => .pure N.value (.str _)
    · simp only [Eval.apply, List.map_cons, List.map_nil, Value.toInt64?_renumber]
      exact (text_turns a).bind fun s => (Turns.same _).bind fun i => (Turns.same _).bind fun j =>
        .pure N.value (.str _)
    · exact nothing
  | strLen =>
    match args with
    | [a] => exact (text_turns a).bind fun s => .pure N.value (.int _)
    | [] | _ :: _ :: _ => exact nothing
  | css =>
    rcases args with _ | ⟨a, _ | ⟨b, _ | ⟨c, rest⟩⟩⟩
    · exact nothing
    · exact (text_turns a).bind fun s => .read (.pure N.value (.str _))
    · exact (text_turns a).bind fun s => (text_turns b).bind fun t => .read (.pure N.value (.str _))
    · exact nothing
  | xid =>
    match args with
    | [a] => exact (text_turns a).bind fun s => .read (.pure N.value (.str _))
    | [] | _ :: _ :: _ => exact nothing

theorem call_turns (f : Function) (args : List Value) :
    N.Turns e N.value (Eval.call p f args) (Eval.call p f (N.values args)) :=
  (apply_turns p f args).mapFailure _ _

end

/-! ## Operators -/

section

variable {x x' y y' c c' : Eval Value} (hx : N.Turns e N.value x x') (hy : N.Turns e N.value y y')
  (hc : N.Turns e N.value c c')

section

include hx

theorem int_turns : N.Turns e id (Direct.int x) (Direct.int x') := by
  refine hx.bind fun v => ?_
  rw [value, Value.toInt64?_renumber]
  exact .same _

theorem float_turns : N.Turns e id (Direct.float x) (Direct.float x') := by
  refine hx.bind fun v => ?_
  rw [value, Value.toFloat?_renumber]
  exact .same _

theorem bool_turns : N.Turns e id (Direct.bool x) (Direct.bool x') := by
  refine hx.bind fun v => ?_
  rw [value, Value.truthy_renumber]
  exact .pure id _

theorem asText_turns : N.Turns e id (Direct.text x) (Direct.text x') :=
    hx.bind fun v => text_turns v

theorem unary_turns (op : UnaryOp) (t : StaticType) :
    N.Turns e N.value (Direct.unary op t x) (Direct.unary op t x') := by
  cases op with
  | not => exact (bool_turns hx).bind fun b => .pure N.value (.bool _)
  | neg =>
    simp only [Direct.unary]
    split
    · exact (int_turns hx).bind fun i => .pure N.value (.int _)
    · split
      · exact (float_turns hx).bind fun f => .pure N.value (.float _)
      · exact hx.bind fun v =>
          .bareAt (f := Value.neg) Value.neg_renumber (fun _ _ => Value.bare_neg) v

include hy

theorem arithInt_turns (op : Arith) :
    N.Turns e N.value (Direct.arithInt op x y) (Direct.arithInt op x' y') :=
  (int_turns hx).bind fun _ => (int_turns hy).bind fun _ => (Turns.same _).bind fun i =>
    .pure N.value (.int i)

theorem arithFloat_turns (op : Arith) :
    N.Turns e N.value (Direct.arithFloat op x y) (Direct.arithFloat op x' y') :=
  (float_turns hx).bind fun _ => (float_turns hy).bind fun _ => .pure N.value (.float _)

theorem arithBoxed_turns (op : Arith) :
    N.Turns e N.value (Direct.arithBoxed op x y) (Direct.arithBoxed op x' y') :=
  hx.bind fun a => hy.bind fun b => arith_turns op a b

theorem arithmetic_turns (op : Arith) (t u : StaticType) :
    N.Turns e N.value (Direct.arith op t u x y) (Direct.arith op t u x' y') := by
  have hints := arithInt_turns hx hy
  have hfloats := arithFloat_turns hx hy
  have hboxed := arithBoxed_turns hx hy
  have htext : N.Turns e N.value (do
      let a ← Direct.text x
      let b ← Direct.text y
      return .str (a ++ b)) (do
      let a ← Direct.text x'
      let b ← Direct.text y'
      return .str (a ++ b)) :=
    (asText_turns hx).bind fun a => (asText_turns hy).bind fun b => .pure N.value (.str (a ++ b))
  cases op <;> simp only [Direct.arith]
  case div =>
    split
    · exact hfloats _
    · exact hboxed _
  case mod =>
    split
    · exact hints _
    · exact hboxed _
  all_goals
    split
    · exact hints _
    · split
      · exact hfloats _
      · split
        · exact htext
        · exact hboxed _

theorem comparison_turns (op : Comparison) (t u : StaticType) :
    N.Turns e N.value (Direct.comparison op t u x y) (Direct.comparison op t u x' y') := by
  unfold Direct.comparison
  split
  · exact (int_turns hx).bind fun _ => (int_turns hy).bind fun _ => .pure N.value (.bool _)
  · split
    · exact (float_turns hx).bind fun _ => (float_turns hy).bind fun _ => .pure N.value (.bool _)
    · split
      · exact (asText_turns hx).bind fun _ => (asText_turns hy).bind fun _ =>
          .pure N.value (.bool _)
      · refine hx.bind fun a => hy.bind fun b => ?_
        rw [Value.compared_renumber _ _ N.injective]
        exact (Turns.same _).bind fun b => .pure N.value (.bool b)

theorem binary_turns (op : BinaryOp) (t u : StaticType) :
    N.Turns e N.value (Direct.binary op t u x y) (Direct.binary op t u x' y') := by
  cases op with
  | add => exact arithmetic_turns hx hy .add t u
  | sub => exact arithmetic_turns hx hy .sub t u
  | mul => exact arithmetic_turns hx hy .mul t u
  | div => exact arithmetic_turns hx hy .div t u
  | mod => exact arithmetic_turns hx hy .mod t u
  | eq => exact comparison_turns hx hy .eq t u
  | notEq => exact comparison_turns hx hy .notEq t u
  | less => exact comparison_turns hx hy .less t u
  | lessEq => exact comparison_turns hx hy .lessEq t u
  | greater => exact comparison_turns hx hy .greater t u
  | greaterEq => exact comparison_turns hx hy .greaterEq t u
  | and =>
    refine (bool_turns hx).bind fun b => ?_
    cases b with
    | true => exact (bool_turns hy).bind fun b => .pure N.value (.bool b)
    | false => exact .pure N.value (.bool false)
  | or =>
    refine (bool_turns hx).bind fun b => ?_
    cases b with
    | true => exact .pure N.value (.bool true)
    | false => exact (bool_turns hy).bind fun b => .pure N.value (.bool b)
  | coalesce =>
    refine hx.bind fun a => ?_
    simp only [Value.isNullish_renumber]
    split
    · exact hy
    · exact .pure N.value a

theorem access_turns (nullSafe : Bool) :
    N.Turns e N.value (Direct.item x y nullSafe) (Direct.item x' y' nullSafe) := by
  refine hx.bind fun v => ?_
  simp only [Value.isNullish_renumber]
  split
  · split
    · exact .pure N.value .null
    · exact .fail _ _
  · exact hy.bind fun k => item_turns v k

include hc

theorem cond_turns : N.Turns e N.value (Direct.cond c x y) (Direct.cond c' x' y') := by
  refine (bool_turns hc).bind fun b => ?_
  cases b with
  | true => exact hx
  | false => exact hy

end

theorem function_turns (name : String) (p : List Nat) (args : List Value) :
    N.Turns e N.value (Direct.call name p args) (Direct.call name p (N.values args)) := by
  unfold Direct.call
  split
  · exact call_turns p _ args
  · exact .pure N.value .undefined

end

/-! ## Expressions -/

/-- Two readings that read names alike, up to numbers, in expressions that are `ok`. Such an
expression has only such parts, and its literals keep their numbers. -/
structure Names (N : Renumbering) (r r' : Reading) (ok : Expr → Prop) : Prop where
  parts : ∀ {x}, ok x → ∀ c ∈ x.parts, ok c
  lit : ∀ {t v plain}, ok (.lit t v plain) → N.value v = v
  var : ∀ {t name}, ok (.var t name) → ∀ e, N.Turns e N.value (r.var name) (r'.var name)
  loop : ∀ {t u name v}, ok (.call t name [.var u v]) → ∀ e, N.Turns e id (r.loop v) (r'.loop v)
  check : r.check = fun _ v => pure v
  check' : r'.check = fun _ v => pure v

variable {r r' : Reading} {ok : Expr → Prop}

theorem Names.loopHelper (h : N.Names r r' ok) {t : StaticType} {name : String} {es : List Expr}
    (he : ok (.call t name es)) :
    N.Turns e N.value (Direct.loopHelper r name es) (Direct.loopHelper r' name es) := by
  unfold Direct.loopHelper
  split
  · refine (h.loop he e).bind fun l => ?_
    simp only [id]
    split
    · exact .pure N.value (.bool _)
    · split
      · exact .pure N.value (.bool _)
      · exact .pure N.value (.int _)
  · exact .pure N.value .undefined

open Interlude.Expr

mutual

theorem Names.eval (h : N.Names r r' ok) (x : Expr) (hx : ok x) (p : List Nat) :
    N.Turns e N.value (x.eval r p) (x.eval r' p) := by
  rw [Expr.eval.eq_def, Expr.eval.eq_def, h.check, h.check', bind_pure, bind_pure]
  have hparts := h.parts hx
  match x with
  | .lit _ v plain =>
    have hv := Turns.pure (N := N) (e := e) N.value v
    rwa [h.lit hx] at hv
  | .param _ name injected =>
    refine .read ?_
    cases injected <;> simp only [env, Bool.false_eq_true, if_true, if_false, Value.lookup_renumber]
    · cases e.params.lookup name with
      | none => exact .pure N.value .undefined
      | some v => exact resolve_turns v
    · cases e.injected.lookup name with
      | none => exact .pure N.value .undefined
      | some v => exact resolve_turns v
  | .var _ name => exact h.var hx e
  | .unary _ op x => exact unary_turns (h.eval x (hparts x (by simp [Expr.parts, children])) p) op _
  | .binary _ op x y =>
    have hx := h.eval x (hparts x (by simp [Expr.parts, children]))
    exact binary_turns (hx _) (h.eval y (hparts y (by simp [Expr.parts, children])) _) op _ _
  | .cond _ c x y =>
    have hc := h.eval c (hparts c (by simp [Expr.parts, children]))
    have hx := h.eval x (hparts x (by simp [Expr.parts, children]))
    exact cond_turns (hx _) (h.eval y (hparts y (by simp [Expr.parts, children])) _) (hc _)
  | .field _ x name nullSafe =>
    exact (h.eval x (hparts x (by simp [Expr.parts, children])) p).bind fun v =>
      field_turns v name nullSafe
  | .item _ x key nullSafe =>
    have hx := h.eval x (hparts x (by simp [Expr.parts, children]))
    exact access_turns (hx _) (h.eval key (hparts key (by simp [Expr.parts, children])) _) nullSafe
  | .list _ es => exact (h.evalAll es hparts _).bind fun vs => newList_turns p vs
  | .map _ es =>
    refine (h.evalEntries es (fun k hk => hparts k (List.mem_append_left _ hk))
      (fun x hx => hparts x (List.mem_append_right _ hx)) _).bind fun ds => ?_
    simp only [Value.merged_renumber]
    refine (origin_turns p).bind fun self => ?_
    rw [← Value.renumber_map]
    exact .pure N.value _
  | .record _ fs =>
    refine (h.evalFields fs hparts _).bind fun vs => (origin_turns p).bind fun self => ?_
    have hzip : (fs.map (·.1)).zip (N.values vs) =
        ((fs.map (·.1)).zip vs).map (Value.renumberField N.number) :=
      List.zip_map_right ..
    rw [hzip, ← Value.recordOf_renumber]
    exact .pure N.value _
  | .call _ name es =>
    simp only
    split
    · exact h.loopHelper hx
    · next hname =>
      have hes : ∀ e ∈ es, ok e := by simpa [Expr.parts, hname] using hparts
      exact (h.evalAll es hes _).bind fun vs => function_turns name p vs

theorem Names.evalAll (h : N.Names r r' ok) (es : List Expr) (he : ∀ x ∈ es, ok x) (p : List Nat) :
    N.Turns e N.values (Expr.evalAll r p es) (Expr.evalAll r' p es) := by
  match es with
  | [] => exact .pure N.values []
  | x :: rest =>
    have he := List.forall_mem_cons.1 he
    exact (h.eval x he.1 _).bind fun v => (h.evalAll rest he.2 _).bind fun vs =>
      .pure N.values (v :: vs)

theorem Names.evalEntries (h : N.Names r r' ok) (es : List (Expr × Expr))
    (hk : ∀ x ∈ es.map (·.1), ok x) (hv : ∀ x ∈ es.map (·.2), ok x) (p : List Nat) :
    N.Turns e (List.map (Value.renumberEntry N.number)) (Expr.evalEntries r p es)
      (Expr.evalEntries r' p es) := by
  match es with
  | [] => exact .pure (List.map (Value.renumberEntry N.number)) []
  | (k, x) :: rest =>
    have hk := List.forall_mem_cons.1 hk
    have hv := List.forall_mem_cons.1 hv
    refine (h.eval k hk.1 _).bind fun key => (h.eval x hv.1 _).bind fun v => ?_
    rw [value, Value.ofValue?_renumber, Value.kind_renumber]
    split
    · exact .fail _ _
    · exact (h.evalEntries rest hk.2 hv.2 _).bind fun ds =>
        .pure (List.map (Value.renumberEntry N.number)) ((key, v) :: ds)

theorem Names.evalFields (h : N.Names r r' ok) (fs : List (String × Expr))
    (he : ∀ x ∈ fs.map (·.2), ok x) (p : List Nat) :
    N.Turns e N.values (Expr.evalFields r p fs) (Expr.evalFields r' p fs) := by
  match fs with
  | [] => exact .pure N.values []
  | (_, x) :: rest =>
    have he := List.forall_mem_cons.1 he
    exact (h.eval x he.1 _).bind fun v => (h.evalFields rest he.2 _).bind fun vs =>
      .pure N.values (v :: vs)

end

/-! ## What statements evaluate -/

/-- Filters that are applied to a value come to what they make of it; the futures stay as they
are. -/
theorem filtered_ending (chain : List (Filter × List Value)) (v : Value) (e : Env) (m : Memory) :
    ∃ m' : Memory, m'.states = m.states ∧ Direct.filtered chain v e m =
      Eval.ending ((Filter.applyAll m.heap.futures chain v).mapError .failed) m' := by
  unfold Direct.filtered
  cases Filter.takeText chain with
  | true =>
    refine ⟨Eval.touched m m.heap.futures v.holdsFuture, rfl, ?_⟩
    change Eval.ofExcept (Filter.applyAll m.heap.futures chain v) e
      (Eval.touched m m.heap.futures v.holdsFuture) = _
    cases Filter.applyAll m.heap.futures chain v <;> rfl
  | false =>
    refine ⟨m, rfl, ?_⟩
    change Eval.ofExcept (Filter.applyAll m.heap.futures chain v) e m = _
    cases Filter.applyAll m.heap.futures chain v <;> rfl

theorem filtered_turns (chain : List (Filter × List Value)) (v : Value) :
    N.Turns e N.value (Direct.filtered chain v) (Direct.filtered (N.chain chain) (N.value v)) := by
  intro m n hm hn
  obtain ⟨m', hm', hx⟩ := filtered_ending chain v e m
  obtain ⟨n', hn', hy⟩ := filtered_ending (N.chain chain) (N.value v) (N.env e) n
  have hfutures : n.heap.futures.states = m.heap.futures.states := hn.trans hm.symm
  rw [hx, hy, Filter.applyAll_congr hfutures, Filter.applyAll_renumber]
  cases Filter.applyAll m.heap.futures chain v with
  | ok w => exact .ok w (hm'.trans hm) (hn'.trans hn)
  | error c => exact .error ..

theorem converted_turns {x x' : Eval Value} (hx : N.Turns e N.value x x') (kind : SlotKind) :
    N.Turns e N.value (Direct.converted kind x) (Direct.converted kind x') := by
  cases kind with
  | int => exact (int_turns hx).map fun _ => rfl
  | float => exact (float_turns hx).map fun _ => rfl
  | bool => exact (bool_turns hx).map fun _ => rfl
  | string => exact (asText_turns hx).map fun _ => rfl
  | _ => exact hx

namespace Names

variable (h : N.Names r r' ok)

include h

theorem chain (ds : List Directive) (hds : ∀ x ∈ Stmt.directiveArgs ds, ok x) (p : List Nat) :
    N.Turns e N.chain (Direct.chain r p ds) (Direct.chain r' p ds) := by
  induction ds generalizing p with
  | nil => exact .pure N.chain []
  | cons d rest ih =>
    obtain ⟨hd, hrest⟩ := List.forall_mem_append.1 hds
    exact (Turns.same _).bind fun f => (h.evalAll d.args hd _).bind fun args =>
        (ih hrest _).bind fun later =>
      .pure N.chain ((f, args) :: later)

theorem printed (x : Expr) (ds : List Directive) (hok : ∀ y ∈ x :: Stmt.directiveArgs ds, ok y) :
    N.Turns e id (Direct.printed r x ds) (Direct.printed r' x ds) := by
  obtain ⟨hx, hds⟩ := List.forall_mem_cons.1 hok
  cases ds with
  | nil => exact asText_turns (h.eval x hx [])
  | cons d rest =>
    exact (h.eval x hx _).bind fun v => (h.chain (d :: rest) hds _).bind fun chain =>
        (filtered_turns chain v).bind fun w =>
      text_turns w

theorem anyEqual (subject : Value) (es : List Expr) (hes : ∀ x ∈ es, ok x) (p : List Nat) :
    N.Turns e id (Direct.anyEqual r subject p es) (Direct.anyEqual r' (N.value subject) p es) := by
  induction es generalizing p with
  | nil => exact .pure id false
  | cons x rest ih =>
    obtain ⟨hx, hrest⟩ := List.forall_mem_cons.1 hes
    refine (h.eval x hx _).bind fun v => ?_
    rw [Value.equal_renumber _ _ N.injective]
    split
    · exact .pure id true
    · exact ih hrest _

theorem bound (p : List Nat) (default : Int64) (x : Option Expr) (hx : ∀ y ∈ x, ok y) :
    N.Turns e id (Direct.bound r p default x) (Direct.bound r' p default x) := by
  cases x with
  | none => exact .pure id default
  | some x =>
    refine (h.eval x (hx x rfl) p).bind fun v => ?_
    have hv : Eval.boundOf (N.value v) = Eval.boundOf v := by cases v <;> rfl
    rw [hv]
    exact .same _

theorem range (start : Option Expr) (stop : Expr) (step : Option Expr)
    (hok : ∀ x ∈ start.toList ++ [stop] ++ step.toList, ok x) :
    N.Turns e id (Direct.range r start stop step) (Direct.range r' start stop step) := by
  simp only [List.forall_mem_append, List.forall_mem_singleton, Option.mem_toList] at hok
  refine (h.bound [0] 0 start hok.1.1).bind fun a => (h.bound [1] 0 (some stop) ?_).bind fun b =>
    (h.bound [2] 1 step hok.2).bind fun c => ?_
  · rintro _ ⟨⟩
    exact hok.1.2
  · simp only [id]
    split
    · exact .fail _ _
    · split
      · exact .fail _ _
      · exact .pure id (a, b, c)

theorem items (x : Expr) (hx : ok x) :
    N.Turns e N.values (Direct.items r x) (Direct.items r' x) := by
  refine (h.eval x hx [0]).bind fun v => ?_
  cases v with
  | list self items =>
    rw [value, Value.renumber_list]
    exact .pure N.values items
  | null | undefined => exact .pure N.values []
  | _ => exact .fail _ _

/-! ## Calls -/

theorem variant (x : Option Expr) (hx : ∀ y ∈ x, ok y) :
    N.Turns e id (Direct.variant r x) (Direct.variant r' x) := by
  cases x with
  | none => exact .pure id ""
  | some x =>
    refine (h.eval x (hx x rfl) [0]).bind fun v => ?_
    rw [value, Value.isNullish_renumber]
    split
    · exact .pure id ""
    · exact text_turns v

/-- The expressions of a call's target. -/
theorem callee (ts : Directory Template) (name : String) (target : CallTarget)
    (hok : ∀ x allowEmpty, target = .delegate (some x) allowEmpty → ok x) :
    N.Turns e id (Direct.callee ts r name target) (Direct.callee ts r' name target) := by
  cases target with
  | template => exact (Turns.same _).bind fun t => .pure id (some t)
  | delegate x allowEmpty =>
    refine (h.variant x fun y hy => ?_).bind fun v => .read (.same _)
    rw [Option.mem_def] at hy
    exact hok y allowEmpty (by rw [hy])

theorem passed (given : List (String × Value)) (data : CallData)
    (hok : ∀ x, data = .expr x → ok x) :
    N.Turns e N.data (Direct.passed r given data) (Direct.passed r' (N.data given) data) := by
  cases data with
  | none => exact .pure N.data []
  | all => exact .pure N.data given
  | expr x =>
    refine (h.eval x (hok x rfl) [1]).bind fun v => ?_
    cases v with
    | record self fields =>
      rw [value, Value.renumber_record]
      exact .pure N.data fields
    | null | undefined => exact .pure N.data []
    | _ => exact .fail _ _

theorem arguments {Body : Type} (params : List (CallParam Body))
    (hok : ∀ name x, .value name x ∈ params → ok x) (contents : List (Option Value)) (p : List Nat)
    (given : List (String × Value)) :
    N.Turns e N.data (Direct.arguments r p given params contents)
      (Direct.arguments r' p (N.data given) params (contents.map (Option.map N.value))) := by
  induction params generalizing contents p given with
  | nil => exact .pure N.data given
  | cons param rest ih =>
    have ih := ih fun name x hx => hok name x (List.mem_cons_of_mem _ hx)
    cases contents with
    | nil =>
      simp only [List.map_nil, Direct.arguments]
      exact .pure N.data given
    | cons content contents =>
      cases param with
      | content name kind body =>
        have hcontent : (content.map N.value).getD .undefined =
            N.value (content.getD .undefined) := by
          cases content <;> rfl
        simp only [List.map_cons, Direct.arguments, hcontent]
        exact ih contents _ ((name, content.getD .undefined) :: given)
      | value name x =>
        by_cases hforward : ∃ t param, x = .param t param false
        · obtain ⟨t, param, rfl⟩ := hforward
          refine .read ?_
          simp only [env, Value.lookup_renumber]
          cases e.params.lookup param with
          | none => exact ih contents _ given
          | some v => exact ih contents _ ((name, v) :: given)
        · have hx : ∀ t param, x ≠ .param t param false := fun t param heq =>
            hforward ⟨t, param, heq⟩
          rw [List.map_cons, Direct.arguments_value hx, Direct.arguments_value hx]
          exact (h.eval x (hok name x List.mem_cons_self) _).bind fun v =>
            ih contents _ ((name, v) :: given)

theorem dispatch {Body : Type} (ts : Directory Template) (given : List (String × Value))
    (name : String) (target : CallTarget) (passes : CallData) (params : List (CallParam Body))
    (contents : List (Option Value)) (ds : List Directive)
    (htarget : ∀ x allowEmpty, target = .delegate (some x) allowEmpty → ok x)
    (hpasses : ∀ x, passes = .expr x → ok x) (hparams : ∀ name x, .value name x ∈ params → ok x)
    (hds : ∀ x ∈ Stmt.directiveArgs ds, ok x) :
    N.Turns e (Option.map N.handover)
      (Direct.dispatch ts r given name target passes params contents ds)
      (Direct.dispatch ts r' (N.data given) name target passes params
      (contents.map (Option.map N.value)) ds) := by
  refine (h.callee ts name target htarget).bind fun found => ?_
  cases found with
  | none => exact .pure (Option.map N.handover) none
  | some template =>
    exact (h.passed given passes hpasses).bind fun given =>
        (h.arguments params hparams contents _ given).bind fun params =>
      (h.chain ds hds _).bind fun chain =>
        .pure (Option.map N.handover) (some ⟨template, params, chain⟩)

end Names

end Renumbering

end Interlude
