import Interlude.Proofs.Source.Follow
/-!
# Values that are needed

The value of a local is computed at its let if the first statement that reads it is sure to read it.
Such a value is needed: where the read of the local halts, so does every run of the rest of the
block (`Source.block_needs`). Two things must be told apart from this. A call of a delegate that may
go nowhere evaluates what it hands over only if it goes somewhere, and a second local of the same
name hides the first from the statements after it.
-/

namespace Interlude

/-! ## Evaluations that come to nothing -/

namespace Eval

variable {α β : Type}

/-- The evaluation comes to no value, whatever the environment and the memory are. -/
def Halts (x : Eval α) : Prop := ∀ env m, ∃ e m', x env m = .error e m'

namespace Halts

theorem bind {x : Eval α} (h : Halts x) (f : α → Eval β) : Halts (x >>= f) := by
  intro env m
  obtain ⟨e, m', hx⟩ := h env m
  exact ⟨e, m', by rw [bind_apply, hx]⟩

/-- What halts after another evaluation halts in any case. -/
theorem after (x : Eval α) {f : α → Eval β} (h : ∀ a, Halts (f a)) : Halts (x >>= f) := by
  intro env m
  rw [bind_apply]
  cases x env m with
  | ok a m' => exact h a env m'
  | error e m' => exact ⟨e, m', rfl⟩

theorem map {x : Eval α} (h : Halts x) (f : α → β) : Halts (f <$> x) := by
  rw [map_eq_pure_bind]
  exact h.bind _

theorem fail (cause : Failure) : Halts (Eval.fail cause : Eval α) := fun _ m =>
    ⟨.failed cause, m, rfl⟩

end Halts

end Eval

open Eval (Halts)
open Direct (Setup Scene Handover)

/-! ## Expressions that are sure to read a local -/

namespace Direct

variable {x y : Eval Value}

theorem unary_halts (h : Halts x) (op : UnaryOp) (t : StaticType) : Halts (unary op t x) := by
  unfold unary
  split
  · exact (h.bind _).bind _
  · split
    · exact (h.bind _).bind _
    · split
      · exact (h.bind _).bind _
      · exact h.bind _

/-- An operator on two numbers, texts or values evaluates both. -/
theorem both_halt {α β γ : Type} (h : Halts x ∨ Halts y) (f : Value → Eval α) (g : Value → Eval β)
    (k : α → β → Eval γ) :
    Halts (do let a ← (do f (← x)); let b ← (do g (← y)); k a b) := by
  rcases h with h | h
  · exact (h.bind f).bind _
  · exact .after _ fun a => (h.bind g).bind _

theorem arith_halts (h : Halts x ∨ Halts y) (op : Arith) (t u : StaticType) :
    Halts (arith op t u x y) := by
  have hboxed (op : Arith) : Halts (arithBoxed op x y) := by
    rcases h with h | h
    · exact h.bind _
    · exact .after _ fun a => h.bind _
  have hints (op : Arith) : Halts (arithInt op x y) := both_halt h _ _ _
  have hfloats (op : Arith) : Halts (arithFloat op x y) := both_halt h _ _ _
  unfold arith
  simp only
  split
  · split
    · exact hfloats _
    · exact hboxed _
  · split
    · exact hints _
    · exact hboxed _
  · split
    · exact hints _
    · split
      · exact hfloats _
      · split
        · exact both_halt h _ _ _
        · exact hboxed _

theorem comparison_halts (h : Halts x ∨ Halts y) (op : Comparison) (t u : StaticType) :
    Halts (comparison op t u x y) := by
  unfold comparison
  split
  · exact both_halt h _ _ _
  · split
    · exact both_halt h _ _ _
    · split
      · exact both_halt h _ _ _
      · rcases h with h | h
        · exact h.bind _
        · exact .after _ fun a => h.bind _

theorem binary_halts {op : BinaryOp} (t u : StaticType)
    (h : Halts x ∨ (op ≠ .and ∧ op ≠ .or ∧ op ≠ .coalesce) ∧ Halts y) :
    Halts (binary op t u x y) := by
  have hboth : Halts x ∨ Halts y := h.imp_right And.right
  cases op with
  | and | or | coalesce =>
    have hx : Halts x := by simpa using h
    first
      | exact (hx.bind _).bind _
      | exact hx.bind _
  | add | sub | mul | div | mod =>
    unfold binary
    exact arith_halts hboth _ t u
  | eq | notEq | less | lessEq | greater | greaterEq => exact comparison_halts hboth _ t u

theorem converted_halts (h : Halts x) (kind : SlotKind) : Halts (converted kind x) := by
  unfold converted
  split
  · exact (h.bind _).map _
  · exact (h.bind _).map _
  · exact (h.bind _).map _
  · exact (h.bind _).map _
  · exact h

theorem item_halts {nullSafe : Bool} (h : Halts x ∨ nullSafe = false ∧ Halts y) :
    Halts (item x y nullSafe) := by
  unfold item
  rcases h with h | ⟨rfl, h⟩
  · exact h.bind _
  · refine .after x fun v => ?_
    split
    · exact .fail _
    · exact h.bind _

end Direct

namespace Expr

variable {r : Reading} {name : String}

theorem readsAlwaysAny_eq (es : List Expr) :
    readsAlwaysAny name es = es.any (·.readsAlways name) := by
  induction es with
  | nil => rfl
  | cons e rest ih => rw [readsAlwaysAny, ih, List.any_cons]

mutual

/-- An expression that is sure to read a local halts where the read of the local does. -/
theorem eval_halts (h : Halts (r.var name)) : (e : Expr) → (place : List Nat) →
    e.readsAlways name = true → Halts (e.eval r place)
  | lit .., _, he => by cases he
  | param .., _, he => by cases he
  | var _ n, _, he => by
    unfold eval
    obtain rfl : n = name := by simpa [readsAlways] using he
    exact h.bind _
  | unary _ op x, place, he => by
    unfold eval
    exact (Direct.unary_halts (eval_halts h x place he) op _).bind _
  | binary _ op x y, place, he => by
    unfold eval
    refine (Direct.binary_halts _ _ ?_).bind _
    have hx := eval_halts h x (0 :: place)
    have hy := eval_halts h y (1 :: place)
    cases op with
    | and | or | coalesce => exact .inl (hx he)
    | _ =>
      rcases Bool.or_eq_true_iff.1 he with he | he
      · exact .inl (hx he)
      · exact .inr ⟨by simp, hy he⟩
  | cond _ c x y, place, he => by
    unfold eval
    exact (((eval_halts h c (0 :: place) he).bind _).bind _).bind _
  | field _ x _ _, place, he => by
    unfold eval
    exact ((eval_halts h x place he).bind _).bind _
  | item _ x key nullSafe, place, he => by
    unfold eval
    refine (Direct.item_halts ?_).bind _
    simp only [readsAlways, Bool.or_eq_true, Bool.and_eq_true, Bool.not_eq_true'] at he
    rcases he with he | ⟨hsafe, he⟩
    · exact .inl (eval_halts h x _ he)
    · exact .inr ⟨hsafe, eval_halts h key _ he⟩
  | list _ es, place, he => by
    unfold eval
    exact ((evalAll_halts h es (0 :: place) he).bind _).bind _
  | map _ es, place, he => by
    unfold eval
    exact ((evalEntries_halts h es (0 :: place) he).bind _).bind _
  | record _ fs, place, he => by
    unfold eval
    exact ((evalFields_halts h fs (0 :: place) he).bind _).bind _
  | call _ f es, place, he => by
    unfold eval
    simp only [readsAlways, Bool.and_eq_true, Bool.not_eq_true'] at he
    simp only [he.1, Bool.false_eq_true, if_false]
    exact ((evalAll_halts h es (0 :: place) he.2).bind _).bind _

theorem evalAll_halts (h : Halts (r.var name)) : (es : List Expr) → (place : List Nat) →
    readsAlwaysAny name es = true → Halts (evalAll r place es)
  | [], _, he => by cases he
  | e :: es, place, he => by
    unfold evalAll
    rcases Bool.or_eq_true_iff.1 he with he | he
    · exact (eval_halts h e _ he).bind _
    · exact .after _ fun v => (evalAll_halts h es _ he).bind _

theorem evalEntries_halts (h : Halts (r.var name)) : (es : List (Expr × Expr)) →
    (place : List Nat) → readsAlwaysEntries name es = true → Halts (evalEntries r place es)
  | [], _, he => by cases he
  | (k, x) :: es, place, he => by
    unfold evalEntries
    simp only [readsAlwaysEntries, Bool.or_eq_true] at he
    rcases he with (he | he) | he
    · exact (eval_halts h k _ he).bind _
    · exact .after _ fun key => (eval_halts h x _ he).bind _
    · refine .after _ fun key => .after _ fun v => ?_
      split
      · exact .fail _
      · exact (evalEntries_halts h es _ he).bind _

theorem evalFields_halts (h : Halts (r.var name)) : (fs : List (String × Expr)) →
    (place : List Nat) → readsAlwaysFields name fs = true → Halts (evalFields r place fs)
  | [], _, he => by cases he
  | (_, e) :: fs, place, he => by
    unfold evalFields
    rcases Bool.or_eq_true_iff.1 he with he | he
    · exact (eval_halts h e _ he).bind _
    · exact .after _ fun v => (evalFields_halts h fs _ he).bind _

end

end Expr

/-! ## Statements that are sure to read a local -/

/-- A call that may not go nowhere goes somewhere. -/
theorem Directory.select_goes {α : Type} {d : Directory α} {context : Context}
    {name variant : String} {found : Option α}
    (h : d.select context name variant false = .ok found) : ∃ a, found = some a := by
  obtain ⟨first, _, h⟩ := Except.bind_ok h
  cases first with
  | some a =>
    cases h
    exact ⟨a, rfl⟩
  | none =>
    simp only [Bool.false_eq_true, if_false] at h
    split at h
    · cases h
    · obtain ⟨second, _, h⟩ := Except.bind_ok h
      cases second with
      | some a =>
        cases h
        exact ⟨a, rfl⟩
      | none => cases h

namespace Direct

variable {r : Reading} {name : String} (h : Halts (r.var name))

include h

theorem chain_halts {ds : List Directive} (place : List Nat)
    (hds : (Stmt.directiveArgs ds).any (·.readsAlways name) = true) : Halts (chain r place ds) := by
  induction ds generalizing place with
  | nil => cases hds
  | cons d rest ih =>
    rw [Stmt.directiveArgs, List.flatMap_cons, List.any_append, Bool.or_eq_true] at hds
    unfold chain
    refine .after _ fun filter => ?_
    rcases hds with hd | hrest
    · exact (Expr.evalAll_halts h d.args _ (by rwa [Expr.readsAlwaysAny_eq])).bind _
    · exact .after _ fun args => (ih _ hrest).bind _

theorem printed_halts {e : Expr} {ds : List Directive}
    (he : (e :: Stmt.directiveArgs ds).any (·.readsAlways name) = true) :
    Halts (printed r e ds) := by
  rw [List.any_cons, Bool.or_eq_true] at he
  unfold printed
  split
  · exact (Expr.eval_halts h e [] (he.resolve_right (by simp [Stmt.directiveArgs]))).bind _
  · rcases he with he | hds
    · exact (Expr.eval_halts h e [0] he).bind _
    · exact .after _ fun v => (chain_halts h [1] hds).bind _

theorem bound_halts {e : Option Expr} (he : e.toList.any (·.readsAlways name) = true)
    (place : List Nat) (default : Int64) : Halts (bound r place default e) := by
  cases e with
  | none => cases he
  | some e => exact (Expr.eval_halts h e place (by simpa using he)).bind _

theorem range_halts {start step : Option Expr} {stop : Expr}
    (he : (start.toList ++ [stop] ++ step.toList).any (·.readsAlways name) = true) :
    Halts (range r start stop step) := by
  simp only [List.any_append, Bool.or_eq_true] at he
  unfold range
  rcases he with (hstart | hstop) | hstep
  · exact (bound_halts h hstart _ _).bind _
  · exact .after _ fun a => (bound_halts h (e := some stop) hstop _ _).bind _
  · exact .after _ fun a => .after _ fun b => (bound_halts h hstep _ _).bind _

/-- All arguments of a call are evaluated, if there is content for each. -/
theorem arguments_halts {Body : Type} {params : List (CallParam Body)}
    {contents : List (Option Value)} (hlength : contents.length = params.length) {x : Expr}
    {n : String} (hx : .value n x ∈ params) (hread : x.readsAlways name = true) (place : List Nat)
    (given : List (String × Value)) :
    Halts (arguments r place given params contents) := by
  induction params generalizing contents place given with
  | nil => cases hx
  | cons p rest ih =>
    cases contents with
    | nil => cases hlength
    | cons c contents =>
      have hlength : contents.length = rest.length := by simpa using hlength
      rcases List.mem_cons.1 hx with rfl | hx
      · rw [arguments_value (by rintro t param rfl; cases hread)]
        exact (Expr.eval_halts h x _ hread).bind _
      · have hlater := ih hlength hx
        cases p with
        | content =>
          unfold arguments
          exact hlater _ _
        | value n' y =>
          by_cases hforward : ∃ t param, y = .param t param false
          · obtain ⟨t, param, rfl⟩ := hforward
            unfold arguments
            refine .after _ fun env => ?_
            split <;> exact hlater _ _
          · rw [arguments_value fun t param heq => hforward ⟨t, param, heq⟩]
            exact .after _ fun v => hlater _ _

omit h in
/-- A call goes somewhere, unless it is one of a delegate that may go nowhere. -/
theorem callee_goes {ts : Directory Template} {callee : String} {target : CallTarget}
    (htarget : ∀ variant, target ≠ .delegate variant true) {env : Env} {m m' : Memory}
    {found : Option Template} (hfound : Direct.callee ts r callee target env m = .ok found m') :
    ∃ t, found = some t := by
  unfold Direct.callee at hfound
  split at hfound
  · obtain ⟨t, _, _, hfound⟩ := Eval.bind_ok hfound
    cases hfound
    exact ⟨t, rfl⟩
  · next variant allowEmpty =>
    obtain rfl : allowEmpty = false := by simpa using htarget variant
    obtain ⟨name, _, _, hfound⟩ := Eval.bind_ok hfound
    obtain ⟨env', _, _, hfound⟩ := Eval.bind_ok hfound
    cases hselect : ts.select env'.context callee name false with
    | error e =>
      rw [hselect] at hfound
      cases hfound
    | ok found' =>
      rw [hselect] at hfound
      cases hfound
      exact Directory.select_goes hselect

/-- A call halts if all it evaluates is evaluated for certain: it goes somewhere, or it is the
variant of its delegate that is sure to read the local. -/
theorem dispatch_halts {ts : Directory Template} {data : List (String × Value)} {callee : String}
    {target : CallTarget} {passes : CallData} {params : List (CallParam (List Stmt))}
    {contents : List (Option Value)} {ds : List Directive}
    (hlength : contents.length = params.length)
    (he : (Stmt.call callee target passes params ds).exprs.any (·.readsAlways name) = true)
    (htarget : ∀ variant, target = .delegate variant true → ∃ e ∈ variant,
      e.readsAlways name = true) :
    Halts (dispatch ts r data callee target passes params contents ds) := by
  have hvariant {variant : Option Expr} {allowEmpty : Bool}
    (hv : ∃ e ∈ variant, e.readsAlways name = true) :
      Halts (Direct.callee ts r callee (.delegate variant allowEmpty)) := by
    obtain ⟨e, rfl, he⟩ := hv
    exact ((Expr.eval_halts h e [0] he).bind _).bind _
  by_cases hasks : ∃ variant allowEmpty, target = .delegate variant allowEmpty ∧ ∃ e ∈ variant,
    e.readsAlways name = true
  · obtain ⟨variant, allowEmpty, rfl, hv⟩ := hasks
    exact (hvariant hv).bind _
  · have hgoes : ∀ variant, target ≠ .delegate variant true := fun variant ht =>
      hasks ⟨variant, true, ht, htarget variant ht⟩
    have hall (t : Template) : Halts (do
        let given ← passed r data passes
        let args ← arguments r [2] given params contents
        let chain ← chain r [3] ds
        return some { template := t, params := args, chain : Handover }) := by
      simp only [Stmt.exprs, List.any_append, Bool.or_eq_true] at he
      rcases he with ((hv | hpassed) | hvalue) | hds
      · refine (hasks ?_).elim
        split at hv
        · next e allowEmpty => exact ⟨_, allowEmpty, rfl, e, rfl, by simpa using hv⟩
        · cases hv
      · refine .bind ?_ _
        split at hpassed
        · next e => exact (Expr.eval_halts h e [1] (by simpa using hpassed)).bind _
        · cases hpassed
      · obtain ⟨x, hx, hread⟩ := List.any_eq_true.1 hvalue
        obtain ⟨p, hp, hx⟩ := List.mem_filterMap.1 hx
        cases p with
        | value n y =>
          cases hx
          exact .after _ fun given => (arguments_halts h hlength hp hread [2] given).bind _
        | content => cases hx
      · exact .after _ fun given => .after _ fun args => (chain_halts h [3] hds).bind _
    intro env m
    unfold dispatch
    rw [Eval.bind_apply]
    cases hcallee : Direct.callee ts r callee target env m with
    | error e m' => exact ⟨e, m', rfl⟩
    | ok found m' =>
      obtain ⟨t, rfl⟩ := callee_goes hgoes hcallee
      exact hall t env m'

end Direct

/-! ## Runs that need a local -/

namespace Stmt

/-- The local that a statement binds. -/
def local? : Stmt → Option String
  | letValue name _ => some name
  | letContent name _ _ => some name
  | _ => none

/-- If a call that may go nowhere reads the local, it is sure to read it where it asks for its
delegate. -/
def Asks (name : String) (s : Stmt) : Prop :=
  ∀ callee variant data params ds, s = call callee (.delegate variant true) data params ds →
    references [s] name = true → ∃ e ∈ variant, e.readsAlways name = true

end Stmt

namespace Source

/-- The run comes to no end with a result. -/
def Run.Stops {α : Type} (x : Run α) : Prop := ∀ n, ∃ e, x n = .error e

namespace Run.Stops

theorem bind {α β : Type} {x : Run α} (h : x.Stops) (f : α → Run β) : (x >>= f).Stops := by
  intro n
  obtain ⟨e, hx⟩ := h n
  exact ⟨e, by rw [Run.bind_apply, hx]⟩

theorem after {α β : Type} (x : Run α) {f : α → Run β}
    (h : ∀ a n m, x n = .ok (a, m) → ∃ e, f a m = .error e) :
    (x >>= f).Stops := by
  intro n
  rw [Run.bind_apply]
  cases hx : x n with
  | ok a => exact h a.1 n a.2 hx
  | error e => exact ⟨e, rfl⟩

end Run.Stops

section

variable {su : Setup} {call : Caller} {scene : Scene} {r : Reading} {name : String}

theorem eval_stops {α : Type} {x : Eval α} (h : Halts x) : (eval su scene x).Stops := by
  intro n
  obtain ⟨e, m, hx⟩ :=
    h { scene.env su with maker := n } { cells := #[], heap := { futures := su.futures } }
  exact ⟨e, by rw [eval, Run.eval, hx]⟩

/-- There is content for each param of a call. -/
theorem contents_length {params : List (CallParam (List Stmt))} {n m : Identity}
    {found : List (Option Value)} (h : contents su call scene r params n = .ok (found, m)) :
    found.length = params.length := by
  induction params generalizing n found with
  | nil =>
    cases h
    rfl
  | cons p rest ih =>
    cases p with
    | value =>
      obtain ⟨later, k, hlater, h⟩ := StateT.bind_ok h
      cases h
      simpa using ih hlater
    | content =>
      obtain ⟨s, k, _, h⟩ := StateT.bind_ok h
      obtain ⟨later, k', hlater, h⟩ := StateT.bind_ok h
      cases h
      simpa using ih hlater

/-- A statement leaves a local that it does not bind. -/
theorem stmt_var {rest : List Stmt} {s : Stmt} {out : String × Reading} {n m : Identity}
    (h : stmt su call scene r rest s n = .ok (out, m)) (hs : s.local? ≠ some name) :
    out.2.var name = r.var name := by
  cases hlet : s.isLet with
  | false => rw [stmt_reading hlet h]
  | true =>
    have hbind {other : String} (hother : some other ≠ some name) (x : Eval Value) :
        (r.bind other x).var name = r.var name := if_neg fun heq => hother (by rw [eq_of_beq heq])
    cases s with
    | letValue other e =>
      cases hmode : classifyLet other rest with
      | skip =>
        rw [stmt, hmode] at h
        cases h
        rfl
      | eager =>
        rw [stmt, hmode] at h
        obtain ⟨v, k, _, h⟩ := StateT.bind_ok h
        cases h
        exact hbind hs _
      | deferred =>
        rw [stmt, hmode] at h
        obtain ⟨x, k, _, h⟩ := StateT.bind_ok h
        cases h
        exact hbind hs _
    | letContent other kind body =>
      unfold stmt at h
      split at h
      · obtain ⟨text, k, _, h⟩ := StateT.bind_ok h
        cases h
        exact hbind hs _
      · cases h
        rfl
    | _ => cases hlet

/-- A statement that is sure to read a local stops where the read halts. -/
theorem stmt_stops (hr : Halts (r.var name)) {rest : List Stmt} {s : Stmt}
    (hread : Stmt.references [s] name = true) (hhead : s.headExprs.any (·.readsAlways name) = true)
    (hasks : s.Asks name) :
    (stmt su call scene r rest s).Stops := by
  unfold stmt
  cases s with
  | text | letValue | letContent | log => cases hhead
  | print e ds => exact (eval_stops (Direct.printed_halts hr hhead)).bind _
  | cond branches otherwise =>
    cases branches with
    | nil => cases hhead
    | cons b rest =>
      obtain ⟨c, body⟩ := b
      have hc : c.readsAlways name = true := by simpa [Stmt.headExprs] using hhead
      unfold firstBranch
      exact ((eval_stops ((Expr.eval_halts hr c [] hc).bind _)).bind _).bind _
  | switch subject cases default =>
    have hsubject : subject.readsAlways name = true := by simpa [Stmt.headExprs] using hhead
    exact (eval_stops (Expr.eval_halts hr subject [] hsubject)).bind _
  | forRange var start stop step body => exact (eval_stops (Direct.range_halts hr hhead)).bind _
  | forEach var list body ifEmpty =>
    have hlist : list.readsAlways name = true := by simpa [Stmt.headExprs, Stmt.exprs] using hhead
    exact (eval_stops ((Expr.eval_halts hr list [0] hlist).bind _)).bind _
  | call callee target data params ds =>
    refine .after _ fun contents n m hcontents => ?_
    refine ((eval_stops (Direct.dispatch_halts hr (contents_length hcontents) hhead ?_)).bind _) m
    rintro variant rfl
    exact hasks callee variant data params ds rfl hread

/-- **A value that is computed at its let is needed.** The rest of the block does not come to an end
without a read of the local. -/
theorem block_needs {rest : List Stmt} (h : classifyLet name rest = .eager)
    (hlocal : ∀ s ∈ rest, s.local? ≠ some name) (hasks : ∀ s ∈ rest, s.Asks name) {r : Reading}
    (hr : Halts (r.var name)) :
    (block su call scene r rest).Stops := by
  induction rest generalizing r with
  | nil => cases h
  | cons s rest ih =>
    obtain ⟨hs, hlocal⟩ := List.forall_mem_cons.1 hlocal
    obtain ⟨hask, hasks⟩ := List.forall_mem_cons.1 hasks
    rw [block]
    unfold classifyLet at h
    split at h
    · refine .after _ fun out n m hout => ?_
      have hlater : Halts (out.2.var name) := by rwa [stmt_var hout hs]
      exact ((ih h hlocal hasks hlater).bind _) m
    · next href =>
      have href : Stmt.references [s] name = true := by simpa using href
      refine .bind ?_ _
      split at h
      · next other e _ =>
        split at h
        · next hsame => exact absurd (congrArg some (eq_of_beq hsame)) hs
        · split at h
          · next hneeds =>
            obtain ⟨hread, hmode⟩ : e.readsAlways name = true ∧
              classifyLet other rest = .eager := by simpa using hneeds
            rw [stmt, hmode]
            exact (eval_stops (Direct.converted_halts (Expr.eval_halts hr e [] hread) _)).bind _
          · cases h
      · split at h
        · next hhead => exact stmt_stops hr href hhead hask
        · cases h

/-- A deferred value that halts wherever it is used makes the rest of a block stop that needs it. -/
theorem Settled.block_stops {base n : Identity} (h : Settled su base n scene r)
    (hu : Uniform su base call) {rest : List Stmt}
    (hrest : Stmt.Every (fun s => ∀ e ∈ s.exprs, e.MadeBefore base) rest)
    (hmode : classifyLet name rest = .eager) (hlocal : ∀ s ∈ rest, s.local? ≠ some name)
    (hasks : ∀ s ∈ rest, s.Asks name) {x : Eval Value}
    (hx : ∀ env m, m.states = su.futures.states → ∃ e m', x env m = .error e m') :
    (block su call scene (r.bind name x) rest).Stops := by
  intro k
  let N : Renumbering := .same su.futures
  have hN (k : Identity) : N.Keeps su.futures k := Renumbering.same_keeps su.futures k
  have hscene : N.scene scene = scene := h.scene N (hN n)
  let unread : Eval Value := Eval.fail (.plain "unread")
  have hunread : Halts ((r.bind name unread).var name) := by
    rw [show (r.bind name unread).var name = unread from if_pos (beq_self_eq_true name)]
    exact .fail _
  have hturns : ∀ e, N.Turns e N.value unread x := by
    intro e m m' _ hm'
    obtain ⟨s, k, hx⟩ := hx (N.env e) m' hm'
    rw [hx]
    exact .error _ _
  have hblock := (hu N (hN base)).block scene ((h.names N (hN n)).bind name hturns)
    rest hrest k k fun _ => rfl
  have hstops : (block su call scene (r.bind name unread) rest).Stops :=
    block_needs hmode hlocal hasks hunread
  obtain ⟨e, he⟩ := hstops k
  rw [he, hscene] at hblock
  generalize block su call scene (r.bind name x) rest k = result at hblock ⊢
  cases hblock
  exact ⟨_, rfl⟩

/-- **A value is computed at its let only where the run needs it.** If its evaluation stops the run
there, then the run that defers the value stops too. -/
theorem deferred_stops {base n : Identity} (h : Settled su base n scene r)
    (hu : Uniform su base call) {e : Expr} {rest : List Stmt} (he : e.MadeBefore base)
    (hrest : Stmt.Every (fun s => ∀ e ∈ s.exprs, e.MadeBefore base) rest)
    (hmode : classifyLet name rest = .eager) (hlocal : ∀ s ∈ rest, s.local? ≠ some name)
    (hasks : ∀ s ∈ rest, s.Asks name) {stop : Stop}
    (hstop : eval su scene (e.eval r []) n = .error stop) :
    ∃ stop', (do
      let x ← defer su scene (e.eval r [])
      block su call scene (r.bind name x) rest) n = .error stop' := by
  let N : Renumbering := .same su.futures
  have hN : N.Keeps su.futures n := Renumbering.same_keeps su.futures n
  let env : Env := { scene.env su with maker := n }
  have henv : N.env env = env := by
    have hscene := congrArg (fun s : Scene => s.env su) (h.scene N hN)
    exact congrArg (fun env : Env => { env with maker := n }) hscene
  have hstops (m : Memory) (hm : m.states = su.futures.states) : ∃ e' m',
      e.eval r [] env m = .error e' m' := by
    have hmeets := (h.names N hN).eval (e := env) e he []
      { cells := #[], heap := { futures := su.futures } } m rfl hm
    unfold eval Run.eval at hstop
    rw [henv] at hmeets
    generalize e.eval r [] env m = result at hmeets ⊢
    cases hfirst : e.eval r [] env { cells := #[], heap := { futures := su.futures } } with
    | ok v k =>
      rw [hfirst] at hstop
      cases hstop
    | error s k =>
      rw [hfirst] at hmeets
      cases hmeets
      exact ⟨_, _, rfl⟩
  refine h.block_stops hu hrest hmode hlocal hasks (fun own m hm => ?_) (n + 1)
  obtain ⟨s, m', hs⟩ := hstops { m with cells := #[] } hm
  exact ⟨s, _, by unfold Eval.onCells; rw [hs]⟩

end

end Source

namespace Sample

open Source (block)

/-- A local that cannot be read. -/
def unreadable : Reading := Reading.none.bind "size" (Eval.fail (.plain "unread"))

/-- There are no templates. -/
def bare : Setup := { templates := .ofTemplates [], futures := {}, context := {} }

def emptyScene : Scene := { template := "page", params := [], injected := [], data := [] }

/-- A call that goes nowhere hands over nothing, and content of the same name hides the local. Both
runs end without a read of the local, though its value would be computed at its let. -/
theorem unread_locals :
    let idle : Stmt := .call "aside" (.delegate none true) .none
      [.value "size" (.var .any "size")] []
    let hidden : List Stmt :=
    [.letContent "size" .html [.text "small"], .print (.var .any "size") []]
    classifyLet "size" [idle] = .eager ∧
      (∃ n, block bare (fun _ _ _ => pure "") emptyScene unreadable [idle] 0 = .ok ("", n)) ∧
    classifyLet "size" hidden = .eager ∧
      ∃ n, block bare (fun _ _ _ => pure "") emptyScene unreadable hidden 0 = .ok ("small", n) := by
  exact ⟨by decide, ⟨1, by cbv⟩, by decide, ⟨1, by cbv⟩⟩

end Sample

end Interlude
