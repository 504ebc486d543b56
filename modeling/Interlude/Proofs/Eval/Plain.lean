import Interlude.Proofs.Eval.Meaning
import Interlude.Proofs.Value.Plain
/-!
# Evaluation without futures

A regime tells what memory is like throughout an evaluation and why it may stop. Where params,
locals and kept results are read as plain values, all that terms compute is plain (`Reads.term`);
the text of such a value may be taken without telling how far any future is.
-/

namespace Interlude

/-- What memory is like before and after evaluations, and why they may stop. A failure is always a
reason. -/
structure Regime where
  holds : Memory → Prop
  stops : Stop → Prop
  failed : ∀ e, stops (.failed e)

namespace Regime

/-- An evaluation has come to a value that `Q` tells, or to a stop of the regime. -/
def Ends (R : Regime) {α : Type} (Q : α → Prop) : EStateM.Result Stop Memory α → Prop
  | .ok a m => R.holds m ∧ Q a
  | .error e m => R.holds m ∧ R.stops e

/-- Evaluations in memory of the regime come to such values only. -/
def Gives (R : Regime) (env : Env) {α : Type} (x : Eval α) (Q : α → Prop) : Prop :=
  ∀ m, R.holds m → R.Ends Q (x env m)

/-- What terms of a form compute is plain. -/
def Plain : (f : Form) → f.carrier → Prop
  | .boxed, v => Value.Plain v
  | .values, vs => ∀ v ∈ vs, Value.Plain v
  | .entries, es => ∀ e ∈ es, Value.Plain e.1 ∧ Value.Plain e.2
  | _, _ => True

namespace Gives

variable {R : Regime} {env : Env} {α β : Type}

theorem weaken {x : Eval α} {P Q : α → Prop} (h : R.Gives env x P) (hQ : ∀ a, P a → Q a) :
    R.Gives env x Q := by
  intro m hm
  have := h m hm
  unfold Ends at *
  split <;> simp_all

theorem pure {a : α} {Q : α → Prop} (h : Q a) : R.Gives env (Pure.pure a) Q := fun _ hm => ⟨hm, h⟩

theorem throw {e : Stop} {Q : α → Prop} (h : R.stops e) : R.Gives env (throw e) Q :=
    fun _ hm => ⟨hm, h⟩

theorem fail {e : Failure} {Q : α → Prop} : R.Gives env (Eval.fail e) Q := throw (R.failed e)

theorem bind {x : Eval α} {f : α → Eval β} {P : α → Prop} {Q : β → Prop} (hx : R.Gives env x P)
    (hf : ∀ a, P a → R.Gives env (f a) Q) : R.Gives env (x >>= f) Q := by
  intro m hm
  have h := hx m hm
  rw [Eval.bind_apply]
  cases hr : x env m with
  | ok a m' => rw [hr] at h; exact hf a h.2 m' h.1
  | error e m' => rw [hr] at h; exact h

theorem ofExcept (r : Except Failure α) : R.Gives env (Eval.ofExcept r) fun a => r = .ok a := by
  cases r with
  | ok a => exact .pure rfl
  | error e => exact .fail

/-- A result of any kind, or a failure. -/
theorem attempt (r : Except Failure α) : R.Gives env (Eval.ofExcept r) fun _ => True :=
  (ofExcept r).weaken fun _ _ => trivial

theorem env' : R.Gives (α := Env) env read (· = env) := fun _ hm => ⟨hm, rfl⟩

theorem cell (i : Nat) : R.Gives env (Eval.cell i) fun _ => True := fun _ hm => ⟨hm, trivial⟩

theorem origin (p : List Nat) : R.Gives env (Eval.origin p) fun _ => True := fun _ hm =>
    ⟨hm, trivial⟩

theorem mapFailure {x : Eval α} {Q : α → Prop} (change : Failure → Failure) (h : R.Gives env x Q) :
    R.Gives env (Eval.mapFailure change x) Q := by
  intro m hm
  have h := h m hm
  rw [Eval.mapFailure_apply]
  cases hr : x env m with
  | ok a m' => rw [hr] at h; exact h
  | error e m' =>
    rw [hr] at h
    cases e with
    | failed cause => exact ⟨h.1, R.failed _⟩
    | _ => exact h

/-! ## Operations on plain values -/

theorem resolve {v : Value} (h : v.Plain) : R.Gives env (Eval.resolve v) Value.Plain := by
  cases v with
  | future id => cases h
  | _ => exact pure h

theorem text {v : Value} (h : v.Plain) : R.Gives env (Eval.text v) fun _ => True := by
  intro m hm
  have hsame : Eval.touched m m.heap.futures false = m := by simp [Eval.touched]
  rw [Eval.text_apply, h, hsame]
  exact ⟨hm, trivial⟩

theorem texts {vs : List Value} (h : ∀ v ∈ vs, v.Plain) : R.Gives env (Eval.texts vs) fun _ =>
    True := by
  induction vs with
  | nil => exact pure trivial
  | cons v rest ih =>
    have ih := ih fun w hw => h w (List.mem_cons_of_mem _ hw)
    exact (resolve (h v List.mem_cons_self)).bind fun w hw => (text hw).bind fun _ _ =>
      ih.bind fun _ _ => pure trivial

theorem newList {items : List Value} (h : ∀ v ∈ items, v.Plain) (p : List Nat) :
    R.Gives env (Eval.newList p items) Value.Plain :=
  (origin p).bind fun _ _ => pure (Value.plain_list.2 h)

theorem part {v : Option Value} (h : ∀ w, v = some w → w.Plain) :
    R.Gives env (Eval.part v) Value.Plain := by
  cases v with
  | none => exact pure rfl
  | some v => exact resolve (h v rfl)

theorem arith (op : Arith) {a b : Value} (ha : a.Plain) (hb : b.Plain) :
    R.Gives env (Eval.arith op a b) Value.Plain := by
  have hvalues : R.Gives env (Eval.ofExcept (op.values a b)) Value.Plain :=
    (ofExcept _).weaken fun _ => Value.plain_arith
  cases op with
  | add =>
    change R.Gives env (Eval.add a b) Value.Plain
    unfold Eval.add
    split
    · exact (text ha).bind fun _ _ => (text hb).bind fun _ _ => pure rfl
    · exact hvalues
  | _ => exact hvalues

theorem field {v : Value} (h : v.Plain) (name : String) (nullSafe : Bool) :
    R.Gives env (Eval.field v name nullSafe) Value.Plain := by
  unfold Eval.field
  split
  · exact part fun w => Value.plain_field (Value.plain_record.1 h)
  · exact part fun w => Value.plain_entry (Value.plain_map.1 h)
  · split
    · split
      · exact pure rfl
      · exact fail
    · exact fail

theorem item {v : Value} (h : v.Plain) (key : Value) :
    R.Gives env (Eval.item v key) Value.Plain := by
  unfold Eval.item
  split
  · exact (ofExcept _).bind fun i _ => resolve (Value.plain_itemAt (Value.plain_list.1 h) i)
  · exact part fun w => Value.plain_entry (Value.plain_map.1 h)
  · exact (ofExcept _).bind fun name _ => part fun w => Value.plain_field (Value.plain_record.1 h)
  · exact fail

theorem apply (p : List Nat) (f : Function) {args : List Value} (h : ∀ v ∈ args, v.Plain) :
    R.Gives env (Eval.apply p f args) Value.Plain := by
  have first {v : Value} {rest : List Value} (h : ∀ w ∈ v :: rest, w.Plain) : v.Plain :=
    h v List.mem_cons_self
  have second {v w : Value} {rest : List Value} (h : ∀ u ∈ v :: w :: rest, u.Plain) : w.Plain :=
    h w (List.mem_cons_of_mem _ List.mem_cons_self)
  unfold Eval.apply
  split
  · exact pure rfl
  · exact pure rfl
  · exact fail
  · next entries =>
    refine newList (fun v hv => ?_) p
    obtain ⟨e, he, rfl⟩ := List.mem_map.1 hv
    exact (Value.plain_map.1 (first h) e he).1
  · refine newList (fun v hv => ?_) p
    obtain ⟨f, _, rfl⟩ := List.mem_map.1 hv
    rfl
  · exact fail
  · exact pure rfl
  · exact (attempt _).bind fun _ _ => pure (Value.plain_round ..)
  · exact (attempt _).bind fun _ _ => (attempt _).bind fun _ _ => pure (Value.plain_round ..)
  · exact (ofExcept _).weaken fun _ => Value.plain_integral
  · exact (ofExcept _).weaken fun _ => Value.plain_integral
  · exact (ofExcept _).weaken fun _ => Value.plain_extreme
  · exact (ofExcept _).weaken fun _ => Value.plain_extreme
  · exact pure rfl
  · split
    · exact fail
    · exact pure (first h)
  · exact (ofExcept _).bind fun items hi => newList (Value.plain_concat h hi) p
  · refine (text (second h)).bind fun _ _ => (texts (Value.plain_list.1 (first h))).bind fun _ _ =>
      pure rfl
  · exact fail
  · exact (text (first h)).bind fun _ _ => (text (second h)).bind fun _ _ => pure rfl
  · refine (text (first h)).bind fun _ _ => (text (second h)).bind fun _ _ => ?_
    split <;> exact pure rfl
  · exact (text (first h)).bind fun _ _ => (attempt _).bind fun _ _ => pure rfl
  · exact (text (first h)).bind fun _ _ => (attempt _).bind fun _ _ =>
      (attempt _).bind fun _ _ => pure rfl
  · exact (text (first h)).bind fun _ _ => pure rfl
  · exact (text (first h)).bind fun _ _ => env'.bind fun _ _ => pure rfl
  · exact (text (first h)).bind fun _ _ => (text (second h)).bind fun _ _ =>
      env'.bind fun _ _ => pure rfl
  · exact (text (first h)).bind fun _ _ => env'.bind fun _ _ => pure rfl
  · exact pure rfl

theorem call (p : List Nat) (f : Function) {args : List Value} (h : ∀ v ∈ args, v.Plain) :
    R.Gives env (Eval.call p f args) Value.Plain :=
  (apply p f h).mapFailure _

end Gives

/-! ## Terms -/

/-- What evaluations read from outside is plain, and so is what is kept. -/
structure Reads (R : Regime) (env : Env) (s : Strategy) : Prop where
  param : ∀ name (injected : Bool) v,
    (if injected then env.injected else env.params).lookup name = some v →
    R.Gives env (Eval.resolve v) Value.Plain
  binding : ∀ b : Binding, R.Gives env (b.eval s.force) Value.Plain
  memo : ∀ i x, R.Gives env x Value.Plain → R.Gives env (s.memo i x) Value.Plain

theorem Reads.term {R : Regime} {env : Env} {s : Strategy} (h : R.Reads env s) {f : Form}
    (x : Term f) :
    ∀ p, R.Gives env (x.eval s p) (Plain f) := by
  induction x with
  | const v plain => exact fun p => .pure plain
  | constInt | constFloat | constBool | constStr => exact fun p => .pure trivial
  | param name injected =>
    intro p
    refine Gives.env'.bind fun _ he => ?_
    subst he
    split
    · next v hv => exact h.param name injected v hv
    · exact .pure rfl
  | «local» b => exact fun p => h.binding b
  | cellInt i | cellFloat i | cellBool i | cellStr i | isFirst i =>
    exact fun p => (Gives.cell i).bind fun _ _ => .pure trivial
  | isLast i l =>
    exact fun p => (Gives.cell i).bind fun _ _ => (Gives.cell l).bind fun _ _ => .pure trivial
  | boxInt x ih | boxFloat x ih | boxBool x ih | boxStr x ih =>
    exact fun p => (ih p).bind fun _ _ => .pure rfl
  | widen x ih | truthy x ih | textOfInt x ih | textOfFloat x ih | textOfBool x ih | not x ih
  | negInt x ih
  | negFloat x ih => exact fun p => (ih p).bind fun _ _ => .pure trivial
  | unboxInt x ih | unboxFloat x ih => exact fun p => (ih p).bind fun _ _ => Gives.attempt _
  | neg x ih =>
    exact fun p => (ih p).bind fun _ _ => (Gives.ofExcept _).weaken fun _ => Value.plain_neg
  | text x ih => exact fun p => (ih p).bind fun _ hv => Gives.text hv
  | arithInt op x y ihx ihy | compare op x y ihx ihy =>
    exact fun p => (ihx _).bind fun _ _ => (ihy _).bind fun _ _ => Gives.attempt _
  | arithFloat op x y ihx ihy | concat x y ihx ihy | compareInt op x y ihx ihy
  | compareFloat op x y ihx ihy
  | compareStr op x y ihx ihy =>
    exact fun p => (ihx _).bind fun _ _ => (ihy _).bind fun _ _ => .pure trivial
  | arith op x y ihx ihy =>
    exact fun p => (ihx _).bind fun _ ha => (ihy _).bind fun _ hb => Gives.arith op ha hb
  | both x y ihx ihy | either x y ihx ihy =>
    intro p
    refine (ihx _).bind fun a _ => ?_
    split
    · first | exact ihy _ | exact .pure trivial
    · first | exact ihy _ | exact .pure trivial
  | coalesce x y ihx ihy =>
    intro p
    refine (ihx _).bind fun a ha => ?_
    split
    · exact ihy _
    · exact .pure ha
  | cond c x y ihc ihx ihy =>
    intro p
    refine (ihc _).bind fun b _ => ?_
    split
    · exact ihx _
    · exact ihy _
  | field x name nullSafe ih => exact fun p => (ih p).bind fun v hv => Gives.field hv name nullSafe
  | item x key nullSafe ihx ihk =>
    intro p
    refine (ihx _).bind fun v hv => ?_
    split
    · split
      · exact .pure rfl
      · exact .fail
    · exact (ihk _).bind fun k _ => Gives.item hv k
  | list items ih => exact fun p => (ih _).bind fun vs hvs => Gives.newList hvs p
  | map entries ih =>
    exact fun p => (ih _).bind fun es hes => (Gives.origin p).bind fun _ _ =>
      .pure (Value.plain_merged hes)
  | record names values ih =>
    refine fun p => (ih _).bind fun vs hvs => (Gives.origin p).bind fun _ _ =>
      .pure (Value.plain_recordOf fun f hf => ?_)
    exact hvs _ (List.of_mem_zip hf).2
  | call f args ih => exact fun p => (ih _).bind fun vs hvs => Gives.call p f hvs
  | memo slot x ih => exact fun p => h.memo slot _ (ih p)
  | nil | noEntries => exact fun p => .pure fun _ hv => by cases hv
  | cons x rest ihx ihr =>
    exact fun p => (ihx _).bind fun _ hv => (ihr _).bind fun _ hvs =>
      .pure (List.forall_mem_cons.2 ⟨hv, hvs⟩)
  | entry key x rest ihk ihx ihr =>
    intro p
    refine (ihk _).bind fun k hk => (ihx _).bind fun v hv => ?_
    split
    · exact .fail
    · exact (ihr _).bind fun _ hes => .pure (List.forall_mem_cons.2 ⟨⟨hk, hv⟩, hes⟩)

end Regime

end Interlude
