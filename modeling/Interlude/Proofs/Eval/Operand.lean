import Interlude.Proofs.Expr.Prompt
/-!
# Operands that are plain

What an instruction evaluates is plain if its expressions come to plain values (`printed`, `range`
and the others). Which of them do is up to the regime: all of them if data is plain, and some of
them whatever data is like.
-/

namespace Interlude

def Cell.Plain : Cell → Prop
  | value v => v.Plain
  | _ => True

namespace Regime

/-- An expression comes to plain values only, wherever it stands. -/
def Evaluates (R : Regime) (env : Env) (s : Strategy) (c : Compiled) : Prop :=
  ∀ p, R.Gives env (c.value s p) Value.Plain

theorem Reads.evaluates {R : Regime} {env : Env} {s : Strategy} (h : R.Reads env s) (c : Compiled) :
    R.Evaluates env s c :=
  h.term c.root.toBoxed

theorem filtered_plain {R : Regime} {env : Env} (fs : List FilterCall)
    (args : List (List Value)) {v : Value} (hv : v.Plain) :
    R.Gives env (Eval.filtered fs args v) Value.Plain := by
  intro m hm
  have hsame : Eval.touched m m.heap.futures
      (Filter.takeText (Eval.applied fs args) && v.holdsFuture) = m := by
    simp [Eval.touched, show v.holdsFuture = false from hv]
  rw [Eval.filtered_apply, hsame]
  cases hw : Filter.applyAll m.heap.futures (Eval.applied fs args) v with
  | ok w => exact ⟨hm, Value.plain_applyAll hv hw⟩
  | error e => exact ⟨hm, R.failed e⟩

namespace Evaluates

variable {R : Regime} {env : Env} {s : Strategy} {e : Compiled} {cs : List Compiled}
  {fs : List FilterCall}

/-! ## One expression -/

theorem int (h : R.Evaluates env s e) (p : List Nat) : R.Gives env (e.int s p) fun _ => True := by
  unfold Compiled.int
  rw [Lowered.eval_toInt]
  exact (h p).asInt

theorem float (h : R.Evaluates env s e) (p : List Nat) : R.Gives env (e.float s p) fun _ =>
    True := by
  unfold Compiled.float
  rw [Lowered.eval_toFloat]
  exact (h p).asFloat

theorem bool (h : R.Evaluates env s e) (p : List Nat) : R.Gives env (e.bool s p) fun _ => True := by
  unfold Compiled.bool
  rw [Lowered.eval_toBool]
  exact (h p).asBool

theorem str (h : R.Evaluates env s e) (p : List Nat) : R.Gives env (e.str s p) fun _ => True := by
  unfold Compiled.str
  rw [Lowered.eval_toStr]
  exact (h p).asText

theorem cellOf (h : R.Evaluates env s e) (kind : SlotKind) :
    R.Gives env (Eval.cellOf s kind e) Cell.Plain := by
  have hmap {α : Type} {x : Eval α} {Q : α → Prop} {f : α → Cell} (hx : R.Gives env x Q)
    (hf : ∀ a, Q a → (f a).Plain) :
      R.Gives env (f <$> x) Cell.Plain := by
    rw [map_eq_pure_bind]
    exact hx.bind fun a ha => .pure (hf a ha)
  unfold Eval.cellOf
  split
  · exact hmap (h.int []) fun _ _ => trivial
  · exact hmap (h.float []) fun _ _ => trivial
  · exact hmap (h.bool []) fun _ _ => trivial
  · exact hmap (h.str []) fun _ _ => trivial
  · exact hmap (h []) fun _ hv => hv

theorem items (h : R.Evaluates env s e) : R.Gives env (Eval.items s e) fun r => r.1.Plain := by
  refine (h _).bind fun v hv => ?_
  split
  · exact .pure hv
  · split
    · exact (Gives.newList (fun _ hv => by cases hv) []).bind fun w hw => .pure hw
    · exact .fail

/-! ## Expressions in a row -/

theorem values (h : ∀ c ∈ cs, R.Evaluates env s c) (p : List Nat) :
    R.Gives env (Eval.values s p cs) fun vs => ∀ v ∈ vs, v.Plain := by
  induction cs generalizing p with
  | nil => exact .pure fun _ hv => by cases hv
  | cons c rest ih =>
    obtain ⟨hc, hrest⟩ := List.forall_mem_cons.1 h
    exact (hc _).bind fun _ hv => (ih hrest _).bind fun _ hvs =>
      .pure (List.forall_mem_cons.2 ⟨hv, hvs⟩)

theorem filterArgs (h : ∀ f ∈ fs, ∀ c ∈ f.args, R.Evaluates env s c) (p : List Nat) :
    R.Gives env (Eval.filterArgs s p fs) fun _ => True := by
  induction fs generalizing p with
  | nil => exact .pure trivial
  | cons f rest ih =>
    obtain ⟨hf, hrest⟩ := List.forall_mem_cons.1 h
    exact (values hf _).bind fun _ _ => (ih hrest _).bind fun _ _ => .pure trivial

theorem printed (h : R.Evaluates env s e) (hfs : ∀ f ∈ fs, ∀ c ∈ f.args, R.Evaluates env s c) :
    R.Gives env (Eval.printed s e fs) fun _ => True := by
  unfold Eval.printed
  split
  · exact h.str []
  · refine (h _).bind fun v hv => (filterArgs hfs _).bind fun args _ => ?_
    exact (filtered_plain _ args hv).bind fun w hw => Gives.text hw

theorem anyEqual (h : ∀ c ∈ cs, R.Evaluates env s c) (subject : Value) (p : List Nat) :
    R.Gives env (Eval.anyEqual s subject p cs) fun _ => True := by
  induction cs generalizing p with
  | nil => exact .pure trivial
  | cons c rest ih =>
    obtain ⟨hc, hrest⟩ := List.forall_mem_cons.1 h
    refine (hc _).bind fun v _ => ?_
    split
    · exact .pure trivial
    · exact ih hrest _

theorem matchesCase (h : ∀ c ∈ cs, R.Evaluates env s c) (slot : Nat) :
    R.Gives env (Eval.matchesCase s slot cs) fun _ => True :=
  (Gives.cell slot).bind fun _ _ => anyEqual h _ _

/-! ## Ranges -/

theorem bound {e : Option Compiled} (h : ∀ c ∈ e, R.Evaluates env s c) (default : Int64)
    (p : List Nat) :
    R.Gives env (Eval.bound s p default e) fun _ => True := by
  cases e with
  | none => exact .pure trivial
  | some e => exact (h e rfl p).bind fun _ _ => Gives.attempt _

theorem range {start stop step : Option Compiled} (hstart : ∀ c ∈ start, R.Evaluates env s c)
    (hstop : ∀ c ∈ stop, R.Evaluates env s c) (hstep : ∀ c ∈ step, R.Evaluates env s c) :
    R.Gives env (Eval.range s start stop step) fun _ => True := by
  refine (bound hstart 0 _).bind fun _ _ => (bound hstop 0 _).bind fun _ _ =>
    (bound hstep 1 _).bind fun _ _ => ?_
  split
  · exact .fail
  · split
    · exact .fail
    · exact .pure trivial

end Evaluates

end Regime

end Interlude
