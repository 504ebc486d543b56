import Interlude.Proofs.Eval.Operand
/-!
# Expressions that cannot suspend

An expression that is judged safe reads no param, no part of a value and no local but those with
known values. Its code has no memo cells, so keeping results makes no difference, and it comes to a
plain value or a failure in whatever memory it is evaluated (`compile_prompt`).
-/

namespace Interlude

/-- Code that never waits: it comes to a plain value or to a failure, whatever data, cells and
futures are like. -/
def Compiled.Prompt (c : Compiled) : Prop := ∀ env force,
    Regime.prompt.Evaluates env (.keeping force) c

/-- An evaluation never stops at a pending value. -/
def Eval.NeverWaits {α : Type} (x : Eval α) : Prop := ∀ env m f m', x env m ≠ .error (.waiting f) m'

theorem Regime.Gives.neverWaits {α : Type} {x : Eval α} {Q : α → Prop}
    (h : ∀ env, Regime.prompt.Gives env x Q) :
    x.NeverWaits := by
  intro env m f m' hwait
  have hends := h env m trivial
  rw [hwait] at hends
  obtain ⟨_, cause, hcause⟩ := hends
  cases hcause

/-! ## Code without memo cells -/

/-- Equality is kept by all that evaluations are made of. -/
theorem Eval.eq_compatible (see : Seeing) : Compatible (fun _ x y => x = y) see where
  pure _ := rfl
  bind hx hf := by rw [hx, funext hf]
  fail _ := rfl
  env := rfl
  resolve _ := rfl
  text _ := rfl
  filtered _ _ _ := rfl
  mapFailure change _ _ h := congrArg (Eval.mapFailure change) h
  cell _ _ := rfl

/-- Where nothing is kept, it makes no difference what is done with results. -/
theorem Strategy.keeping_congruence (see : Seeing) (force : ThunkId → Eval Value) :
    Congruence (fun _ x y => x = y) see (fun _ _ _ => False) (.keeping force) (.plain force) where
  toCompatible := Eval.eq_compatible see
  binding _ _ := rfl
  memo _ _ _ h := h.elim

namespace Expr

/-- The code of an expression that is not expected to suspend keeps nothing. -/
theorem compile_keepsNothing {s : Scope} {slots slots' : Slots} {e : Expr} {c : Compiled}
    (h : e.compile s slots = .ok (c, slots')) (hmay : s.may e = false) (p : List Nat) :
    c.Touches (fun _ => True) (fun _ _ _ => False) p := by
  have hseen : s.locals.Seen fun _ => True := fun _ _ _ =>
    ⟨trivial, fun _ _ _ => ⟨trivial, trivial⟩⟩
  have hroot : ∀ {start n : Nat} {root : Lowered}, (e.lower s false).run start = .ok (root, n) →
      root.Touches (fun _ => True) (fun _ _ _ => False) p := fun {start n root} hlower => by
    obtain ⟨hfits, hn⟩ := lower_fits hseen e hlower
    rw [countMemo_of_not_may hmay, Nat.add_zero] at hn
    subst hn
    obtain ⟨table, htouches⟩ := hfits.touches p
    -- there is no room for a memo cell
    exact htouches.mono (fun _ h => h) fun q i x hk =>
      Nat.lt_irrefl i (Nat.lt_of_lt_of_le hk.2.1 hk.1)
  unfold compile at h
  simp only at h
  split at h
  all_goals
    obtain ⟨r, hr, h⟩ := Except.bind_ok h
    cases h
    exact hroot hr

/-! ## What is judged safe -/

section

variable {known settled : String → Bool}

mutual

/-- What is safe stays safe if more locals are known. -/
theorem maySuspend_mono (h : ∀ name, known name = true → settled name = true) (e : Expr)
    (he : e.maySuspend known = false) : e.maySuspend settled = false := by
  match e with
  | .lit .. => rfl
  | .param .. | .field .. | .item .. => cases he
  | .var _ name =>
    have hname := h name (by simpa [maySuspend] using he)
    simp [maySuspend, hname]
  | .unary _ _ x => exact maySuspend_mono h x he
  | .binary _ _ x y =>
    obtain ⟨hx, hy⟩ := Bool.or_eq_false_iff.1 he
    exact Bool.or_eq_false_iff.2 ⟨maySuspend_mono h x hx, maySuspend_mono h y hy⟩
  | .cond _ c x y =>
    obtain ⟨hcx, hy⟩ := Bool.or_eq_false_iff.1 he
    obtain ⟨hc, hx⟩ := Bool.or_eq_false_iff.1 hcx
    have hparts := Bool.or_eq_false_iff.2 ⟨maySuspend_mono h c hc, maySuspend_mono h x hx⟩
    exact Bool.or_eq_false_iff.2 ⟨hparts, maySuspend_mono h y hy⟩
  | .list _ es => exact maySuspendAll_mono h es he
  | .map _ es => exact maySuspendEntries_mono h es he
  | .record _ fs => exact maySuspendFields_mono h fs he
  | .call _ name es =>
    exact Bool.and_eq_false_iff.2 ((Bool.and_eq_false_iff.1 he).imp_right (maySuspendAll_mono h es))

theorem maySuspendAll_mono (h : ∀ name, known name = true → settled name = true) (es : List Expr)
    (he : maySuspendAll known es = false) : maySuspendAll settled es = false := by
  match es with
  | [] => rfl
  | e :: rest =>
    obtain ⟨hfirst, hrest⟩ := Bool.or_eq_false_iff.1 he
    exact Bool.or_eq_false_iff.2 ⟨maySuspend_mono h e hfirst, maySuspendAll_mono h rest hrest⟩

theorem maySuspendEntries_mono (h : ∀ name, known name = true → settled name = true)
    (es : List (Expr × Expr)) (he : maySuspendEntries known es = false) :
    maySuspendEntries settled es = false := by
  match es with
  | [] => rfl
  | (k, v) :: rest =>
    obtain ⟨hkv, hrest⟩ := Bool.or_eq_false_iff.1 he
    obtain ⟨hk, hv⟩ := Bool.or_eq_false_iff.1 hkv
    have hfirst := Bool.or_eq_false_iff.2 ⟨maySuspend_mono h k hk, maySuspend_mono h v hv⟩
    exact Bool.or_eq_false_iff.2 ⟨hfirst, maySuspendEntries_mono h rest hrest⟩

theorem maySuspendFields_mono (h : ∀ name, known name = true → settled name = true)
    (fs : List (String × Expr)) (he : maySuspendFields known fs = false) :
    maySuspendFields settled fs = false := by
  match fs with
  | [] => rfl
  | (_, e) :: rest =>
    obtain ⟨hfirst, hrest⟩ := Bool.or_eq_false_iff.1 he
    exact Bool.or_eq_false_iff.2 ⟨maySuspend_mono h e hfirst, maySuspendFields_mono h rest hrest⟩

end

end

/-- What is judged safe is compiled without memo cells, for either analyzer. -/
theorem may_of_safe {s : Scope} {e : Expr} (he : e.maySuspend s.locals.settled = false) :
    s.may e = false := by
  unfold Scope.may Analyzer.expr
  cases s.analyzer with
  | conservative => exact he
  | never => rfl

/-- A local with a known value is read from a cell that holds no box. -/
theorem settled_prompt {ls : Locals} {name : String} (h : ls.settled name = true) (env : Env)
    (force : ThunkId → Eval Value) :
    Regime.prompt.Gives env ((ls.reading force).var name) Value.Plain := by
  unfold Locals.settled at h
  simp only [Locals.reading]
  cases hb : ls.lookup name with
  | none => exact .pure rfl
  | some b =>
    rw [hb] at h
    obtain ⟨hloop, hkind⟩ := Bool.and_eq_true_iff.1 h
    unfold Binding.eval
    refine (Regime.Gives.cell b.slot).bind fun c _ => ?_
    rw [Option.isNone_iff_eq_none.1 hloop]
    cases hk : b.kind with
    | int | float | bool | string => exact .pure rfl
    | _ => rw [hk] at hkind; cases hkind

/-- The names of an expression that is judged safe are read as plain values. -/
theorem safe_names (ls : Locals) (env : Env) (force : ThunkId → Eval Value) :
    Regime.prompt.Names env (ls.reading force) (·.maySuspend ls.settled = false) where
  parts := may_parts (s := ⟨.conservative, ls⟩)
  param h := by cases h
  var h := settled_prompt (by simpa [maySuspend] using h) env force
  loop name := by
    simp only [Locals.reading]
    split
    · exact (Regime.Gives.cell _).bind fun _ _ => (Regime.Gives.cell _).bind fun _ _ =>
        .pure trivial
    · exact .pure trivial
  check _ _ hv := .pure hv

/-- The code of an expression that is judged safe never waits. -/
theorem compile_prompt {s : Scope} {slots slots' : Slots} {e : Expr} {c : Compiled}
    (h : e.compile s slots = .ok (c, slots')) (he : e.maySuspend s.locals.settled = false) :
    c.Prompt := by
  intro env force p
  have hkeeps := compile_keepsNothing h (may_of_safe he) p
  have hplain : c.value (.keeping force) p = c.value (.plain force) p :=
    (Strategy.keeping_congruence (fun _ => True) force).value hkeeps
  rw [hplain, Expr.compile_means h force p]
  exact (safe_names s.locals env force).eval e he p

end Expr

end Interlude
