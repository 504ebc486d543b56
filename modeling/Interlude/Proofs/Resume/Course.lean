import Interlude.Proofs.Render.Fuel
import Interlude.Proofs.Suspension.Instr
/-!
# The course of a run

A run is told by what it has come to after any number of steps. A run that goes on as another comes
to all that the other comes to, and puts out all that the other puts out (`Leads.grows`).
-/

namespace Interlude

/-- What a run has come to after any number of steps. -/
abbrev Course := Nat → Outcome × Store

namespace Course

/-- More steps do not change what was come to. -/
def Steady (x : Course) : Prop := ∀ {f f' : Nat}, f ≤ f' → Approximates (x f) (x f')

/-- Given enough steps, a run comes to a result. -/
def Comes (x : Course) (result : Outcome × Store) : Prop := ∃ n, ∀ f, n ≤ f → x f = result

/-- Before it does anything else, a run waits for a value. -/
def Awaits (x : Course) (p : FutureId) (t : Store) : Prop := x 1 = (.waiting p, t)

/-- A run goes on as another. -/
structure Leads (x y : Course) : Prop where
  reach : ∀ f, ∃ n, ∀ f', n ≤ f' → Approximates (y f) (x f')
  rest : ∀ f, (x f).1 ≠ .exhausted → y f = x f

variable {x y z : Course} {result : Outcome × Store}

theorem Awaits.comes {p : FutureId} {t : Store} (hs : x.Steady) (h : x.Awaits p t) :
    x.Comes (.waiting p, t) := by
  refine ⟨1, fun f hf => ?_⟩
  have happ := hs hf
  rw [h] at happ
  exact happ.eq (by simp)

theorem Comes.unique {result' : Outcome × Store} (h : x.Comes result) (h' : x.Comes result') :
    result = result' := by
  obtain ⟨n, hn⟩ := h
  obtain ⟨n', hn'⟩ := h'
  rw [← hn _ (Nat.le_max_left n n'), ← hn' _ (Nat.le_max_right n n')]

theorem Leads.refl (h : x.Steady) : x.Leads x := ⟨fun f => ⟨f, fun _ hf => h hf⟩, fun _ _ => rfl⟩

theorem Leads.trans (h : x.Leads y) (h' : y.Leads z) : x.Leads z where
  reach f := by
    obtain ⟨n, hn⟩ := h'.reach f
    obtain ⟨n', hn'⟩ := h.reach n
    exact ⟨n', fun f' hf' => (hn n (Nat.le_refl n)).trans (hn' f' hf')⟩
  rest f hf := by
    have hy := h.rest f hf
    rw [← hy] at hf ⊢
    exact h'.rest f hf

/-- One more step leads to a run. -/
theorem Leads.of_step (hx : ∀ f, x (f + 1) = y f) (hz : (x 0).1 = .exhausted) (hy : y.Steady) :
    x.Leads y where
  reach f := by
    refine ⟨f + 1, fun f' hf' => ?_⟩
    obtain ⟨g, rfl⟩ : ∃ g, f' = g + 1 := ⟨f' - 1, by omega⟩
    rw [hx]
    exact hy (Nat.le_of_succ_le_succ hf')
  rest f hf := by
    cases f with
    | zero => exact (hf hz).elim
    | succ g =>
      rw [hx] at hf ⊢
      exact (hy (Nat.le_succ g)).eq hf

/-- What is waited for first is waited for later, unless something was done in between. -/
theorem Leads.awaits {p : FutureId} {t : Store} (h : x.Leads y) (hx : x.Awaits p t) :
    y.Awaits p t := by
  have hrest := h.rest 1
  unfold Awaits at hx
  rw [hx] at hrest
  exact hrest (by simp)

theorem Leads.comes (h : x.Leads y) (hy : y.Comes result) (hr : result.1 ≠ .exhausted) :
    x.Comes result := by
  obtain ⟨n, hn⟩ := hy
  have hlast := hn n (Nat.le_refl n)
  obtain ⟨n', hn'⟩ := h.reach n
  refine ⟨n', fun f hf => ?_⟩
  have happ := hn' f hf
  rw [hlast] at happ
  exact happ.eq hr

/-- What the later run puts out the earlier one puts out too. -/
theorem Leads.grows (h : x.Leads y) {t : Store} (hy : ∃ n, ∀ f, n ≤ f → t.Grows (y f).2) :
    ∃ n, ∀ f, n ≤ f → t.Grows (x f).2 := by
  obtain ⟨n, hn⟩ := hy
  obtain ⟨n', hn'⟩ := h.reach n
  exact ⟨n', fun f hf => (hn n (Nat.le_refl n)).trans (hn' f hf).grows⟩

end Course

/-! ## Callers -/

/-- Only a callee that is through comes back. -/
theorem Exec.comeBack_ok {o : Outcome} {out : Out} {slot : Nat} {fs : List FilterCall}
    {st : CallState} {sur : Surroundings} {m m' : Machine}
    (h : comeBack o out slot fs st sur m = .ok () m') : o = .done := by
  cases o with
  | done => rfl
  | _ => cases h

theorem Exec.comeBack_waits {o : Outcome} {out : Out} {slot : Nat} {fs : List FilterCall}
    {st : CallState} {sur : Surroundings} {m m' : Machine} {p : FutureId}
    (h : comeBack o out slot fs st sur m = .error (.waiting p) m') (ho : o ≠ .done) :
    o = .waiting p := by
  cases o with
  | done => exact (ho rfl).elim
  | waiting q =>
    cases h
    rfl
  | _ => cases h

/-- A caller whose callee has come to a result: it takes it back, and goes on for at most `fuel`
steps. -/
def Store.takeBack (reg : Registry) (context : Context) (id : RenderId) (r : Render) (pc : Nat)
    (out : Out) (slot : Nat) (fs : List FilterCall) (st : CallState) (k : Machine) (fuel : Nat)
    (result : Outcome × Store) : Outcome × Store :=
  match Exec.comeBack result.1 out slot fs st ⟨r, reg, context⟩ { k with store := result.2 } with
  | .ok _ k' => steps reg context fuel id r (pc + 1) false k'
  | .error e k' => interrupt context id r pc k' e

namespace Course

section

variable (reg : Registry) (context : Context) (id : RenderId) (r : Render) (pc : Nat)
  (out : Out) (slot : Nat)
  (fs : List FilterCall) (st : CallState) (k : Machine)

/-- The course of a caller, told from that of its callee. -/
def caller (y : Course) : Course := fun f =>
    Store.takeBack reg context id r pc out slot fs st k f (y f)

theorem takeBack_grows (fuel : Nat) (result : Outcome × Store) :
    result.2.Grows (Store.takeBack reg context id r pc out slot fs st k fuel result).2 := by
  have hback := (Store.grows_order.comeBack result.1 out slot fs st).store ⟨r, reg, context⟩
    { k with store := result.2 }
  unfold Store.takeBack
  cases hr : Exec.comeBack result.1 out slot fs st ⟨r, reg, context⟩
      { k with store := result.2 } with
  | ok _ k' => rw [hr] at hback; exact hback.trans ((Store.runs_grow reg context fuel).2 ..)
  | error e k' => rw [hr] at hback; exact hback.trans (Store.interrupt_grows ..)

theorem takeBack_exhausted (fuel : Nat) {result : Outcome × Store} (h : result.1 = .exhausted) :
    Store.takeBack reg context id r pc out slot fs st k fuel result = result := by
  obtain ⟨o, s⟩ := result
  cases h
  rfl

theorem takeBack_approximates {n l : Nat} (o : n ≤ l) {p q : Outcome × Store}
    (h : Approximates p q) :
    Approximates (Store.takeBack reg context id r pc out slot fs st k n p)
      (Store.takeBack reg context id r pc out slot fs st k l q) := by
  rcases h with rfl | ⟨hex, hgrow⟩
  · unfold Store.takeBack
    split
    · exact Store.steps_approximates reg context o ..
    · exact .refl _
  · rw [takeBack_exhausted (h := hex)]
    exact .inr ⟨hex, hgrow.trans (takeBack_grows ..)⟩

end

variable {reg : Registry} {context : Context} {id : RenderId} {r : Render} {pc : Nat}
  {out : Out} {slot : Nat}
  {fs : List FilterCall} {st : CallState} {k : Machine} {x y : Course}

theorem Steady.caller (h : y.Steady) : (y.caller reg context id r pc out slot fs st k).Steady :=
  fun hf => takeBack_approximates (o := hf) (h := h hf) ..

/-- A caller that waits has a callee that waits, unless that was at its end. -/
theorem Awaits.callee {p : FutureId} {t : Store}
    (h : (y.caller reg context id r pc out slot fs st k).Awaits p t) (hy : (y 1).1 ≠ .done) :
    ∃ t', y.Awaits p t' := by
  unfold Awaits Course.caller Store.takeBack at h
  split at h
  · next u k' hback => exact (hy (Exec.comeBack_ok hback)).elim
  · next e k' hback =>
    cases (Store.interrupt_waits h).1
    exact ⟨(y 1).2, Prod.ext (Exec.comeBack_waits hback hy) rfl⟩

/-- A caller goes on as its callee does. -/
theorem Leads.caller (h : x.Leads y) :
    (x.caller reg context id r pc out slot fs st k).Leads
      (y.caller reg context id r pc out slot fs st k) where
  reach f := by
    obtain ⟨n, hn⟩ := h.reach f
    refine ⟨max n f, fun f' hf' => ?_⟩
    exact takeBack_approximates (o := Nat.le_trans (Nat.le_max_right n f) hf')
      (h := hn f' (Nat.le_trans (Nat.le_max_left n f) hf')) ..
  rest f hf := by
    have hx : (x f).1 ≠ .exhausted := fun hex => hf (by
      unfold Course.caller
      rw [takeBack_exhausted (h := hex), hex])
    unfold Course.caller
    rw [h.rest f hx]

end Course

end Interlude
