import Interlude.Proofs.Eval.Meaning
/-!
# Meanings last

What code means stays the same when more futures are settled and more deferred values are made: a
result and a failure stay, and code that waits for a future waits for it until it is settled
(`Sequel.meaning`). The exception is code that takes the text of a value that holds a future.
-/

namespace Interlude

namespace Futures

theorem Ahead.congr {fs gs fs' gs' : Futures} (h : Ahead fs gs) (hf : fs'.states = fs.states)
    (hg : gs'.states = gs.states) : Ahead fs' gs' :=
  (Ahead.of_states hf).trans (h.trans (Ahead.of_states hg.symm))

end Futures

/-- Whether an end stays when futures are settled. -/
def Stop.Stays {α : Type} (old new : Futures) : Except Stop α → Prop
  | .error (.waiting p) => new.get p = .pending
  | .error .exhausted => old.states = new.states
  | _ => True

theorem Stop.Stays.congr {α : Type} {old old' new : Futures} {r : Except Stop α}
    (h : Stays old new r) (ho : old'.states = old.states) : Stays old' new r := by
  cases r with
  | ok a => trivial
  | error e =>
    cases e with
    | exhausted => exact ho.trans h
    | _ => exact h

/-- Code is evaluated and later evaluated again, with the same environment and the same contents of
the cells it sees. -/
structure Sequel where
  made : Array Thunk
  later : Array Thunk
  old : Futures
  new : Futures
  env : Env
  base : Cells
  see : Seeing

namespace Sequel

/-- The states of futures are the ones given, and the cells that are seen are the same. -/
structure View (Q : Sequel) (fs : Futures) (n : Memory) : Prop where
  states : n.states = fs.states
  base : ∀ i, Q.see i → n.cells.read i = Q.base.read i

theorem View.calm {Q : Sequel} {fs : Futures} {b : Bool} {n n' : Memory} (h : Q.View fs n)
    (hc : Calm b n n') : Q.View fs n' where
  states := hc.states.trans h.states
  base i hi := by rw [hc.cells]; exact h.base i hi

/-- Whether an end stays from the first evaluation to the second. -/
def Stays (Q : Sequel) {α : Type} (r : Except Stop α) : Prop := Stop.Stays Q.old Q.new r

/-- The second evaluation comes later to the same end as the first, unless that took the text of a
value that holds a future and futures were settled since. -/
def Outlasts (Q : Sequel) (α : Type) (x y : Eval α) : Prop :=
  ∀ n, Q.View Q.old n → ∃ r b k, x Q.env n = Eval.ending r k ∧ Calm b n k ∧
    ∀ n', Q.View Q.new n' → Q.old.states = Q.new.states ∨ b = false → Q.Stays r →
      ∃ k', y Q.env n' = Eval.ending r k' ∧ Calm b n' k'

variable {Q : Sequel}

theorem Outlasts.bind {α β : Type} {x y : Eval α} {f g : α → Eval β} (hx : Q.Outlasts α x y)
    (hf : ∀ a, Q.Outlasts β (f a) (g a)) : Q.Outlasts β (x >>= f) (y >>= g) := by
  intro n hn
  obtain ⟨r, b, k, hxn, hc, hy⟩ := hx n hn
  rw [Eval.bind_apply, hxn]
  cases r with
  | error e =>
    refine ⟨.error e, b, k, rfl, hc, ?_⟩
    intro n' hn' hb hs
    obtain ⟨k', hyn, hc'⟩ := hy n' hn' hb (by cases e <;> exact hs)
    refine ⟨k', ?_, hc'⟩
    rw [Eval.bind_apply, hyn]
    rfl
  | ok a =>
    obtain ⟨r', b', k₂, hfn, hc₂, hg⟩ := hf a k (hn.calm hc)
    refine ⟨r', b || b', k₂, hfn, hc.trans hc₂, ?_⟩
    intro n' hn' hb hs
    obtain ⟨k', hyn, hc'⟩ := hy n' hn' (hb.imp_right fun h => (Bool.or_eq_false_iff.1 h).1) trivial
    obtain ⟨k₂', hgn, hc₂'⟩ :=
      hg k' (hn'.calm hc') (hb.imp_right fun h => (Bool.or_eq_false_iff.1 h).2) hs
    refine ⟨k₂', ?_, hc'.trans hc₂'⟩
    rw [Eval.bind_apply, hyn]
    exact hgn

/-- An evaluation that changes nothing and depends on the cells it sees alone. -/
theorem Outlasts.of_result {α : Type} {x y : Eval α} (r : Except Stop α)
    (hx : ∀ fs n, Q.View fs n → x Q.env n = Eval.ending r n)
    (hy : ∀ fs n, Q.View fs n → y Q.env n = Eval.ending r n) : Q.Outlasts α x y :=
  fun n hn => ⟨r, false, n, hx _ n hn, Calm.refl n, fun n' hn' _ _ =>
    ⟨n', hy _ n' hn', Calm.refl n'⟩⟩

/-- An evaluation that depends on futures alone, and lasts. -/
theorem Outlasts.of_futures {α : Type} {x : Eval α} (blurs : Bool)
    (result : Futures → Except Stop α) (reads : Futures → Futures)
    (hs : ∀ fs, (reads fs).states = fs.states)
    (hx : ∀ m, x Q.env m =
      Eval.ending (result m.heap.futures) (Eval.touched m (reads m.heap.futures) blurs))
    (hr : ∀ fs gs : Futures, fs.states = Q.old.states → gs.states = Q.new.states →
      Q.old.states = Q.new.states ∨ blurs = false → Q.Stays (result fs) → result gs = result fs) :
    Q.Outlasts α x x := by
  have hcalm (n : Memory) : Calm blurs n (Eval.touched n (reads n.heap.futures) blurs) :=
    ⟨rfl, hs _, rfl⟩
  intro n hn
  refine ⟨_, blurs, _, hx n, hcalm n, ?_⟩
  intro n' hn' hb hstay
  refine ⟨_, ?_, hcalm n'⟩
  rw [hx n', hr _ _ hn.states hn'.states hb hstay]

/-- A read that stays finds the same later. -/
theorem resolve_stays (ha : Q.old.Ahead Q.new) (v : Value) {fs gs : Futures}
    (hf : fs.states = Q.old.states) (hg : gs.states = Q.new.states)
    (hs : Q.Stays (fs.resolve v).1.result) : (gs.resolve v).1.result = (fs.resolve v).1.result := by
  have hlast (hl : gs.Lasts (fs.resolve v).1) :
      (gs.resolve v).1.result = (fs.resolve v).1.result := by
    rw [(ha.congr hf hg).resolve hl]
  cases hr : (fs.resolve v).1 with
  | value w => rw [← hr]; exact hlast (by rw [hr]; trivial)
  | failed e => rw [← hr]; exact hlast (by rw [hr]; trivial)
  | waiting p =>
    rw [hr] at hs
    have hp : gs.get p = .pending := by
      rw [Futures.get_congr hg]
      exact hs
    rw [← hr]
    exact hlast (by rw [hr]; exact hp)
  | endless =>
    rw [hr] at hs
    have hstates : fs.states = gs.states := by
      rw [hf, hg]
      exact hs
    rw [Futures.resolve_congr hstates, hr]

/-- A stop whose failure is reported as `change` says. -/
def Stop.mapFailure (change : Failure → Failure) : Stop → Stop
  | .failed cause => .failed (change cause)
  | e => e

/-- All that evaluations are made of outlasts itself. -/
theorem compatible (ha : Q.old.Ahead Q.new) : Compatible Q.Outlasts Q.see where
  pure a := Outlasts.of_result (.ok a) (fun _ _ _ => rfl) fun _ _ _ => rfl
  bind hx hf := Outlasts.bind hx hf
  fail e := Outlasts.of_result (.error (.failed e)) (fun _ _ _ => rfl) fun _ _ _ => rfl
  env := Outlasts.of_result (.ok Q.env) (fun _ _ _ => rfl) fun _ _ _ => rfl
  resolve v :=
    Outlasts.of_futures false (fun fs => (fs.resolve v).1.result) (fun fs => (fs.resolve v).2)
      (fun fs => Futures.resolve_states fs v) (Eval.resolve_apply v Q.env)
      fun _ _ hf hg _ hs => resolve_stays ha v hf hg hs
  text v := by
    refine Outlasts.of_futures v.holdsFuture (fun fs => .ok (v.text fs)) id (fun _ => rfl)
      (Eval.text_apply v Q.env) ?_
    intro fs gs hf hg hb _
    simp only [Except.ok.injEq]
    rcases hb with hb | hb
    · exact Value.text_congr (by rw [hf, hg, hb]) v
    · exact Value.text_of_holdsFuture hb gs fs
  filtered filters args v := by
    refine Outlasts.of_futures (Filter.takeText (Eval.applied filters args) && v.holdsFuture)
      (fun fs => (Filter.applyAll fs (Eval.applied filters args) v).mapError .failed) id
      (fun _ => rfl)
      (Eval.filtered_apply filters args v Q.env) ?_
    intro fs gs hf hg hb _
    congr 1
    rcases hb with hb | hb
    · exact Filter.applyAll_congr (by rw [hf, hg, hb]) _ v
    · rcases Bool.and_eq_false_iff.1 hb with ht | hv
      · exact Filter.applyAll_of_takeText _ v ht
      · exact Filter.applyAll_of_holdsFuture _ hv
  mapFailure change x y h := by
    intro n hn
    obtain ⟨r, b, k, hxn, hc, hy⟩ := h n hn
    have happ {z : Eval _} {l l' : Memory} (hz : z Q.env l = Eval.ending r l') :
        Eval.mapFailure change z Q.env l =
            Eval.ending (r.mapError (Stop.mapFailure change)) l' := by
      rw [Eval.mapFailure_apply, hz]
      rcases r with e | a
      · cases e <;> rfl
      · rfl
    refine ⟨_, b, k, happ hxn, hc, ?_⟩
    intro n' hn' hb hs
    have hs' : Q.Stays r := by
      rcases r with e | a
      · cases e <;> exact hs
      · trivial
    obtain ⟨k', hyn, hc'⟩ := hy n' hn' hb hs'
    exact ⟨k', happ hyn, hc'⟩
  cell i hi := by
    have hread (fs : Futures) (n : Memory) (hn : Q.View fs n) :
        Eval.cell i Q.env n = Eval.ending (.ok (Q.base.read i)) n := by
      rw [← hn.base i hi]
      rfl
    exact Outlasts.of_result (.ok (Q.base.read i)) hread hread

/-- A deferred value in a cell that is seen. -/
theorem Outlasts.deferred {force force' : ThunkId → Eval Value} (ha : Q.old.Ahead Q.new) {i : Nat}
    (hi : Q.see i) (hf : ∀ id, Q.base.read i = .thunk id →
      Q.Outlasts Value (force id) (force' id)) :
    Q.Outlasts Value (Eval.cell i >>= Cell.deferred force)
      (Eval.cell i >>= Cell.deferred force') := by
  have hrun (g : ThunkId → Eval Value) (fs : Futures) (n : Memory) (hn : Q.View fs n) :
      (Eval.cell i >>= Cell.deferred g) Q.env n = (Q.base.read i).deferred g Q.env n := by
    rw [← hn.base i hi]
    rfl
  have hd : Q.Outlasts Value ((Q.base.read i).deferred force)
      ((Q.base.read i).deferred force') := by
    cases hc : Q.base.read i with
    | thunk id => exact hf id hc
    | _ => exact (compatible ha).pure _
  intro n hn
  obtain ⟨r, b, k, hx, hc, hy⟩ := hd n hn
  refine ⟨r, b, k, (hrun force _ n hn).trans hx, hc, ?_⟩
  intro n' hn' hb hs
  obtain ⟨k', hyn, hc'⟩ := hy n' hn' hb hs
  exact ⟨k', (hrun force' _ n' hn').trans hyn, hc'⟩

theorem congruence {force force' : ThunkId → Eval Value} (ha : Q.old.Ahead Q.new)
    (hf : ∀ i id, Q.see i → Q.base.read i = .thunk id → Q.Outlasts Value (force id) (force' id)) :
    Congruence Q.Outlasts Q.see (fun _ _ _ => True) (.plain force) (.plain force') where
  toCompatible := compatible ha
  binding _ hb := (compatible ha).binding (fun i hi => Outlasts.deferred ha hi (hf i · hi)) hb
  memo _ _ _ _ h := h

end Sequel

namespace Thunk

/-- More deferred values may have been made since. -/
def Extends (made later : Array Thunk) : Prop := ∀ id, id < made.size → later[id]? = made[id]?

theorem outlasts_meaningBelow {made later : Array Thunk} (ht : AllTidy made)
    (he : Extends made later) {old new : Futures} (ha : old.Ahead new) (count : Nat)
    (hle : count ≤ made.size) :
    ∀ Q : Sequel, Q.old = old → Q.new = new → ∀ id,
      Q.Outlasts Value (meaningBelow made count id) (meaningBelow later count id) := by
  induction count with
  | zero =>
    intro Q ho hn id
    subst ho hn
    exact (Sequel.compatible ha).pure _
  | succ count ih =>
    intro Q ho hn id
    subst ho hn
    have hlt : count < made.size := hle
    unfold meaningBelow
    by_cases hid : id = count
    · subst hid
      rw [if_pos rfl, if_pos rfl, he id hlt, Array.getElem?_eq_getElem hlt]
      simp only
      have hg : made[id]? = some made[id] := Array.getElem?_eq_getElem hlt
      generalize made[id] = g at hg
      -- the code of the value sees its own cells only, and they stay as they were made
      let T : Sequel := { Q with env := g.env, base := g.cells, see := fun _ => True }
      have hcode : T.Outlasts Value (g.code.root.toBoxed.eval (.plain (meaningBelow made id)) [])
          (g.code.root.toBoxed.eval (.plain (meaningBelow later id)) []) :=
        (Sequel.congruence (Q := T) ha fun _ j _ _ => ih (Nat.le_of_lt hlt) T rfl rfl j).term _ []
          (Term.Touches.mono (fun _ _ => trivial) (fun _ _ _ _ => trivial)
            (ht id g hg).touches.toBoxed)
      intro n hn
      obtain ⟨r, b, k, hx, hc, hy⟩ := hcode { n with cells := g.cells } ⟨hn.states, fun _ _ => rfl⟩
      have hrun {force : ThunkId → Eval Value} {l l' : Memory}
          (h : g.code.root.toBoxed.eval (.plain force) [] g.env { l with cells := g.cells } =
            Eval.ending r l') :
          Eval.onCells g.cells g.env (g.code.root.toBoxed.eval (.plain force) []) (fun _ heap =>
            heap) Q.env l = Eval.ending r { cells := l.cells, heap := l'.heap } := by
        unfold Eval.onCells
        rw [h]
        cases r <;> rfl
      refine ⟨r, b, _, hrun hx, ⟨rfl, hc.states, hc.blurred⟩, ?_⟩
      intro n' hn' hb hs
      obtain ⟨k', hyn, hc'⟩ := hy { n' with cells := g.cells } ⟨hn'.states, fun _ _ => rfl⟩ hb hs
      exact ⟨_, hrun hyn, rfl, hc'.states, hc'.blurred⟩
    · rw [if_neg hid, if_neg hid]
      exact ih (Nat.le_of_lt hlt) Q rfl rfl id

end Thunk

/-- What code means lasts, if the deferred values it sees were all made when it was evaluated. -/
theorem Sequel.meaning (Q : Sequel) (ht : Thunk.AllTidy Q.made) (he : Thunk.Extends Q.made Q.later)
    (ha : Q.old.Ahead Q.new) (hv : ∀ i id, Q.see i → Q.base.read i = .thunk id → id < Q.made.size) :
    Congruence Q.Outlasts Q.see (fun _ _ _ => True) (.meaning Q.made) (.meaning Q.later) :=
  Sequel.congruence ha fun i id hi hc =>
    Thunk.outlasts_meaningBelow ht he ha (id + 1) (hv i id hi hc) Q rfl rfl id

end Interlude
