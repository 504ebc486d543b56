import Interlude.Proofs.Eval.Congruence
import Interlude.Proofs.Value.Text
import Interlude.Proofs.Frame.Cells
/-!
# What evaluations mean

An evaluation that keeps nothing, neither in cells nor in deferred values, says what an expression
means. The evaluation that runs keeps results, and finds results that earlier attempts kept. This
module shows that it comes to the same end as the one that keeps nothing, as long as all it finds is
what the expression in question means (`Setting.usual`).

The deferred values of a heap change as they are evaluated. What they mean is told by the array
`made` of these values as they were made.
-/

namespace Interlude

/-- Keeps nothing. -/
def Strategy.plain (force : ThunkId → Eval Value) : Strategy := { force, memo := fun _ act => act }

namespace Thunk

/-- What one of the first `count` deferred values means. -/
def meaningBelow (made : Array Thunk) : (count : Nat) → ThunkId → Eval Value
  | 0, _ => pure .undefined
  | count + 1, id =>
    if id = count then
      match made[id]? with
      | none => pure .undefined
      | some t =>
        Eval.onCells t.cells t.env (t.code.root.toBoxed.eval (.plain (meaningBelow made count)) [])
          fun _ heap => heap
    else meaningBelow made count id

/-- What a deferred value means. -/
def meaning (made : Array Thunk) (id : ThunkId) : Eval Value := meaningBelow made (id + 1) id

end Thunk

/-- The evaluation that tells what code means. -/
def Strategy.meaning (made : Array Thunk) : Strategy := .plain (Thunk.meaning made)

namespace Eval

theorem bind_apply {α β : Type} (x : Eval α) (f : α → Eval β) (env : Env) (m : Memory) :
    (x >>= f) env m =
      match x env m with
      | .ok a m' => f a env m'
      | .error e m' => .error e m' := by
  change EStateM.bind (x env) (fun a => f a env) m = _
  rw [EStateM.bind]
  cases x env m <;> rfl

theorem mapFailure_apply {α : Type} (change : Failure → Failure) (x : Eval α) (env : Env)
    (m : Memory) :
    mapFailure change x env m =
      match x env m with
      | .error (.failed cause) m' => .error (.failed (change cause)) m'
      | r => r := rfl

/-- Memory after futures were read and text perhaps taken. -/
def touched (m : Memory) (fs : Futures) (blurs : Bool) : Memory :=
  { m with heap := { m.heap with futures := fs, blurred := m.heap.blurred || blurs } }

/-- An evaluation that ends so in that memory. -/
def ending {α : Type} (r : Except Stop α) (m : Memory) : EStateM.Result Stop Memory α :=
  match r with
  | .ok a => .ok a m
  | .error e => .error e m

end Eval

/-- How an evaluation goes on after a read. -/
def Read.result : Read → Except Stop Value
  | value v => .ok v
  | waiting id => .error (.waiting id)
  | failed cause => .error (.failed (Failure.futureFailed cause))
  | endless => .error .exhausted

namespace Eval

theorem resolve_apply (v : Value) (env : Env) (m : Memory) :
    resolve v env m =
      ending (m.heap.futures.resolve v).1.result
      (touched m (m.heap.futures.resolve v).2 false) := by
  have hm : touched m m.heap.futures false = m := by simp [touched]
  cases v with
  | future id =>
    change (match (m.heap.futures.resolve (.future id)).1 with
      | .value v => pure v
      | .waiting id => throw (.waiting id)
      | .failed cause => fail (Failure.futureFailed cause)
      | .endless => throw .exhausted : Eval Value) env
        { m with heap := { m.heap with futures := (m.heap.futures.resolve (.future id)).2 } } = _
    cases (m.heap.futures.resolve (.future id)).1 <;> simp [ending, touched, Read.result] <;> rfl
  | _ =>
    simp only [Futures.resolve, Futures.resolveFrom, Read.result, ending, hm]
    rfl

theorem text_apply (v : Value) (env : Env) (m : Memory) :
    text v env m = .ok (v.text m.heap.futures) (touched m m.heap.futures v.holdsFuture) := rfl

theorem filtered_apply (fs : List FilterCall) (args : List (List Value)) (v : Value) (env : Env)
    (m : Memory) :
    filtered fs args v env m =
      ending ((Filter.applyAll m.heap.futures (applied fs args) v).mapError .failed)
        (touched m m.heap.futures (Filter.takeText (applied fs args) && v.holdsFuture)) := by
  have hm : touched m m.heap.futures false = m := by simp [touched]
  unfold filtered
  cases Filter.takeText (applied fs args) with
  | true =>
    simp only [if_true, Bool.true_and]
    change ofExcept (Filter.applyAll m.heap.futures (applied fs args) v) env
      (touched m m.heap.futures v.holdsFuture) = _
    cases Filter.applyAll m.heap.futures (applied fs args) v <;> rfl
  | false =>
    simp only [Bool.false_eq_true, if_false, Bool.false_and, hm]
    change ofExcept (Filter.applyAll m.heap.futures (applied fs args) v) env m = _
    cases Filter.applyAll m.heap.futures (applied fs args) v <;> rfl

end Eval

namespace Memory

/-- The states of the futures. -/
abbrev states (m : Memory) : Array Future := m.heap.futures.states

/-- Whether the text of a value that holds a future was taken. -/
abbrev blurred (m : Memory) : Bool := m.heap.blurred

end Memory

/-- What an evaluation that keeps nothing leaves of memory: it counts reads, and `blurs` or not. -/
structure Calm (blurs : Bool) (n n' : Memory) : Prop where
  cells : n'.cells = n.cells
  states : n'.states = n.states
  blurred : n'.blurred = (n.blurred || blurs)

theorem Calm.refl (n : Memory) : Calm false n n := ⟨rfl, rfl, by simp⟩

theorem Calm.trans {b c : Bool} {n₁ n₂ n₃ : Memory} (h : Calm b n₁ n₂) (h' : Calm c n₂ n₃) :
    Calm (b || c) n₁ n₃ where
  cells := h'.cells.trans h.cells
  states := h'.states.trans h.states
  blurred := by rw [h'.blurred, h.blurred, Bool.or_assoc]

/-! ## Memory that keeps what code means -/

/-- What the cells of a table may keep. -/
def Table.meanings (table : Table) (force : ThunkId → Eval Value) (i : Nat) : Option (Eval Value) :=
  (table i).map fun px => px.2.eval (.plain force) px.1

/-- The reading of code whose cells are as a table says: no cell is read that keeps a result. -/
def Table.see (table : Table) : Seeing := fun i => table i = none

/-- The keeping of code whose cells are as a table says: no cell is used twice. -/
def Table.keep (table : Table) : Keeping := fun p i x => table i = some (p, x)

/-- An expression is tidy if a table tells what its cells are for. They lie behind all cells it
reads. -/
def Compiled.Tidy (c : Compiled) : Prop :=
  ∃ table : Table, c.Touches table.see table.keep [] ∧ ∀ i, table i ≠ none →
    c.start ≤ i ∧ 0 < c.width

open Classical in
/-- The cells of a tidy expression. -/
noncomputable def Compiled.table (c : Compiled) : Table :=
  if h : c.Tidy then h.choose else fun _ => none

theorem Compiled.Tidy.touches {c : Compiled} (h : c.Tidy) :
    c.Touches c.table.see c.table.keep [] := by
  unfold Compiled.table
  rw [dif_pos h]
  exact h.choose_spec.1

theorem Compiled.Tidy.own {c : Compiled} (h : c.Tidy) {i : Nat} (hi : c.table i ≠ none) :
    c.start ≤ i ∧ 0 < c.width := by
  unfold Compiled.table at hi
  rw [dif_pos h] at hi
  exact h.choose_spec.2 i hi

/-- What fixes the meaning of code: the deferred values as they were made, the states of futures,
the environment, the cells before the code ran, and what the cells may keep. -/
structure Setting where
  made : Array Thunk
  states : Array Future
  env : Env
  base : Cells
  kept : Nat → Option (Eval Value)

namespace Setting

/-- A memory in which code has its meaning. -/
structure View (S : Setting) (n : Memory) : Prop where
  states : n.states = S.states
  base : ∀ i, S.kept i = none → n.cells.read i = S.base.read i

theorem View.calm {S : Setting} {b : Bool} {n n' : Memory} (h : S.View n) (hc : Calm b n n') :
    S.View n' where
  states := hc.states.trans h.states
  base i hi := by rw [hc.cells]; exact h.base i hi

/-- Code means a value, and blurs only what is blurred already. -/
def Sure (S : Setting) (d : Eval Value) (blurred : Bool) (v : Value) : Prop :=
  ∀ n, S.View n → ∃ b n', d S.env n = .ok v n' ∧ Calm b n n' ∧ (blurred || b) = blurred

theorem Sure.mono {S : Setting} {d : Eval Value} {blurred c : Bool} {v : Value}
    (h : S.Sure d blurred v) :
    S.Sure d (blurred || c) v := by
  intro n hn
  obtain ⟨b, n', hd, hc, hb⟩ := h n hn
  refine ⟨b, n', hd, hc, ?_⟩
  cases blurred <;> cases b <;> simp_all

/-- Cells that keep nothing but what code means. -/
structure Kept (S : Setting) (blurred : Bool) (cells : Cells) : Prop where
  base : ∀ i, S.kept i = none → cells.read i = S.base.read i
  sure : ∀ i d v, S.kept i = some d → cells.read i = .value v → S.Sure d blurred v

theorem Kept.mono {S : Setting} {blurred c : Bool} {cells : Cells} (h : S.Kept blurred cells) :
    S.Kept (blurred || c) cells :=
  ⟨h.base, fun i d v hi hv => (h.sure i d v hi hv).mono⟩

/-- The setting of a deferred value. -/
noncomputable def ofThunk (made : Array Thunk) (states : Array Future) (id : ThunkId)
    (g : Thunk) : Setting :=
  { made, states, env := g.env, base := g.cells
    kept := g.code.table.meanings (Thunk.meaningBelow made id) }

end Setting

/-- A deferred value that keeps nothing but what it means. -/
structure Thunk.Sound (made : Array Thunk) (states : Array Future) (blurred : Bool) (id : ThunkId)
    (g t : Thunk) : Prop where
  code : t.code = g.code
  env : t.env = g.env
  result : ∀ v, t.result = some v → ∀ env n, n.states = states →
    ∃ b n', Thunk.meaning made id env n = .ok v n' ∧ Calm b n n' ∧ (blurred || b) = blurred
  cells : t.result = none → (Setting.ofThunk made states id g).Kept blurred t.cells

theorem Thunk.Sound.mono {made : Array Thunk} {states : Array Future} {blurred c : Bool}
    {id : ThunkId} {g t : Thunk} (h : Thunk.Sound made states blurred id g t) :
    Thunk.Sound made states (blurred || c) id g t where
  code := h.code
  env := h.env
  result v hv env n hn := by
    obtain ⟨b, n', hd, hc, hb⟩ := h.result v hv env n hn
    refine ⟨b, n', hd, hc, ?_⟩
    cases blurred <;> cases b <;> simp_all
  cells hr := (h.cells hr).mono

/-- A heap whose deferred values keep nothing but what they mean. -/
structure Heap.Sound (made : Array Thunk) (h : Heap) : Prop where
  size : h.thunks.size = made.size
  thunks : ∀ id t g, h.thunks[id]? = some t → made[id]? = some g →
    Thunk.Sound made h.futures.states h.blurred id g t

/-- Deferred values with tidy code. -/
def Thunk.AllTidy (made : Array Thunk) : Prop :=
  ∀ (id : ThunkId) (g : Thunk), made[id]? = some g → g.code.Tidy

namespace Setting

/-- A memory that keeps nothing but what code means. -/
structure Sound (S : Setting) (m : Memory) : Prop where
  states : m.states = S.states
  heap : m.heap.Sound S.made
  kept : S.Kept m.blurred m.cells

/-- Two memories go on in step: what is kept stays sound, and both blur or none does. -/
structure Step (S : Setting) (m n m' n' : Memory) : Prop where
  sound : S.Sound m'
  fresh : m'.heap.fresh = m.heap.fresh
  size : m'.cells.size = m.cells.size
  calm : ∃ b, m'.blurred = (m.blurred || b) ∧ Calm b n n'

/-- Two evaluations end in the same way. -/
def Follows (S : Setting) {α : Type} (m n : Memory) :
    EStateM.Result Stop Memory α → EStateM.Result Stop Memory α → Prop
  | .ok a m', .ok b n' => a = b ∧ S.Step m n m' n'
  | .error e m', .error f n' => e = f ∧ S.Step m n m' n'
  | _, _ => False

/-- The first evaluation keeps results and comes to the same end as the second, which keeps none. -/
def Tracks (S : Setting) (α : Type) (x y : Eval α) : Prop :=
  ∀ m, S.Sound m → ∀ n, S.View n → S.Follows m n (x S.env m) (y S.env n)

variable {S : Setting}

theorem Step.refl {m : Memory} (hm : S.Sound m) (n : Memory) : S.Step m n m n :=
  ⟨hm, rfl, rfl, false, by simp, Calm.refl n⟩

theorem Step.trans {m₁ m₂ m₃ n₁ n₂ n₃ : Memory} (h : S.Step m₁ n₁ m₂ n₂) (h' : S.Step m₂ n₂ m₃ n₃) :
    S.Step m₁ n₁ m₃ n₃ := by
  obtain ⟨b, hb, hc⟩ := h.calm
  obtain ⟨b', hb', hc'⟩ := h'.calm
  exact ⟨h'.sound, h'.fresh.trans h.fresh, h'.size.trans h.size, b || b',
    by rw [hb', hb, Bool.or_assoc], hc.trans hc'⟩

theorem View.step {m n m' n' : Memory} (h : S.View n) (hs : S.Step m n m' n') : S.View n' := by
  obtain ⟨b, _, hc⟩ := hs.calm
  exact h.calm hc

theorem Follows.step {α : Type} {m n m' n' : Memory} {rx ry : EStateM.Result Stop Memory α}
    (hs : S.Step m n m' n') (h : S.Follows m' n' rx ry) : S.Follows m n rx ry := by
  cases rx <;> cases ry
  · exact ⟨h.1, hs.trans h.2⟩
  · exact h
  · exact h
  · exact ⟨h.1, hs.trans h.2⟩

/-! ## Evaluation tracks its meaning -/

theorem Tracks.bind {α β : Type} {x y : Eval α} {f g : α → Eval β} (hx : S.Tracks α x y)
    (hf : ∀ a, S.Tracks β (f a) (g a)) : S.Tracks β (x >>= f) (y >>= g) := by
  intro m hm n hn
  rw [Eval.bind_apply, Eval.bind_apply]
  have h := hx m hm n hn
  cases hxm : x S.env m <;> cases hyn : y S.env n <;> rw [hxm, hyn] at h
  · obtain ⟨rfl, hs⟩ := h
    exact (hf _ _ hs.sound _ (hn.step hs)).step hs
  · exact h.elim
  · exact h.elim
  · exact h

/-- An evaluation that reads nothing but the states of futures tracks itself. -/
theorem Tracks.of_states {α : Type} {x : Eval α} (blurs : Bool) (result : Futures → Except Stop α)
    (reads : Futures → Futures)
    (hr : ∀ fs gs : Futures, fs.states = gs.states → result fs = result gs)
    (hs : ∀ fs, (reads fs).states = fs.states)
    (h : ∀ m, x S.env m = Eval.ending (result m.heap.futures)
      (Eval.touched m (reads m.heap.futures) blurs)) : S.Tracks α x x := by
  intro m hm n hn
  have step : S.Step m n (Eval.touched m (reads m.heap.futures) blurs)
      (Eval.touched n (reads n.heap.futures) blurs) :=
    { sound :=
        { states := (hs _).trans hm.states
          heap := ⟨hm.heap.size, fun id t g ht hg => by
            change Thunk.Sound S.made (reads m.heap.futures).states (m.blurred || blurs) id g t
            rw [hs]
            exact (hm.heap.thunks id t g ht hg).mono⟩
          kept := hm.kept.mono }
      fresh := rfl
      size := rfl
      calm := ⟨blurs, rfl, rfl, hs _, rfl⟩ }
  rw [h, h, hr m.heap.futures n.heap.futures (hm.states.trans hn.states.symm)]
  cases result n.heap.futures with
  | ok a => exact ⟨rfl, step⟩
  | error e => exact ⟨rfl, step⟩

/-- All that evaluations are made of tracks itself. -/
theorem compatible (S : Setting) : Compatible S.Tracks fun i => S.kept i = none where
  pure a m hm n _ := ⟨rfl, Step.refl hm n⟩
  bind hx hf := Tracks.bind hx hf
  fail e m hm n _ := ⟨rfl, Step.refl hm n⟩
  env m hm n _ := ⟨rfl, Step.refl hm n⟩
  resolve v := by
    refine Tracks.of_states false (fun fs => (fs.resolve v).1.result) (fun fs =>
      (fs.resolve v).2) ?_ ?_ (Eval.resolve_apply v S.env)
    · intro fs gs h
      simp only [Futures.resolve_congr h v]
    · exact fun fs => Futures.resolve_states fs v
  text v := by
    refine Tracks.of_states v.holdsFuture (fun fs => .ok (v.text fs)) id ?_ (fun _ => rfl)
      (Eval.text_apply v S.env)
    intro fs gs h
    simp only [Value.text_congr h v]
  filtered fs args v := by
    refine Tracks.of_states (Filter.takeText (Eval.applied fs args) && v.holdsFuture)
      (fun gs => (Filter.applyAll gs (Eval.applied fs args) v).mapError .failed) id ?_
      (fun _ => rfl)
      (Eval.filtered_apply fs args v S.env)
    intro gs hs h
    simp only [Filter.applyAll_congr h]
  mapFailure change x y h := by
    intro m hm n hn
    have h := h m hm n hn
    rw [Eval.mapFailure_apply, Eval.mapFailure_apply]
    cases hx : x S.env m <;> cases hy : y S.env n <;> rw [hx, hy] at h
    · exact h
    · exact h.elim
    · exact h.elim
    · obtain ⟨rfl, hs⟩ := h
      split <;> split <;> simp_all [Follows]
  cell i hi := by
    intro m hm n hn
    refine ⟨?_, Step.refl hm n⟩
    rw [hm.kept.base i hi, hn.base i hi]

theorem Sound.write {m : Memory} (hm : S.Sound m) {i : Nat} {d : Eval Value} {v : Value}
    (hi : S.kept i = some d) (hd : S.Sure d m.blurred v) :
    S.Sound { m with cells := m.cells.write i (.value v) } where
  states := hm.states
  heap := hm.heap
  kept :=
    { base := fun j hj => by
        have hne : i ≠ j := by
          rintro rfl
          rw [hi] at hj
          cases hj
        rw [Cells.read_write_of_ne _ hne]
        exact hm.kept.base j hj
      sure := fun j e w hj hw => by
        rw [Cells.read_write] at hw
        split at hw
        · next h =>
          obtain ⟨rfl, _⟩ := h
          cases hw
          rw [hi] at hj
          cases hj
          exact hd
        · exact hm.kept.sure j e w hj hw }

/-- Keeping a result in a cell does not change what an evaluation comes to. -/
theorem Tracks.kept {i : Nat} {x d : Eval Value} (hi : S.kept i = some d) (h : S.Tracks Value x d) :
    S.Tracks Value (Eval.kept i x) d := by
  intro m hm n hn
  have hcell : Eval.cell i S.env m = .ok (m.cells.read i) m := rfl
  unfold Eval.kept
  rw [Eval.bind_apply, hcell]
  cases hc : m.cells.read i with
  | value v =>
    obtain ⟨b, n', hd, hcalm, hb⟩ := hm.kept.sure i d v hi hc n hn
    rw [hd]
    exact ⟨rfl, hm, rfl, rfl, b, hb.symm, hcalm⟩
  | _ =>
    simp only [Cell.value?]
    rw [Eval.bind_apply]
    have hx := h m hm n hn
    cases hxm : x S.env m <;> cases hdn : d S.env n <;> rw [hxm, hdn] at hx
    · next v m' w n' =>
      obtain ⟨rfl, hs⟩ := hx
      have hsure : S.Sure d m'.blurred v := by
        intro k hk
        have hxk := h m hm k hk
        rw [hxm] at hxk
        cases hdk : d S.env k <;> rw [hdk] at hxk
        · obtain ⟨rfl, hsk⟩ := hxk
          obtain ⟨b, hb, hcalm⟩ := hsk.calm
          exact ⟨b, _, rfl, hcalm, by rw [hb]; simp⟩
        · exact hxk.elim
      exact ⟨rfl, hs.sound.write hi hsure, hs.fresh, (Cells.size_write ..).trans hs.size, hs.calm⟩
    · exact hx.elim
    · exact hx.elim
    · exact hx

/-- If evaluations of deferred values track what these mean, so do evaluations of code whose cells
are as a table says. -/
theorem congruence {table : Table} {force force' : ThunkId → Eval Value}
    (hk : S.kept = table.meanings force') (hf : ∀ id, S.Tracks Value (force id) (force' id)) :
    Congruence S.Tracks table.see table.keep (.keeping force) (.plain force') where
  toCompatible := S.compatible.weaken fun i (hi : table i = none) => by
    rw [hk, Table.meanings, hi]
    rfl
  binding b hb := by
    have hc : Compatible S.Tracks table.see := S.compatible.weaken fun i (hi : table i = none) => by
      rw [hk, Table.meanings, hi]
      rfl
    refine hc.binding (fun i hi => hc.bind (hc.cell i hi) fun c => ?_) hb
    cases c with
    | thunk id => exact hf id
    | _ => exact hc.pure _
  memo p i x hx h := by
    refine Tracks.kept ?_ h
    have hi : table i = some (p, x) := hx
    rw [hk, Table.meanings, hi]
    rfl

end Setting

namespace Thunk

/-- The heap after an attempt to evaluate a deferred value, which left these cells. -/
def attempted (h : Heap) (id : ThunkId) (cells : Cells) (result : Option Value) : Heap :=
  { h with thunks := h.thunks.modify id fun t =>
      match result with
      | none => { t with cells := cells }
      | some v => { t with cells := #[], result := some v } }

theorem evaluate_apply (s : Strategy) (id : ThunkId) (env : Env) (m : Memory) :
    evaluate s id env m =
      match m.heap.thunks[id]? with
      | none => .ok .undefined m
      | some t =>
        match t.result with
        | some v => .ok v m
        | none =>
          match t.code.root.toBoxed.eval s [] t.env { m with cells := t.cells } with
          | .ok v k => .ok v { cells := m.cells, heap := attempted k.heap id k.cells (some v) }
          | .error e k =>
              .error e { cells := m.cells, heap := attempted k.heap id k.cells none } := by
  unfold evaluate
  rw [Eval.bind_apply]
  change (match m.heap.thunks[id]? with
    | none => pure .undefined
    | some t =>
      match t.result with
      | some v => pure v
      | none => _ : Eval Value) env m = _
  cases m.heap.thunks[id]? with
  | none => rfl
  | some t =>
    simp only
    cases t.result with
    | some v => rfl
    | none =>
      simp only
      rw [Eval.bind_apply, Eval.onCells]
      cases t.code.root.toBoxed.eval s [] t.env { m with cells := t.cells } with
      | error e k => rfl
      | ok v k =>
        change EStateM.Result.ok v _ = _
        congr 2
        simp only [attempted]
        congr 2
        apply Array.ext_getElem?
        intro i
        simp only [Array.getElem?_modify]
        split <;> simp [Option.map_map, Function.comp_def]

/-- The heap after an attempt stays sound, if the attempt kept nothing but what the value means. -/
theorem attempted_sound {made : Array Thunk} {h : Heap} {id : ThunkId} {g : Thunk} {cells : Cells}
    {result : Option Value} (hh : h.Sound made) (hg : made[id]? = some g)
    (hc : result = none → (Setting.ofThunk made h.futures.states id g).Kept h.blurred cells)
    (hr : ∀ v, result = some v → ∀ env n, n.states = h.futures.states →
      ∃ b n', meaning made id env n = .ok v n' ∧ Calm b n n' ∧ (h.blurred || b) = h.blurred) :
    (attempted h id cells result).Sound made where
  size := by simp [attempted, hh.size]
  thunks j t g' ht hg' := by
    simp only [attempted, Array.getElem?_modify] at ht
    by_cases hj : id = j
    · subst hj
      rw [hg] at hg'
      cases hg'
      simp only [if_true, Option.map_eq_some_iff] at ht
      obtain ⟨u, hu, rfl⟩ := ht
      have hs := hh.thunks id u g hu hg
      cases result with
      | none => exact ⟨hs.code, hs.env, hs.result, fun _ => hc rfl⟩
      | some v =>
        refine ⟨hs.code, hs.env, ?_, fun hn => by cases hn⟩
        intro w hw
        cases hw
        exact hr v rfl
    · rw [if_neg hj] at ht
      exact hh.thunks j t g' ht hg'

theorem meaning_of_made {made : Array Thunk} {id : ThunkId} {g : Thunk} (hg : made[id]? = some g) :
    meaning made id =
      Eval.onCells g.cells g.env (g.code.root.toBoxed.eval (.plain (meaningBelow made id)) [])
        fun _ heap => heap := by
  unfold meaning meaningBelow
  rw [if_pos rfl, hg]

theorem meaning_of_none {made : Array Thunk} {id : ThunkId} (hg : made[id]? = none) :
    meaning made id = pure .undefined := by
  unfold meaning meaningBelow
  rw [if_pos rfl, hg]

/-- If the deferred values before it track what they mean, so does a deferred value. -/
theorem tracks_evaluate {S : Setting} (ht : AllTidy S.made) {force : ThunkId → Eval Value}
    {id : ThunkId} (hf : ∀ T : Setting, T.made = S.made →
      ∀ j, T.Tracks Value (force j) (meaningBelow S.made id j)) :
    S.Tracks Value (evaluate (.keeping force) id) (meaning S.made id) := by
  intro m hm n hn
  rw [evaluate_apply]
  cases hg : S.made[id]? with
  | none =>
    have hget : m.heap.thunks[id]? = none := by
      rw [Array.getElem?_eq_none_iff] at hg ⊢
      rw [hm.heap.size]
      exact hg
    rw [hget, meaning_of_none hg]
    exact ⟨rfl, Setting.Step.refl hm n⟩
  | some g =>
    have hlt : id < m.heap.thunks.size := by
      rw [hm.heap.size]
      exact (Array.getElem?_eq_some_iff.1 hg).1
    obtain ⟨t, hget⟩ : ∃ t, m.heap.thunks[id]? = some t := ⟨_, Array.getElem?_eq_getElem hlt⟩
    have hs := hm.heap.thunks id t g hget hg
    rw [hget]
    simp only
    cases hres : t.result with
    | some v =>
      obtain ⟨b, n', hd, hcalm, hb⟩ := hs.result v hres S.env n (hn.states.trans hm.states.symm)
      rw [hd]
      exact ⟨rfl, hm, rfl, rfl, b, hb.symm, hcalm⟩
    | none =>
      simp only
      rw [hs.code, hs.env]
      -- the code of the value runs in a setting of its own
      let T := Setting.ofThunk S.made m.states id g
      have hT : T.Sound { m with cells := t.cells } := ⟨rfl, hm.heap, hs.cells hres⟩
      have hview (k : Memory) (hk : k.states = m.states) : T.View { k with cells := g.cells } :=
        ⟨hk, fun _ _ => rfl⟩
      have htrack := (T.congruence rfl (hf T rfl)).term g.code.root.toBoxed []
        (ht id g hg).touches.toBoxed { m with cells := t.cells } hT
      -- whatever the attempt leaves is sound again, and both sides have blurred alike
      have hstep {k k' : Memory} {result : Option Value}
          (hk : T.Step { m with cells := t.cells } { n with cells := g.cells } k k')
          (hr : ∀ v, result = some v → ∀ env l, l.states = k.states →
            ∃ b l', meaning S.made id env l = .ok v l' ∧ Calm b l l' ∧
            (k.blurred || b) = k.blurred) :
          S.Step m n { cells := m.cells, heap := attempted k.heap id k.cells result }
            { cells := n.cells, heap := k'.heap } := by
        obtain ⟨b, hb, hcalm⟩ := hk.calm
        have hstates : k.states = m.states := hk.sound.states
        refine ⟨⟨hstates.trans hm.states, attempted_sound hk.sound.heap hg ?_ hr, ?_⟩,
          hk.fresh, rfl, b, hb,
          rfl, hcalm.states, hcalm.blurred⟩
        · intro _
          have hkept : (Setting.ofThunk S.made m.states id g).Kept k.blurred k.cells :=
            hk.sound.kept
          rw [← hstates] at hkept
          exact hkept
        · have hkept : S.Kept (m.blurred || b) m.cells := hm.kept.mono
          rw [← hb] at hkept
          exact hkept
      have hn' := htrack { n with cells := g.cells } (hview n (hn.states.trans hm.states.symm))
      rw [meaning_of_made hg]
      unfold Eval.onCells
      cases hrun : g.code.root.toBoxed.eval (.keeping force) [] g.env
          { m with cells := t.cells } with
      | error e k =>
        rw [show T.env = g.env from rfl, hrun] at hn'
        cases hplain : g.code.root.toBoxed.eval (.plain (meaningBelow S.made id)) [] g.env
            { n with cells := g.cells } <;> rw [hplain] at hn'
        · exact hn'.elim
        · obtain ⟨rfl, hk⟩ := hn'
          exact ⟨rfl, hstep hk fun v hv => by cases hv⟩
      | ok v k =>
        rw [show T.env = g.env from rfl, hrun] at hn' htrack
        cases hplain : g.code.root.toBoxed.eval (.plain (meaningBelow S.made id)) [] g.env
            { n with cells := g.cells } <;> rw [hplain] at hn'
        · obtain ⟨rfl, hk⟩ := hn'
          refine ⟨rfl, hstep hk ?_⟩
          intro w hw env l hl
          cases hw
          have hl' := htrack { l with cells := g.cells } (hview l (hl.trans hk.sound.states))
          rw [meaning_of_made hg]
          unfold Eval.onCells
          cases hagain : g.code.root.toBoxed.eval (.plain (meaningBelow S.made id)) [] g.env
              { l with cells := g.cells } <;> rw [hagain] at hl'
          · obtain ⟨rfl, hsl⟩ := hl'
            obtain ⟨b, hb, hcalm⟩ := hsl.calm
            exact ⟨b, _, rfl, ⟨rfl, hcalm.states, hcalm.blurred⟩, by rw [hb]; simp⟩
          · exact hl'.elim
        · exact hn'.elim

/-- Evaluating a deferred value, at its first use or later, tracks what it means. -/
theorem tracks_forceBelow {made : Array Thunk} (ht : AllTidy made) (count : Nat) :
    ∀ (S : Setting), S.made = made → ∀ id,
      S.Tracks Value (forceBelow count id) (meaningBelow made count id) := by
  induction count with
  | zero => exact fun S _ id => S.compatible.pure _
  | succ count ih =>
    intro S hS id
    subst hS
    unfold forceBelow
    by_cases hid : id = count
    · subst hid
      rw [if_pos rfl]
      exact tracks_evaluate ht ih
    · rw [if_neg hid]
      unfold meaningBelow
      rw [if_neg hid]
      exact ih S rfl id

end Thunk

/-- The evaluation that instructions use tracks what code means. -/
theorem Setting.usual (S : Setting) (ht : Thunk.AllTidy S.made) {table : Table}
    (hk : S.kept = table.meanings (Thunk.meaning S.made)) :
    Congruence S.Tracks table.see table.keep .usual (.meaning S.made) :=
  S.congruence hk fun id => Thunk.tracks_forceBelow ht (id + 1) S rfl id

end Interlude
