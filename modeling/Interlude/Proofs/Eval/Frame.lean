import Interlude.Proofs.Eval.Meaning
/-!
# What evaluations leave alone

An evaluation writes values into the cells it keeps results in and changes deferred values only by
evaluating them. All other cells, the number of deferred values and the states of futures stay. It
never meets a cell of an unexpected form, as long as the cells it expects content in hold values
(`Eval.Tame.usual`).
-/

namespace Interlude

/-- A deferred value later on: it may have been evaluated, and until then its cells are as many. -/
structure Thunk.Later (t t' : Thunk) : Prop where
  code : t'.code = t.code
  env : t'.env = t.env
  pending : t'.result = none → t.result = none ∧ t'.cells.size = t.cells.size

theorem Thunk.Later.refl (t : Thunk) : Thunk.Later t t := ⟨rfl, rfl, fun h => ⟨h, rfl⟩⟩

theorem Thunk.Later.trans {t t' t'' : Thunk} (h : Thunk.Later t t') (h' : Thunk.Later t' t'') :
    Thunk.Later t t'' where
  code := h'.code.trans h.code
  env := h'.env.trans h.env
  pending hn := ⟨(h.pending (h'.pending hn).1).1,
    (h'.pending hn).2.trans (h.pending (h'.pending hn).1).2⟩

/-- A heap after evaluations. -/
structure Heap.Later (h h' : Heap) : Prop where
  states : h'.futures.states = h.futures.states
  blurred : h.blurred = true → h'.blurred = true
  size : h'.thunks.size = h.thunks.size
  thunks : ∀ (id : ThunkId) (t' : Thunk), h'.thunks[id]? = some t' →
    ∃ t, h.thunks[id]? = some t ∧ Thunk.Later t t'

theorem Heap.Later.refl (h : Heap) : h.Later h :=
  ⟨rfl, id, rfl, fun _ t ht => ⟨t, ht, .refl t⟩⟩

theorem Heap.Later.trans {h h' h'' : Heap} (a : h.Later h') (b : h'.Later h'') : h.Later h'' where
  states := b.states.trans a.states
  blurred := b.blurred ∘ a.blurred
  size := b.size.trans a.size
  thunks id t'' ht'' := by
    obtain ⟨t', ht', hl'⟩ := b.thunks id t'' ht''
    obtain ⟨t, ht, hl⟩ := a.thunks id t' ht'
    exact ⟨t, ht, hl.trans hl'⟩

/-- Memory after an evaluation that keeps results in the cells of `own` only. -/
structure Memory.Later (own : Nat → Prop) (m m' : Memory) : Prop where
  size : m'.cells.size = m.cells.size
  rest : ∀ i, ¬own i → m'.cells.read i = m.cells.read i
  kept : ∀ i, m'.cells.read i = m.cells.read i ∨ ∃ v, m'.cells.read i = .value v
  fresh : m'.heap.fresh = m.heap.fresh
  heap : m.heap.Later m'.heap

namespace Memory.Later

variable {own : Nat → Prop} {m m' m'' : Memory}

theorem refl (own : Nat → Prop) (m : Memory) : m.Later own m :=
  ⟨rfl, fun _ _ => rfl, fun _ => .inl rfl, rfl, .refl _⟩

theorem trans (h : m.Later own m') (h' : m'.Later own m'') : m.Later own m'' where
  size := h'.size.trans h.size
  rest i hi := (h'.rest i hi).trans (h.rest i hi)
  kept i := by
    rcases h'.kept i with heq | hv
    · rw [heq]; exact h.kept i
    · exact .inr hv
  fresh := h'.fresh.trans h.fresh
  heap := h.heap.trans h'.heap

/-- Futures were read and text perhaps taken. -/
theorem touched (own : Nat → Prop) (m : Memory) {fs : Futures} (hs : fs.states = m.states)
    (blurs : Bool) :
    m.Later own (Eval.touched m fs blurs) :=
  ⟨rfl, fun _ _ => rfl, fun _ => .inl rfl, rfl, ⟨hs, fun h => by simp [Eval.touched, h], rfl,
    fun _ t ht => ⟨t, ht, .refl t⟩⟩⟩

theorem write {i : Nat} (hi : own i) (m : Memory) (v : Value) :
    m.Later own { m with cells := m.cells.write i (.value v) } where
  size := Cells.size_write ..
  rest j hj := Cells.read_write_of_ne _ (by rintro rfl; exact hj hi) _
  kept j := by
    rw [Cells.read_write]
    split
    · exact .inr ⟨v, rfl⟩
    · exact .inl rfl
  fresh := rfl
  heap := .refl _

end Memory.Later

/-- A stop that is due: what is waited for is pending, reads are without end, and nothing is
broken. -/
def Stop.Due (fs : Futures) : Stop → Prop
  | failed _ => True
  | waiting p => fs.get p = .pending
  | exhausted => fs.Endless
  | broken => False

theorem Stop.Due.congr {fs gs : Futures} (h : fs.states = gs.states) {e : Stop} (he : e.Due fs) :
    e.Due gs := by
  cases e with
  | waiting p => exact (Futures.get_congr h p).symm.trans he
  | exhausted => exact Futures.Endless.congr h he
  | _ => exact he

namespace Eval

/-- The cells of `valued` hold values. -/
def Valued (valued : Nat → Prop) (cells : Cells) : Prop := ∀ i, valued i →
    ∃ v, cells.read i = .value v

theorem Valued.later {valued own : Nat → Prop} {m m' : Memory} (h : Valued valued m.cells)
    (hl : m.Later own m') :
    Valued valued m'.cells := by
  intro i hi
  rcases hl.kept i with heq | hv
  · rw [heq]; exact h i hi
  · exact hv

/-- However an evaluation ends, it left alone what is not its own, and a stop is due. -/
def Leaves (own : Nat → Prop) (m : Memory) {α : Type} : EStateM.Result Stop Memory α → Prop
  | .ok _ m' => m.Later own m'
  | .error e m' => e.Due m.heap.futures ∧ m.Later own m'

/-- An evaluation leaves alone what is not its own, and finds values where it expects them. The
second evaluation of the relation is not looked at. -/
def Tame (own valued : Nat → Prop) (env : Env) (α : Type) (x _ : Eval α) : Prop :=
  ∀ m, Valued valued m.cells → Leaves own m (x env m)

namespace Tame

variable {own valued : Nat → Prop} {env : Env}

theorem bind {α β : Type} {x y : Eval α} {f g : α → Eval β} (hx : Tame own valued env α x y)
    (hf : ∀ a, Tame own valued env β (f a) (g a)) : Tame own valued env β (x >>= f) (y >>= g) := by
  intro m hm
  rw [bind_apply]
  have h := hx m hm
  cases hr : x env m with
  | error e m' => rw [hr] at h; exact h
  | ok a m' =>
    rw [hr] at h
    have h' := hf a m' (hm.later h)
    simp only
    cases hr' : f a env m' with
    | error e m'' => rw [hr'] at h'; exact ⟨h'.1.congr h.heap.states, h.trans h'.2⟩
    | ok b m'' => rw [hr'] at h'; exact h.trans h'

/-- An evaluation that reads futures and perhaps takes text. -/
theorem of_ending {α : Type} {x : Eval α} (blurs : Bool) (result : Futures → Except Stop α)
    (reads : Futures → Futures) (hs : ∀ fs, (reads fs).states = fs.states)
    (hb : ∀ fs e, result fs = .error e → e.Due fs)
    (h : ∀ m, x env m = ending (result m.heap.futures)
      (Eval.touched m (reads m.heap.futures) blurs)) :
    Tame own valued env α x x := by
  intro m _
  rw [h]
  have hl := Memory.Later.touched own m (hs m.heap.futures) blurs
  cases hr : result m.heap.futures with
  | ok a => exact hl
  | error e => exact ⟨hb m.heap.futures e hr, hl⟩

theorem compatible (own valued : Nat → Prop) (env : Env) : Compatible (Tame own valued env) fun _ =>
    True where
  pure _ m _ := .refl own m
  bind hx hf := bind hx hf
  fail _ m _ := ⟨trivial, .refl own m⟩
  env m _ := .refl own m
  resolve v := by
    refine of_ending false (fun fs => (fs.resolve v).1.result) (fun fs => (fs.resolve v).2)
      (fun fs => Futures.resolve_states fs v) ?_ (resolve_apply v env)
    intro fs e he
    cases hread : (fs.resolve v).1 with
    | waiting p =>
      rw [hread] at he
      cases he
      exact Futures.pending_of_resolve hread
    | endless =>
      rw [hread] at he
      cases he
      exact ⟨v, hread⟩
    | failed cause =>
      rw [hread] at he
      cases he
      trivial
    | value w =>
      rw [hread] at he
      cases he
  text v := of_ending v.holdsFuture (fun fs => .ok (v.text fs)) id (fun _ => rfl)
    (fun _ _ he => by cases he) (text_apply v env)
  filtered fs args v := by
    refine of_ending (Filter.takeText (applied fs args) && v.holdsFuture)
      (fun gs => (Filter.applyAll gs (applied fs args) v).mapError .failed) id (fun _ => rfl) ?_
      (filtered_apply fs args v env)
    intro gs e he
    cases hall : Filter.applyAll gs (applied fs args) v with
    | ok w =>
      rw [hall] at he
      cases he
    | error cause =>
      rw [hall] at he
      cases he
      trivial
  mapFailure change x _ h m hm := by
    have hr := h m hm
    rw [mapFailure_apply]
    cases hx : x env m with
    | ok a m' => rw [hx] at hr; exact hr
    | error e m' =>
      rw [hx] at hr
      cases e with
      | failed cause => exact ⟨trivial, hr.2⟩
      | _ => exact hr
  cell _ _ m _ := .refl own m

theorem content {slot : Nat} (h : valued slot) :
    Tame own valued env Value (Eval.content slot) (Eval.content slot) := by
  intro m hm
  obtain ⟨v, hv⟩ := hm slot h
  have hcell : Eval.cell slot env m = .ok (.value v) m := by rw [← hv]; rfl
  have hrun : Eval.content slot env m = .ok v m := by
    unfold Eval.content
    rw [bind_apply, hcell]
    rfl
  rw [hrun]
  exact .refl own m

theorem kept {i : Nat} (hi : own i) {x y : Eval Value} (h : Tame own valued env Value x y) :
    Tame own valued env Value (Eval.kept i x) y := by
  intro m hm
  have hcell : Eval.cell i env m = .ok (m.cells.read i) m := rfl
  unfold Eval.kept
  rw [bind_apply, hcell]
  simp only
  cases (m.cells.read i).value? with
  | some v => exact .refl own m
  | none =>
    simp only
    rw [bind_apply]
    have hr := h m hm
    cases hx : x env m with
    | error e m' => rw [hx] at hr; exact hr
    | ok v m' => rw [hx] at hr; exact hr.trans (.write hi m' v)

theorem congruence {force : ThunkId → Eval Value} {keep : Keeping}
    (hk : ∀ p i x, keep p i x → own i)
    (hf : ∀ id, Tame own valued env Value (force id) (force id)) :
    Congruence (Tame own valued env) (fun _ => True) keep (.keeping force) (.keeping force) where
  toCompatible := compatible own valued env
  binding b hb := by
    refine (compatible own valued env).binding (fun i hi => ?_) hb
    refine (compatible own valued env).bind ((compatible own valued env).cell i hi) fun c => ?_
    cases c with
    | thunk id => exact hf id
    | _ => exact (compatible own valued env).pure _
  memo p i x hx h := kept (hk p i x hx) h

end Tame

end Eval

/-- Nothing is asked of a term that may read and keep everywhere. -/
theorem Term.touches_everywhere {f : Form} (x : Term f) (place : List Nat) :
    x.Touches (fun _ => True) (fun _ _ _ => True) place := by
  induction x generalizing place with
  | const | constInt | constFloat | constBool | constStr | param | nil | noEntries => trivial
  | cellInt | cellFloat | cellBool | cellStr | isFirst => trivial
  | «local» => exact ⟨trivial, fun _ _ _ => trivial⟩
  | isLast => exact ⟨trivial, trivial⟩
  | boxInt _ ih | boxFloat _ ih | boxBool _ ih | boxStr _ ih | unboxInt _ ih | unboxFloat _ ih
  | widen _ ih
  | truthy _ ih | textOfInt _ ih | textOfFloat _ ih | textOfBool _ ih | text _ ih | not _ ih
  | negInt _ ih
  | negFloat _ ih | neg _ ih | field _ _ _ ih | list _ ih | map _ ih | record _ _ ih
  | call _ _ ih => exact ih _
  | arithInt _ _ _ ih ih' | arithFloat _ _ _ ih ih' | arith _ _ _ ih ih' | concat _ _ ih ih'
  | both _ _ ih ih'
  | either _ _ ih ih' | coalesce _ _ ih ih' | compareInt _ _ _ ih ih' | compareFloat _ _ _ ih ih'
  | compareStr _ _ _ ih ih' | compare _ _ _ ih ih' | item _ _ _ ih ih' | cons _ _ ih ih' =>
    exact ⟨ih _, ih' _⟩
  | cond _ _ _ ih ih' ih'' | entry _ _ _ ih ih' ih'' => exact ⟨ih _, ih' _, ih'' _⟩
  | memo _ _ ih => exact ⟨trivial, ih _⟩

theorem Lowered.touches_everywhere (x : Lowered) (place : List Nat) :
    x.Touches (fun _ => True) (fun _ _ _ => True) place := by
  cases x <;> exact Term.touches_everywhere _ _

namespace Thunk

/-- An attempt to evaluate a deferred value. -/
theorem attempted_later {h k : Heap} {id : ThunkId} {t : Thunk} {cells : Cells}
    {result : Option Value} (hl : h.Later k) (ht : h.thunks[id]? = some t) (hr : t.result = none)
    (hs : cells.size = t.cells.size) :
    h.Later (attempted k id cells result) where
  states := hl.states
  blurred := hl.blurred
  size := by simp [attempted, hl.size]
  thunks j u hu := by
    simp only [attempted, Array.getElem?_modify] at hu
    split at hu
    · next hj =>
      subst hj
      obtain ⟨u', hu', rfl⟩ := Option.map_eq_some_iff.1 hu
      obtain ⟨t', ht', hlater⟩ := hl.thunks id u' hu'
      rw [ht] at ht'
      cases ht'
      refine ⟨t, ht, ?_⟩
      cases result with
      | none => exact ⟨hlater.code, hlater.env, fun _ => ⟨hr, hs⟩⟩
      | some v => exact ⟨hlater.code, hlater.env, fun hn => by cases hn⟩
    · exact hl.thunks j u hu

theorem tame_evaluate {own valued : Nat → Prop} {env : Env} {force : ThunkId → Eval Value}
    (hf : ∀ env id, Eval.Tame (fun _ => True) (fun _ => False) env Value (force id) (force id))
    (id : ThunkId) :
    Eval.Tame own valued env Value (evaluate (.keeping force) id)
      (evaluate (.keeping force) id) := by
  intro m hm
  rw [evaluate_apply]
  cases ht : m.heap.thunks[id]? with
  | none => exact .refl own m
  | some t =>
    simp only
    cases hr : t.result with
    | some v => exact .refl own m
    | none =>
      simp only
      have hrun := (Eval.Tame.congruence (fun _ _ _ _ => trivial) (hf t.env)).term
        t.code.root.toBoxed [] (Term.touches_everywhere _ _) { m with cells := t.cells }
        (fun _ h => h.elim)
      have hstep (k : Memory) (result : Option Value)
        (hk : ({ m with cells := t.cells } : Memory).Later (fun _ => True) k) :
          m.Later own { cells := m.cells, heap := attempted k.heap id k.cells result } :=
        ⟨rfl, fun _ _ => rfl, fun _ => .inl rfl, hk.fresh, attempted_later hk.heap ht hr hk.size⟩
      cases hx : t.code.root.toBoxed.eval (.keeping force) [] t.env { m with cells := t.cells } with
      | ok v k => rw [hx] at hrun; exact hstep k _ hrun
      | error e k => rw [hx] at hrun; exact ⟨hrun.1, hstep k _ hrun.2⟩

theorem tame_forceBelow (count : Nat) : ∀ {own valued : Nat → Prop} {env : Env} (id : ThunkId),
    Eval.Tame own valued env Value (forceBelow count id) (forceBelow count id) := by
  induction count with
  | zero => exact fun _ => (Eval.Tame.compatible _ _ _).pure _
  | succ count ih =>
    intro own valued env id
    unfold forceBelow
    split
    · exact tame_evaluate (fun _ id => ih id) id
    · exact ih id

end Thunk

/-- The evaluation that instructions use leaves alone what is not its own. -/
theorem Eval.Tame.usual (own valued : Nat → Prop) (env : Env) {keep : Keeping}
    (hk : ∀ p i x, keep p i x → own i) :
    Congruence (Tame own valued env) (fun _ => True) keep .usual .usual :=
  congruence hk fun id => Thunk.tame_forceBelow (id + 1) id

end Interlude
