import Interlude.Proofs.Read.Agree
import Interlude.Proofs.Eval.Frame
/-!
# Visits account for evaluations

The visits of an evaluation of guarded code agree with each other. Memory before the evaluation
tells of nothing against any of them, and memory afterwards tells of all of them. They account for
all requests that the futures count (`Accounts`).
-/

namespace Interlude

namespace Futures

/-- Futures that are pending or have completed with values that are no futures, and that all count
their reads. -/
structure Shallow (fs : Futures) : Prop where
  counted : fs.reads.size = fs.states.size
  settled : ∀ id, fs.get id = .pending ∨ ∃ v, fs.get id = .complete v ∧ ∀ j, v ≠ .future j

theorem Shallow.countRead {fs : Futures} (h : fs.Shallow) (id : FutureId) :
    (fs.countRead id).Shallow :=
  ⟨by simpa [Futures.countRead] using h.counted, h.settled⟩

theorem lt_of_settled {fs : Futures} {id : FutureId} (h : fs.get id ≠ .pending) :
    id < fs.states.size := by
  refine Nat.lt_of_not_le fun hle => h ?_
  unfold get
  rw [Array.getElem?_eq_none hle]
  rfl

theorem readsOf_countRead {fs : Futures} {id : FutureId} (h : id < fs.reads.size) (j : FutureId) :
    (fs.countRead id).readsOf j = fs.readsOf j + if id = j then 1 else 0 := by
  unfold readsOf countRead
  simp only [Array.getElem?_modify]
  split
  · next hj =>
    subst hj
    simp [Array.getElem?_eq_getElem h]
  · simp

theorem asksFrom_of_ne (fs : Futures) (fuel : Nat) {v : Value} (h : ∀ j, v ≠ .future j) :
    fs.asksFrom fuel v = [] := by
  cases v with
  | future j => exact (h j rfl).elim
  | _ => cases fuel <;> rfl

theorem resolveFrom_of_ne (fs : Futures) (fuel : Nat) {v : Value} (h : ∀ j, v ≠ .future j) :
    fs.resolveFrom fuel v = (.value v, fs) := by
  cases v with
  | future j => exact (h j rfl).elim
  | _ => cases fuel <;> rfl

/-- What is no future is there at once; a future is waited for, or asked once. -/
theorem Shallow.read {fs : Futures} (h : fs.Shallow) (v : Value) :
    (fs.asks v = [] ∧ fs.resolve v = (.value v, fs)) ∨
    (∃ id, fs.asks v = [.awaited id] ∧ fs.resolve v = (.waiting id, fs)) ∨
    ∃ id w, fs.asks v = [.resolved id] ∧ fs.resolve v = (.value w, fs.countRead id) ∧
    id < fs.reads.size := by
  cases v with
  | future id =>
    right
    unfold asks resolve asksFrom resolveFrom
    rcases h.settled id with hp | ⟨w, hw, hplain⟩
    · left
      exact ⟨id, by simp [hp], by simp [hp]⟩
    · right
      have hlt : id < fs.reads.size := by
        rw [h.counted]
        exact lt_of_settled (by simp [hw])
      refine ⟨id, w, ?_, ?_, hlt⟩
      · simp only [hw, asksFrom_of_ne fs _ hplain]
      · simp only [hw, resolveFrom_of_ne _ _ hplain]
  | _ => exact .inl ⟨rfl, rfl⟩

end Futures

/-- What guarded code may rely on: so many cells for its results, the locals it reads, and the
deferred values that are read, by itself or by another of them. -/
structure Guard where
  size : Nat
  see : Seeing
  live : ThunkId → Prop

namespace Memory

/-- Memory for guarded code: the code of the deferred values that are read is shielded, and no
future leads to another. -/
structure Ready (g : Guard) (m : Memory) : Prop where
  size : g.size ≤ m.cells.size
  locals : ∀ i id, g.see i → m.cells.read i = .thunk id → g.live id
  thunks : ∀ (id : ThunkId) (t : Thunk), g.live id → m.heap.thunks[id]? = some t → t.result = none →
    t.code.root.toBoxed.Shielded (fun _ => True) t.cells.size false ∧
    ∀ i j, t.cells.read i = .thunk j → g.live j
  futures : m.heap.futures.Shallow

theorem Ready.retains {g : Guard} {m m' : Memory} (h : m.Ready g) (hr : m.Retains m')
    (hf : m'.heap.futures.Shallow) :
    m'.Ready g where
  size := by
    rw [hr.cells.size]
    exact h.size
  locals i id hi hid := h.locals i id hi (hr.cells.thunks i id hid)
  thunks id t' hlive ht' hn' := by
    obtain ⟨t, ht, hn, hcode, hcells⟩ := hr.thunks id t' ht' hn'
    obtain ⟨hshield, hclosed⟩ := h.thunks id t hlive ht hn
    rw [← hcode, hcells.size]
    exact ⟨hshield, fun i j hj => hclosed i j (hcells.thunks i j hj)⟩
  futures := hf

end Memory

/-- The memory an evaluation leaves, however it ends. -/
def Eval.left {α : Type} : EStateM.Result Stop Memory α → Memory
  | .ok _ m => m
  | .error _ m => m

/-- Visits account for an evaluation of code that reads on the ways told. The deferred values
visited are all in `reach`. A `bare` read at the root of the code leaves it to the code around to
keep what it asked for. -/
structure Account (g : Guard) (reach : ThunkId → Prop) (bare : Bool) (ways : Ways)
    (visits : List Visit) (m : Memory) {α : Type} (r : EStateM.Result Stop Memory α) : Prop where
  retains : m.Retains (Eval.left r)
  ready : (Eval.left r).Ready g
  reach : ∀ v ∈ visits, ∀ id, v.frame = some id → reach id
  agree : visits.Pairwise Visit.Agree
  due : ∀ v ∈ visits, v.Due ways m
  done : ∀ v ∈ visits, v.Done ways (Eval.left r) ∨
    bare = true ∧ v.resolves = true ∧ v.frame = none ∧ v.path = [] ∧ ∃ a m', r = .ok a m'
  counts : ∀ id, (Eval.left r).heap.futures.readsOf id =
    m.heap.futures.readsOf id + visits.countP (·.kind = .resolved id)

/-- A trace accounts for an evaluation. -/
def Trace.Accounts (g : Guard) (reach : ThunkId → Prop) (bare : Bool) (ways : Ways)
    (tr : Trace) {α : Type} (x : Eval α) : Prop :=
  ∀ env m, m.Ready g → Account g reach bare ways (tr env m) m (x env m)

namespace Account

variable {g : Guard} {reach : ThunkId → Prop} {bare : Bool} {ways : Ways}
  {visits visits' : List Visit}
  {m m' : Memory} {α β : Type} {r : EStateM.Result Stop Memory α}
    {r' : EStateM.Result Stop Memory β}

/-- An evaluation that visits nothing and changes nothing that visits depend on. -/
theorem nothing (hm : m.Ready g) (hc : (Eval.left r).cells = m.cells)
    (ht : (Eval.left r).heap.thunks = m.heap.thunks)
    (hf : (Eval.left r).heap.futures = m.heap.futures) :
    Account g reach bare ways [] m r where
  retains := .of_heap (by rw [hc]; exact .refl _) ht
  ready := hm.retains (.of_heap (by rw [hc]; exact .refl _) ht) (by rw [hf]; exact hm.futures)
  reach _ hv := by cases hv
  agree := .nil
  due _ hv := by cases hv
  done _ hv := by cases hv
  counts id := by rw [hf]; rfl

/-- An evaluation that stops leaves nothing for the code around it to keep. -/
theorem stop {e : Stop}
    (h : Account g reach bare ways visits m (.error e m' : EStateM.Result Stop Memory α))
    (bare' : Bool) : Account g reach bare' ways visits m
      (.error e m' : EStateM.Result Stop Memory β) :=
  { h with
    done := fun v hv => .inl <|
      (h.done v hv).resolve_right fun ⟨_, _, _, _, _, _, hr⟩ => by cases hr }

/-- One evaluation after another. -/
theorem append (he : ways.Extend) {a : α} (h : Account g reach false ways visits m (.ok a m'))
    (h' : Account g reach bare ways visits' m' r') :
    Account g reach bare ways (visits ++ visits') m r' where
  retains := h.retains.trans h'.retains
  ready := h'.ready
  reach v hv := (List.mem_append.1 hv).elim (h.reach v) (h'.reach v)
  agree := by
    refine List.pairwise_append.2 ⟨h.agree, h'.agree, fun u hu v hv => ?_⟩
    have hdone := (h.done u hu).resolve_right fun h => Bool.noConfusion h.1
    exact hdone.agree he (h'.due v hv)
  due v hv := by
    rcases List.mem_append.1 hv with hv | hv
    · exact h.due v hv
    · exact (h'.due v hv).earlier h.retains
  done v hv := by
    rcases List.mem_append.1 hv with hv | hv
    · have hdone := (h.done v hv).resolve_right fun h => Bool.noConfusion h.1
      exact .inl (hdone.later h'.retains)
    · exact h'.done v hv
  counts id := by
    rw [h'.counts id, List.countP_append, ← Nat.add_assoc]
    exact congrArg (· + _) (h.counts id)

/-- An evaluation goes on with the result of another, unless that one stops. -/
theorem andThen (he : ways.Extend) {env : Env} {x : Eval α}
    (h : Account g reach false ways visits m (x env m)) {next : α → Trace} {f : α → Eval β}
    (hf : ∀ a m', x env m = .ok a m' → m'.Ready g →
      Account g reach bare ways (next a env m') m' (f a env m')) :
    Account g reach bare ways
      (visits ++ match x env m with | .ok a m' => next a env m' | .error _ _ => []) m
      ((x >>= f) env m) := by
  rw [Eval.bind_apply]
  cases hr : x env m with
  | error e m' =>
    rw [hr] at h
    simp only [List.append_nil]
    exact h.stop bare
  | ok a m' =>
    rw [hr] at h
    exact h.append he (hf a m' hr h.ready)

/-- Visits to an operand, seen from the term around it. What becomes of the result may change
cells. -/
theorem inOperand {ways' : Ways} {i : Nat} {bare' : Bool} (h : Account g reach bare ways visits m r)
    (hr : (Eval.left r).Retains (Eval.left r'))
    (hf : (Eval.left r').heap.futures = (Eval.left r).heap.futures)
    (hdue : ∀ v ∈ visits, v.kind.Due m.cells (ways v.path) →
      v.kind.Due m.cells (ways' (i :: v.path)))
    (hdone : ∀ v ∈ visits, v.kind.Done (Eval.left r).cells (ways v.path) ∨ bare = true ∧
      v.resolves = true ∧ v.path = [] ∧ (∃ a m', r = .ok a m') →
      v.kind.Done (Eval.left r').cells (ways' (i :: v.path))) :
    Account g reach bare' ways' (visits.map (·.inOperand i)) m r' where
  retains := h.retains.trans hr
  ready := h.ready.retains hr (by rw [hf]; exact h.ready.futures)
  reach v hv := by
    obtain ⟨u, hu, rfl⟩ := List.mem_map.1 hv
    rw [Visit.frame_inOperand]
    exact h.reach u hu
  agree := List.pairwise_map.2 (h.agree.imp fun h => h.inOperand i)
  due v hv := by
    obtain ⟨u, hu, rfl⟩ := List.mem_map.1 hv
    obtain ⟨w, cells, hruns, hk⟩ := h.due u hu
    obtain ⟨kind, path, frame⟩ := u
    cases hruns with
    | own => exact ⟨ways', m.cells, .own, hdue _ hu hk⟩
    | thunk ht hn => exact ⟨_, _, .thunk ht hn, hk⟩
  done v hv := by
    left
    obtain ⟨u, hu, rfl⟩ := List.mem_map.1 hv
    have hd := h.done u hu
    obtain ⟨kind, path, frame⟩ := u
    intro w cells hruns
    cases frame with
    | none =>
      cases hruns
      exact hdone _ hu (hd.imp (fun hd => hd _ _ .own) fun ⟨hb, hv, _, hp, ha⟩ => ⟨hb, hv, hp, ha⟩)
    | some id =>
      have hd := (hd.resolve_right fun h => Option.some_ne_none _ h.2.2.1).later hr
      cases hruns with
      | thunk ht hn => exact hd _ _ (.thunk ht hn)
  counts id := by
    rw [hf, h.counts id, List.countP_map]
    congr 2
    funext v
    simp

/-- An operand that is always evaluated. -/
theorem operand {ways' : Ways} {i : Nat} (h : Account g reach false ways visits m r)
    (hw : ∀ path, ways' (i :: path) = ways path) (bare : Bool) :
    Account g reach bare ways' (visits.map (·.inOperand i)) m r := by
  refine h.inOperand (.refl _) rfl (fun v _ hv => by rw [hw]; exact hv) fun v _ hv => ?_
  rw [hw]
  exact hv.resolve_right fun h => Bool.noConfusion h.1

/-- An operand over which a decision is made: it is made for the operand and held in a cell, or
nothing is read in the operand. -/
theorem gated {ways' : Ways} {i : Nat} {c : Option Nat} {opens : Value → Bool}
    (h : Account g reach false ways visits m r)
    (hw : ∀ path, ways' (i :: path) = .gate c opens :: ways path)
    (ho : ∀ s, c = some s → ∃ v, m.cells.read s = .value v ∧ opens v = true)
    (hskip : c = none → ∀ v ∈ visits, v.kind = .skipped) (bare : Bool) :
    Account g reach bare ways' (visits.map (·.inOperand i)) m r := by
  cases c with
  | some s =>
    obtain ⟨v, hv, ho⟩ := ho s rfl
    refine h.inOperand (.refl _) rfl (fun u _ hdue => ?_) fun u _ hdone => ?_
    · rw [hw]
      exact hdue.gate hv ho
    · rw [hw]
      exact (hdone.resolve_right fun h => Bool.noConfusion h.1).gate
        (h.retains.cells.values s v hv) ho
  | none =>
    have hgate (way : List Edge) : Edge.gate none opens ∈ .gate none opens :: way :=
      List.mem_cons_self
    refine h.inOperand (.refl _) rfl (fun u hu _ => ?_) fun u hu _ => ?_
    · rw [hw, hskip rfl u hu]
      intro hc
      obtain ⟨s, v, hs, -⟩ := hc none opens (hgate _)
      cases hs
    · rw [hw, hskip rfl u hu]
      exact ⟨none, opens, hgate _, fun _ hs => by cases hs⟩

/-- An operand is passed over, by a decision that is held in a cell if it is held at all. -/
theorem skip {i : Nat} {c : Option Nat} {opens : Value → Bool} (hm : m.Ready g)
    (hl : Eval.left r = m) (hw : Edge.gate c opens ∈ ways [i])
    (hc : ∀ s, c = some s → ∃ v, m.cells.read s = .value v ∧ opens v = false) (bare : Bool) :
    Account g reach bare ways [{ kind := .skipped, path := [i] }] m r where
  retains := by rw [hl]; exact .refl m
  ready := by rw [hl]; exact hm
  reach v hv id hid := by
    rw [List.mem_singleton.1 hv] at hid
    cases hid
  agree := List.pairwise_singleton _ _
  due v hv := by
    rw [List.mem_singleton.1 hv]
    refine ⟨ways, m.cells, .own, fun hchoose => ?_⟩
    obtain ⟨s, v, hs, hv, ho⟩ := hchoose c opens hw
    obtain ⟨w, hw, hno⟩ := hc s hs
    rw [hv] at hw
    cases hw
    rw [ho] at hno
    cases hno
  done v hv := by
    left
    rw [List.mem_singleton.1 hv, hl]
    intro w cells hruns
    cases hruns
    exact ⟨c, opens, hw, hc⟩
  counts id := by
    rw [hl]
    simp

/-- A deferred value is needed at the root of the code. -/
theorem force (hm : m.Ready g) (hl : Eval.left r = m) (hw : ways [] = []) (id : ThunkId) :
    Account g reach bare ways [{ kind := .forced id }] m r where
  retains := by rw [hl]; exact .refl m
  ready := by rw [hl]; exact hm
  reach v hv id hid := by
    rw [List.mem_singleton.1 hv] at hid
    cases hid
  agree := List.pairwise_singleton _ _
  due v hv := by
    rw [List.mem_singleton.1 hv]
    refine ⟨ways, m.cells, .own, ?_⟩
    rw [hw]
    rintro ⟨_, _, h, _⟩
    cases h
  done v hv := by
    left
    rw [List.mem_singleton.1 hv, hl]
    intro w cells hruns
    cases hruns
    rw [hw]
    exact fun _ _ h => by cases h
  counts id := by
    rw [hl]
    simp

/-- A value is read at the root of the code, which has no way to it. -/
theorem read (hm : m.Ready g) (hw : ways [] = []) (v : Value) (env : Env) :
    Account g reach true ways (Trace.read v env m) m (Eval.resolve v env m) := by
  have hchoose (cells : Cells) : cells.Choose (ways []) := by
    rw [hw]
    exact fun _ _ h => by cases h
  have hrefuse (cells : Cells) : ¬cells.Refuse (ways []) := (hchoose cells).not_refuse
  have hclose : ¬m.cells.Close (ways []) := by
    rw [hw]
    rintro ⟨_, _, h, _⟩
    cases h
  have htouched (fs : Futures) : m.Retains (Eval.touched m fs false) := .of_heap (.refl _) rfl
  unfold Trace.read
  rw [Eval.resolve_apply]
  rcases hm.futures.read v with ⟨hasks, hread⟩ | ⟨id, hasks, hread⟩ | ⟨id, w, hasks, hread, hid⟩
  · rw [hasks, hread]
    exact nothing hm rfl rfl rfl
  · rw [hasks, hread]
    exact
      { retains := htouched _
        ready := hm.retains (htouched _) hm.futures
        reach := by simp
        agree := List.pairwise_singleton _ _
        due := by
          simp only [List.map_cons, List.map_nil, List.mem_singleton, forall_eq]
          exact ⟨ways, m.cells, .own, hrefuse _⟩
        done := by
          simp only [List.map_cons, List.map_nil, List.mem_singleton, forall_eq]
          refine .inl fun _ _ hruns => ?_
          cases hruns
          exact hchoose _
        counts := fun j => by simp [Read.result, Eval.ending, Eval.left, Eval.touched] }
  · rw [hasks, hread]
    exact
      { retains := htouched _
        ready := hm.retains (htouched _) (hm.futures.countRead id)
        reach := by simp
        agree := List.pairwise_singleton _ _
        due := by
          simp only [List.map_cons, List.map_nil, List.mem_singleton, forall_eq]
          exact ⟨ways, m.cells, .own, hclose, hrefuse _⟩
        done := by
          simp only [List.map_cons, List.map_nil, List.mem_singleton, forall_eq]
          exact .inr ⟨trivial, rfl, trivial, trivial, _, _, rfl⟩
        counts := fun j => by
          simp only [Read.result, Eval.ending, Eval.left, Eval.touched]
          rw [Futures.readsOf_countRead hid]
          simp [List.countP_cons] }

end Account

/-! ## Evaluations that visit nothing -/

/-- An evaluation that reads no future and keeps nothing. -/
def Eval.Quiet {α : Type} (x : Eval α) : Prop :=
  ∀ env m, (left (x env m)).cells = m.cells ∧ (left (x env m)).heap.thunks = m.heap.thunks ∧
    (left (x env m)).heap.futures = m.heap.futures

namespace Eval.Quiet

theorem pure {α : Type} (a : α) : Quiet (Pure.pure a : Eval α) := fun _ _ => ⟨rfl, rfl, rfl⟩

theorem fail {α : Type} (e : Failure) : Quiet (Eval.fail e : Eval α) := fun _ _ => ⟨rfl, rfl, rfl⟩

theorem env : Quiet (read : Eval Env) := fun _ _ => ⟨rfl, rfl, rfl⟩

theorem text (v : Value) : Quiet (Eval.text v) := fun _ _ => ⟨rfl, rfl, rfl⟩

theorem cell (i : Nat) : Quiet (Eval.cell i) := fun _ _ => ⟨rfl, rfl, rfl⟩

theorem bind {α β : Type} {x : Eval α} {f : α → Eval β} (hx : Quiet x) (hf : ∀ a, Quiet (f a)) :
    Quiet (x >>= f) := by
  intro env m
  have h := hx env m
  rw [bind_apply]
  cases hr : x env m with
  | error e m' => rw [hr] at h; exact h
  | ok a m' =>
    rw [hr] at h
    obtain ⟨hc, ht, hfut⟩ := hf a env m'
    exact ⟨hc.trans h.1, ht.trans h.2.1, hfut.trans h.2.2⟩

theorem ofExcept {α : Type} (r : Except Failure α) : Quiet (Eval.ofExcept r) := by
  cases r with
  | ok a => exact pure a
  | error e => exact fail e

theorem mapFailure {α : Type} {x : Eval α} (hx : Quiet x) (change : Failure → Failure) :
    Quiet (Eval.mapFailure change x) := by
  intro env m
  have h := hx env m
  rw [mapFailure_apply]
  cases hr : x env m with
  | ok a m' => rw [hr] at h; exact h
  | error e m' =>
    rw [hr] at h
    cases e <;> exact h

theorem origin (p : List Nat) : Quiet (Eval.origin p) := env.bind fun _ => pure _

theorem newList (p : List Nat) (items : List Value) : Quiet (Eval.newList p items) :=
    (origin p).bind fun _ => pure _

theorem arith (op : Arith) (a b : Value) : Quiet (Eval.arith op a b) := by
  cases op with
  | add =>
    change Quiet (Eval.add a b)
    unfold Eval.add
    split
    · exact (text a).bind fun _ => (text b).bind fun _ => pure _
    · exact ofExcept _
  | sub | mul | div | mod => exact ofExcept _

/-- Only a join reads. -/
theorem apply (p : List Nat) {f : Function} (hf : f ≠ .join) (args : List Value) :
    Quiet (Eval.apply p f args) := by
  unfold Eval.apply
  split
  · exact pure _
  · exact pure _
  · exact fail _
  · exact newList p _
  · exact newList p _
  · exact fail _
  · exact pure _
  · exact (ofExcept _).bind fun _ => pure _
  · exact (ofExcept _).bind fun _ => (ofExcept _).bind fun _ => pure _
  · exact ofExcept _
  · exact ofExcept _
  · exact ofExcept _
  · exact ofExcept _
  · exact pure _
  · split
    · exact fail _
    · exact pure _
  · exact (ofExcept _).bind fun _ => newList p _
  · exact (hf rfl).elim
  · exact (hf rfl).elim
  · exact (text _).bind fun _ => (text _).bind fun _ => pure _
  · refine (text _).bind fun _ => (text _).bind fun _ => ?_
    split <;> exact pure _
  · exact (text _).bind fun _ => (ofExcept _).bind fun _ => pure _
  · exact (text _).bind fun _ => (ofExcept _).bind fun _ => (ofExcept _).bind fun _ => pure _
  · exact (text _).bind fun _ => pure _
  · exact (text _).bind fun _ => env.bind fun _ => pure _
  · exact (text _).bind fun _ => (text _).bind fun _ => env.bind fun _ => pure _
  · exact (text _).bind fun _ => env.bind fun _ => pure _
  · exact pure _

theorem call (p : List Nat) {f : Function} (hf : f ≠ .join) (args : List Value) :
    Quiet (Eval.call p f args) :=
  (apply p hf args).mapFailure _

end Eval.Quiet

/-! ## Traces -/

namespace Trace.Accounts

variable {g : Guard} {reach : ThunkId → Prop} {bare : Bool} {ways : Ways} {α β : Type}
  {tr : Trace} {x : Eval α}

theorem quiet (hx : x.Quiet) : silent.Accounts g reach bare ways x := fun env m hm =>
  .nothing hm (hx env m).1 (hx env m).2.1 (hx env m).2.2

theorem andThen (he : ways.Extend) {next : α → Trace} {f : α → Eval β}
    (hx : tr.Accounts g reach false ways x)
    (hf : ∀ env m a m', m.Ready g → x env m = .ok a m' → m'.Ready g →
      Account g reach bare ways (next a env m') m' (f a env m')) :
    (tr.andThen x next).Accounts g reach bare ways (x >>= f) :=
  fun env m hm => (hx env m hm).andThen he fun a m' hr hm' => hf env m a m' hm hr hm'

/-- Nothing is visited after an evaluation. -/
theorem bind (he : ways.Extend) {f : α → Eval β} (hx : tr.Accounts g reach false ways x)
    (hf : ∀ a, (f a).Quiet) :
    tr.Accounts g reach bare ways (x >>= f) := by
  intro env m hm
  have h : Account g reach bare ways ((tr.andThen x fun _ => silent) env m) m ((x >>= f) env m) :=
    andThen he hx (fun env _ a m' _ _ hm' => quiet (hf a) env m' hm') env m hm
  unfold Trace.andThen at h
  cases hr : x env m with
  | error e m' => rw [hr] at h; simpa using h
  | ok a m' => rw [hr] at h; simpa [silent] using h

theorem operand {ways' : Ways} {i : Nat} (h : tr.Accounts g reach false ways x)
    (hw : ∀ path, ways' (i :: path) = ways path) :
    (Trace.operand i tr).Accounts g reach bare ways' x :=
  fun env m hm => (h env m hm).operand hw bare

theorem read (hw : ways [] = []) (v : Value) :
    (Trace.read v).Accounts g reach true ways (Eval.resolve v) :=
  fun env _ hm => .read hm hw v env

theorem part (hw : ways [] = []) (v : Option Value) :
    (Trace.part v).Accounts g reach true ways (Eval.part v) := by
  cases v with
  | some v => exact read hw v
  | none => exact quiet (.pure _)

theorem field (hw : ways [] = []) (v : Value) (name : String) (nullSafe : Bool) :
    (Trace.field v name).Accounts g reach true ways (Eval.field v name nullSafe) := by
  unfold Eval.field
  split
  · exact part hw _
  · exact part hw _
  · next hr hm =>
    have hsilent : Trace.field v name = silent := by
      cases v with
      | record => exact (hr _ _ rfl).elim
      | map => exact (hm _ _ rfl).elim
      | _ => rfl
    rw [hsilent]
    split
    · split
      · exact quiet (.pure _)
      · exact quiet (.fail _)
    · exact quiet (.fail _)

theorem item (hw : ways [] = []) (v key : Value) :
    (Trace.item v key).Accounts g reach true ways (Eval.item v key) := by
  unfold Eval.item Trace.item
  cases v with
  | list o items =>
    simp only
    cases Eval.listIndex key with
    | ok i => exact read hw _
    | error e => exact quiet (.fail e)
  | map o entries => exact part hw _
  | record o fields =>
    simp only
    cases key.toStr? with
    | ok name => exact part hw _
    | error e => exact quiet (.fail e)
  | _ => exact quiet (.fail _)

/-- The result of an operand is kept in a cell that the operand itself does not use. -/
theorem kept {ways' : Ways} {slot : Nat} {x : Eval Value} (hs : slot < g.size)
    (hw : ∀ path, ways' (0 :: path) = .kept slot :: ways path) (hroot : ways [] = [])
    (hx : tr.Accounts g reach bare ways x)
    (hrest : ∀ env m, (Eval.left (x env m)).cells.read slot = m.cells.read slot) {bare' : Bool} :
    (Trace.kept slot tr).Accounts g reach bare' ways' (Eval.kept slot x) := by
  intro env m hm
  have hcell : Eval.cell slot env m = .ok (m.cells.read slot) m := rfl
  unfold Trace.kept Eval.kept
  rw [Eval.bind_apply, hcell]
  simp only
  cases hv : (m.cells.read slot).value? with
  | some v => exact .nothing hm rfl rfl rfl
  | none =>
    have hempty : ∀ v, m.cells.read slot ≠ .value v := by
      rintro v hval
      rw [hval] at hv
      cases hv
    have h := hx env m hm
    have hr := hrest env m
    have hdue (v : Visit) (_ : v ∈ tr env m) (hv : v.kind.Due m.cells (ways v.path)) :
        v.kind.Due m.cells (ways' (0 :: v.path)) := by
      rw [hw]
      exact hv.kept hempty
    simp only
    rw [Eval.bind_apply]
    unfold Trace.operand
    cases hrun : x env m with
    | error e m' =>
      rw [hrun] at h
      refine h.inOperand (.refl _) rfl hdue fun v _ hv => ?_
      rw [hw]
      rcases hv with hv | ⟨_, _, _, _, _, hok⟩
      · exact hv.kept slot
      · cases hok
    | ok v m' =>
      rw [hrun] at h hr
      have hsize : slot < m'.cells.size := Nat.lt_of_lt_of_le hs h.ready.size
      have hretains : m'.cells.Retains (m'.cells.write slot (.value v)) :=
        .write (fun w hw => hempty w (hr.symm.trans hw)) v
      refine h.inOperand (.of_heap hretains rfl) rfl hdue fun u _ hu => ?_
      rw [hw]
      rcases hu with hu | ⟨_, hres, hpath, -⟩
      · exact (hu.later hretains).kept slot
      · -- the read at the root of the operand is closed by what is kept now
        have hval : (m'.cells.write slot (.value v)).read slot = .value v := by
          rw [Cells.read_write]
          exact if_pos ⟨rfl, hsize⟩
        obtain ⟨kind, path, frame⟩ := u
        cases kind with
        | resolved id =>
          refine ⟨⟨slot, v, List.mem_cons_self, hval⟩, ?_⟩
          rw [show path = [] from hpath, hroot]
          exact fun _ _ h => by simp at h
        | _ => cases hres

end Trace.Accounts

end Interlude
