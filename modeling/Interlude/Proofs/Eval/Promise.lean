import Interlude.Proofs.Eval.Operand
import Interlude.Proofs.Frame.Cells
/-!
# Data that promises plain values

Params may be futures as long as those complete with plain values. Then cells, deferred values and
all that is evaluated are plain, no text tells how far a future is, and an evaluation waits only for
a future that was promised (`usual_reads`).
-/

namespace Interlude

/-- A plain value, or one of the first `n` futures. -/
def Value.Promised (n : Nat) (v : Value) : Prop := v.Plain ∨ ∃ id, v = .future id ∧ id < n

theorem Value.Plain.promised {v : Value} (h : v.Plain) (n : Nat) : v.Promised n := .inl h

/-- All values of data are promised. -/
def Promised (n : Nat) (data : List (String × Value)) : Prop := ∀ d ∈ data, d.2.Promised n

theorem Promised.lookup {n : Nat} {data : List (String × Value)} (h : Promised n data)
    {name : String} {v : Value} (hv : data.lookup name = some v) : v.Promised n :=
  h _ (Value.mem_of_field hv)

theorem Promised.cons {n : Nat} {data : List (String × Value)} (h : Promised n data)
    {name : String} {v : Value} (hv : v.Promised n) : Promised n ((name, v) :: data) :=
  List.forall_mem_cons.2 ⟨hv, h⟩

/-- `n` futures that are pending or have completed with plain values. -/
structure Futures.Promising (n : Nat) (fs : Futures) : Prop where
  size : fs.states.size = n
  kept : ∀ id, fs.get id = .pending ∨ ∃ v, fs.get id = .complete v ∧ v.Plain

theorem Futures.Promising.congr {n : Nat} {fs gs : Futures} (h : fs.Promising n)
    (hs : gs.states = fs.states) :
    gs.Promising n :=
  ⟨by rw [hs]; exact h.size, fun id => by rw [get_congr hs]; exact h.kept id⟩

theorem Futures.resolve_plain (fs : Futures) {v : Value} (h : v.Plain) :
    (fs.resolve v).1 = .value v := by
  cases v with
  | future id => cases h
  | _ => rfl

/-- What was promised is read as a plain value, or is still waited for. -/
theorem Futures.Promising.resolve {n : Nat} {fs : Futures} (h : fs.Promising n) {v : Value}
    (hv : v.Promised n) :
    (∃ w, (fs.resolve v).1 = .value w ∧ w.Plain) ∨ ∃ id, (fs.resolve v).1 = .waiting id ∧
    id < n := by
  rcases hv with hv | ⟨id, rfl, hid⟩
  · exact .inl ⟨v, fs.resolve_plain hv, hv⟩
  · unfold Futures.resolve Futures.resolveFrom
    rcases h.kept id with hp | ⟨w, hw, hplain⟩
    · simp only [hp]
      exact .inr ⟨id, rfl, hid⟩
    · simp only [hw]
      have hsize : fs.states.size ≠
        0 := by rw [h.size]; exact Nat.ne_of_gt (Nat.lt_of_le_of_lt (Nat.zero_le id) hid)
      obtain ⟨k, hk⟩ := Nat.exists_eq_succ_of_ne_zero hsize
      rw [hk]
      refine .inl ⟨w, ?_, hplain⟩
      cases w with
      | future id => cases hplain
      | _ => rfl

/-- No read of promising futures is endless. -/
theorem Futures.Promising.not_endless {n : Nat} {fs : Futures} (h : fs.Promising n) :
    ¬fs.Endless := by
  rintro ⟨v, hv⟩
  cases v with
  | future id =>
    by_cases hid : id < n
    · rcases h.resolve (.inr ⟨id, rfl, hid⟩) with ⟨w, hw, _⟩ | ⟨p, hp, _⟩
      · rw [hw] at hv; cases hv
      · rw [hp] at hv; cases hv
    · have hpending : fs.get id = .pending := by
        unfold get
        rw [Array.getElem?_eq_none (by rw [h.size]; exact Nat.le_of_not_lt hid)]
        rfl
      unfold Futures.resolve Futures.resolveFrom at hv
      simp only [hpending] at hv
      cases hv
  | _ => cases hv

/-! ## Memory -/

def Cells.Plain (cells : Cells) : Prop := ∀ i, (cells.read i).Plain

theorem Cells.plain_cleared (n : Nat) : (Cells.cleared n).Plain := by
  intro i
  rw [Cells.read_cleared]
  trivial

theorem Cells.Plain.write {cells : Cells} (h : cells.Plain) {c : Cell} (hc : c.Plain) (i : Nat) :
    (cells.write i c).Plain := by
  intro j
  rw [Cells.read_write]
  split
  · exact hc
  · exact h j

theorem Cells.Plain.clear {cells : Cells} (h : cells.Plain) (low high : Nat) :
    (cells.clear low high).Plain := by
  intro j
  rw [Cells.read_clear]
  split
  · trivial
  · exact h j

structure Env.Promised (n : Nat) (env : Env) : Prop where
  params : Interlude.Promised n env.params
  injected : Interlude.Promised n env.injected

structure Thunk.Plain (n : Nat) (t : Thunk) : Prop where
  cells : t.cells.Plain
  env : t.env.Promised n
  result : ∀ v, t.result = some v → v.Plain

/-- Futures are promising, deferred values plain, and no text has told how far a future is. -/
structure Heap.Plain (n : Nat) (h : Heap) : Prop where
  clear : h.blurred = false
  futures : h.futures.Promising n
  thunks : ∀ (id : ThunkId) (t : Thunk), h.thunks[id]? = some t → t.Plain n

theorem Heap.Plain.modify {n : Nat} {h : Heap} (hp : h.Plain n) (id : ThunkId) {f : Thunk → Thunk}
    (hf : ∀ t, t.Plain n → (f t).Plain n) :
    ({ h with thunks := h.thunks.modify id f } : Heap).Plain n := by
  refine ⟨hp.clear, hp.futures, fun j t ht => ?_⟩
  simp only [Array.getElem?_modify] at ht
  split at ht
  · obtain ⟨t', ht', rfl⟩ := Option.map_eq_some_iff.1 ht
    exact hf t' (hp.thunks j t' ht')
  · exact hp.thunks j t ht

namespace Regime

/-- Evaluations on plain memory; they wait for promised futures only. -/
def plain (n : Nat) : Regime where
  holds m := m.cells.Plain ∧ m.heap.Plain n
  stops e := ∀ id, e = .waiting id → id < n
  failed _ _ h := nomatch h

variable {n : Nat} {env : Env}

theorem resolve_promised {v : Value} (h : v.Promised n) :
    (plain n).Gives env (Eval.resolve v) Value.Plain := by
  intro m hm
  have hkept : (Eval.touched m (m.heap.futures.resolve v).2 false).heap.Plain n :=
    ⟨by simp [Eval.touched, hm.2.clear], hm.2.futures.congr (Futures.resolve_states ..),
      hm.2.thunks⟩
  rw [Eval.resolve_apply]
  rcases hm.2.futures.resolve h with ⟨w, hw, hplain⟩ | ⟨id, hid, hlt⟩
  · rw [hw]
    exact ⟨⟨hm.1, hkept⟩, hplain⟩
  · rw [hid]
    exact ⟨⟨hm.1, hkept⟩, fun p hp => by cases hp; exact hlt⟩

theorem cell_plain (i : Nat) : (plain n).Gives env (Eval.cell i) Cell.Plain :=
    fun _ hm => ⟨hm, hm.1 i⟩

theorem setCell_plain {c : Cell} (hc : c.Plain) (i : Nat) :
    (plain n).Gives env (Eval.setCell i c) fun _ => True :=
  fun _ hm => ⟨⟨hm.1.write hc i, hm.2⟩, trivial⟩

theorem binding_plain {force : ThunkId → Eval Value}
    (hf : ∀ id, (plain n).Gives env (force id) Value.Plain) (b : Binding) :
    (plain n).Gives env (b.eval force) Value.Plain := by
  unfold Binding.eval
  refine (cell_plain b.slot).bind fun c hc => ?_
  split
  · split
    · next items =>
        exact (Gives.cell _).bind fun i _ =>
          Gives.resolve (Value.plain_itemAt (Value.plain_list.1 hc) _)
    · exact .pure rfl
  · split
    · exact .pure rfl
    · exact .pure rfl
    · exact .pure rfl
    · exact .pure rfl
    · cases c with
      | thunk id => exact hf id
      | _ => exact .pure rfl
    · cases c with
      | value v => exact .pure hc
      | _ => exact .pure rfl

theorem kept_plain (i : Nat) {x : Eval Value} (hx : (plain n).Gives env x Value.Plain) :
    (plain n).Gives env (Eval.kept i x) Value.Plain := by
  refine (cell_plain i).bind fun c hc => ?_
  have hmake : (plain n).Gives env (do
      let v ← x
      Eval.setCell i (.value v)
      return v) Value.Plain := hx.bind fun v hv =>
        (setCell_plain (show (Cell.value v).Plain from hv) i).bind fun _ _ => .pure hv
  cases c with
  | value v => exact .pure hc
  | _ => exact hmake

theorem keeping_reads (henv : env.Promised n) {force : ThunkId → Eval Value}
    (hf : ∀ id, (plain n).Gives env (force id) Value.Plain) :
    (plain n).Reads env (.keeping force) where
  param name injected v hv := by
    refine resolve_promised ?_
    cases injected with
    | true => exact henv.injected.lookup hv
    | false => exact henv.params.lookup hv
  binding := binding_plain hf
  memo i x := kept_plain i

/-- A deferred value is evaluated on cells of its own. -/
theorem evaluate_plain {force : ThunkId → Eval Value}
    (hf : ∀ {env : Env} id, (plain n).Gives env (force id) Value.Plain) (id : ThunkId) :
    (plain n).Gives env (Thunk.evaluate (.keeping force) id) Value.Plain := by
  intro m hm
  rw [Thunk.evaluate_apply]
  split
  · exact ⟨hm, rfl⟩
  · next t ht =>
    have hplain := hm.2.thunks id t ht
    split
    · next v hv => exact ⟨hm, hplain.result v hv⟩
    · have hrun := (keeping_reads hplain.env fun id => hf id).term t.code.root.toBoxed []
        ⟨t.cells, m.heap⟩ ⟨hplain.cells, hm.2⟩
      unfold Ends at hrun
      split
      · next v k hk =>
        rw [hk] at hrun
        obtain ⟨⟨_, hheap⟩, hv⟩ := hrun
        refine ⟨⟨hm.1, hheap.modify id fun t ht => ⟨fun i => ?_, ht.env, fun w hw => ?_⟩⟩, hv⟩
        · trivial
        · cases hw
          exact hv
      · next e k hk =>
        rw [hk] at hrun
        obtain ⟨⟨hcells, hheap⟩, he⟩ := hrun
        exact ⟨⟨hm.1, hheap.modify id fun t ht => ⟨hcells, ht.env, ht.result⟩⟩, he⟩

theorem forceBelow_plain (count : Nat) : ∀ {env : Env} (id : ThunkId),
    (plain n).Gives env (Thunk.forceBelow count id) Value.Plain := by
  induction count with
  | zero => exact fun id => .pure rfl
  | succ count ih =>
    intro env id
    unfold Thunk.forceBelow
    split
    · exact evaluate_plain ih id
    · exact ih id

/-- The usual evaluation reads and keeps plain values. -/
theorem usual_reads (henv : env.Promised n) : (plain n).Reads env .usual :=
  keeping_reads henv fun id => forceBelow_plain (id + 1) id

/-- Making a deferred value copies plain cells. -/
theorem make_plain (henv : env.Promised n) (code : ThunkCode) :
    (plain n).Gives env (Thunk.make code) fun _ => True := by
  intro m hm
  have hcopies (copies : List (Nat × Nat)) (cells : Cells) (hc : cells.Plain) :
      (copies.foldl (fun cs (c : Nat × Nat) => cs.write c.2 (m.cells.read c.1)) cells).Plain := by
    induction copies generalizing cells with
    | nil => exact hc
    | cons copy rest ih => exact ih _ (hc.write (hm.1 copy.1) copy.2)
  refine ⟨⟨hm.1, hm.2.clear, hm.2.futures, fun id t ht => ?_⟩, trivial⟩
  rw [Array.getElem?_push] at ht
  split at ht
  · cases ht
    exact ⟨hcopies _ _ (Cells.plain_cleared _), ⟨henv.params, henv.injected⟩,
      fun _ hv => by cases hv⟩
  · exact hm.2.thunks id t ht

/-! ## Calls -/

namespace Reads

section

variable {R : Regime} {s : Strategy} (h : R.Reads env s)

include h

theorem callee (registry : Registry) (site : CallSite) :
    R.Gives env (Eval.callee s registry site) fun _ => True := by
  unfold Eval.callee
  split
  · exact (Gives.attempt _).bind fun _ _ => .pure trivial
  · next e allowEmpty _ =>
    have hvariant : R.Gives env (Eval.variant s e) fun _ => True := by
      cases e with
      | none => exact .pure trivial
      | some e =>
        refine (h.evaluates e _).bind fun v hv => ?_
        split
        · exact .pure trivial
        · exact Gives.text hv
    exact hvariant.bind fun _ _ => Gives.env'.bind fun _ _ => Gives.attempt _

theorem passed {data : List (String × Value)} (hd : Interlude.Promised n data) (what : Passed) :
    R.Gives env (Eval.passed s data what) (Interlude.Promised n) := by
  cases what with
  | none => exact .pure fun _ hd => by cases hd
  | all => exact .pure hd
  | record e =>
    refine (h.evaluates e _).bind fun v hv => ?_
    split
    · exact .pure fun d hd => (Value.plain_record.1 hv d hd).promised n
    · split
      · exact .pure fun _ hd => by cases hd
      · exact .fail

end

variable {s : Strategy} (h : (Regime.plain n).Reads env s)

include h

theorem arguments (henv : env.Promised n) {params : List (String × Value)}
    (hp : Interlude.Promised n params) (args : List Argument) (p : List Nat) :
    (Regime.plain n).Gives env (Eval.arguments s p params args) (Interlude.Promised n) := by
  induction args generalizing params p with
  | nil => exact .pure hp
  | cons a rest ih =>
    cases a with
    | content name slot =>
      have hcontent : (Regime.plain n).Gives env (Eval.content slot) Value.Plain := by
        refine (cell_plain slot).bind fun c hc => ?_
        cases c with
        | value v => exact .pure hc
        | _ => exact .throw fun _ he => nomatch he
      exact hcontent.bind fun v hv => ih (hp.cons (hv.promised n)) _
    | forward name param =>
      refine Gives.env'.bind fun _ he => ?_
      subst he
      split
      · next v hv => exact ih (hp.cons (henv.params.lookup hv)) _
      · exact ih hp _
    | value name e => exact (h.evaluates e _).bind fun v hv => ih (hp.cons (hv.promised n)) _

theorem dispatch (henv : env.Promised n) (registry : Registry) {data : List (String × Value)}
    (hd : Interlude.Promised n data) (site : CallSite) (fs : List FilterCall) :
    (Regime.plain n).Gives env (Eval.dispatch s registry data site fs) fun r => ∀ d, r = some d →
    Interlude.Promised n d.params := by
  refine (h.callee registry site).bind fun callee _ => ?_
  cases callee with
  | none => exact .pure fun _ hd => by cases hd
  | some program =>
    refine (h.passed hd site.passed).bind fun given hg =>
      (h.arguments henv hg site.args _).bind fun params hp => ?_
    exact (Evaluates.filterArgs (fun _ _ c _ => h.evaluates c) _).bind fun args _ =>
      .pure fun d hd => by cases hd; exact hp

end Reads

end Regime

end Interlude
