import Mathlib
import Interlude.Proofs.Read.Account
/-!
# Memo cells

Memo cells are counted before an expression is compiled and handed out while it is, in another
order: a map's keys come before its values. What is handed out fills the block that was taken, and
no cell is handed out twice. Evaluation writes to that block only. A deferred value writes to cells
of its own, and of these only to the memo cells of its code (`memo_cells_exact`).
-/

namespace Interlude

/-! ## The memo cells of terms -/

namespace Term

/-- The cells a term keeps results in, those of its operands first. -/
@[simp] def memos : {f : Form} → Term f → List Nat
  | _, const _ _ | _, constInt _ | _, constFloat _ | _, constBool _ | _, constStr _ | _, param _ _
  | _, .local _
  | _, cellInt _ | _, cellFloat _ | _, cellBool _ | _, cellStr _ | _, isFirst _ | _, isLast _ _
  | _, nil
  | _, noEntries => []
  | _, boxInt x | _, boxFloat x | _, boxBool x | _, boxStr x | _, unboxInt x | _, unboxFloat x
  | _, widen x
  | _, truthy x | _, textOfInt x | _, textOfFloat x | _, textOfBool x | _, text x | _, .not x
  | _, negInt x
  | _, negFloat x | _, neg x | _, field x _ _ | _, list x | _, map x | _, record _ x
  | _, call _ x => x.memos
  | _, arithInt _ x y | _, arithFloat _ x y | _, arith _ x y | _, concat x y | _, both x y
  | _, either x y
  | _, coalesce x y | _, compareInt _ x y | _, compareFloat _ x y | _, compareStr _ x y
  | _, compare _ x y
  | _, item x y _ | _, cons x y => x.memos ++ y.memos
  | _, cond x y z | _, entry x y z => x.memos ++ (y.memos ++ z.memos)
  | _, memo slot x => x.memos ++ [slot]

/-- A term keeps results in its memo cells only. -/
theorem touches_memos {f : Form} (x : Term f) {own : Nat → Prop} (h : ∀ i ∈ x.memos, own i)
    (place : List Nat) :
    x.Touches (fun _ => True) (fun _ i _ => own i) place := by
  induction x generalizing place with
  | const | constInt | constFloat | constBool | constStr | param | nil | noEntries => trivial
  | «local» | isLast => exact ⟨trivial, by simp⟩
  | cellInt | cellFloat | cellBool | cellStr | isFirst => trivial
  | boxInt _ ih | boxFloat _ ih | boxBool _ ih | boxStr _ ih | unboxInt _ ih | unboxFloat _ ih
  | widen _ ih
  | truthy _ ih | textOfInt _ ih | textOfFloat _ ih | textOfBool _ ih | text _ ih | not _ ih
  | negInt _ ih
  | negFloat _ ih | neg _ ih | field _ _ _ ih | list _ ih | map _ ih | record _ _ ih
  | call _ _ ih => exact ih h _
  | arithInt _ _ _ ih ih' | arithFloat _ _ _ ih ih' | arith _ _ _ ih ih' | concat _ _ ih ih'
  | both _ _ ih ih'
  | either _ _ ih ih' | coalesce _ _ ih ih' | compareInt _ _ _ ih ih' | compareFloat _ _ _ ih ih'
  | compareStr _ _ _ ih ih' | compare _ _ _ ih ih' | item _ _ _ ih ih' | cons _ _ ih ih' =>
    obtain ⟨hx, hy⟩ := List.forall_mem_append.1 h
    exact ⟨ih hx _, ih' hy _⟩
  | cond _ _ _ ih ih' ih'' | entry _ _ _ ih ih' ih'' =>
    obtain ⟨hx, hrest⟩ := List.forall_mem_append.1 h
    obtain ⟨hy, hz⟩ := List.forall_mem_append.1 hrest
    exact ⟨ih hx _, ih' hy _, ih'' hz _⟩
  | memo slot _ ih =>
    obtain ⟨hx, hslot⟩ := List.forall_mem_append.1 h
    exact ⟨hslot slot (by simp), ih hx _⟩

end Term

namespace Lowered

/-- The memo cells of a term whatever its form. -/
def memos (x : Lowered) : List Nat := x.toBoxed.memos

@[simp] theorem memos_boxed (x : Term .boxed) : (boxed x).memos = x.memos := rfl

@[simp] theorem memos_int (x : Term .int) : (int x).memos = x.memos := rfl

@[simp] theorem memos_float (x : Term .float) : (float x).memos = x.memos := rfl

@[simp] theorem memos_bool (x : Term .bool) : (bool x).memos = x.memos := rfl

@[simp] theorem memos_str (x : Term .str) : (str x).memos = x.memos := rfl

/-! A change of form keeps nothing of its own. -/

@[simp] theorem memos_toBoxed (x : Lowered) : x.toBoxed.memos = x.memos := rfl

@[simp] theorem memos_toInt (x : Lowered) : x.toInt.memos = x.memos := by cases x <;> rfl

@[simp] theorem memos_toFloat (x : Lowered) : x.toFloat.memos = x.memos := by cases x <;> rfl

@[simp] theorem memos_toBool (x : Lowered) : x.toBool.memos = x.memos := by cases x <;> rfl

@[simp] theorem memos_toStr (x : Lowered) : x.toStr.memos = x.memos := by cases x <;> rfl

theorem memos_ofLiteral (v : Value) (plain : v.holdsFuture = false) :
    (ofLiteral v plain).memos = [] := by
  cases v <;> rfl

theorem memos_ofBinding (b : Binding) : (ofBinding b).memos = [] := by
  unfold ofBinding
  split
  · rfl
  · split <;> rfl

theorem memos_loopHelper {s : Expr.Scope} {name : String} {args : List Expr} {x : Lowered}
    (h : Expr.loopHelper s name args = .ok x) : x.memos = [] := by
  unfold Expr.loopHelper at h
  split at h
  · split at h
    · split_ifs at h <;> cases h <;> rfl
    · cases h
  · cases h
  · cases h

theorem memos_unary (op : UnaryOp) (t : StaticType) (x : Lowered) :
    (unary op t x).memos = x.memos := by
  cases op with
  | not => simp [unary]
  | neg =>
    unfold unary
    simp only
    split_ifs <;> simp

theorem memos_arith (op : Arith) (t u : StaticType) (x y : Lowered) :
    (arith op t u x y).memos = x.memos ++ y.memos := by
  unfold arith
  cases op <;> (simp only; split_ifs <;> simp)

theorem memos_comparison (op : Comparison) (t u : StaticType) (x y : Lowered) :
    (comparison op t u x y).memos = x.memos ++ y.memos := by
  unfold comparison
  split_ifs <;> simp

theorem memos_binary (op : BinaryOp) (t u : StaticType) (x y : Lowered) :
    (binary op t u x y).memos = x.memos ++ y.memos := by
  cases op with
  | add | sub | mul | div | mod => simp [binary, memos_arith]
  | eq | notEq | less | lessEq | greater | greaterEq => simp [binary, memos_comparison]
  | and | or | coalesce => simp [binary]

theorem memos_cond (c x y : Lowered) : (cond c x y).memos = c.memos ++ (x.memos ++ y.memos) := by
  unfold cond
  split <;> simp

end Lowered

namespace Expr

theorem memos_valueList (xs : List (Term .boxed)) :
    (valueList xs).memos = xs.flatMap (·.memos) := by
  induction xs with
  | nil => rfl
  | cons x rest ih => exact congrArg (x.memos ++ ·) ih

/-- The cells of a map's entries are those of its keys and of its values. -/
theorem memos_pairEntries {ks vs : List (Term .boxed)} (h : ks.length = vs.length) :
    (pairEntries ks vs).memos.Perm (ks.flatMap (·.memos) ++ vs.flatMap (·.memos)) := by
  induction ks generalizing vs with
  | nil =>
    cases vs with
    | nil => exact .refl _
    | cons => cases h
  | cons k ks ih =>
    cases vs with
    | nil => cases h
    | cons v vs =>
      have hrest := (ih (Nat.succ.inj h)).append_left v.memos
      have hswap := (List.perm_append_comm_assoc v.memos (ks.flatMap (·.memos))
        (vs.flatMap (·.memos)))
      simp only [List.flatMap_cons, List.append_assoc]
      exact (hrest.trans hswap).append_left k.memos

end Expr

/-! ## Handing out memo cells -/

/-- The cells from `low` up to `high`, each of them once, in any order. -/
structure Fills (low high : Nat) (cells : List Nat) : Prop where
  le : low ≤ high
  perm : cells.Perm (List.range' low (high - low))

namespace Fills

variable {n m k : Nat} {l l' : List Nat}

theorem nil (n : Nat) : Fills n n [] := ⟨Nat.le_refl n, by simp⟩

theorem append (h : Fills n m l) (h' : Fills m k l') : Fills n k (l ++ l') := by
  refine ⟨Nat.le_trans h.le h'.le, (h.perm.append h'.perm).trans (.of_eq ?_)⟩
  have hm : n + (m - n) = m := Nat.add_sub_cancel' h.le
  have hk : m - n + (k - m) = k - n := by have := h.le; have := h'.le; omega
  rw [← hk, ← List.range'_append_1, hm]

theorem snoc (h : Fills n m l) : Fills n (m + 1) (l ++ [m]) := h.append ⟨Nat.le_succ m, by simp⟩

theorem of_perm (h : Fills n m l) (hp : l'.Perm l) : Fills n m l' := ⟨h.le, hp.trans h.perm⟩

end Fills

namespace Expr

variable {s : Scope} {under : Bool} {n n' : Nat}

/-- The last step of a term hands out the next cell, if one is needed. -/
theorem keepIf_fills {needed : Bool} {act : Lowering Lowered} {y : Lowered}
    (h : keepIf needed act n = .ok (y, n')) (hact : ∀ x m, act n = .ok (x, m) → Fills n m x.memos) :
    Fills n n' y.memos := by
  obtain ⟨x, m, hx, hy⟩ := StateT.bind_ok h
  cases needed with
  | true => cases hy; exact (hact x m hx).snoc
  | false => cases hy; exact hact _ _ hx

theorem lowerAll_fills {es : List Expr}
    (h : ∀ e ∈ es, ∀ {n n' x}, e.lower s under n = .ok (x, n') → Fills n n' x.memos)
    {xs : List (Term .boxed)} (hxs : lowerAll s under es n = .ok (xs, n')) :
    Fills n n' (xs.flatMap (·.memos)) ∧ xs.length = es.length := by
  induction es generalizing n xs with
  | nil => cases hxs; exact ⟨.nil _, rfl⟩
  | cons e rest ih =>
    obtain ⟨x, k, hx, hrest⟩ := StateT.bind_ok hxs
    obtain ⟨ys, l, hys, hend⟩ := StateT.bind_ok hrest
    cases hend
    obtain ⟨hfill, hlen⟩ := ih (fun c hc => h c (by simp [hc])) hys
    exact ⟨(h e (by simp) hx).append hfill, by simp [hlen]⟩

/-- The memo cells of an expression are the ones handed out while it is compiled. -/
theorem lower_fills (s : Scope) (e : Expr) :
    ∀ {under : Bool} {n n' : Nat} {x : Lowered}, e.lower s under n = .ok (x, n') →
    Fills n n' x.memos := by
  refine of_parts (P := fun e => ∀ {under n n' x}, e.lower s under n = .ok (x, n') →
    Fills n n' x.memos) ?_ e
  intro e ih under n n' x h
  unfold lower at h
  refine keepIf_fills h fun y m hy => ?_
  cases e with
  | lit _ v plain => cases hy; rw [Lowered.memos_ofLiteral]; exact .nil _
  | param => cases hy; exact .nil _
  | var _ name =>
    cases hb : s.locals.lookup name with
    | none => simp only [hb] at hy; cases hy
    | some b =>
      simp only [hb] at hy
      cases hy
      rw [Lowered.memos_ofBinding]
      exact .nil _
  | unary _ op a =>
    obtain ⟨c, k, hc, hy⟩ := StateT.bind_ok hy
    cases hy
    rw [Lowered.memos_unary]
    exact ih a (by simp [parts, children]) hc
  | binary _ op a b =>
    obtain ⟨c, k, hc, hy⟩ := StateT.bind_ok hy
    obtain ⟨d, l, hd, hy⟩ := StateT.bind_ok hy
    cases hy
    rw [Lowered.memos_binary]
    exact (ih a (by simp [parts, children]) hc).append (ih b (by simp [parts, children]) hd)
  | cond _ c a b =>
    obtain ⟨x₀, k₀, h₀, hy⟩ := StateT.bind_ok hy
    obtain ⟨x₁, k₁, h₁, hy⟩ := StateT.bind_ok hy
    obtain ⟨x₂, k₂, h₂, hy⟩ := StateT.bind_ok hy
    cases hy
    rw [Lowered.memos_cond]
    have hbranches := (ih a (by simp [parts, children]) h₁).append
      (ih b (by simp [parts, children]) h₂)
    exact (ih c (by simp [parts, children]) h₀).append hbranches
  | field _ a name nullSafe =>
    obtain ⟨c, k, hc, hy⟩ := StateT.bind_ok hy
    cases hy
    have hfill := ih a (by simp [parts, children]) hc
    exact hfill
  | item _ a key nullSafe =>
    obtain ⟨c, k, hc, hy⟩ := StateT.bind_ok hy
    obtain ⟨d, l, hd, hy⟩ := StateT.bind_ok hy
    cases hy
    exact (ih a (by simp [parts, children]) hc).append (ih key (by simp [parts, children]) hd)
  | list _ es =>
    obtain ⟨xs, k, hxs, hy⟩ := StateT.bind_ok hy
    cases hy
    have hfill := (lowerAll_fills (fun c hc => ih c hc) hxs).1
    rwa [← memos_valueList] at hfill
  | map _ es =>
    obtain ⟨ks, k, hks, hy⟩ := StateT.bind_ok hy
    obtain ⟨vs, l, hvs, hy⟩ := StateT.bind_ok hy
    cases hy
    rw [lowerKeys_eq] at hks
    rw [lowerValues_eq] at hvs
    obtain ⟨hfill, hlen⟩ := lowerAll_fills (fun c hc => ih c (List.mem_append_left _ hc)) hks
    obtain ⟨hfill', hlen'⟩ := lowerAll_fills (fun c hc => ih c (List.mem_append_right _ hc)) hvs
    -- keys were handed out before values; in the term they alternate
    have hpairs : ks.length = vs.length := by rw [hlen, hlen', List.length_map, List.length_map]
    exact (hfill.append hfill').of_perm (memos_pairEntries hpairs)
  | record _ fs =>
    obtain ⟨xs, k, hxs, hy⟩ := StateT.bind_ok hy
    cases hy
    rw [lowerFields_eq] at hxs
    have hfill := (lowerAll_fills (fun c hc => ih c hc) hxs).1
    rwa [← memos_valueList] at hfill
  | call t name es =>
    by_cases hname : isLoopHelper name = true
    · simp only [hname, if_true] at hy
      obtain ⟨hl, rfl⟩ := lift_ok hy
      rw [Lowered.memos_loopHelper hl]
      exact .nil _
    · simp only [hname, if_false, Bool.false_eq_true] at hy
      obtain ⟨f, k, hk, hcall⟩ := StateT.bind_ok hy
      obtain ⟨xs, l, hxs, hend⟩ := StateT.bind_ok hcall
      obtain ⟨_, rfl⟩ := lift_ok hk
      cases hend
      have hfill := (lowerAll_fills (fun c hc => ih c (by simpa [parts, hname] using hc)) hxs).1
      rwa [← memos_valueList] at hfill

end Expr

/-! ## What deferred values write -/

/-- A deferred value later on: it stays as it is once it is done, and until then only memo cells of
its code change. -/
structure Thunk.Private (t t' : Thunk) : Prop where
  code : t'.code = t.code
  done : t.result ≠ none → t' = t
  cells : t'.result = none → ∀ i ∉ t.code.root.memos, t'.cells.read i = t.cells.read i

namespace Thunk.Private

variable {t t' t'' : Thunk}

theorem refl (t : Thunk) : t.Private t := ⟨rfl, fun _ => rfl, fun _ _ _ => rfl⟩

theorem pending (h : t.Private t') (hn : t'.result = none) : t.result = none :=
  Classical.byContradiction fun hne => hne (by rw [← h.done hne]; exact hn)

theorem trans (h : t.Private t') (h' : t'.Private t'') : t.Private t'' where
  code := h'.code.trans h.code
  done hne := by
    have ht := h.done hne
    rw [h'.done (by rw [ht]; exact hne), ht]
  cells hn i hi := (h'.cells hn i (by rwa [h.code])).trans (h.cells (h'.pending hn) i hi)

end Thunk.Private

/-- The deferred values of a heap later on. -/
structure Heap.Private (h h' : Heap) : Prop where
  size : h'.thunks.size = h.thunks.size
  thunks : ∀ (id : ThunkId) (t' : Thunk), h'.thunks[id]? = some t' →
    ∃ t, h.thunks[id]? = some t ∧ t.Private t'

namespace Heap.Private

variable {h h' h'' : Heap}

theorem of_eq (heq : h'.thunks = h.thunks) : h.Private h' :=
  ⟨by rw [heq], fun id t ht => ⟨t, heq ▸ ht, .refl t⟩⟩

theorem trans (a : h.Private h') (b : h'.Private h'') : h.Private h'' where
  size := b.size.trans a.size
  thunks id t'' ht'' := by
    obtain ⟨t', ht', hp'⟩ := b.thunks id t'' ht''
    obtain ⟨t, ht, hp⟩ := a.thunks id t' ht'
    exact ⟨t, ht, hp.trans hp'⟩

/-- An attempt to evaluate a deferred value that wrote memo cells of its code. -/
theorem attempted {id : ThunkId} {t : Thunk} (hp : h.Private h') (ht : h.thunks[id]? = some t)
    (hr : t.result = none) {cells : Cells}
    (hc : ∀ i ∉ t.code.root.memos, cells.read i = t.cells.read i) (result : Option Value) :
    h.Private (Thunk.attempted h' id cells result) where
  size := by simp [Thunk.attempted, hp.size]
  thunks j u hu := by
    simp only [Thunk.attempted, Array.getElem?_modify] at hu
    split at hu
    · next hj =>
      subst hj
      obtain ⟨u', hu', rfl⟩ := Option.map_eq_some_iff.1 hu
      obtain ⟨t', ht', hlater⟩ := hp.thunks id u' hu'
      cases ht.symm.trans ht'
      refine ⟨t, ht, ?_, fun hne => (hne hr).elim, ?_⟩
      · cases result <;> exact hlater.code
      · cases result with
        | none => exact fun _ => hc
        | some v => exact fun hn => by cases hn
    · exact hp.thunks j u hu

end Heap.Private

namespace Eval

theorem Leaves.left {own : Nat → Prop} {m : Memory} {α : Type} {r : EStateM.Result Stop Memory α}
    (h : Leaves own m r) : m.Later own (left r) := by
  cases r with
  | ok _ _ => exact h
  | error _ _ => exact h.2

/-- Deferred values write to memo cells of their own only. The second evaluation of the relation is
not looked at. -/
def Private (env : Env) (α : Type) (x _ : Eval α) : Prop := ∀ m : Memory,
    m.heap.Private (left (x env m)).heap

namespace Private

variable {env : Env}

theorem of_ending {α : Type} {x : Eval α} (blurs : Bool) (result : Futures → Except Stop α)
    (reads : Futures → Futures)
    (h : ∀ m, x env m = ending (result m.heap.futures) (touched m (reads m.heap.futures) blurs)) :
    Private env α x x := by
  intro m
  rw [h]
  cases result m.heap.futures <;> exact .of_eq rfl

theorem compatible (env : Env) : Compatible (Private env) fun _ => True where
  pure _ _ := .of_eq rfl
  bind {α β x y f g} hx hf m := by
    have h := hx m
    rw [bind_apply]
    cases hr : x env m with
    | error e m' => rw [hr] at h; exact h
    | ok a m' => rw [hr] at h; exact h.trans (hf a m')
  fail _ _ := .of_eq rfl
  env _ := .of_eq rfl
  resolve v := of_ending false (fun fs => (fs.resolve v).1.result) (fun fs => (fs.resolve v).2)
    (resolve_apply v env)
  text v := of_ending v.holdsFuture (fun fs => .ok (v.text fs)) id (text_apply v env)
  filtered fs args v := of_ending (Filter.takeText (applied fs args) && v.holdsFuture)
    (fun gs => (Filter.applyAll gs (applied fs args) v).mapError .failed) id
    (filtered_apply fs args v env)
  mapFailure change x y h m := by
    have hr := h m
    rw [mapFailure_apply]
    cases hx : x env m with
    | ok a m' => rw [hx] at hr; exact hr
    | error e m' =>
      rw [hx] at hr
      cases e <;> exact hr
  cell _ _ _ := .of_eq rfl

theorem kept {x y : Eval Value} (h : Private env Value x y) (i : Nat) :
    Private env Value (Eval.kept i x) y := by
  intro m
  have hcell : Eval.cell i env m = .ok (m.cells.read i) m := rfl
  unfold Eval.kept
  rw [bind_apply, hcell]
  simp only
  cases (m.cells.read i).value? with
  | some v => exact .of_eq rfl
  | none =>
    simp only
    rw [bind_apply]
    have hr := h m
    cases hx : x env m with
    | error e m' => rw [hx] at hr; exact hr
    | ok v m' => rw [hx] at hr; exact hr.trans (.of_eq rfl)

theorem congruence {force : ThunkId → Eval Value}
    (hf : ∀ id, Private env Value (force id) (force id)) :
    Congruence (Private env) (fun _ => True) (fun _ _ _ => True) (.keeping force)
      (.keeping force) where
  toCompatible := compatible env
  binding b hb := by
    refine (compatible env).binding (fun i hi => ?_) hb
    refine (compatible env).bind ((compatible env).cell i hi) fun c => ?_
    cases c with
    | thunk id => exact hf id
    | _ => exact (compatible env).pure _
  memo _ i _ _ h := kept h i

end Private

end Eval

namespace Thunk

/-- Code that runs on cells writes its memo cells only. -/
theorem leaves_memos (count : Nat) (x : Term .boxed) (place : List Nat) (env : Env) (m : Memory) :
    m.Later (· ∈ x.memos) (Eval.left (x.eval (.keeping (forceBelow count)) place env m)) := by
  have htame : Congruence (Eval.Tame (· ∈ x.memos) (fun _ => False) env) (fun _ => True)
      (fun _ i _ => i ∈ x.memos) (.keeping (forceBelow count)) (.keeping (forceBelow count)) :=
    Eval.Tame.congruence (fun _ _ _ h => h) fun id => tame_forceBelow count id
  exact (htame.term x place (x.touches_memos (fun _ h => h) place) m fun _ h => h.elim).left

theorem private_forceBelow (count : Nat) : ∀ {env : Env} (id : ThunkId),
    Eval.Private env Value (forceBelow count id) (forceBelow count id) := by
  induction count with
  | zero => exact fun _ => (Eval.Private.compatible _).pure _
  | succ count ih =>
    intro env id m
    unfold forceBelow
    split
    · rw [evaluate_apply]
      cases ht : m.heap.thunks[id]? with
      | none => exact .of_eq rfl
      | some t =>
        simp only
        cases hr : t.result with
        | some v => exact .of_eq rfl
        | none =>
          simp only
          -- its code runs on its own cells, and evaluates deferred values made before it
          have hcells := (leaves_memos count t.code.root.toBoxed [] t.env
            { m with cells := t.cells }).rest
          have hprivate : Congruence (Eval.Private t.env) (fun _ => True) (fun _ _ _ => True)
            (.keeping (forceBelow count)) (.keeping (forceBelow count)) :=
            Eval.Private.congruence fun id => ih id
          have hheap := hprivate.term t.code.root.toBoxed [] (Term.touches_everywhere _ _)
            { m with cells := t.cells }
          cases hx : t.code.root.toBoxed.eval (.keeping (forceBelow count)) [] t.env
              { m with cells := t.cells } with
          | ok v k => rw [hx] at hcells hheap; exact hheap.attempted ht hr hcells (some v)
          | error e k => rw [hx] at hcells hheap; exact hheap.attempted ht hr hcells none
    · exact ih id m

end Thunk

/-! ## What compiled expressions write -/

/-- Memory after an evaluation that wrote cells from `low` up to `high` only. -/
structure Memory.Within (low high : Nat) (m m' : Memory) : Prop where
  size : m'.cells.size = m.cells.size
  cells : ∀ i, ¬(low ≤ i ∧ i < high) → m'.cells.read i = m.cells.read i
  thunks : m.heap.Private m'.heap

/-- However an evaluation ends, it wrote cells from `low` up to `high` only. -/
def Eval.Writes (low high : Nat) {α : Type} (x : Eval α) : Prop :=
  ∀ (env : Env) (m : Memory), m.Within low high (left (x env m))

theorem Term.writes {low high : Nat} {f : Form} (x : Term f) (h : ∀ i ∈ x.memos, low ≤ i ∧ i < high)
    (place : List Nat) : Eval.Writes low high (x.eval .usual place) := by
  intro env m
  have htame : Congruence (Eval.Tame (fun i => low ≤ i ∧ i < high) (fun _ => False) env)
      (fun _ => True) (fun _ i _ => low ≤ i ∧ i < high) .usual .usual :=
      Eval.Tame.usual _ _ env fun _ _ _ h => h
  have hprivate : Congruence (Eval.Private env) (fun _ => True) (fun _ _ _ => True) .usual .usual :=
    Eval.Private.congruence fun id => Thunk.private_forceBelow (id + 1) id
  have hlater := (htame.term x place (x.touches_memos h place) m fun _ h => h.elim).left
  exact ⟨hlater.size, hlater.rest, hprivate.term x place (x.touches_everywhere place) m⟩

namespace Expr

/-- Compiling takes a block of memo cells if any are needed, and hands out as many. -/
theorem compile_block {s : Scope} {slots slots' : Slots} {e : Expr} {c : Compiled}
    (h : e.compile s slots = .ok (c, slots')) :
    c.width = e.countMemo s false ∧
      (c.width = 0 → slots' = slots) ∧
    (c.width ≠ 0 → slots.anonymous .memo c.width = (c.start, slots')) ∧
    (e.lower s false).run c.start = .ok (c.root, c.start + c.width) := by
  unfold compile at h
  simp only at h
  split at h
  · next hwidth =>
    obtain ⟨⟨root, k⟩, hl, hend⟩ := Except.bind_ok h
    cases hend
    have hcount := (lower_fits (seen_everywhere s.locals) e hl).2
    exact ⟨rfl, fun _ => rfl, fun hne => (hne hwidth).elim, by rw [← hcount]; exact hl⟩
  · next hwidth =>
    obtain ⟨⟨root, k⟩, hl, hend⟩ := Except.bind_ok h
    cases hend
    have hcount := (lower_fits (seen_everywhere s.locals) e hl).2
    exact ⟨rfl, fun hz => (hwidth hz).elim, fun _ => rfl, by rw [← hcount]; exact hl⟩

/-- The memo cells of a compiled expression are as many as were counted. They are handed out from
the start of the block that was taken up to its end and none of them twice, so no two parts of the
expression share one; and in whatever form the expression is evaluated, however that ends, all other
cells stay as they are, while each deferred value that is still pending has changed in memo cells of
its own at most. -/
theorem memo_cells_exact {s : Scope} {slots slots' : Slots} {e : Expr} {c : Compiled}
    (h : e.compile s slots = .ok (c, slots')) :
    (c.width = e.countMemo s false ∧
      (c.width = 0 → slots' = slots) ∧
      (c.width ≠ 0 → slots.anonymous .memo c.width = (c.start, slots')) ∧
      (e.lower s false).run c.start = .ok (c.root, c.start + c.width)) ∧
    (c.root.memos.length = c.width ∧ c.root.memos.Nodup ∧ ∀ i, i ∈ c.root.memos ↔ c.start ≤ i ∧
      i < c.start + c.width) ∧
    ∀ place, Eval.Writes c.start (c.start + c.width) (c.value .usual place) ∧
    Eval.Writes c.start (c.start + c.width) (c.int .usual place) ∧
    Eval.Writes c.start (c.start + c.width) (c.float .usual place) ∧
    Eval.Writes c.start (c.start + c.width) (c.bool .usual place) ∧
    Eval.Writes c.start (c.start + c.width) (c.str .usual place) := by
  have hblock := compile_block h
  have hperm := (lower_fills s e hblock.2.2.2).perm
  rw [Nat.add_sub_cancel_left] at hperm
  have hmem (i : Nat) : i ∈ c.root.memos ↔ c.start ≤ i ∧ i < c.start + c.width := by
    rw [hperm.mem_iff, List.mem_range'_1]
  refine ⟨hblock, ⟨by rw [hperm.length_eq, List.length_range'], hperm.nodup_iff.2 List.nodup_range',
    hmem⟩,
    fun place => ?_⟩
  have hwrites {f : Form} (x : Term f) (hx : x.memos = c.root.memos) :
      Eval.Writes c.start (c.start + c.width) (x.eval .usual place) :=
    x.writes (fun i hi => (hmem i).1 (hx ▸ hi)) place
  exact ⟨hwrites _ (Lowered.memos_toBoxed _), hwrites _ (Lowered.memos_toInt _),
    hwrites _ (Lowered.memos_toFloat _), hwrites _ (Lowered.memos_toBool _),
    hwrites _ (Lowered.memos_toStr _)⟩

end Expr

namespace Sample

/-- A map of two entries. Both keys are compiled before the first value is. -/
def labels : Expr :=
  .map (.mapOf .string .any)
    [(.lit .string (.str "size") rfl, .param .any "size" false),
      (.param .string "key" false, .lit .int (.int 1) rfl)]

/-- One slot is taken by a local. -/
def labelSlots : Slots := Slots.new.extend "x" .value 1

def labelsCode : Compiled :=
  { type := .mapOf .string .any, maySuspend := true, start := 1, width := 5
    root := .boxed (.memo 5 (.map
      (.entry (.memo 1 (.boxStr (.constStr "size"))) (.memo 3 (.param "size" false))
        (.entry (.memo 2 (.param "key" false)) (.memo 4 (.boxInt (.constInt 1))) .noEntries)))) }

end Sample

/-- The cells of a map's entries alternate in its term, and fill the block behind the local. -/
theorem Sample.labels_in_block :
    Sample.labels.compile ⟨.conservative, .empty⟩ labelSlots =
    .ok (labelsCode, (labelSlots.anonymous .memo 5).2) ∧ labelsCode.root.memos = [1, 3, 2, 4, 5] ∧
      (labelsCode.root.memos.Nodup ∧ ∀ i, i ∈ labelsCode.root.memos ↔ 1 ≤ i ∧ i < 6) ∧
      ∀ place, Eval.Writes 1 6 (labelsCode.value .usual place) := by
  have hcompiled : labels.compile ⟨.conservative, .empty⟩ labelSlots =
      .ok (labelsCode, (labelSlots.anonymous .memo 5).2) := by cbv
  obtain ⟨-, ⟨-, hnodup, hmem⟩, hwrites⟩ := Expr.memo_cells_exact hcompiled
  exact ⟨hcompiled, rfl, ⟨hnodup, hmem⟩, fun place => (hwrites place).1⟩

end Interlude
