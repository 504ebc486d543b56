import Interlude.Proofs.Term.Touch
import Mathlib.Algebra.Ring.Nat
import Mathlib.Tactic.SplitIfs
import Mathlib.Tactic.Tauto
/-!
# The cells of compiled expressions

A compiled expression reads the cells of the locals in scope only, and has a memo cell of its own
for every result it keeps: the cells are the ones counted beforehand, and none is used twice
(`lower_fits`).
-/

namespace Interlude

/-- The end of two steps that succeed. -/
theorem Except.bind_ok {ε α β : Type} {x : Except ε α} {f : α → Except ε β} {b : β}
    (h : (x >>= f) = .ok b) :
    ∃ a, x = .ok a ∧ f a = .ok b := by
  cases x with
  | error e => cases h
  | ok a => exact ⟨a, rfl, h⟩

/-- The end of a computation in two steps that succeeds. -/
theorem StateT.bind_ok {σ ε α β : Type} {x : StateT σ (Except ε) α}
    {f : α → StateT σ (Except ε) β} {s s'' : σ} {b : β} (h : (x >>= f) s = .ok (b, s'')) :
    ∃ a s', x s = .ok (a, s') ∧ f a s' = .ok (b, s'') := by
  change (do let (a, s) ← x s; f a s : Except ε (β × σ)) = _ at h
  cases hx : x s with
  | error e => rw [hx] at h; cases h
  | ok r => rw [hx] at h; exact ⟨r.1, r.2, rfl, h⟩

/-- A local whose cells are all seen, those of its loop included. -/
structure Binding.Seen (see : Seeing) (b : Binding) : Prop where
  slot : see b.slot
  loop : ∀ index length, b.loop = some (index, length) → see index ∧ see length

theorem Binding.Seen.touches {see : Seeing} {b : Binding} (h : b.Seen see) : b.Touches see :=
  ⟨h.slot, fun i l hl => (h.loop i l hl).1⟩

/-- All locals in scope are seen. -/
def Locals.Seen (see : Seeing) (ls : Locals) : Prop := ∀ name b,
    ls.lookup name = some b → b.Seen see

/-- Results are kept in the cells from `low` up to `high`, each for one term. -/
def keepIn (low high : Nat) (table : Table) : Keeping :=
  fun p i x => low ≤ i ∧ i < high ∧ table i = some (p, x)

/-- What is kept in two blocks of cells side by side is kept in both together. -/
def joined (table table' : Table) (middle : Nat) : Table := fun i =>
  if i < middle then table i else table' i

theorem keepIn.left {low middle high : Nat} {table table' : Table}
    (h : middle ≤ high) (p : List Nat) (i : Nat) (x : Term .boxed)
    (hk : keepIn low middle table p i x) :
    keepIn low high (joined table table' middle) p i x := by
  obtain ⟨h₁, h₂, h₃⟩ := hk
  exact ⟨h₁, Nat.lt_of_lt_of_le h₂ h, by rw [joined, if_pos h₂]; exact h₃⟩

theorem keepIn.right {low middle high : Nat} {table table' : Table}
    (h : low ≤ middle) (p : List Nat) (i : Nat) (x : Term .boxed)
    (hk : keepIn middle high table' p i x) :
    keepIn low high (joined table table' middle) p i x := by
  obtain ⟨h₁, h₂, h₃⟩ := hk
  exact ⟨Nat.le_trans h h₁, h₂, by rw [joined, if_neg (Nat.not_lt.2 h₁)]; exact h₃⟩

/-- A term that reads what is seen and keeps its results in the cells from `low` up to `high`. -/
structure Lowered.Fits (see : Seeing) (low high : Nat) (x : Lowered) : Prop where
  le : low ≤ high
  touches : ∀ place, ∃ table, x.Touches see (keepIn low high table) place

/-- Terms in a row, wherever each of them stands. -/
structure FitAll (see : Seeing) (low high : Nat) (xs : List (Term .boxed)) : Prop where
  le : low ≤ high
  touches : ∀ places : Nat → List Nat, ∃ table, ∀ (j : Nat) (x : Term .boxed), xs[j]? = some x →
    x.Touches see (keepIn low high table) (places j)

namespace Lowered.Fits

variable {see : Seeing} {n m k : Nat} {x y z : Lowered}

/-- Two terms in a row stand side by side in their cells. -/
theorem pair (hx : x.Fits see n m) (hy : y.Fits see m k) (p q : List Nat) :
    ∃ table, x.Touches see (keepIn n k table) p ∧ y.Touches see (keepIn n k table) q := by
  obtain ⟨s, hs⟩ := hx.touches p
  obtain ⟨t, ht⟩ := hy.touches q
  exact ⟨joined s t m, hs.mono (fun _ h => h) (keepIn.left hy.le),
    ht.mono (fun _ h => h) (keepIn.right hx.le)⟩

theorem triple {l : Nat} (hx : x.Fits see n m) (hy : y.Fits see m k) (hz : z.Fits see k l)
    (p q r : List Nat) :
    ∃ table, x.Touches see (keepIn n l table) p ∧ y.Touches see (keepIn n l table) q ∧
      z.Touches see (keepIn n l table) r := by
  obtain ⟨s, hs, hs'⟩ := hx.pair hy p q
  obtain ⟨t, ht⟩ := hz.touches r
  have hle := Nat.le_trans hx.le hy.le
  exact ⟨joined s t k, hs.mono (fun _ h => h) (keepIn.left hz.le),
    hs'.mono (fun _ h => h) (keepIn.left hz.le), ht.mono (fun _ h => h) (keepIn.right hle)⟩

/-- A term that keeps nothing. -/
theorem of_touches (h : ∀ table place, x.Touches see (keepIn n n table) place) : x.Fits see n n :=
  ⟨Nat.le_refl n, fun place => ⟨fun _ => none, h _ place⟩⟩

theorem unary (op : UnaryOp) (t : StaticType) (hx : x.Fits see n m) :
    (Lowered.unary op t x).Fits see n m := by
  refine ⟨hx.le, fun p => ?_⟩
  obtain ⟨table, h⟩ := hx.touches p
  refine ⟨table, ?_⟩
  cases op with
  | not => exact h.toBool
  | neg =>
    unfold Lowered.unary
    simp only
    split
    · exact h.toInt
    · split
      · exact h.toFloat
      · exact h.toBoxed

theorem arith (op : Arith) (t u : StaticType) (hx : x.Fits see n m) (hy : y.Fits see m k) :
    (Lowered.arith op t u x y).Fits see n k := by
  refine ⟨Nat.le_trans hx.le hy.le, fun p => ?_⟩
  obtain ⟨table, h, h'⟩ := hx.pair hy (0 :: p) (1 :: p)
  refine ⟨table, ?_⟩
  have ints : (Lowered.int (.arithInt op x.toInt y.toInt)).Touches see (keepIn n k table) p :=
    ⟨h.toInt, h'.toInt⟩
  have floats : (Lowered.float (.arithFloat op x.toFloat y.toFloat)).Touches see
      (keepIn n k table) p :=
    ⟨h.toFloat, h'.toFloat⟩
  have boxed : (Lowered.boxed (.arith op x.toBoxed y.toBoxed)).Touches see (keepIn n k table) p :=
    ⟨h.toBoxed, h'.toBoxed⟩
  have texts : (Lowered.str (.concat x.toStr y.toStr)).Touches see (keepIn n k table) p :=
    ⟨h.toStr, h'.toStr⟩
  unfold Lowered.arith
  cases op <;> (simp only; split_ifs <;> assumption)

theorem comparison (op : Comparison) (t u : StaticType) (hx : x.Fits see n m)
    (hy : y.Fits see m k) :
    (Lowered.comparison op t u x y).Fits see n k := by
  refine ⟨Nat.le_trans hx.le hy.le, fun p => ?_⟩
  obtain ⟨table, h, h'⟩ := hx.pair hy (0 :: p) (1 :: p)
  refine ⟨table, ?_⟩
  unfold Lowered.comparison
  split
  · exact ⟨h.toInt, h'.toInt⟩
  · split
    · exact ⟨h.toFloat, h'.toFloat⟩
    · split
      · exact ⟨h.toStr, h'.toStr⟩
      · exact ⟨h.toBoxed, h'.toBoxed⟩

theorem binary (op : BinaryOp) (t u : StaticType) (hx : x.Fits see n m) (hy : y.Fits see m k) :
    (Lowered.binary op t u x y).Fits see n k := by
  have logic (z : Lowered) (hz : ∀ table p, x.Touches see (keepIn n k table) (0 :: p) →
      y.Touches see (keepIn n k table) (1 :: p) → z.Touches see (keepIn n k table) p) :
          z.Fits see n k := by
    refine ⟨Nat.le_trans hx.le hy.le, fun p => ?_⟩
    obtain ⟨table, h, h'⟩ := hx.pair hy (0 :: p) (1 :: p)
    exact ⟨table, hz table p h h'⟩
  cases op with
  | add => exact hx.arith .add t u hy
  | sub => exact hx.arith .sub t u hy
  | mul => exact hx.arith .mul t u hy
  | div => exact hx.arith .div t u hy
  | mod => exact hx.arith .mod t u hy
  | eq => exact hx.comparison .eq t u hy
  | notEq => exact hx.comparison .notEq t u hy
  | less => exact hx.comparison .less t u hy
  | lessEq => exact hx.comparison .lessEq t u hy
  | greater => exact hx.comparison .greater t u hy
  | greaterEq => exact hx.comparison .greaterEq t u hy
  | and => exact logic _ fun _ _ h h' => ⟨h.toBool, h'.toBool⟩
  | or => exact logic _ fun _ _ h h' => ⟨h.toBool, h'.toBool⟩
  | coalesce => exact logic _ fun _ _ h h' => ⟨h.toBoxed, h'.toBoxed⟩

theorem cond {l : Nat} (hx : x.Fits see n m) (hy : y.Fits see m k) (hz : z.Fits see k l) :
    (Lowered.cond x y z).Fits see n l := by
  refine ⟨Nat.le_trans hx.le (Nat.le_trans hy.le hz.le), fun p => ?_⟩
  obtain ⟨table, h, h', h''⟩ := hx.triple hy hz (0 :: p) (1 :: p) (2 :: p)
  refine ⟨table, ?_⟩
  unfold Lowered.cond
  split
  · exact ⟨h.toBool, h', h''⟩
  · exact ⟨h.toBool, h', h''⟩
  · exact ⟨h.toBool, h'.toBoxed, h''.toBoxed⟩

/-- A result kept in the next cell. -/
theorem memo (hx : x.Fits see n m) : (Lowered.boxed (.memo m x.toBoxed)).Fits see n (m + 1) := by
  refine ⟨Nat.le_succ_of_le hx.le, fun p => ?_⟩
  obtain ⟨table, h⟩ := hx.touches p
  refine ⟨fun i => if i = m then some (p, x.toBoxed) else table i, ?_⟩
  refine ⟨⟨hx.le, Nat.lt_succ_self m, if_pos rfl⟩, ?_⟩
  refine Term.Touches.mono (fun _ h => h) ?_ h.toBoxed
  rintro q i y ⟨h₁, h₂, h₃⟩
  exact ⟨h₁, Nat.lt_succ_of_lt h₂, by simp only [if_neg (Nat.ne_of_lt h₂)]; exact h₃⟩

end Lowered.Fits

namespace FitAll

variable {see : Seeing} {n m k : Nat} {x : Lowered} {xs : List (Term .boxed)}

theorem nil (see : Seeing) (n : Nat) : FitAll see n n [] :=
  ⟨Nat.le_refl n, fun _ => ⟨fun _ => none, fun _ _ h => by cases h⟩⟩

theorem cons (hx : x.Fits see n m) (hxs : FitAll see m k xs) :
    FitAll see n k (x.toBoxed :: xs) := by
  refine ⟨Nat.le_trans hx.le hxs.le, fun places => ?_⟩
  obtain ⟨s, hs⟩ := hx.touches (places 0)
  obtain ⟨t, ht⟩ := hxs.touches fun j => places (j + 1)
  refine ⟨joined s t m, fun j y hy => ?_⟩
  cases j with
  | zero =>
    cases hy
    exact (hs.mono (fun _ h => h) (keepIn.left hxs.le)).toBoxed
  | succ j => exact (ht j y hy).mono (fun _ h => h) (keepIn.right hx.le)

/-- The values of a list stand one after the other. -/
theorem touches_valueList {keep : Keeping} (xs : List (Term .boxed)) (p : List Nat)
    (h : ∀ (j : Nat) (x : Term .boxed), xs[j]? = some x →
      x.Touches see keep (0 :: (List.replicate j 1 ++ p))) :
    (Expr.valueList xs).Touches see keep p := by
  induction xs generalizing p with
  | nil => trivial
  | cons x rest ih =>
    refine ⟨h 0 x rfl, ih (1 :: p) fun j y hy => ?_⟩
    have hj := h (j + 1) y hy
    rw [List.replicate_succ', List.append_assoc] at hj
    exact hj

theorem valueList (h : FitAll see n m xs) (p : List Nat) :
    ∃ table, (Expr.valueList xs).Touches see (keepIn n m table) p := by
  obtain ⟨table, ht⟩ := h.touches fun j => 0 :: (List.replicate j 1 ++ p)
  exact ⟨table, touches_valueList xs p ht⟩

/-- So do the entries of a map, of which the keys come first. -/
theorem touches_pairEntries {keep : Keeping} (ks vs : List (Term .boxed)) (p : List Nat)
    (hk : ∀ (j : Nat) (x : Term .boxed), ks[j]? = some x →
      x.Touches see keep (0 :: (List.replicate j 2 ++ p)))
    (hv : ∀ (j : Nat) (x : Term .boxed), vs[j]? = some x →
      x.Touches see keep (1 :: (List.replicate j 2 ++ p))) :
    (Expr.pairEntries ks vs).Touches see keep p := by
  induction ks generalizing vs p with
  | nil => trivial
  | cons k ks ih =>
    cases vs with
    | nil => trivial
    | cons v vs =>
      refine ⟨hk 0 k rfl, hv 0 v rfl, ih vs (2 :: p) (fun j y hy => ?_) fun j y hy => ?_⟩
      · have hj := hk (j + 1) y hy
        rw [List.replicate_succ', List.append_assoc] at hj
        exact hj
      · have hj := hv (j + 1) y hy
        rw [List.replicate_succ', List.append_assoc] at hj
        exact hj

theorem pairEntries {ks vs : List (Term .boxed)} (hks : FitAll see n m ks) (hvs : FitAll see m k vs)
    (p : List Nat) : ∃ table, (Expr.pairEntries ks vs).Touches see (keepIn n k table) p := by
  obtain ⟨s, hs⟩ := hks.touches fun j => 0 :: (List.replicate j 2 ++ p)
  obtain ⟨t, ht⟩ := hvs.touches fun j => 1 :: (List.replicate j 2 ++ p)
  refine ⟨joined s t m, touches_pairEntries ks vs p (fun j x hx => ?_) fun j x hx => ?_⟩
  · exact (hs j x hx).mono (fun _ h => h) (keepIn.left hvs.le)
  · exact (ht j x hx).mono (fun _ h => h) (keepIn.right hks.le)

end FitAll

namespace Lowered.Fits

variable {see : Seeing} {n m k : Nat} {x y : Lowered} {xs : List (Term .boxed)}

theorem ofLiteral (v : Value) (plain : v.holdsFuture = false) :
    (Lowered.ofLiteral v plain).Fits see n n :=
  of_touches fun table p => by cases v <;> trivial

theorem ofBinding {b : Binding} (hb : b.Seen see) : (Lowered.ofBinding b).Fits see n n := by
  refine of_touches fun table p => ?_
  unfold Lowered.ofBinding
  split
  · exact hb.touches
  · split
    · exact hb.slot
    · exact hb.slot
    · exact hb.slot
    · exact hb.slot
    · exact hb.touches

theorem loopHelper {s : Expr.Scope} {name : String} {args : List Expr} (hs : s.locals.Seen see)
    (h : Expr.loopHelper s name args = .ok x) : x.Fits see n n := by
  refine of_touches fun table p => ?_
  unfold Expr.loopHelper at h
  split at h
  · next v =>
    split at h
    · next index length hl =>
      obtain ⟨b, hb, hloop⟩ := Option.bind_eq_some_iff.1 hl
      have hseen := (hs v b hb).loop index length hloop
      split at h
      · cases h; exact hseen.1
      · split at h
        · cases h; exact hseen
        · cases h; exact hseen.1
    · cases h
  · cases h
  · cases h

theorem field (hx : x.Fits see n m) (name : String) (nullSafe : Bool) :
    (Lowered.boxed (.field x.toBoxed name nullSafe)).Fits see n m := by
  refine ⟨hx.le, fun p => ?_⟩
  obtain ⟨table, h⟩ := hx.touches p
  exact ⟨table, h.toBoxed⟩

theorem item (hx : x.Fits see n m) (hy : y.Fits see m k) (nullSafe : Bool) :
    (Lowered.boxed (.item x.toBoxed y.toBoxed nullSafe)).Fits see n k := by
  refine ⟨Nat.le_trans hx.le hy.le, fun p => ?_⟩
  obtain ⟨table, h, h'⟩ := hx.pair hy (0 :: p) (1 :: p)
  exact ⟨table, h.toBoxed, h'.toBoxed⟩

/-- What is made of the values of a list touches what they touch. -/
theorem ofValues (hxs : FitAll see n m xs) {x : Lowered}
    (hx : ∀ keep p, (Expr.valueList xs).Touches see keep (0 :: p) → x.Touches see keep p) :
    x.Fits see n m := by
  refine ⟨hxs.le, fun p => ?_⟩
  obtain ⟨table, h⟩ := hxs.valueList (0 :: p)
  exact ⟨table, hx _ p h⟩

theorem map {ks vs : List (Term .boxed)} (hks : FitAll see n m ks) (hvs : FitAll see m k vs) :
    (Lowered.boxed (.map (Expr.pairEntries ks vs))).Fits see n k := by
  refine ⟨Nat.le_trans hks.le hvs.le, fun p => ?_⟩
  obtain ⟨table, h⟩ := hks.pairEntries hvs (0 :: p)
  exact ⟨table, h⟩

/-- The last step of a term: a cell for its result, if it needs one. -/
theorem keepIf (see : Seeing) {needed : Bool} {act : Expr.Lowering Lowered} {n' : Nat}
    (h : Expr.keepIf needed act n = .ok (y, n')) :
    ∃ x m, act n = .ok (x, m) ∧ (x.Fits see n m → y.Fits see n n') ∧
    n' = m + if needed then 1 else 0 := by
  obtain ⟨x, m, hx, hy⟩ := StateT.bind_ok h
  refine ⟨x, m, hx, ?_⟩
  cases needed with
  | true => cases hy; exact ⟨memo, rfl⟩
  | false => cases hy; exact ⟨id, rfl⟩

end Lowered.Fits

namespace Expr

/-! ## Counting memo cells -/

/-- The memo cells of expressions in a row. -/
def countIn (s : Scope) (under : Bool) (es : List Expr) : Nat := (es.map (·.countMemo s under)).sum

theorem countMemo_of_not_may {s : Scope} {e : Expr} (h : s.may e = false) :
    e.countMemo s false = 0 := by
  unfold countMemo
  simp [h]

theorem countIn_of_not_may {s : Scope} {es : List Expr} (h : ∀ e ∈ es, s.may e = false) :
    countIn s false es = 0 := by
  induction es with
  | nil => rfl
  | cons e rest ih =>
    have he := countMemo_of_not_may (h e (by simp))
    have hr := ih fun e he => h e (by simp [he])
    simp only [countIn, List.map_cons, List.sum_cons] at hr ⊢
    omega

theorem countMemoAll_eq (s : Scope) (es : List Expr) : countMemoAll s es = countIn s true es := by
  induction es with
  | nil => rfl
  | cons e rest ih =>
    rw [countMemoAll, ih]
    rfl

theorem countMemoEntries_eq (s : Scope) (es : List (Expr × Expr)) :
    countMemoEntries s es = countIn s true (es.map (·.1)) + countIn s true (es.map (·.2)) := by
  induction es with
  | nil => rfl
  | cons e rest ih =>
    simp only [countMemoEntries, ih, countIn, List.map_cons, List.sum_cons]
    omega

theorem countMemoFields_eq (s : Scope) (fs : List (String × Expr)) :
    countMemoFields s fs = countIn s true (fs.map (·.2)) := by
  induction fs with
  | nil => rfl
  | cons f rest ih =>
    rw [countMemoFields, ih]
    rfl

/-! A part of an expression that cannot wait cannot wait either. -/

theorem maySuspendAll_iff {settled : String → Bool} {es : List Expr} :
    maySuspendAll settled es = false ↔ ∀ e ∈ es, e.maySuspend settled = false := by
  induction es with
  | nil => simp [maySuspendAll]
  | cons e rest ih => simp [maySuspendAll, ih]

theorem maySuspendEntries_iff {settled : String → Bool} {es : List (Expr × Expr)} :
    maySuspendEntries settled es = false ↔
      (∀ e ∈ es.map (·.1), e.maySuspend settled = false) ∧ ∀ e ∈ es.map (·.2),
    e.maySuspend settled = false := by
  induction es with
  | nil => simp [maySuspendEntries]
  | cons e rest ih =>
    simp only [maySuspendEntries, Bool.or_eq_false_iff, ih, List.map_cons, List.forall_mem_cons]
    tauto

theorem maySuspendFields_iff {settled : String → Bool} {fs : List (String × Expr)} :
    maySuspendFields settled fs = false ↔ ∀ e ∈ fs.map (·.2), e.maySuspend settled = false := by
  induction fs with
  | nil => simp [maySuspendFields]
  | cons f rest ih => simp [maySuspendFields, ih]

/-- The parts of an expression that are compiled with it. -/
def parts : Expr → List Expr
  | map _ es => es.map (·.1) ++ es.map (·.2)
  | call _ name es => if isLoopHelper name then [] else es
  | e => e.children

theorem may_parts {s : Scope} {e : Expr} (h : s.may e = false) : ∀ c ∈ e.parts,
    s.may c = false := by
  unfold Scope.may Analyzer.expr at h ⊢
  cases ha : s.analyzer with
  | never => exact fun _ _ => rfl
  | conservative =>
    rw [ha] at h
    simp only at h ⊢
    cases e with
    | lit | param | var => intro c hc; cases hc
    | unary _ _ x =>
      simp only [maySuspend] at h
      simpa [parts, children] using h
    | binary _ _ x y =>
      simp only [maySuspend, Bool.or_eq_false_iff] at h
      simpa [parts, children] using h
    | cond _ c a b =>
      simp only [maySuspend, Bool.or_eq_false_iff] at h
      simp only [parts, children, List.forall_mem_cons]
      exact ⟨h.1.1, h.1.2, h.2, fun _ hc => by cases hc⟩
    | field | item => cases h
    | list _ es => exact maySuspendAll_iff.1 h
    | map _ es =>
      intro c hc
      have hes := maySuspendEntries_iff.1 h
      exact (List.mem_append.1 hc).elim (hes.1 c) (hes.2 c)
    | record _ fs => exact maySuspendFields_iff.1 h
    | call _ name es =>
      simp only [parts]
      split
      · intro c hc; cases hc
      · next hn =>
        simp only [maySuspend, Bool.and_eq_false_iff, Bool.not_eq_false'] at h
        exact maySuspendAll_iff.1 (h.resolve_left hn)

/-- The memo cells of an expression are those of its parts and, if it needs one, one of its own. -/
theorem countMemo_eq (s : Scope) (under : Bool) (e : Expr) :
    e.countMemo s under = countIn s (s.may e) e.parts + if s.may e || under then 1 else 0 := by
  cases hm : s.may e with
  | false =>
    rw [countIn_of_not_may (may_parts hm)]
    unfold countMemo
    rw [hm]
    cases under <;> rfl
  | true =>
    unfold countMemo
    rw [hm]
    simp only [if_true, Bool.true_or]
    cases e with
    | lit | param | var => rfl
    | unary | binary | cond | field | item => simp [countIn, parts, children]; omega
    | list _ es => simp only [countMemoAll_eq, parts, children]; omega
    | map _ es =>
      simp only [countMemoEntries_eq, parts, countIn, List.map_append, List.sum_append]
      omega
    | record _ fs => simp only [countMemoFields_eq, parts, children]; omega
    | call _ name es =>
      simp only [countMemoAll_eq, parts]
      split
      · next hn =>
        -- the functions on loops never wait, so they are not under consideration here
        unfold Scope.may Analyzer.expr at hm
        cases ha : s.analyzer with
        | never => rw [ha] at hm; cases hm
        | conservative =>
          rw [ha] at hm
          simp [maySuspend, hn] at hm
      · omega

/-! ## Lowering -/

/-! Keys, values and fields are lowered like any expressions in a row. -/

theorem lowerKeys_eq (s : Scope) (under : Bool) (es : List (Expr × Expr)) :
    lowerKeys s under es = lowerAll s under (es.map (·.1)) := by
  induction es with
  | nil => rfl
  | cons e rest ih => simp only [lowerKeys, List.map_cons, lowerAll, ih]

theorem lowerValues_eq (s : Scope) (under : Bool) (es : List (Expr × Expr)) :
    lowerValues s under es = lowerAll s under (es.map (·.2)) := by
  induction es with
  | nil => rfl
  | cons e rest ih => simp only [lowerValues, List.map_cons, lowerAll, ih]

theorem lowerFields_eq (s : Scope) (under : Bool) (fs : List (String × Expr)) :
    lowerFields s under fs = lowerAll s under (fs.map (·.2)) := by
  induction fs with
  | nil => rfl
  | cons f rest ih => simp only [lowerFields, List.map_cons, lowerAll, ih]

theorem lift_ok {α : Type} {r : Except Failure α} {n n' : Nat} {a : α}
    (h : (liftM r : Lowering α) n = .ok (a, n')) : r = .ok a ∧ n' = n := by
  cases r with
  | error e => cases h
  | ok b => cases h; exact ⟨rfl, rfl⟩

mutual

theorem lower_fits {s : Scope} {see : Seeing} (hs : s.locals.Seen see) (e : Expr)
    {under : Bool} {n n' : Nat} {x : Lowered} (h : e.lower s under n = .ok (x, n')) :
    x.Fits see n n' ∧ n' = n + e.countMemo s under := by
  unfold lower at h
  obtain ⟨y, m, hy, hfit, hn⟩ := Lowered.Fits.keepIf see h
  -- it is enough to look at the parts, before the term gets a cell
  suffices hparts : y.Fits see n m ∧ m = n + countIn s (s.may e) e.parts by
    exact ⟨hfit hparts.1, by rw [countMemo_eq, hn, hparts.2]; omega⟩
  generalize s.may e = may at hy
  match e with
  | lit _ v plain => cases hy; exact ⟨.ofLiteral v plain, rfl⟩
  | param _ name injected => cases hy; exact ⟨.of_touches fun _ _ => trivial, rfl⟩
  | var _ name =>
    cases hb : s.locals.lookup name with
    | none => simp only [hb] at hy; cases hy
    | some b => simp only [hb] at hy; cases hy; exact ⟨.ofBinding (hs name b hb), rfl⟩
  | unary _ op a =>
    obtain ⟨c, k, hc, hy⟩ := StateT.bind_ok hy
    cases hy
    obtain ⟨hf, hk⟩ := lower_fits hs a hc
    exact ⟨hf.unary op _, by simpa [countIn, parts, children] using hk⟩
  | binary _ op a b =>
    obtain ⟨c, k, hc, hy⟩ := StateT.bind_ok hy
    obtain ⟨d, l, hd, hy⟩ := StateT.bind_ok hy
    cases hy
    obtain ⟨hf, hk⟩ := lower_fits hs a hc
    obtain ⟨hf', hl⟩ := lower_fits hs b hd
    exact ⟨hf.binary op _ _ hf', by simp [countIn, parts, children]; omega⟩
  | cond _ c a b =>
    obtain ⟨x₀, k₀, h₀, hy⟩ := StateT.bind_ok hy
    obtain ⟨x₁, k₁, h₁, hy⟩ := StateT.bind_ok hy
    obtain ⟨x₂, k₂, h₂, hy⟩ := StateT.bind_ok hy
    cases hy
    obtain ⟨hf₀, hk₀⟩ := lower_fits hs c h₀
    obtain ⟨hf₁, hk₁⟩ := lower_fits hs a h₁
    obtain ⟨hf₂, hk₂⟩ := lower_fits hs b h₂
    exact ⟨hf₀.cond hf₁ hf₂, by simp [countIn, parts, children]; omega⟩
  | field _ a name nullSafe =>
    obtain ⟨c, k, hc, hy⟩ := StateT.bind_ok hy
    cases hy
    obtain ⟨hf, hk⟩ := lower_fits hs a hc
    exact ⟨hf.field name nullSafe, by simpa [countIn, parts, children] using hk⟩
  | item _ a key nullSafe =>
    obtain ⟨c, k, hc, hy⟩ := StateT.bind_ok hy
    obtain ⟨d, l, hd, hy⟩ := StateT.bind_ok hy
    cases hy
    obtain ⟨hf, hk⟩ := lower_fits hs a hc
    obtain ⟨hf', hl⟩ := lower_fits hs key hd
    exact ⟨hf.item hf' nullSafe, by simp [countIn, parts, children]; omega⟩
  | list _ es =>
    obtain ⟨xs, k, hxs, hy⟩ := StateT.bind_ok hy
    cases hy
    obtain ⟨hf, hk⟩ := lowerAll_fits hs es hxs
    exact ⟨.ofValues hf fun _ _ h => h, hk⟩
  | map _ es =>
    obtain ⟨ks, k, hks, hy⟩ := StateT.bind_ok hy
    obtain ⟨vs, l, hvs, hy⟩ := StateT.bind_ok hy
    cases hy
    obtain ⟨hf, hk⟩ := lowerKeys_fits hs es hks
    obtain ⟨hf', hl⟩ := lowerValues_fits hs es hvs
    exact ⟨.map hf hf', by
      simp only [countIn, parts, List.map_append, List.sum_append] at hk hl ⊢; omega⟩
  | record _ fs =>
    obtain ⟨xs, k, hxs, hy⟩ := StateT.bind_ok hy
    cases hy
    obtain ⟨hf, hk⟩ := lowerFields_fits hs fs hxs
    exact ⟨.ofValues hf fun _ _ h => h, hk⟩
  | call _ name es =>
    by_cases hname : isLoopHelper name = true
    · simp only [hname, if_true] at hy
      obtain ⟨hl, rfl⟩ := lift_ok hy
      exact ⟨.loopHelper hs hl, by simp [parts, hname, countIn]⟩
    · simp only [hname, if_false, Bool.false_eq_true] at hy
      obtain ⟨f, k, hk, hcall⟩ := StateT.bind_ok hy
      obtain ⟨xs, l, hxs, hend⟩ := StateT.bind_ok hcall
      obtain ⟨_, rfl⟩ := lift_ok hk
      cases hend
      obtain ⟨hf, hl⟩ := lowerAll_fits hs es hxs
      exact ⟨.ofValues hf fun _ _ h => h, by simpa [parts, hname] using hl⟩

theorem lowerAll_fits {s : Scope} {see : Seeing} (hs : s.locals.Seen see) (es : List Expr)
    {under : Bool} {n n' : Nat} {xs : List (Term .boxed)}
    (h : lowerAll s under es n = .ok (xs, n')) :
    FitAll see n n' xs ∧ n' = n + countIn s under es := by
  match es with
  | [] => cases h; exact ⟨.nil see n, rfl⟩
  | e :: rest =>
    obtain ⟨x, k, hx, h⟩ := StateT.bind_ok h
    obtain ⟨ys, l, hys, h⟩ := StateT.bind_ok h
    cases h
    obtain ⟨hf, hk⟩ := lower_fits hs e hx
    obtain ⟨hr, hl⟩ := lowerAll_fits hs rest hys
    exact ⟨.cons hf hr, by simp only [countIn, List.map_cons, List.sum_cons] at hl ⊢; omega⟩

theorem lowerKeys_fits {s : Scope} {see : Seeing} (hs : s.locals.Seen see) (es : List (Expr × Expr))
    {under : Bool} {n n' : Nat} {xs : List (Term .boxed)}
    (h : lowerKeys s under es n = .ok (xs, n')) :
    FitAll see n n' xs ∧ n' = n + countIn s under (es.map (·.1)) := by
  match es with
  | [] => cases h; exact ⟨.nil see n, rfl⟩
  | (e, _) :: rest =>
    obtain ⟨x, k, hx, h⟩ := StateT.bind_ok h
    obtain ⟨ys, l, hys, h⟩ := StateT.bind_ok h
    cases h
    obtain ⟨hf, hk⟩ := lower_fits hs e hx
    obtain ⟨hr, hl⟩ := lowerKeys_fits hs rest hys
    exact ⟨.cons hf hr, by simp only [countIn, List.map_cons, List.sum_cons] at hl ⊢; omega⟩

theorem lowerValues_fits {s : Scope} {see : Seeing} (hs : s.locals.Seen see)
    (es : List (Expr × Expr)) {under : Bool} {n n' : Nat} {xs : List (Term .boxed)}
    (h : lowerValues s under es n = .ok (xs, n')) :
    FitAll see n n' xs ∧ n' = n + countIn s under (es.map (·.2)) := by
  match es with
  | [] => cases h; exact ⟨.nil see n, rfl⟩
  | (_, e) :: rest =>
    obtain ⟨x, k, hx, h⟩ := StateT.bind_ok h
    obtain ⟨ys, l, hys, h⟩ := StateT.bind_ok h
    cases h
    obtain ⟨hf, hk⟩ := lower_fits hs e hx
    obtain ⟨hr, hl⟩ := lowerValues_fits hs rest hys
    exact ⟨.cons hf hr, by simp only [countIn, List.map_cons, List.sum_cons] at hl ⊢; omega⟩

theorem lowerFields_fits {s : Scope} {see : Seeing} (hs : s.locals.Seen see)
    (fs : List (String × Expr)) {under : Bool} {n n' : Nat} {xs : List (Term .boxed)}
    (h : lowerFields s under fs n = .ok (xs, n')) :
    FitAll see n n' xs ∧ n' = n + countIn s under (fs.map (·.2)) := by
  match fs with
  | [] => cases h; exact ⟨.nil see n, rfl⟩
  | (_, e) :: rest =>
    obtain ⟨x, k, hx, h⟩ := StateT.bind_ok h
    obtain ⟨ys, l, hys, h⟩ := StateT.bind_ok h
    cases h
    obtain ⟨hf, hk⟩ := lower_fits hs e hx
    obtain ⟨hr, hl⟩ := lowerFields_fits hs rest hys
    exact ⟨.cons hf hr, by simp only [countIn, List.map_cons, List.sum_cons] at hl ⊢; omega⟩

end

end Expr

end Interlude
