import Interlude.Proofs.Read.Visit
import Interlude.Proofs.Term.Compile
/-!
# Code that keeps what it reads

A term is guarded if every read in it stands directly in a cell that keeps its result, and if
whatever decides over an operand is kept in a cell too. Operands that read nothing need no such
cells. With the conservative analyzer every expression without a join is compiled to guarded terms
(`compile_shielded`).
-/

namespace Interlude

namespace Term

/-- The cell that keeps what a decision is made by. -/
def held : {f : Form} → Term f → Option Nat
  | _, memo slot _ => some slot
  | _, truthy (memo slot _) => some slot
  | _, _ => none

/-- A read that is not in a cell. -/
def bare : {f : Form} → Term f → Bool
  | _, param _ _ => true
  | _, .local b => b.loop.isSome
  | _, field _ _ _ => true
  | _, item _ _ _ => true
  | _, _ => false

/-- Every read is in a cell, all cells are among the first `n`, and no term keeps anything in the
cell it is in itself. The locals with deferred values are seen. A term that is `calm` reads
nothing. -/
def Guarded (see : Seeing) (n : Nat) (calm : Bool) : {f : Form} → Term f → Prop
  | _, const _ _ | _, constInt _ | _, constFloat _ | _, constBool _ | _, constStr _ | _, cellInt _
  | _, cellFloat _ | _, cellBool _ | _, cellStr _ | _, isFirst _ | _, isLast _ _ | _, nil
  | _, noEntries => True
  | _, param _ _ => calm = false
  | _, .local b =>
    (b.loop = none → b.kind = .thunk → see b.slot) ∧ (calm = true → b.loop = none ∧ b.kind ≠ .thunk)
  | _, boxInt x | _, boxFloat x | _, boxBool x | _, boxStr x | _, unboxInt x | _, unboxFloat x
  | _, widen x | _, truthy x | _, textOfInt x | _, textOfFloat x | _, textOfBool x | _, text x
  | _, .not x | _, negInt x | _, negFloat x | _, neg x | _, list x | _, map x | _, record _ x =>
    x.bare = false ∧ x.Guarded see n calm
  | _, arithInt _ x y | _, arithFloat _ x y | _, arith _ x y | _, concat x y | _, compareInt _ x y
  | _, compareFloat _ x y | _, compareStr _ x y | _, compare _ x y | _, cons x y =>
    (x.bare = false ∧ x.Guarded see n calm) ∧ y.bare = false ∧ y.Guarded see n calm
  | _, both x y | _, either x y | _, coalesce x y =>
    (x.bare = false ∧ x.Guarded see n calm) ∧ y.bare = false ∧
      y.Guarded see n (calm || x.held.isNone)
  | _, cond c x y =>
    (c.bare = false ∧ c.Guarded see n calm) ∧
      (x.bare = false ∧ x.Guarded see n (calm || c.held.isNone)) ∧ y.bare = false ∧
      y.Guarded see n (calm || c.held.isNone)
  | _, field x _ _ => calm = false ∧ x.bare = false ∧ x.Guarded see n calm
  | _, item x key _ =>
    calm = false ∧ (x.bare = false ∧ x.Guarded see n calm) ∧ key.bare = false ∧
      key.Guarded see n (calm || x.held.isNone)
  | _, call f args => f ≠ .join ∧ args.bare = false ∧ args.Guarded see n calm
  | _, memo slot x =>
    slot < n ∧ (∀ place, x.Touches (fun _ => True) (fun _ i _ => i ≠ slot) place) ∧
      x.Guarded see n calm
  | _, entry key x rest =>
    (key.bare = false ∧ key.Guarded see n calm) ∧ (x.bare = false ∧ x.Guarded see n calm) ∧
      rest.bare = false ∧ rest.Guarded see n calm

/-- A guarded term that may stand among operands. -/
structure Shielded (see : Seeing) (n : Nat) (calm : Bool) {f : Form} (x : Term f) : Prop where
  bare : x.bare = false
  guarded : x.Guarded see n calm

namespace Guarded

variable {see : Seeing} {n : Nat} {f : Form} {x : Term f}

/-- Nothing more is asked of a term that may read. -/
theorem weaken {calm : Bool} (h : x.Guarded see n true) : x.Guarded see n calm := by
  induction x generalizing calm with
  | const | constInt | constFloat | constBool | constStr | cellInt | cellFloat | cellBool | cellStr
  | isFirst | isLast | nil | noEntries => trivial
  | param | field | item => simp [Guarded] at h
  | «local» b => exact ⟨h.1, fun _ => h.2 rfl⟩
  | boxInt x ih | boxFloat x ih | boxBool x ih | boxStr x ih | unboxInt x ih | unboxFloat x ih
  | widen x ih | truthy x ih | textOfInt x ih | textOfFloat x ih | textOfBool x ih | text x ih
  | not x ih | negInt x ih | negFloat x ih | neg x ih | list x ih | map x ih | record _ x ih =>
    exact ⟨h.1, ih h.2⟩
  | arithInt _ x y ihx ihy | arithFloat _ x y ihx ihy | arith _ x y ihx ihy | concat x y ihx ihy
  | compareInt _ x y ihx ihy | compareFloat _ x y ihx ihy | compareStr _ x y ihx ihy
  | compare _ x y ihx ihy | cons x y ihx ihy =>
    exact ⟨⟨h.1.1, ihx h.1.2⟩, h.2.1, ihy h.2.2⟩
  | both x y ihx ihy | either x y ihx ihy | coalesce x y ihx ihy =>
    exact ⟨⟨h.1.1, ihx h.1.2⟩, h.2.1, ihy h.2.2⟩
  | cond c x y ihc ihx ihy =>
    exact ⟨⟨h.1.1, ihc h.1.2⟩, ⟨h.2.1.1, ihx h.2.1.2⟩, h.2.2.1, ihy h.2.2.2⟩
  | call g args ih => exact ⟨h.1, h.2.1, ih h.2.2⟩
  | memo slot x ih => exact ⟨h.1, h.2.1, ih h.2.2⟩
  | entry k x r ihk ihx ihr =>
    exact ⟨⟨h.1.1, ihk h.1.2⟩, ⟨h.2.1.1, ihx h.2.1.2⟩, h.2.2.1, ihr h.2.2.2⟩

end Guarded

end Term

namespace Lowered

/-- The term is shielded, whatever its form. -/
def Shielded (see : Seeing) (n : Nat) (calm : Bool) : Lowered → Prop
  | boxed x => x.Shielded see n calm
  | int x => x.Shielded see n calm
  | float x => x.Shielded see n calm
  | bool x => x.Shielded see n calm
  | str x => x.Shielded see n calm

/-- The result is kept in a cell. -/
def Kept (x : Lowered) : Prop := ∃ slot y, x = boxed (.memo slot y)

namespace Shielded

variable {see : Seeing} {n : Nat} {calm : Bool} {x y c : Lowered}

theorem toBoxed (h : x.Shielded see n calm) : x.toBoxed.Shielded see n calm := by
  cases x with
  | boxed x => exact h
  | _ => exact ⟨rfl, h.bare, h.guarded⟩

theorem toInt (h : x.Shielded see n calm) : x.toInt.Shielded see n calm := by
  cases x with
  | int x => exact h
  | _ => exact ⟨rfl, h.toBoxed.bare, h.toBoxed.guarded⟩

theorem toFloat (h : x.Shielded see n calm) : x.toFloat.Shielded see n calm := by
  cases x with
  | float x => exact h
  | int x => exact ⟨rfl, h.bare, h.guarded⟩
  | _ => exact ⟨rfl, h.toBoxed.bare, h.toBoxed.guarded⟩

theorem toBool (h : x.Shielded see n calm) : x.toBool.Shielded see n calm := by
  cases x with
  | bool x => exact h
  | _ => exact ⟨rfl, h.toBoxed.bare, h.toBoxed.guarded⟩

theorem toStr (h : x.Shielded see n calm) : x.toStr.Shielded see n calm := by
  cases x with
  | str x => exact h
  | _ => exact ⟨rfl, h.bare, h.guarded⟩

theorem weaken (h : x.Shielded see n true) : x.Shielded see n calm := by
  cases x <;> exact ⟨h.bare, h.guarded.weaken⟩

theorem unary (op : UnaryOp) (t : StaticType) (hx : x.Shielded see n calm) :
    (Lowered.unary op t x).Shielded see n calm := by
  cases op with
  | not => exact ⟨rfl, hx.toBool.bare, hx.toBool.guarded⟩
  | neg =>
    unfold Lowered.unary
    simp only
    split
    · exact ⟨rfl, hx.toInt.bare, hx.toInt.guarded⟩
    · split
      · exact ⟨rfl, hx.toFloat.bare, hx.toFloat.guarded⟩
      · exact ⟨rfl, hx.toBoxed.bare, hx.toBoxed.guarded⟩

theorem arith (op : Arith) (t u : StaticType) (hx : x.Shielded see n calm)
    (hy : y.Shielded see n calm) :
    (Lowered.arith op t u x y).Shielded see n calm := by
  have ints : (Lowered.int (.arithInt op x.toInt y.toInt)).Shielded see n calm :=
    ⟨rfl, ⟨hx.toInt.bare, hx.toInt.guarded⟩, hy.toInt.bare, hy.toInt.guarded⟩
  have floats : (Lowered.float (.arithFloat op x.toFloat y.toFloat)).Shielded see n calm :=
    ⟨rfl, ⟨hx.toFloat.bare, hx.toFloat.guarded⟩, hy.toFloat.bare, hy.toFloat.guarded⟩
  have boxed : (Lowered.boxed (.arith op x.toBoxed y.toBoxed)).Shielded see n calm :=
    ⟨rfl, ⟨hx.toBoxed.bare, hx.toBoxed.guarded⟩, hy.toBoxed.bare, hy.toBoxed.guarded⟩
  have texts : (Lowered.str (.concat x.toStr y.toStr)).Shielded see n calm :=
    ⟨rfl, ⟨hx.toStr.bare, hx.toStr.guarded⟩, hy.toStr.bare, hy.toStr.guarded⟩
  unfold Lowered.arith
  cases op <;> (simp only; split_ifs <;> assumption)

theorem comparison (op : Comparison) (t u : StaticType) (hx : x.Shielded see n calm)
    (hy : y.Shielded see n calm) :
    (Lowered.comparison op t u x y).Shielded see n calm := by
  unfold Lowered.comparison
  split
  · exact ⟨rfl, ⟨hx.toInt.bare, hx.toInt.guarded⟩, hy.toInt.bare, hy.toInt.guarded⟩
  · split
    · exact ⟨rfl, ⟨hx.toFloat.bare, hx.toFloat.guarded⟩, hy.toFloat.bare, hy.toFloat.guarded⟩
    · split
      · exact ⟨rfl, ⟨hx.toStr.bare, hx.toStr.guarded⟩, hy.toStr.bare, hy.toStr.guarded⟩
      · exact ⟨rfl, ⟨hx.toBoxed.bare, hx.toBoxed.guarded⟩, hy.toBoxed.bare, hy.toBoxed.guarded⟩

/-- What decides over an operand is kept, unless nothing is read there. -/
theorem decides (hk : calm = false → x.Kept) :
    (calm || x.toBool.held.isNone) = calm ∧ (calm || x.toBoxed.held.isNone) = calm := by
  cases calm with
  | true => exact ⟨rfl, rfl⟩
  | false =>
    obtain ⟨slot, y, rfl⟩ := hk rfl
    exact ⟨rfl, rfl⟩

theorem binary (op : BinaryOp) (t u : StaticType) (hx : x.Shielded see n calm)
    (hy : y.Shielded see n calm) (hk : calm = false → x.Kept) :
    (Lowered.binary op t u x y).Shielded see n calm := by
  obtain ⟨hbool, hboxed⟩ := decides hk
  cases op with
  | add => exact hx.arith .add t u hy
  | sub => exact hx.arith .sub t u hy
  | mul => exact hx.arith .mul t u hy
  | div => exact hx.arith .div t u hy
  | mod => exact hx.arith .mod t u hy
  | eq => exact hx.comparison .eq t u hy
  | notEq => exact hx.comparison .notEq t u hy
  | less => exact hx.comparison .less t u hy
  | lessEq => exact hx.comparison .lessEq t u hy
  | greater => exact hx.comparison .greater t u hy
  | greaterEq => exact hx.comparison .greaterEq t u hy
  | and | or =>
    exact ⟨rfl, ⟨hx.toBool.bare, hx.toBool.guarded⟩, hy.toBool.bare,
      by rw [hbool]; exact hy.toBool.guarded⟩
  | coalesce =>
    exact ⟨rfl, ⟨hx.toBoxed.bare, hx.toBoxed.guarded⟩, hy.toBoxed.bare,
      by rw [hboxed]; exact hy.toBoxed.guarded⟩

theorem cond (hc : c.Shielded see n calm) (hx : x.Shielded see n calm) (hy : y.Shielded see n calm)
    (hk : calm = false → c.Kept) : (Lowered.cond c x y).Shielded see n calm := by
  obtain ⟨hbool, -⟩ := decides hk
  have hbranches {f : Form} {a b : Term f} (ha : a.Shielded see n calm)
    (hb : b.Shielded see n calm) :
      (Term.cond c.toBool a b).Shielded see n calm :=
    ⟨rfl, ⟨hc.toBool.bare, hc.toBool.guarded⟩, ⟨ha.bare, by rw [hbool]; exact ha.guarded⟩, hb.bare,
      by rw [hbool]; exact hb.guarded⟩
  unfold Lowered.cond
  split
  · exact hbranches hx hy
  · exact hbranches hx hy
  · exact hbranches hx.toBoxed hy.toBoxed

theorem ofLiteral (v : Value) (plain : v.holdsFuture = false) :
    (Lowered.ofLiteral v plain).Shielded see n calm := by
  cases v <;> exact ⟨rfl, trivial⟩

theorem loopHelper {s : Expr.Scope} {name : String} {args : List Expr}
    (h : Expr.loopHelper s name args = .ok x) :
    x.Shielded see n calm := by
  unfold Expr.loopHelper at h
  split at h
  · split at h
    · split at h
      · cases h; exact ⟨rfl, trivial⟩
      · split at h <;> cases h <;> exact ⟨rfl, trivial⟩
    · cases h
  · cases h
  · cases h

end Shielded

/-- A local whose value is known is read from a cell of its own form. -/
theorem shielded_ofBinding {n : Nat} {b : Binding} (hl : b.loop = none)
    (hk : b.kind.isSettled = true) (see : Seeing) (calm : Bool) :
    (ofBinding b).Shielded see n calm := by
  have hthunk : b.kind ≠ .thunk := by
    rintro hkind
    rw [hkind] at hk
    cases hk
  unfold ofBinding
  simp only [hl, Option.isSome_none, Bool.false_eq_true, if_false]
  split
  · exact ⟨rfl, trivial⟩
  · exact ⟨rfl, trivial⟩
  · exact ⟨rfl, trivial⟩
  · exact ⟨rfl, trivial⟩
  · exact ⟨by simp [Term.bare, hl], fun _ h => (hthunk h).elim, fun _ => ⟨hl, hthunk⟩⟩

/-- Any local that is seen is read in a guarded way, if it may be read at all. -/
theorem guarded_ofBinding {see : Seeing} {n : Nat} {b : Binding} (hb : see b.slot) :
    (ofBinding b).toBoxed.Guarded see n false := by
  unfold ofBinding
  split
  · exact ⟨fun _ _ => hb, fun h => by cases h⟩
  · split
    · exact ⟨rfl, trivial⟩
    · exact ⟨rfl, trivial⟩
    · exact ⟨rfl, trivial⟩
    · exact ⟨rfl, trivial⟩
    · exact ⟨fun _ _ => hb, fun h => by cases h⟩

end Lowered

namespace Expr

/-- A function of that name is called somewhere in the expression. -/
inductive Calls (name : String) : Expr → Prop where
  | here {t : StaticType} {es : List Expr} : Calls name (call t name es)
  | part {e c : Expr} (hc : c ∈ e.children) (h : Calls name c) : Calls name e

theorem parts_subset_children {e c : Expr} (hc : c ∈ e.parts) : c ∈ e.children := by
  cases e with
  | map _ es =>
    simp only [parts, List.mem_append, List.mem_map] at hc
    simp only [children, List.mem_flatMap]
    rcases hc with ⟨kv, hkv, rfl⟩ | ⟨kv, hkv, rfl⟩
    · exact ⟨kv, hkv, by simp⟩
    · exact ⟨kv, hkv, by simp⟩
  | call _ name es =>
    simp only [parts] at hc
    split at hc
    · cases hc
    · exact hc
  | _ => exact hc

theorem sizeOf_lt_of_mem_children {e c : Expr} (hc : c ∈ e.children) : sizeOf c < sizeOf e := by
  cases e with
  | lit | param | var => cases hc
  | unary | field =>
    simp only [children, List.mem_singleton] at hc
    subst hc
    simp only [unary.sizeOf_spec, field.sizeOf_spec]
    omega
  | binary | item =>
    simp only [children, List.mem_cons, List.not_mem_nil, or_false] at hc
    rcases hc with rfl | rfl
    all_goals
      simp only [binary.sizeOf_spec, item.sizeOf_spec]
      omega
  | cond =>
    simp only [children, List.mem_cons, List.not_mem_nil, or_false] at hc
    rcases hc with rfl | rfl | rfl <;> simp <;> omega
  | list _ es | call _ _ es =>
    have := List.sizeOf_lt_of_mem (show c ∈ es from hc)
    simp
    omega
  | map _ es =>
    simp only [children, List.mem_flatMap] at hc
    obtain ⟨⟨k, v⟩, hkv, hc⟩ := hc
    have := List.sizeOf_lt_of_mem hkv
    simp only [List.mem_cons, List.not_mem_nil, or_false] at hc
    rcases hc with rfl | rfl <;> simp at this ⊢ <;> omega
  | record _ fs =>
    simp only [children, List.mem_map] at hc
    obtain ⟨⟨name, v⟩, hv, rfl⟩ := hc
    have := List.sizeOf_lt_of_mem hv
    simp at this ⊢
    omega

/-- What holds of an expression if it holds of its parts holds of every expression. -/
theorem of_parts {P : Expr → Prop} (h : ∀ e, (∀ c ∈ e.parts, P c) → P e) (e : Expr) : P e :=
  h e fun c hc =>
    have : sizeOf c < sizeOf e := sizeOf_lt_of_mem_children (parts_subset_children hc)
    of_parts h c
termination_by sizeOf e

theorem reads_subset_readsAll {c : Expr} {es : List Expr} (hc : c ∈ es) :
    c.reads ⊆ readsAll es := by
  induction es with
  | nil => cases hc
  | cons e rest ih =>
    rcases List.mem_cons.1 hc with rfl | hc
    · exact List.subset_append_left _ _
    · exact List.subset_append_of_subset_right _ (ih hc)

theorem readsEntries_eq (es : List (Expr × Expr)) :
    readsEntries es = readsAll (es.flatMap fun (k, v) => [k, v]) := by
  induction es with
  | nil => rfl
  | cons e rest ih => simp [readsEntries, readsAll, ih]

theorem readsFields_eq (fs : List (String × Expr)) : readsFields fs = readsAll (fs.map (·.2)) := by
  induction fs with
  | nil => rfl
  | cons f rest ih => simp [readsFields, readsAll, ih]

/-- An expression reads what is read in it. -/
theorem reads_subset {e c : Expr} (hc : c ∈ e.children) : c.reads ⊆ e.reads := by
  have hall : e.reads = readsAll e.children ∨ e.children = [] := by
    cases e with
    | lit | param | var => exact .inr rfl
    | unary | field | binary | item | cond => exact .inl (by simp [reads, children, readsAll])
    | list | call => exact .inl rfl
    | map _ es => exact .inl (readsEntries_eq es)
    | record _ fs => exact .inl (readsFields_eq fs)
  rcases hall with hall | hnone
  · rw [hall]
    exact reads_subset_readsAll hc
  · rw [hnone] at hc
    cases hc

theorem not_calls_part {name : String} {e c : Expr} (h : ¬e.Calls name) (hc : c ∈ e.parts) :
    ¬c.Calls name :=
  fun hcall => h (.part (parts_subset_children hc) hcall)

/-! ## Lowering -/

/-- The locals that an expression reads are seen. -/
def Sees (s : Scope) (see : Seeing) (e : Expr) : Prop := ∀ name ∈ e.reads, ∀ b,
    s.locals.lookup name = some b → see b.slot

/-- The code of an expression, whose cells end before cell `n`, is shielded, and kept if the
expression around it may wait. -/
def Lowers (s : Scope) (see : Seeing) (n : Nat) (e : Expr) : Prop :=
  ∀ (under : Bool) (k k' : Nat) (x : Lowered), e.lower s under k = .ok (x, k') → k' ≤ n →
    x.Shielded see n (!s.may e) ∧ (under = true → x.Kept)

theorem seen_everywhere (ls : Locals) : ls.Seen fun _ => True :=
  fun _ _ _ => ⟨trivial, fun _ _ _ => ⟨trivial, trivial⟩⟩

section

variable {s : Scope} {see : Seeing} {n : Nat}

theorem lower_le {e : Expr} {under : Bool} {k k' : Nat} {x : Lowered}
    (h : e.lower s under k = .ok (x, k')) : k ≤ k' :=
  (lower_fits (seen_everywhere s.locals) e h).1.le

/-- The code of the parts of an expression suits the expression. -/
theorem Lowers.part {e c : Expr} (h : c.Lowers s see n) (hc : c ∈ e.parts) {k k' : Nat}
    {x : Lowered} (hx : c.lower s (s.may e) k = .ok (x, k')) (hn : k' ≤ n) :
    x.Shielded see n (!s.may e) ∧ ((!s.may e) = false → x.Kept) := by
  obtain ⟨hshield, hkept⟩ := h _ _ _ _ hx hn
  refine ⟨?_, fun he => hkept (by simpa using he)⟩
  cases hmay : s.may e with
  | true =>
    cases hmay' : s.may c with
    | true => simpa [hmay'] using hshield
    | false => exact Lowered.Shielded.weaken (by simpa [hmay'] using hshield)
  | false =>
    rw [may_parts hmay c hc] at hshield
    exact hshield

theorem lowerAll_shielded {may : Bool} {es : List Expr}
    (h : ∀ c ∈ es, ∀ {k k' : Nat} {x : Lowered}, c.lower s may k = .ok (x, k') → k' ≤ n →
      x.Shielded see n (!may)) {k k' : Nat} {xs : List (Term .boxed)}
    (hxs : lowerAll s may es k = .ok (xs, k')) (hn : k' ≤ n) :
    ∀ x ∈ xs, x.Shielded see n (!may) := by
  induction es generalizing k xs with
  | nil => cases hxs; exact fun _ hx => by cases hx
  | cons e rest ih =>
    obtain ⟨x, l, hx, hrest⟩ := StateT.bind_ok hxs
    obtain ⟨ys, l', hys, hend⟩ := StateT.bind_ok hrest
    cases hend
    have hle : l ≤ k' := (lowerAll_fits (seen_everywhere s.locals) rest hys).1.le
    refine List.forall_mem_cons.2 ⟨(h e (by simp) hx (Nat.le_trans hle hn)).toBoxed, ?_⟩
    exact ih (fun c hc => h c (by simp [hc])) hys

theorem shielded_valueList {calm : Bool} {xs : List (Term .boxed)}
    (h : ∀ x ∈ xs, x.Shielded see n calm) :
    (valueList xs).Shielded see n calm := by
  induction xs with
  | nil => exact ⟨rfl, trivial⟩
  | cons x rest ih =>
    obtain ⟨hx, hrest⟩ := List.forall_mem_cons.1 h
    have hr := ih hrest
    exact ⟨rfl, ⟨hx.bare, hx.guarded⟩, hr.bare, hr.guarded⟩

theorem shielded_pairEntries {calm : Bool} {ks vs : List (Term .boxed)}
    (hk : ∀ x ∈ ks, x.Shielded see n calm) (hv : ∀ x ∈ vs, x.Shielded see n calm) :
    (pairEntries ks vs).Shielded see n calm := by
  induction ks generalizing vs with
  | nil => exact ⟨rfl, trivial⟩
  | cons k ks ih =>
    cases vs with
    | nil => exact ⟨rfl, trivial⟩
    | cons v vs =>
      obtain ⟨hkey, hks⟩ := List.forall_mem_cons.1 hk
      obtain ⟨hval, hvs⟩ := List.forall_mem_cons.1 hv
      have hr := ih hks hvs
      exact ⟨rfl, ⟨hkey.bare, hkey.guarded⟩, ⟨hval.bare, hval.guarded⟩, hr.bare, hr.guarded⟩

/-- The last step of a term: whatever may wait is kept. -/
theorem keepIf_shielded {may under : Bool} {act : Lowering Lowered} {k k' : Nat} {x : Lowered}
    (h : keepIf (may || under) act k = .ok (x, k')) (hn : k' ≤ n)
    (hact : ∀ y m, act k = .ok (y, m) → m ≤ n → y.Fits (fun _ => True) k m ∧
      (y.Shielded see n (!may) ∨ may = true ∧ y.toBoxed.Guarded see n false)) :
    x.Shielded see n (!may) ∧ (under = true → x.Kept) := by
  obtain ⟨y, m, hy, hx⟩ := StateT.bind_ok h
  cases hneed : may || under with
  | true =>
    rw [hneed] at hx
    cases hx
    obtain ⟨hfit, hguard⟩ := hact y m hy (Nat.le_of_succ_le hn)
    have hg : y.toBoxed.Guarded see n (!may) := by
      rcases hguard with hs | ⟨rfl, hg⟩
      · exact hs.toBoxed.guarded
      · exact hg
    refine ⟨⟨rfl, hn, fun place => ?_, hg⟩, fun _ => ⟨m, y.toBoxed, rfl⟩⟩
    obtain ⟨table, ht⟩ := hfit.touches place
    exact ht.toBoxed.mono (fun _ h => h) fun _ i _ hi => Nat.ne_of_lt hi.2.1
  | false =>
    rw [hneed] at hx
    cases hx
    obtain ⟨rfl, rfl⟩ := Bool.or_eq_false_iff.1 hneed
    obtain ⟨_, hguard⟩ := hact _ _ hy hn
    exact ⟨hguard.resolve_right (fun h => Bool.noConfusion h.1), fun h => Bool.noConfusion h⟩

theorem name_of_function {name : String} {count : Nat} {f : Function}
    (h : function name count = .ok f) :
    f.name = name := by
  unfold function at h
  split at h
  · cases h
  · next g hg =>
    split at h
    · cases h
      simpa using List.find?_some hg
    · cases h

/-- With the conservative analyzer, the code of an expression without a join is shielded. -/
theorem lower_shielded (ha : s.analyzer = .conservative) (n : Nat) (e : Expr) :
    ¬e.Calls "join" → e.Sees s see → e.Lowers s see n := by
  refine of_parts (P := fun e => ¬e.Calls "join" → e.Sees s see → e.Lowers s see n) ?_ e
  intro e ih hj hs under k k' x h hn
  have hmay : s.may e = e.maySuspend s.locals.settled := by
    unfold Scope.may
    rw [ha]
    rfl
  have hseen := seen_everywhere s.locals
  have hpart {c : Expr} (hc : c ∈ e.parts) {l l' : Nat} {z : Lowered}
      (hz : c.lower s (s.may e) l = .ok (z, l')) (hle : l' ≤ n) : z.Shielded see n (!s.may e) ∧
          ((!s.may e) = false → z.Kept) :=
    (ih c hc (not_calls_part hj hc) fun name hn =>
      hs name (reads_subset (parts_subset_children hc) hn)).part hc hz hle
  unfold lower at h
  refine keepIf_shielded h hn fun y m hy hm => ?_
  cases e with
  | lit _ v plain => cases hy; exact ⟨.ofLiteral v plain, .inl (.ofLiteral v plain)⟩
  | param _ name injected => cases hy; exact ⟨.of_touches fun _ _ => trivial, .inr ⟨hmay, rfl⟩⟩
  | var _ name =>
    cases hb : s.locals.lookup name with
    | none => simp only [hb] at hy; cases hy
    | some b =>
      simp only [hb] at hy
      cases hy
      refine ⟨.ofBinding (hseen name b hb), ?_⟩
      cases hset : s.locals.settled name with
      | true =>
        have hknown := hset
        unfold Locals.settled at hknown
        simp only [hb, Bool.and_eq_true, Option.isNone_iff_eq_none] at hknown
        exact .inl (Lowered.shielded_ofBinding hknown.1 hknown.2 _ _)
      | false =>
        exact .inr ⟨by rw [hmay]; simp [maySuspend, hset],
          Lowered.guarded_ofBinding (hs name (by simp [reads]) b hb)⟩
  | unary _ op a =>
    obtain ⟨c, l, hc, hy⟩ := StateT.bind_ok hy
    cases hy
    have ha := hpart (by simp [parts, children]) hc hm
    exact ⟨(lower_fits hseen a hc).1.unary op _, .inl (ha.1.unary op _)⟩
  | binary _ op a b =>
    obtain ⟨c, l, hc, hy⟩ := StateT.bind_ok hy
    obtain ⟨d, l', hd, hy⟩ := StateT.bind_ok hy
    cases hy
    have ha := hpart (by simp [parts, children]) hc (Nat.le_trans (lower_le hd) hm)
    have hb := hpart (by simp [parts, children]) hd hm
    exact ⟨(lower_fits hseen a hc).1.binary op _ _ (lower_fits hseen b hd).1,
      .inl (ha.1.binary op _ _ hb.1 ha.2)⟩
  | cond _ c a b =>
    obtain ⟨x₀, k₀, h₀, hy⟩ := StateT.bind_ok hy
    obtain ⟨x₁, k₁, h₁, hy⟩ := StateT.bind_ok hy
    obtain ⟨x₂, k₂, h₂, hy⟩ := StateT.bind_ok hy
    cases hy
    have hm₁ := Nat.le_trans (lower_le h₂) hm
    have hc := hpart (by simp [parts, children]) h₀ (Nat.le_trans (lower_le h₁) hm₁)
    have ha := hpart (by simp [parts, children]) h₁ hm₁
    have hb := hpart (by simp [parts, children]) h₂ hm
    exact ⟨(lower_fits hseen c h₀).1.cond (lower_fits hseen a h₁).1 (lower_fits hseen b h₂).1,
      .inl (hc.1.cond ha.1 hb.1 hc.2)⟩
  | field _ a name nullSafe =>
    obtain ⟨c, l, hc, hy⟩ := StateT.bind_ok hy
    cases hy
    have ha := hpart (by simp [parts, children]) hc hm
    rw [show s.may _ = true from hmay] at ha
    exact ⟨(lower_fits hseen a hc).1.field name nullSafe,
      .inr ⟨hmay, rfl, ha.1.toBoxed.bare, ha.1.toBoxed.guarded⟩⟩
  | item _ a key nullSafe =>
    obtain ⟨c, l, hc, hy⟩ := StateT.bind_ok hy
    obtain ⟨d, l', hd, hy⟩ := StateT.bind_ok hy
    cases hy
    have ha := hpart (by simp [parts, children]) hc (Nat.le_trans (lower_le hd) hm)
    have hb := hpart (by simp [parts, children]) hd hm
    rw [show s.may _ = true from hmay] at ha hb
    refine ⟨(lower_fits hseen a hc).1.item (lower_fits hseen key hd).1 nullSafe, .inr ⟨hmay, rfl,
      ⟨ha.1.toBoxed.bare, ha.1.toBoxed.guarded⟩, hb.1.toBoxed.bare, ?_⟩⟩
    rw [show (false || c.toBoxed.held.isNone) = false from (Lowered.Shielded.decides ha.2).2]
    exact hb.1.toBoxed.guarded
  | list _ es =>
    obtain ⟨xs, l, hxs, hy⟩ := StateT.bind_ok hy
    cases hy
    have hall := shielded_valueList
      (lowerAll_shielded (fun c hc _ _ _ hx hle => (hpart hc hx hle).1) hxs hm)
    exact ⟨.ofValues (lowerAll_fits hseen es hxs).1 fun _ _ h =>
      h, .inl ⟨rfl, hall.bare, hall.guarded⟩⟩
  | map t es =>
    obtain ⟨ks, l, hks, hy⟩ := StateT.bind_ok hy
    obtain ⟨vs, l', hvs, hy⟩ := StateT.bind_ok hy
    cases hy
    have hfit := lowerKeys_fits hseen es hks
    have hfit' := lowerValues_fits hseen es hvs
    rw [lowerKeys_eq] at hks
    rw [lowerValues_eq] at hvs
    have hmem {c : Expr} (hc : c ∈ es.map (·.1) ++ es.map (·.2)) {k k' : Nat} {x : Lowered}
        (hx : c.lower s (s.may (.map t es)) k = .ok (x, k')) (hle : k' ≤ n) := (hpart hc hx hle).1
    have hall := shielded_pairEntries
      (lowerAll_shielded (fun c hc _ _ _ => hmem (List.mem_append_left _ hc)) hks
        (Nat.le_trans hfit'.1.le hm))
      (lowerAll_shielded (fun c hc _ _ _ => hmem (List.mem_append_right _ hc)) hvs hm)
    exact ⟨.map hfit.1 hfit'.1, .inl ⟨rfl, hall.bare, hall.guarded⟩⟩
  | record _ fs =>
    obtain ⟨xs, l, hxs, hy⟩ := StateT.bind_ok hy
    cases hy
    have hfit := lowerFields_fits hseen fs hxs
    rw [lowerFields_eq] at hxs
    have hall := shielded_valueList
      (lowerAll_shielded (fun c hc _ _ _ hx hle => (hpart hc hx hle).1) hxs hm)
    exact ⟨.ofValues hfit.1 fun _ _ h => h, .inl ⟨rfl, hall.bare, hall.guarded⟩⟩
  | call t name es =>
    by_cases hname : isLoopHelper name = true
    · simp only [hname, if_true] at hy
      obtain ⟨hl, rfl⟩ := lift_ok hy
      exact ⟨.loopHelper hseen hl, .inl (.loopHelper hl)⟩
    · simp only [hname, if_false, Bool.false_eq_true] at hy
      obtain ⟨f, l, hlift, hcall⟩ := StateT.bind_ok hy
      obtain ⟨xs, l', hxs, hend⟩ := StateT.bind_ok hcall
      obtain ⟨hf, rfl⟩ := lift_ok hlift
      cases hend
      have hmem {c : Expr} (hc : c ∈ es) :
        c ∈ (Expr.call t name es).parts := by simpa [parts, hname] using hc
      have hall := shielded_valueList (lowerAll_shielded
        (fun c hc _ _ _ hx hle => (hpart (hmem hc) hx hle).1) hxs hm)
      refine ⟨.ofValues (lowerAll_fits hseen es hxs).1 fun _ _ h =>
        h, .inl ⟨rfl, ?_, hall.bare, hall.guarded⟩⟩
      rintro rfl
      refine hj ?_
      rw [show name = "join" from (name_of_function hf).symm]
      exact .here

/-- With the conservative analyzer, an expression without a join is compiled to code that keeps what
it reads. -/
theorem compile_shielded (ha : s.analyzer = .conservative) {e : Expr} (hj : ¬e.Calls "join")
    (hsees : e.Sees s see) {slots slots' : Slots} (hw : slots.Wf) {c : Compiled}
    (h : e.compile s slots = .ok (c, slots')) (hn : slots'.size ≤ n) :
    c.root.toBoxed.Shielded see n false := by
  obtain ⟨hgrows, hfit⟩ := compile_fits hw (seen_everywhere s.locals) h
  have hmark : slots'.mark ≤ n := Nat.le_trans hgrows.wf.size hn
  have hlower (k k' : Nat) (hk : (e.lower s false).run k = .ok (c.root, k')) (hle : k' ≤ n) :
      c.root.toBoxed.Shielded see n false := by
    have hs := ((lower_shielded ha n e hj hsees) _ _ _ _ hk hle).1.toBoxed
    cases hmay : s.may e with
    | true => simpa [hmay] using hs
    | false => exact ⟨hs.bare, Term.Guarded.weaken (by simpa [hmay] using hs.guarded)⟩
  unfold compile at h
  simp only at h
  split at h
  · next hwidth =>
    obtain ⟨⟨root, k'⟩, hl, hend⟩ := Except.bind_ok h
    cases hend
    have hcount := (lower_fits (seen_everywhere s.locals) e hl).2
    exact hlower 0 k' hl (by omega)
  · next hwidth =>
    obtain ⟨⟨root, k'⟩, hl, hend⟩ := Except.bind_ok h
    cases hend
    obtain ⟨hstart, hnext, _⟩ := hw.anonymous .memo (e.countMemo s false)
    have hcount := (lower_fits (seen_everywhere s.locals) e hl).2
    exact hlower _ k' hl (by omega)

end

end Expr

/-- The same holds of the code of a deferred value, which has cells of its own. -/
theorem ThunkCode.compile_shielded {s : Expr.Scope} (ha : s.analyzer = .conservative) {e : Expr}
    (hj : ¬e.Calls "join") {t : ThunkCode} (h : compile s e = .ok t) :
    t.code.root.toBoxed.Shielded (fun _ => True) t.size false := by
  unfold compile at h
  obtain ⟨⟨slots, inner, copies⟩, hcap, h⟩ := Except.bind_ok h
  obtain ⟨⟨code, slots'⟩, hcode, h⟩ := Except.bind_ok h
  cases h
  obtain ⟨hgrows, -⟩ :=
    capture_fits (Expr.seen_everywhere s.locals) e.vars Slots.new_wf (Locals.seen_empty _)
      (fun _ hc => by cases hc) hcap
  exact Expr.compile_shielded (s := { s with locals := inner }) ha hj (fun _ _ _ _ => trivial)
    hgrows.wf hcode (Nat.le_refl _)

end Interlude
