import Interlude.Render.Operand
/-!
# The cells that code touches

Which cells a term reads and in which it keeps results. Both are said by predicates: `see` of a cell
that is read, `keep` of a cell in which the result of a term at a place is kept. The predicates of
operands and of whole instructions are put together from those of their terms (`Op.Touches`).
-/

namespace Interlude

/-- What is asked of a cell that is read. -/
abbrev Seeing := Nat → Prop

/-- What is asked of a cell that keeps the result of a term that stands at a place. -/
abbrev Keeping := List Nat → Nat → Term .boxed → Prop

/-- What the cells of code are for: the term, and its place, whose result a cell keeps. -/
abbrev Table := Nat → Option (List Nat × Term .boxed)

/-- The cells of a local. -/
def Binding.Touches (see : Seeing) (b : Binding) : Prop :=
  see b.slot ∧ ∀ index length, b.loop = some (index, length) → see index

/-- All cells a term reads are as `see` says, and all cells it keeps results in as `keep` says. -/
def Term.Touches (see : Seeing) (keep : Keeping) : {f : Form} → (place : List Nat) → Term f → Prop
  | _, _, const _ _ => True
  | _, _, constInt _ => True
  | _, _, constFloat _ => True
  | _, _, constBool _ => True
  | _, _, constStr _ => True
  | _, _, param _ _ => True
  | _, _, .local b => b.Touches see
  | _, _, cellInt slot => see slot
  | _, _, cellFloat slot => see slot
  | _, _, cellBool slot => see slot
  | _, _, cellStr slot => see slot
  | _, _, isFirst index => see index
  | _, _, isLast index length => see index ∧ see length
  | _, p, boxInt x => x.Touches see keep p
  | _, p, boxFloat x => x.Touches see keep p
  | _, p, boxBool x => x.Touches see keep p
  | _, p, boxStr x => x.Touches see keep p
  | _, p, unboxInt x => x.Touches see keep p
  | _, p, unboxFloat x => x.Touches see keep p
  | _, p, widen x => x.Touches see keep p
  | _, p, truthy x => x.Touches see keep p
  | _, p, textOfInt x => x.Touches see keep p
  | _, p, textOfFloat x => x.Touches see keep p
  | _, p, textOfBool x => x.Touches see keep p
  | _, p, text x => x.Touches see keep p
  | _, p, .not x => x.Touches see keep p
  | _, p, negInt x => x.Touches see keep p
  | _, p, negFloat x => x.Touches see keep p
  | _, p, neg x => x.Touches see keep p
  | _, p, arithInt _ x y => x.Touches see keep (0 :: p) ∧ y.Touches see keep (1 :: p)
  | _, p, arithFloat _ x y => x.Touches see keep (0 :: p) ∧ y.Touches see keep (1 :: p)
  | _, p, arith _ x y => x.Touches see keep (0 :: p) ∧ y.Touches see keep (1 :: p)
  | _, p, concat x y => x.Touches see keep (0 :: p) ∧ y.Touches see keep (1 :: p)
  | _, p, both x y => x.Touches see keep (0 :: p) ∧ y.Touches see keep (1 :: p)
  | _, p, either x y => x.Touches see keep (0 :: p) ∧ y.Touches see keep (1 :: p)
  | _, p, coalesce x y => x.Touches see keep (0 :: p) ∧ y.Touches see keep (1 :: p)
  | _, p, compareInt _ x y => x.Touches see keep (0 :: p) ∧ y.Touches see keep (1 :: p)
  | _, p, compareFloat _ x y => x.Touches see keep (0 :: p) ∧ y.Touches see keep (1 :: p)
  | _, p, compareStr _ x y => x.Touches see keep (0 :: p) ∧ y.Touches see keep (1 :: p)
  | _, p, compare _ x y => x.Touches see keep (0 :: p) ∧ y.Touches see keep (1 :: p)
  | _, p, cond c x y =>
    c.Touches see keep (0 :: p) ∧ x.Touches see keep (1 :: p) ∧ y.Touches see keep (2 :: p)
  | _, p, field x _ _ => x.Touches see keep p
  | _, p, item x key _ => x.Touches see keep (0 :: p) ∧ key.Touches see keep (1 :: p)
  | _, p, list items => items.Touches see keep (0 :: p)
  | _, p, map entries => entries.Touches see keep (0 :: p)
  | _, p, record _ values => values.Touches see keep (0 :: p)
  | _, p, call _ args => args.Touches see keep (0 :: p)
  | _, p, memo slot x => keep p slot x ∧ x.Touches see keep p
  | _, _, nil => True
  | _, p, cons x rest => x.Touches see keep (0 :: p) ∧ rest.Touches see keep (1 :: p)
  | _, _, noEntries => True
  | _, p, entry key x rest =>
    key.Touches see keep (0 :: p) ∧ x.Touches see keep (1 :: p) ∧ rest.Touches see keep (2 :: p)

/-- A term that touches its cells as said touches them in any weaker sense. What is kept is the
result of a term that touches its own cells as said. -/
theorem Term.Touches.refine {see see' : Seeing} {keep keep' : Keeping} (hs : ∀ i, see i → see' i)
    (hk : ∀ p i x, keep p i x → x.Touches see keep p → keep' p i x) {f : Form}
    {place : List Nat} {x : Term f} (h : x.Touches see keep place) :
    x.Touches see' keep' place := by
  have hb (b : Binding) (h : b.Touches see) : b.Touches see' :=
    ⟨hs _ h.1, fun i l hl => hs _ (h.2 i l hl)⟩
  induction x generalizing place with
  | «local» b => exact hb b h
  | memo slot x ih => exact ⟨hk _ _ _ h.1 h.2, ih h.2⟩
  | cellInt | cellFloat | cellBool | cellStr | isFirst => exact hs _ h
  | isLast => exact ⟨hs _ h.1, hs _ h.2⟩
  | cond c x y ihc ihx ihy => exact ⟨ihc h.1, ihx h.2.1, ihy h.2.2⟩
  | entry k x r ihk ihx ihr => exact ⟨ihk h.1, ihx h.2.1, ihr h.2.2⟩
  | const | constInt | constFloat | constBool | constStr | param | nil | noEntries => trivial
  | boxInt x ih | boxFloat x ih | boxBool x ih | boxStr x ih | unboxInt x ih | unboxFloat x ih
  | widen x ih | truthy x ih | textOfInt x ih | textOfFloat x ih | textOfBool x ih | text x ih
  | not x ih | negInt x ih | negFloat x ih | neg x ih => exact ih h
  | field x n s ih => exact ih h
  | list x ih | map x ih => exact ih h
  | record n x ih | call f x ih => exact ih h
  | _ => exact ⟨by rename_i ih _; exact ih h.1, by rename_i ih; exact ih h.2⟩

theorem Term.Touches.mono {see see' : Seeing} {keep keep' : Keeping} (hs : ∀ i, see i → see' i)
    (hk : ∀ p i x, keep p i x → keep' p i x) {f : Form} {place : List Nat} {x : Term f}
    (h : x.Touches see keep place) : x.Touches see' keep' place :=
  h.refine hs fun p i x hx _ => hk p i x hx

section

variable (see : Seeing) (keep : Keeping) (place : List Nat)

/-- The cells of a term whatever its form. -/
def Lowered.Touches : Lowered → Prop
  | .boxed x => x.Touches see keep place
  | .int x => x.Touches see keep place
  | .float x => x.Touches see keep place
  | .bool x => x.Touches see keep place
  | .str x => x.Touches see keep place

/-- The cells of a compiled expression that stands at a place of its instruction. -/
def Compiled.Touches (c : Compiled) : Prop := c.root.Touches see keep place

end

namespace Lowered.Touches

variable {see : Seeing} {keep : Keeping} {place : List Nat} {x : Lowered}

/-! A change of form reads and keeps nothing of its own. -/

theorem toBoxed (h : x.Touches see keep place) : x.toBoxed.Touches see keep place := by
  cases x <;> exact h

theorem toInt (h : x.Touches see keep place) : x.toInt.Touches see keep place := by
  cases x <;> exact h

theorem toFloat (h : x.Touches see keep place) : x.toFloat.Touches see keep place := by
  cases x <;> exact h

theorem toBool (h : x.Touches see keep place) : x.toBool.Touches see keep place := by
  cases x <;> exact h

theorem toStr (h : x.Touches see keep place) : x.toStr.Touches see keep place := by
  cases x <;> exact h

theorem refine {see' : Seeing} {keep' : Keeping} (hs : ∀ i, see i → see' i)
    (hk : ∀ p i x, keep p i x → x.Touches see keep p → keep' p i x) (h : x.Touches see keep place) :
    x.Touches see' keep' place := by
  cases x <;> exact Term.Touches.refine hs hk h

theorem mono {see' : Seeing} {keep' : Keeping} (hs : ∀ i, see i → see' i)
    (hk : ∀ p i x, keep p i x → keep' p i x) (h : x.Touches see keep place) :
    x.Touches see' keep' place :=
  h.refine hs fun p i x hx _ => hk p i x hx

end Lowered.Touches

/-! ## Operands -/

section

variable (see : Seeing) (keep : Keeping)

/-- The cells of expressions in a row. -/
def touchAll (place : List Nat) : List Compiled → Prop
  | [] => True
  | c :: rest => c.Touches see keep (0 :: place) ∧ touchAll (1 :: place) rest

/-- The cells of the arguments of filters. -/
def touchFilters (place : List Nat) : List FilterCall → Prop
  | [] => True
  | f :: rest => touchAll see keep (0 :: place) f.args ∧ touchFilters (1 :: place) rest

/-- The cells of an expression that may be missing. -/
def touchOption (place : List Nat) : Option Compiled → Prop
  | none => True
  | some c => c.Touches see keep place

/-- The cells of what a print evaluates. -/
def touchPrint (e : Compiled) : List FilterCall → Prop
  | [] => e.Touches see keep []
  | fs => e.Touches see keep [0] ∧ touchFilters see keep [1] fs

/-- The cells of a call's choice of a template. -/
def Callee.Touches : Callee → Prop
  | .template => True
  | .delegate variant _ => touchOption see keep [0] variant

/-- The cells of the data a call hands over. -/
def Passed.Touches : Passed → Prop
  | .record e => e.Touches see keep [1]
  | _ => True

/-- The cells of the arguments of a call. -/
def touchArguments (place : List Nat) : List Argument → Prop
  | [] => True
  | .content _ slot :: rest => see slot ∧ touchArguments (1 :: place) rest
  | .forward _ _ :: rest => touchArguments (1 :: place) rest
  | .value _ e :: rest => e.Touches see keep (0 :: place) ∧ touchArguments (1 :: place) rest

/-- The cells of all a call evaluates before it starts. -/
structure CallSite.Touches (site : CallSite) (filters : List FilterCall) : Prop where
  callee : site.callee.Touches see keep
  passed : site.passed.Touches see keep
  args : touchArguments see keep [2] site.args
  filters : touchFilters see keep [3] filters

/-- The cells of what an instruction evaluates. -/
def Op.Touches : Op → Prop
  | .print _ e filters => touchPrint see keep e filters
  | .jumpIfFalse e _ => e.Touches see keep []
  | .caseMatch slot values _ => see slot ∧ touchAll see keep [] values
  | .store _ _ e => e.Touches see keep []
  | .rangeInit _ start stop step =>
    touchOption see keep [0] start ∧ touchOption see keep [1] stop ∧ touchOption see keep [2] step
  | .eachInit _ e _ => e.Touches see keep [0]
  | .call _ _ site filters => site.Touches see keep filters
  | .beginWrap _ _ _ filters => touchFilters see keep [] filters
  | _ => True

end

/-! ## Weaker senses -/

section

variable {see see' : Seeing} {keep keep' : Keeping}

theorem touchAll_refine (hs : ∀ i, see i → see' i)
    (hk : ∀ p i x, keep p i x → x.Touches see keep p → keep' p i x) {place : List Nat}
    {cs : List Compiled} (h : touchAll see keep place cs) : touchAll see' keep' place cs := by
  induction cs generalizing place with
  | nil => trivial
  | cons c rest ih => exact ⟨h.1.refine hs hk, ih h.2⟩

theorem touchFilters_refine (hs : ∀ i, see i → see' i)
    (hk : ∀ p i x, keep p i x → x.Touches see keep p → keep' p i x) {place : List Nat}
    {fs : List FilterCall} (h : touchFilters see keep place fs) :
    touchFilters see' keep' place fs := by
  induction fs generalizing place with
  | nil => trivial
  | cons f rest ih => exact ⟨touchAll_refine hs hk h.1, ih h.2⟩

theorem touchOption_refine (hs : ∀ i, see i → see' i)
    (hk : ∀ p i x, keep p i x → x.Touches see keep p → keep' p i x) {place : List Nat}
    {c : Option Compiled} (h : touchOption see keep place c) : touchOption see' keep' place c := by
  cases c with
  | none => trivial
  | some c => exact Lowered.Touches.refine hs hk h

theorem touchPrint_refine (hs : ∀ i, see i → see' i)
    (hk : ∀ p i x, keep p i x → x.Touches see keep p → keep' p i x) {e : Compiled}
    {fs : List FilterCall} (h : touchPrint see keep e fs) : touchPrint see' keep' e fs := by
  cases fs with
  | nil => exact Lowered.Touches.refine hs hk h
  | cons f rest => exact ⟨h.1.refine hs hk, touchFilters_refine hs hk h.2⟩

theorem touchArguments_refine (hs : ∀ i, see i → see' i)
    (hk : ∀ p i x, keep p i x → x.Touches see keep p → keep' p i x) {place : List Nat}
    {args : List Argument} (h : touchArguments see keep place args) :
    touchArguments see' keep' place args := by
  induction args generalizing place with
  | nil => trivial
  | cons a rest ih =>
    cases a with
    | content name slot => exact ⟨hs _ h.1, ih h.2⟩
    | forward name param => exact ih h
    | value name e => exact ⟨h.1.refine hs hk, ih h.2⟩

theorem Passed.Touches.refine (hs : ∀ i, see i → see' i)
    (hk : ∀ p i x, keep p i x → x.Touches see keep p → keep' p i x) {what : Passed}
    (h : what.Touches see keep) : what.Touches see' keep' := by
  cases what with
  | record e => exact Lowered.Touches.refine hs hk h
  | _ => trivial

theorem Callee.Touches.refine (hs : ∀ i, see i → see' i)
    (hk : ∀ p i x, keep p i x → x.Touches see keep p → keep' p i x) {whom : Callee}
    (h : whom.Touches see keep) : whom.Touches see' keep' := by
  cases whom with
  | template => trivial
  | delegate variant allowEmpty => exact touchOption_refine hs hk h

theorem CallSite.Touches.refine (hs : ∀ i, see i → see' i)
    (hk : ∀ p i x, keep p i x → x.Touches see keep p → keep' p i x) {site : CallSite}
    {fs : List FilterCall} (h : site.Touches see keep fs) : site.Touches see' keep' fs :=
  ⟨h.callee.refine hs hk, h.passed.refine hs hk, touchArguments_refine hs hk h.args,
    touchFilters_refine hs hk h.filters⟩

theorem Op.Touches.refine (hs : ∀ i, see i → see' i)
    (hk : ∀ p i x, keep p i x → x.Touches see keep p → keep' p i x) {op : Op}
    (h : op.Touches see keep) : op.Touches see' keep' := by
  cases op with
  | print out e fs => exact touchPrint_refine hs hk h
  | jumpIfFalse e target => exact Lowered.Touches.refine hs hk h
  | caseMatch slot values target => exact ⟨hs _ h.1, touchAll_refine hs hk h.2⟩
  | store slot kind e => exact Lowered.Touches.refine hs hk h
  | rangeInit base start stop step =>
    exact ⟨touchOption_refine hs hk h.1, touchOption_refine hs hk h.2.1,
      touchOption_refine hs hk h.2.2⟩
  | eachInit base e target => exact Lowered.Touches.refine hs hk h
  | call out slot site fs => exact CallSite.Touches.refine hs hk h
  | beginWrap out slot _ fs => exact touchFilters_refine hs hk h
  | _ => trivial

theorem touchPrint_mono (hs : ∀ i, see i → see' i) (hk : ∀ p i x, keep p i x → keep' p i x)
    {e : Compiled} {fs : List FilterCall} (h : touchPrint see keep e fs) :
    touchPrint see' keep' e fs :=
  touchPrint_refine hs (fun p i x hx _ => hk p i x hx) h

theorem touchArguments_mono (hs : ∀ i, see i → see' i) (hk : ∀ p i x, keep p i x → keep' p i x)
    {place : List Nat} {args : List Argument} (h : touchArguments see keep place args) :
    touchArguments see' keep' place args :=
  touchArguments_refine hs (fun p i x hx _ => hk p i x hx) h

theorem CallSite.Touches.mono (hs : ∀ i, see i → see' i) (hk : ∀ p i x, keep p i x → keep' p i x)
    {site : CallSite} {fs : List FilterCall} (h : site.Touches see keep fs) :
    site.Touches see' keep' fs :=
  h.refine hs fun p i x hx _ => hk p i x hx

theorem Op.Touches.mono (hs : ∀ i, see i → see' i) (hk : ∀ p i x, keep p i x → keep' p i x)
    {op : Op} (h : op.Touches see keep) : op.Touches see' keep' :=
  h.refine hs fun p i x hx _ => hk p i x hx

end

end Interlude
