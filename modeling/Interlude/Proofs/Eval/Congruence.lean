import Interlude.Proofs.Term.Touch
/-!
# Evaluating in two ways

The same code can be evaluated by two strategies. If a relation between evaluations holds for the
few things evaluations are made of, and for what the strategies do with locals and with results to
be kept, then it holds for every term (`Congruence.term`) and for every operand of an instruction.
This is the only induction over terms: what evaluation keeps, how it resumes and what it means are
all told by relations of this kind.
-/

namespace Interlude

/-- A relation between evaluations that is kept by all that evaluations are made of. Cells are only
read as `see` says. -/
structure Compatible (R : (α : Type) → Eval α → Eval α → Prop) (see : Seeing) : Prop where
  pure : ∀ {α : Type} (a : α), R α (pure a) (pure a)
  bind : ∀ {α β : Type} {x y : Eval α} {f g : α → Eval β},
    R α x y → (∀ a, R β (f a) (g a)) → R β (x >>= f) (y >>= g)
  fail : ∀ {α : Type} (e : Failure), R α (Eval.fail e) (Eval.fail e)
  env : R Env read read
  resolve : ∀ v, R Value (Eval.resolve v) (Eval.resolve v)
  text : ∀ v, R String (Eval.text v) (Eval.text v)
  filtered : ∀ fs args v, R Value (Eval.filtered fs args v) (Eval.filtered fs args v)
  mapFailure : ∀ {α : Type} (change : Failure → Failure) {x y : Eval α},
    R α x y → R α (Eval.mapFailure change x) (Eval.mapFailure change y)
  cell : ∀ i, see i → R Cell (Eval.cell i) (Eval.cell i)

/-- The relation also holds for what two strategies do with locals and with results, which are only
kept as `keep` says. -/
structure Congruence (R : (α : Type) → Eval α → Eval α → Prop) (see : Seeing) (keep : Keeping)
    (s t : Strategy) : Prop extends Compatible R see where
  binding : ∀ b : Binding, b.Touches see → R Value (b.eval s.force) (b.eval t.force)
  memo : ∀ p i x, keep p i x → R Value (Term.eval s p x) (Term.eval t p x) →
    R Value (s.memo i (Term.eval s p x)) (t.memo i (Term.eval t p x))

theorem Compatible.weaken {R : (α : Type) → Eval α → Eval α → Prop} {see see' : Seeing}
    (h : Compatible R see) (hs : ∀ i, see' i → see i) : Compatible R see' :=
  { h with cell := fun i hi => h.cell i (hs i hi) }

/-- If the relation holds for what becomes of any deferred value in a cell that is read, it holds
for locals. -/
theorem Compatible.binding {R : (α : Type) → Eval α → Eval α → Prop} {see : Seeing}
    {force force' : ThunkId → Eval Value} (h : Compatible R see)
    (hf : ∀ i, see i → R Value (Eval.cell i >>= Cell.deferred force)
      (Eval.cell i >>= Cell.deferred force')) {b : Binding} (hb : b.Touches see) :
    R Value (b.eval force) (b.eval force') := by
  obtain ⟨slot, kind, loop⟩ := b
  cases loop with
  | some il =>
    refine h.bind (h.cell slot hb.1) fun c => ?_
    simp only
    split
    · exact h.bind (h.cell _ (hb.2 _ _ rfl)) fun _ => h.resolve _
    · exact h.pure _
  | none =>
    cases kind with
    | thunk => exact hf slot hb.1
    | _ => exact h.bind (h.cell slot hb.1) fun _ => h.pure _

/-- What may be read and kept may be narrowed down. -/
theorem Congruence.weaken {R : (α : Type) → Eval α → Eval α → Prop} {see see' : Seeing}
    {keep keep' : Keeping} {s t : Strategy} (h : Congruence R see keep s t)
    (hs : ∀ i, see' i → see i) (hk : ∀ p i x, keep' p i x → keep p i x) :
    Congruence R see' keep' s t where
  toCompatible := h.toCompatible.weaken hs
  binding b hb := h.binding b ⟨hs _ hb.1, fun i l hl => hs _ (hb.2 i l hl)⟩
  memo p i x hx := h.memo p i x (hk p i x hx)

namespace Congruence

variable {R : (α : Type) → Eval α → Eval α → Prop} {see : Seeing} {keep : Keeping} {s t : Strategy}

/-! ## The operations of values -/

theorem ofExcept (h : Congruence R see keep s t) {α : Type} (r : Except Failure α) :
    R α (Eval.ofExcept r) (Eval.ofExcept r) := by
  cases r with
  | ok a => exact h.pure a
  | error e => exact h.fail e

theorem origin (h : Congruence R see keep s t) (p : List Nat) :
    R Origin (Eval.origin p) (Eval.origin p) :=
  h.bind h.env fun _ => h.pure _

theorem newList (h : Congruence R see keep s t) (p : List Nat) (items : List Value) :
    R Value (Eval.newList p items) (Eval.newList p items) :=
  h.bind (h.origin p) fun _ => h.pure _

theorem part (h : Congruence R see keep s t) (v : Option Value) :
    R Value (Eval.part v) (Eval.part v) := by
  cases v with
  | none => exact h.pure _
  | some v => exact h.resolve v

theorem arith (h : Congruence R see keep s t) (op : Arith) (a b : Value) :
    R Value (Eval.arith op a b) (Eval.arith op a b) := by
  cases op with
  | add =>
    change R Value (Eval.add a b) (Eval.add a b)
    unfold Eval.add
    split
    · exact h.bind (h.text a) fun _ => h.bind (h.text b) fun _ => h.pure _
    · exact h.ofExcept _
  | sub | mul | div | mod => exact h.ofExcept _

theorem field (h : Congruence R see keep s t) (v : Value) (name : String) (nullSafe : Bool) :
    R Value (Eval.field v name nullSafe) (Eval.field v name nullSafe) := by
  unfold Eval.field
  split
  · exact h.part _
  · exact h.part _
  · split
    · split
      · exact h.pure _
      · exact h.fail _
    · exact h.fail _

theorem item (h : Congruence R see keep s t) (v key : Value) :
    R Value (Eval.item v key) (Eval.item v key) := by
  unfold Eval.item
  split
  · exact h.bind (h.ofExcept _) fun _ => h.resolve _
  · exact h.part _
  · exact h.bind (h.ofExcept _) fun _ => h.part _
  · exact h.fail _

theorem texts (h : Congruence R see keep s t) (vs : List Value) :
    R (List String) (Eval.texts vs) (Eval.texts vs) := by
  induction vs with
  | nil => exact h.pure _
  | cons v rest ih =>
    exact h.bind (h.resolve v) fun _ => h.bind (h.text _) fun _ => h.bind ih fun _ => h.pure _

theorem apply (h : Congruence R see keep s t) (p : List Nat) (f : Function) (args : List Value) :
    R Value (Eval.apply p f args) (Eval.apply p f args) := by
  have text (v : Value) {g : String → Eval Value} (hg : ∀ a, R Value (g a) (g a)) :
      R Value (Eval.text v >>= g) (Eval.text v >>= g) := h.bind (h.text v) hg
  unfold Eval.apply
  split
  · exact h.pure _
  · exact h.pure _
  · exact h.fail _
  · exact h.newList p _
  · exact h.newList p _
  · exact h.fail _
  · exact h.pure _
  · exact h.bind (h.ofExcept _) fun _ => h.pure _
  · exact h.bind (h.ofExcept _) fun _ => h.bind (h.ofExcept _) fun _ => h.pure _
  · exact h.ofExcept _
  · exact h.ofExcept _
  · exact h.ofExcept _
  · exact h.ofExcept _
  · exact h.pure _
  · split
    · exact h.fail _
    · exact h.pure _
  · exact h.bind (h.ofExcept _) fun _ => h.newList p _
  · exact text _ fun _ => h.bind (h.texts _) fun _ => h.pure _
  · exact h.fail _
  · exact text _ fun _ => text _ fun _ => h.pure _
  · refine text _ fun _ => text _ fun _ => ?_
    split <;> exact h.pure _
  · exact text _ fun _ => h.bind (h.ofExcept _) fun _ => h.pure _
  · exact text _ fun _ => h.bind (h.ofExcept _) fun _ => h.bind (h.ofExcept _) fun _ => h.pure _
  · exact text _ fun _ => h.pure _
  · exact text _ fun _ => h.bind h.env fun _ => h.pure _
  · exact text _ fun _ => text _ fun _ => h.bind h.env fun _ => h.pure _
  · exact text _ fun _ => h.bind h.env fun _ => h.pure _
  · exact h.pure _

theorem call (h : Congruence R see keep s t) (p : List Nat) (f : Function) (args : List Value) :
    R Value (Eval.call p f args) (Eval.call p f args) :=
  h.mapFailure _ (h.apply p f args)

/-! ## Terms -/

theorem term (h : Congruence R see keep s t) {f : Form} (x : Term f) :
    ∀ p, x.Touches see keep p → R f.carrier (x.eval s p) (x.eval t p) := by
  induction x with
  | const | constInt | constFloat | constBool | constStr => exact fun p _ => h.pure _
  | param name injected =>
    intro p _
    refine h.bind h.env fun env => ?_
    split
    · exact h.resolve _
    · exact h.pure _
  | «local» b => exact fun p hx => h.binding b hx
  | cellInt i | cellFloat i | cellBool i | cellStr i | isFirst i =>
    exact fun p hx => h.bind (h.cell i hx) fun _ => h.pure _
  | isLast i l =>
    exact fun p hx => h.bind (h.cell i hx.1) fun _ => h.bind (h.cell l hx.2) fun _ => h.pure _
  | boxInt x ih | boxFloat x ih | boxBool x ih | boxStr x ih | widen x ih | truthy x ih
  | textOfInt x ih | textOfFloat x ih | textOfBool x ih | not x ih | negInt x ih | negFloat x ih =>
    exact fun p hx => h.bind (ih p hx) fun _ => h.pure _
  | unboxInt x ih | unboxFloat x ih | neg x ih =>
    exact fun p hx => h.bind (ih p hx) fun _ => h.ofExcept _
  | text x ih => exact fun p hx => h.bind (ih p hx) fun v => h.text v
  | arithInt op x y ihx ihy | compare op x y ihx ihy =>
    exact fun p hx => h.bind (ihx _ hx.1) fun _ => h.bind (ihy _ hx.2) fun _ => h.ofExcept _
  | arithFloat op x y ihx ihy | concat x y ihx ihy | compareInt op x y ihx ihy
  | compareFloat op x y ihx ihy | compareStr op x y ihx ihy =>
    exact fun p hx => h.bind (ihx _ hx.1) fun _ => h.bind (ihy _ hx.2) fun _ => h.pure _
  | arith op x y ihx ihy =>
    exact fun p hx => h.bind (ihx _ hx.1) fun a => h.bind (ihy _ hx.2) fun b => h.arith op a b
  | both x y ihx ihy | either x y ihx ihy | coalesce x y ihx ihy =>
    intro p hx
    refine h.bind (ihx _ hx.1) fun a => ?_
    split
    · first | exact ihy _ hx.2 | exact h.pure _
    · first | exact ihy _ hx.2 | exact h.pure _
  | cond c x y ihc ihx ihy =>
    intro p hx
    refine h.bind (ihc _ hx.1) fun b => ?_
    split
    · exact ihx _ hx.2.1
    · exact ihy _ hx.2.2
  | field x name nullSafe ih => exact fun p hx => h.bind (ih p hx) fun v => h.field v name nullSafe
  | item x key nullSafe ihx ihk =>
    intro p hx
    refine h.bind (ihx _ hx.1) fun v => ?_
    split
    · split
      · exact h.pure _
      · exact h.fail _
    · exact h.bind (ihk _ hx.2) fun k => h.item v k
  | list items ih => exact fun p hx => h.bind (ih _ hx) fun vs => h.newList p vs
  | map entries ih =>
    exact fun p hx => h.bind (ih _ hx) fun _ => h.bind (h.origin p) fun _ => h.pure _
  | record names values ih =>
    exact fun p hx => h.bind (ih _ hx) fun _ => h.bind (h.origin p) fun _ => h.pure _
  | call f args ih => exact fun p hx => h.bind (ih _ hx) fun vs => h.call p f vs
  | memo slot x ih => exact fun p hx => h.memo p slot x hx.1 (ih p hx.2)
  | nil | noEntries => exact fun p _ => h.pure _
  | cons x rest ihx ihr =>
    exact fun p hx => h.bind (ihx _ hx.1) fun _ => h.bind (ihr _ hx.2) fun _ => h.pure _
  | entry key x rest ihk ihx ihr =>
    intro p hx
    refine h.bind (ihk _ hx.1) fun k => h.bind (ihx _ hx.2.1) fun v => ?_
    split
    · exact h.fail _
    · exact h.bind (ihr _ hx.2.2) fun _ => h.pure _

section Forms

variable {c : Compiled} {p : List Nat}

theorem value (h : Congruence R see keep s t) (hc : c.Touches see keep p) :
    R Value (c.value s p) (c.value t p) :=
  h.term _ p hc.toBoxed

theorem int (h : Congruence R see keep s t) (hc : c.Touches see keep p) :
    R Int64 (c.int s p) (c.int t p) :=
  h.term _ p hc.toInt

theorem float (h : Congruence R see keep s t) (hc : c.Touches see keep p) :
    R Float (c.float s p) (c.float t p) :=
  h.term _ p hc.toFloat

theorem bool (h : Congruence R see keep s t) (hc : c.Touches see keep p) :
    R Bool (c.bool s p) (c.bool t p) :=
  h.term _ p hc.toBool

theorem str (h : Congruence R see keep s t) (hc : c.Touches see keep p) :
    R String (c.str s p) (c.str t p) :=
  h.term _ p hc.toStr

end Forms

/-! ## Operands -/

theorem values (h : Congruence R see keep s t) {p : List Nat} {cs : List Compiled}
    (hc : touchAll see keep p cs) : R (List Value) (Eval.values s p cs) (Eval.values t p cs) := by
  induction cs generalizing p with
  | nil => exact h.pure _
  | cons c rest ih => exact h.bind (h.value hc.1) fun _ => h.bind (ih hc.2) fun _ => h.pure _

theorem filterArgs (h : Congruence R see keep s t) {p : List Nat} {fs : List FilterCall}
    (hc : touchFilters see keep p fs) :
    R (List (List Value)) (Eval.filterArgs s p fs) (Eval.filterArgs t p fs) := by
  induction fs generalizing p with
  | nil => exact h.pure _
  | cons f rest ih => exact h.bind (h.values hc.1) fun _ => h.bind (ih hc.2) fun _ => h.pure _

theorem printed (h : Congruence R see keep s t) {e : Compiled} {fs : List FilterCall}
    (hc : touchPrint see keep e fs) : R String (Eval.printed s e fs) (Eval.printed t e fs) := by
  cases fs with
  | nil => exact h.str hc
  | cons f rest =>
    exact h.bind (h.value hc.1) fun v => h.bind (h.filterArgs hc.2) fun args =>
      h.bind (h.filtered _ args v) fun w => h.text w

theorem anyEqual (h : Congruence R see keep s t) (subject : Value) {p : List Nat}
    {cs : List Compiled} (hc : touchAll see keep p cs) :
    R Bool (Eval.anyEqual s subject p cs) (Eval.anyEqual t subject p cs) := by
  induction cs generalizing p with
  | nil => exact h.pure _
  | cons c rest ih =>
    refine h.bind (h.value hc.1) fun v => ?_
    split
    · exact h.pure _
    · exact ih hc.2

theorem matchesCase (h : Congruence R see keep s t) {slot : Nat} {cs : List Compiled}
    (hs : see slot) (hc : touchAll see keep [] cs) :
    R Bool (Eval.matchesCase s slot cs) (Eval.matchesCase t slot cs) :=
  h.bind (h.cell slot hs) fun _ => h.anyEqual _ hc

theorem cellOf (h : Congruence R see keep s t) (kind : SlotKind) {e : Compiled}
    (hc : e.Touches see keep []) : R Cell (Eval.cellOf s kind e) (Eval.cellOf t kind e) := by
  have map {α : Type} {x y : Eval α} (f : α → Cell) (hx : R α x y) : R Cell (f <$> x) (f <$> y) :=
    h.bind hx fun _ => h.pure _
  unfold Eval.cellOf
  split
  · exact map _ (h.int hc)
  · exact map _ (h.float hc)
  · exact map _ (h.bool hc)
  · exact map _ (h.str hc)
  · exact map _ (h.value hc)

theorem bound (h : Congruence R see keep s t) {p : List Nat} (default : Int64) {e : Option Compiled}
    (hc : touchOption see keep p e) :
    R Int64 (Eval.bound s p default e) (Eval.bound t p default e) := by
  cases e with
  | none => exact h.pure _
  | some c => exact h.bind (h.value hc) fun _ => h.ofExcept _

theorem range (h : Congruence R see keep s t) {start stop step : Option Compiled}
    (h₀ : touchOption see keep [0] start) (h₁ : touchOption see keep [1] stop)
    (h₂ : touchOption see keep [2] step) :
    R (Int64 × Int64 × Int64) (Eval.range s start stop step) (Eval.range t start stop step) := by
  refine h.bind (h.bound 0 h₀) fun a => h.bind (h.bound 0 h₁) fun b =>
    h.bind (h.bound 1 h₂) fun c => ?_
  split
  · exact h.fail _
  · split
    · exact h.fail _
    · exact h.pure _

theorem items (h : Congruence R see keep s t) {e : Compiled} (hc : e.Touches see keep [0]) :
    R (Value × Nat) (Eval.items s e) (Eval.items t e) := by
  refine h.bind (h.value hc) fun v => ?_
  split
  · exact h.pure _
  · split
    · exact h.bind (h.newList _ _) fun _ => h.pure _
    · exact h.fail _

/-! ## Calls -/

theorem variant (h : Congruence R see keep s t) {e : Option Compiled}
    (hc : touchOption see keep [0] e) : R String (Eval.variant s e) (Eval.variant t e) := by
  cases e with
  | none => exact h.pure _
  | some e =>
    refine h.bind (h.value hc) fun v => ?_
    split
    · exact h.pure _
    · exact h.text v

theorem callee (h : Congruence R see keep s t) (registry : Registry) {site : CallSite}
    (hc : site.callee.Touches see keep) :
    R (Option Program) (Eval.callee s registry site) (Eval.callee t registry site) := by
  unfold Eval.callee
  split
  · exact h.bind (h.ofExcept _) fun _ => h.pure _
  · next e allowEmpty hv =>
    rw [hv] at hc
    exact h.bind (h.variant hc) fun _ => h.bind h.env fun _ => h.ofExcept _

theorem passed (h : Congruence R see keep s t) (data : List (String × Value)) {what : Passed}
    (hc : what.Touches see keep) :
    R (List (String × Value)) (Eval.passed s data what) (Eval.passed t data what) := by
  cases what with
  | none => exact h.pure _
  | all => exact h.pure _
  | record e =>
    refine h.bind (h.value hc) fun v => ?_
    split
    · exact h.pure _
    · split
      · exact h.pure _
      · exact h.fail _

theorem arguments (h : Congruence R see keep s t) {args : List Argument} {p : List Nat}
    {params : List (String × Value)} (hc : touchArguments see keep p args)
    (hv : ∀ name slot, .content name slot ∈ args → see slot →
      R Value (Eval.content slot) (Eval.content slot)) :
    R (List (String × Value)) (Eval.arguments s p params args)
      (Eval.arguments t p params args) := by
  induction args generalizing p params with
  | nil => exact h.pure _
  | cons arg rest ih =>
    have hv' : ∀ name slot, .content name slot ∈ rest → see slot →
        R Value (Eval.content slot) (Eval.content slot) :=
      fun name slot hm => hv name slot (List.mem_cons_of_mem _ hm)
    cases arg with
    | content name slot =>
      exact h.bind (hv name slot List.mem_cons_self hc.1) fun v => ih hc.2 hv'
    | forward name param =>
      refine h.bind h.env fun env => ?_
      split
      · exact ih hc hv'
      · exact ih hc hv'
    | value name e => exact h.bind (h.value hc.1) fun v => ih hc.2 hv'

theorem dispatch (h : Congruence R see keep s t) (registry : Registry)
    (data : List (String × Value)) {site : CallSite} {filters : List FilterCall}
    (hc : site.Touches see keep filters)
    (hv : ∀ name slot, .content name slot ∈ site.args → see slot →
      R Value (Eval.content slot) (Eval.content slot)) :
    R (Option Eval.Dispatch) (Eval.dispatch s registry data site filters)
      (Eval.dispatch t registry data site filters) := by
  refine h.bind (h.callee registry hc.callee) fun found => ?_
  cases found with
  | none => exact h.pure _
  | some program =>
    exact h.bind (h.passed data hc.passed) fun _ => h.bind (h.arguments hc.args hv) fun _ =>
      h.bind (h.filterArgs hc.filters) fun _ => h.pure _

end Congruence

end Interlude
