import Interlude.Proofs.Read.Guarded
import Interlude.Proofs.Frame.Cells
/-!
# Visits agree

No two visits ask for the same value at the same node, and nothing is read in an operand that was
passed over. This holds of the visits of one evaluation and, because it is told by what cells hold,
of all evaluations that follow one another on the same cells (`Done.agree`).

What a visit leaves behind stands in the cells on the way to its node: a node is closed once a cell
around it holds its result, and an operand is chosen or refused once the cell that decides over it
holds a value. A visit is due only if memory tells of no visit that it disagrees with.
-/

namespace Interlude

/-! ## Ways -/

/-- What lies on the way to a node: a cell around it, or a decision over an operand, with the cell
that holds what is decided by. -/
inductive Edge where
  | kept (slot : Nat)
  | gate (cell : Option Nat) (opens : Value → Bool)

/-- The ways to all nodes of some code, by their paths. -/
abbrev Ways := List Nat → List Edge

namespace Ways

/-- The ways to the nodes of a term, by those of its operands. -/
def among (operands : List Ways) : Ways
  | [] => []
  | i :: path => ((operands[i]?).map (· path)).getD []

/-- Whatever lies on the way to a node lies on the way to all nodes below. -/
def Extend (ways : Ways) : Prop := ∀ path below, path <+: below → ways path <+: ways below

theorem extend_among {operands : List Ways} (h : ∀ w ∈ operands, w.Extend) :
    (among operands).Extend := by
  intro path below hp
  cases path with
  | nil => exact List.nil_prefix
  | cons i path =>
    obtain ⟨rest, rfl⟩ := hp
    simp only [List.cons_append, among]
    cases hi : operands[i]? with
    | none => exact List.prefix_refl _
    | some w => exact h w (List.mem_of_getElem? hi) _ _ (List.prefix_append path rest)

theorem Extend.cons {ways : Ways} (h : ways.Extend) (e : Edge) : Ways.Extend fun path =>
    e :: ways path :=
  fun _ _ hp => List.cons_prefix_cons.2 ⟨rfl, h _ _ hp⟩

end Ways

/-- The ways to the nodes of a term. -/
def Term.ways : {f : Form} → Term f → Ways
  | _, const _ _ | _, constInt _ | _, constFloat _ | _, constBool _ | _, constStr _ | _, param _ _
  | _, .local _ | _, cellInt _ | _, cellFloat _ | _, cellBool _ | _, cellStr _ | _, isFirst _
  | _, isLast _ _ | _, nil | _, noEntries => .among []
  | _, boxInt x | _, boxFloat x | _, boxBool x | _, boxStr x | _, unboxInt x | _, unboxFloat x
  | _, widen x | _, truthy x | _, textOfInt x | _, textOfFloat x | _, textOfBool x | _, text x
  | _, .not x | _, negInt x | _, negFloat x | _, neg x | _, field x _ _ | _, list x | _, map x
  | _, record _ x | _, call _ x => .among [x.ways]
  | _, arithInt _ x y | _, arithFloat _ x y | _, arith _ x y | _, concat x y | _, compareInt _ x y
  | _, compareFloat _ x y | _, compareStr _ x y | _, compare _ x y | _, cons x y =>
    .among [x.ways, y.ways]
  | _, both x y => .among [x.ways, fun path => .gate x.held Value.truthy :: y.ways path]
  | _, either x y => .among [x.ways, fun path => .gate x.held (!Value.truthy ·) :: y.ways path]
  | _, coalesce x y => .among [x.ways, fun path => .gate x.held Value.isNullish :: y.ways path]
  | _, cond c x y =>
    .among [c.ways, fun path => .gate c.held Value.truthy :: x.ways path,
      fun path => .gate c.held (!Value.truthy ·) :: y.ways path]
  | _, item x key _ =>
    .among [x.ways, fun path => .gate x.held (!Value.isNullish ·) :: key.ways path]
  | _, memo slot x => .among [fun path => .kept slot :: x.ways path]
  | _, entry key x rest => .among [key.ways, x.ways, rest.ways]

theorem Term.ways_extend {f : Form} (x : Term f) : x.ways.Extend := by
  induction x with
  | const | constInt | constFloat | constBool | constStr | param | «local» | cellInt | cellFloat
  | cellBool
  | cellStr | isFirst | isLast | nil | noEntries => exact Ways.extend_among (by simp)
  | boxInt x ih | boxFloat x ih | boxBool x ih | boxStr x ih | unboxInt x ih | unboxFloat x ih
  | widen x ih | truthy x ih | textOfInt x ih | textOfFloat x ih | textOfBool x ih | text x ih
  | not x ih | negInt x ih | negFloat x ih | neg x ih | field x _ _ ih | list x ih | map x ih
  | record _ x ih | call _ x ih => exact Ways.extend_among (by simpa using ih)
  | arithInt _ x y ihx ihy | arithFloat _ x y ihx ihy | arith _ x y ihx ihy | concat x y ihx ihy
  | compareInt _ x y ihx ihy | compareFloat _ x y ihx ihy | compareStr _ x y ihx ihy
  | compare _ x y ihx ihy | cons x y ihx ihy => exact Ways.extend_among (by simpa using ⟨ihx, ihy⟩)
  | both x y ihx ihy | either x y ihx ihy | coalesce x y ihx ihy | item x y _ ihx ihy =>
    exact Ways.extend_among (by simpa using ⟨ihx, ihy.cons _⟩)
  | cond c x y ihc ihx ihy => exact Ways.extend_among (by simpa using ⟨ihc, ihx.cons _, ihy.cons _⟩)
  | memo slot x ih => exact Ways.extend_among (by simpa using ih.cons _)
  | entry k x r ihk ihx ihr => exact Ways.extend_among (by simpa using ⟨ihk, ihx, ihr⟩)

/-! ## What cells tell -/

namespace Cells

/-- A cell on the way holds a result. -/
def Close (cells : Cells) (way : List Edge) : Prop := ∃ i v, Edge.kept i ∈ way ∧
    cells.read i = .value v

/-- All decisions on the way are made, and for it. -/
def Choose (cells : Cells) (way : List Edge) : Prop :=
  ∀ c opens, Edge.gate c opens ∈ way → ∃ i v, c = some i ∧ cells.read i = .value v ∧ opens v = true

/-- A decision on the way is made against it, or is one that no cell holds. -/
def Refuse (cells : Cells) (way : List Edge) : Prop :=
  ∃ c opens, Edge.gate c opens ∈ way ∧ ∀ i, c = some i → ∃ v, cells.read i = .value v ∧
    opens v = false

/-- The values in cells stay, and no deferred value comes into a cell. -/
structure Retains (cells cells' : Cells) : Prop where
  size : cells'.size = cells.size
  values : ∀ i v, cells.read i = .value v → cells'.read i = .value v
  thunks : ∀ i id, cells'.read i = .thunk id → cells.read i = .thunk id

theorem Retains.refl (cells : Cells) : cells.Retains cells := ⟨rfl, fun _ _ h => h, fun _ _ h => h⟩

theorem Retains.trans {a b c : Cells} (h : a.Retains b) (h' : b.Retains c) : a.Retains c :=
  ⟨h'.size.trans h.size, fun i v hv => h'.values i v (h.values i v hv),
    fun i id hid => h.thunks i id (h'.thunks i id hid)⟩

theorem Retains.write {cells : Cells} {i : Nat} (h : ∀ v, cells.read i ≠ .value v) (v : Value) :
    cells.Retains (cells.write i (.value v)) := by
  refine ⟨Cells.size_write .., fun j w hw => ?_, fun j id hid => ?_⟩
  · rw [Cells.read_write]
    split
    · next hj =>
      obtain ⟨rfl, -⟩ := hj
      exact (h w hw).elim
    · exact hw
  · rw [Cells.read_write] at hid
    split at hid
    · cases hid
    · exact hid

section

variable {cells cells' : Cells} {way rest : List Edge}

theorem Close.retains (h : cells.Close way) (hr : cells.Retains cells') : cells'.Close way := by
  obtain ⟨i, v, hi, hv⟩ := h
  exact ⟨i, v, hi, hr.values i v hv⟩

theorem Choose.retains (h : cells.Choose way) (hr : cells.Retains cells') : cells'.Choose way := by
  intro c opens hc
  obtain ⟨i, v, hi, hv, ho⟩ := h c opens hc
  exact ⟨i, v, hi, hr.values i v hv, ho⟩

theorem Refuse.retains (h : cells.Refuse way) (hr : cells.Retains cells') : cells'.Refuse way := by
  obtain ⟨c, opens, hc, hclosed⟩ := h
  refine ⟨c, opens, hc, fun i hi => ?_⟩
  obtain ⟨v, hv, ho⟩ := hclosed i hi
  exact ⟨v, hr.values i v hv, ho⟩

theorem Close.of_subset (h : cells.Close way) (hs : way ⊆ rest) : cells.Close rest := by
  obtain ⟨i, v, hi, hv⟩ := h
  exact ⟨i, v, hs hi, hv⟩

theorem Choose.of_subset (h : cells.Choose rest) (hs : way ⊆ rest) : cells.Choose way :=
  fun c opens hc => h c opens (hs hc)

theorem Refuse.of_subset (h : cells.Refuse way) (hs : way ⊆ rest) : cells.Refuse rest := by
  obtain ⟨c, opens, hc, hclosed⟩ := h
  exact ⟨c, opens, hs hc, hclosed⟩

/-- A decision for an operand opens the way to it. -/
theorem Choose.gate (h : cells.Choose way) {s : Nat} {v : Value} {opens : Value → Bool}
    (hv : cells.read s = .value v) (ho : opens v = true) :
    cells.Choose (.gate (some s) opens :: way) := by
  intro c opens' hc
  rcases List.mem_cons.1 hc with hc | hc
  · cases hc
    exact ⟨s, v, rfl, hv, ho⟩
  · exact h c opens' hc

theorem not_refuse_gate (h : ¬cells.Refuse way) {s : Nat} {v : Value} {opens : Value → Bool}
    (hv : cells.read s = .value v) (ho : opens v = true) :
    ¬cells.Refuse (.gate (some s) opens :: way) := by
  rintro ⟨c, opens', hc, hclosed⟩
  rcases List.mem_cons.1 hc with hc | hc
  · cases hc
    obtain ⟨w, hw, hno⟩ := hclosed s rfl
    rw [hv] at hw
    cases hw
    rw [ho] at hno
    cases hno
  · exact h ⟨c, opens', hc, hclosed⟩

theorem Choose.not_refuse (h : cells.Choose way) : ¬cells.Refuse way := by
  rintro ⟨c, opens, hc, hclosed⟩
  obtain ⟨i, v, hi, hv, ho⟩ := h c opens hc
  obtain ⟨w, hw, hno⟩ := hclosed i hi
  rw [hv] at hw
  cases hw
  rw [ho] at hno
  cases hno

end

end Cells

namespace Visit

/-- What cells must not tell for a visit to happen. -/
def Kind.Due (cells : Cells) (way : List Edge) : Kind → Prop
  | resolved _ => ¬cells.Close way ∧ ¬cells.Refuse way
  | awaited _ => ¬cells.Refuse way
  | forced _ => ¬cells.Refuse way
  | skipped => ¬cells.Choose way

/-- What cells tell of a visit. -/
def Kind.Done (cells : Cells) (way : List Edge) : Kind → Prop
  | resolved _ => cells.Close way ∧ cells.Choose way
  | awaited _ => cells.Choose way
  | forced _ => cells.Choose way
  | skipped => cells.Refuse way

theorem Kind.Due.earlier {cells cells' : Cells} {way : List Edge} {k : Kind} (h : k.Due cells' way)
    (hr : cells.Retains cells') : k.Due cells way := by
  cases k with
  | resolved => exact ⟨fun hc => h.1 (hc.retains hr), fun hc => h.2 (hc.retains hr)⟩
  | awaited | forced => exact fun hc => h (hc.retains hr)
  | skipped => exact fun hc => h (hc.retains hr)

theorem Kind.Done.later {cells cells' : Cells} {way : List Edge} {k : Kind} (h : k.Done cells way)
    (hr : cells.Retains cells') : k.Done cells' way := by
  cases k with
  | resolved => exact ⟨h.1.retains hr, h.2.retains hr⟩
  | awaited | forced => exact Cells.Choose.retains h hr
  | skipped => exact Cells.Refuse.retains h hr

section

variable {cells : Cells} {way : List Edge} {k : Kind} {s : Nat} {v : Value} {opens : Value → Bool}

/-- A decision for an operand stands in no visit's way. -/
theorem Kind.Due.gate (h : k.Due cells way) (hv : cells.read s = .value v) (ho : opens v = true) :
    k.Due cells (.gate (some s) opens :: way) := by
  cases k with
  | resolved =>
    refine ⟨?_, Cells.not_refuse_gate h.2 hv ho⟩
    rintro ⟨i, w, hi, hw⟩
    exact h.1 ⟨i, w, by simpa using hi, hw⟩
  | awaited | forced => exact Cells.not_refuse_gate h hv ho
  | skipped => exact fun hc => h (hc.of_subset (List.subset_cons_self _ _))

theorem Kind.Done.gate (h : k.Done cells way) (hv : cells.read s = .value v) (ho : opens v = true) :
    k.Done cells (.gate (some s) opens :: way) := by
  cases k with
  | resolved => exact ⟨h.1.of_subset (List.subset_cons_self _ _), h.2.gate hv ho⟩
  | awaited | forced => exact Cells.Choose.gate h hv ho
  | skipped => exact Cells.Refuse.of_subset h (List.subset_cons_self _ _)

/-- Nor does a cell that holds no result. -/
theorem Kind.Due.kept (h : k.Due cells way) (hs : ∀ v, cells.read s ≠ .value v) :
    k.Due cells (.kept s :: way) := by
  cases k with
  | resolved =>
    refine ⟨?_, fun hr => h.2 (by simpa [Cells.Refuse] using hr)⟩
    rintro ⟨i, w, hi, hw⟩
    rcases List.mem_cons.1 hi with hi | hi
    · cases hi
      exact hs w hw
    · exact h.1 ⟨i, w, hi, hw⟩
  | awaited | forced => exact fun hr => h (by simpa [Cells.Refuse] using hr)
  | skipped => exact fun hc => h (hc.of_subset (List.subset_cons_self _ _))

theorem Kind.Done.kept (h : k.Done cells way) (s : Nat) : k.Done cells (.kept s :: way) := by
  cases k with
  | resolved => exact ⟨h.1.of_subset (List.subset_cons_self _ _), by simpa [Cells.Choose] using h.2⟩
  | awaited | forced => exact (by simpa [Done, Cells.Choose] using h)
  | skipped => exact Cells.Refuse.of_subset h (List.subset_cons_self _ _)

end

/-- The first visit reads in an operand that the second passes over. -/
structure Trespasses (u v : Visit) : Prop where
  reads : u.reads = true
  skipped : v.kind = .skipped
  frame : u.frame = v.frame
  below : v.path <+: u.path

theorem not_trespasses_self (u : Visit) : ¬u.Trespasses u := by
  intro h
  have hreads := h.reads
  rw [Visit.reads, h.skipped] at hreads
  cases hreads

/-- Two visits that may both happen: they do not ask at the same node, and none reads in what the
other passes over. -/
structure Agree (u v : Visit) : Prop where
  once : u.resolves = true → v.resolves = true → u.site ≠ v.site
  left : ¬u.Trespasses v
  right : ¬v.Trespasses u

theorem Agree.of_frame {u v : Visit} (h : u.frame ≠ v.frame) : u.Agree v :=
  ⟨fun _ _ hs => h (congrArg Prod.fst hs), fun ht => h ht.frame, fun ht => h ht.frame.symm⟩

theorem Kind.Done.choose {cells : Cells} {way : List Edge} {v : Visit} (h : v.kind.Done cells way)
    (hr : v.reads = true) : cells.Choose way := by
  obtain ⟨kind, path, frame⟩ := v
  cases kind with
  | resolved => exact h.2
  | awaited | forced => exact h
  | skipped => cases hr

theorem Kind.Due.not_refuse {cells : Cells} {way : List Edge} {v : Visit} (h : v.kind.Due cells way)
    (hr : v.reads = true) : ¬cells.Refuse way := by
  obtain ⟨kind, path, frame⟩ := v
  cases kind with
  | resolved => exact h.2
  | awaited | forced => exact h
  | skipped => cases hr

section

variable (i : Nat) (id : ThunkId) (v : Visit)

@[simp] theorem kind_inOperand : (v.inOperand i).kind = v.kind := by
  obtain ⟨kind, path, frame⟩ := v
  cases frame <;> rfl

@[simp] theorem frame_inOperand : (v.inOperand i).frame = v.frame := by
  obtain ⟨kind, path, frame⟩ := v
  cases frame <;> rfl

@[simp] theorem kind_inThunk : (v.inThunk id).kind = v.kind := by
  obtain ⟨kind, path, frame⟩ := v
  cases frame <;> rfl

end

theorem Agree.inOperand {u v : Visit} (h : u.Agree v) (i : Nat) :
    (u.inOperand i).Agree (v.inOperand i) := by
  by_cases hf : u.frame = v.frame
  · obtain ⟨ukind, upath, uframe⟩ := u
    obtain ⟨vkind, vpath, vframe⟩ := v
    subst hf
    cases uframe with
    | some id => exact h
    | none =>
      refine ⟨fun hu hv hs => h.once hu hv ?_, fun ht => h.left ?_, fun ht => h.right ?_⟩
      · simp only [site, Visit.inOperand, Prod.mk.injEq, List.cons.injEq] at hs ⊢
        exact ⟨trivial, hs.2.2⟩
      · exact ⟨ht.reads, ht.skipped, rfl, (List.cons_prefix_cons.1 ht.below).2⟩
      · exact ⟨ht.reads, ht.skipped, rfl, (List.cons_prefix_cons.1 ht.below).2⟩
  · exact .of_frame (by simpa using hf)

/-- Visits to the code of a deferred value agree when seen from outside, if none of them visits the
value itself. -/
theorem Agree.inThunk {u v : Visit} (h : u.Agree v) {id : ThunkId} (hu : u.frame ≠ some id)
    (hv : v.frame ≠ some id) :
    (u.inThunk id).Agree (v.inThunk id) := by
  obtain ⟨ukind, upath, uframe⟩ := u
  obtain ⟨vkind, vpath, vframe⟩ := v
  cases uframe with
  | none =>
    cases vframe with
    | none =>
      refine ⟨fun hu hv hs => h.once hu hv ?_, fun ht =>
        h.left ⟨ht.reads, ht.skipped, rfl, ht.below⟩,
        fun ht => h.right ⟨ht.reads, ht.skipped, rfl, ht.below⟩⟩
      have hpath : upath = vpath := congrArg Prod.snd hs
      rw [hpath]
      rfl
    | some j => exact .of_frame fun hf => hv hf.symm
  | some i =>
    cases vframe with
    | none => exact .of_frame fun hf => hu hf
    | some j => exact h

/-- A visit that is due agrees with those that cells tell of. -/
theorem Agree.of_done_due {ways : Ways} (he : ways.Extend) {cells : Cells} {u v : Visit}
    (hu : u.kind.Done cells (ways u.path)) (hv : v.kind.Due cells (ways v.path)) : u.Agree v where
  once hru hrv hs := by
    have hpath : u.path = v.path := congrArg Prod.snd hs
    obtain ⟨ukind, upath, uframe⟩ := u
    obtain ⟨vkind, vpath, vframe⟩ := v
    subst hpath
    cases ukind with
    | resolved =>
      cases vkind with
      | resolved => exact hv.1 hu.1
      | _ => cases hrv
    | _ => cases hru
  left ht := by
    have hchosen := (Kind.Done.choose hu ht.reads).of_subset (he _ _ ht.below).subset
    rw [ht.skipped] at hv
    exact hv hchosen
  right ht := by
    rw [ht.skipped] at hu
    exact Kind.Due.not_refuse hv ht.reads (Cells.Refuse.of_subset hu (he _ _ ht.below).subset)

end Visit

/-! ## What memory tells -/

/-- The code at hand runs on the cells of memory, that of a deferred value on its own until it has a
result. -/
inductive Memory.Runs (ways : Ways) (m : Memory) : Option ThunkId → Ways → Cells → Prop where
  | own : Runs ways m none ways m.cells
  | thunk {id : ThunkId} {t : Thunk} (ht : m.heap.thunks[id]? = some t) (hr : t.result = none) :
    Runs ways m (some id) t.code.root.toBoxed.ways t.cells

/-- The values in cells stay, as long as the code that has put them there may run. -/
structure Memory.Retains (m m' : Memory) : Prop where
  cells : m.cells.Retains m'.cells
  thunks : ∀ (id : ThunkId) (t' : Thunk), m'.heap.thunks[id]? = some t' → t'.result = none →
    ∃ t, m.heap.thunks[id]? = some t ∧ t.result = none ∧ t.code = t'.code ∧ t.cells.Retains t'.cells

namespace Memory.Retains

variable {m m' m'' : Memory}

theorem of_heap (hc : m.cells.Retains m'.cells) (ht : m'.heap.thunks = m.heap.thunks) :
    m.Retains m' :=
  ⟨hc, fun _ t hid hr => ⟨t, ht ▸ hid, hr, rfl, .refl _⟩⟩

theorem refl (m : Memory) : m.Retains m := of_heap (.refl _) rfl

theorem trans (h : m.Retains m') (h' : m'.Retains m'') : m.Retains m'' where
  cells := h.cells.trans h'.cells
  thunks id t'' ht'' hr'' := by
    obtain ⟨t', ht', hr', hcode', hcells'⟩ := h'.thunks id t'' ht'' hr''
    obtain ⟨t, ht, hr, hcode, hcells⟩ := h.thunks id t' ht' hr'
    exact ⟨t, ht, hr, hcode.trans hcode', hcells.trans hcells'⟩

theorem runs (h : m.Retains m') {ways w : Ways} {frame : Option ThunkId} {cells' : Cells}
    (hr : m'.Runs ways frame w cells') : ∃ cells, m.Runs ways frame w cells ∧
    cells.Retains cells' := by
  cases hr with
  | own => exact ⟨_, .own, h.cells⟩
  | thunk ht hr =>
    obtain ⟨t, ht', hr', hcode, hcells⟩ := h.thunks _ _ ht hr
    rw [← hcode]
    exact ⟨_, .thunk ht' hr', hcells⟩

end Memory.Retains

namespace Visit

/-- A visit may happen: its code may run, and memory tells of nothing against it. -/
def Due (ways : Ways) (m : Memory) (v : Visit) : Prop :=
  ∃ w cells, m.Runs ways v.frame w cells ∧ v.kind.Due cells (w v.path)

/-- A visit has happened: memory tells of it as long as its code may run. -/
def Done (ways : Ways) (m : Memory) (v : Visit) : Prop :=
  ∀ w cells, m.Runs ways v.frame w cells → v.kind.Done cells (w v.path)

variable {ways : Ways} {m m' : Memory} {u v : Visit}

theorem Due.earlier (h : v.Due ways m') (hr : m.Retains m') : v.Due ways m := by
  obtain ⟨w, cells', hruns, hdue⟩ := h
  obtain ⟨cells, hruns', hcells⟩ := hr.runs hruns
  exact ⟨w, cells, hruns', hdue.earlier hcells⟩

theorem Done.later (h : v.Done ways m) (hr : m.Retains m') : v.Done ways m' := by
  intro w cells' hruns
  obtain ⟨cells, hruns', hcells⟩ := hr.runs hruns
  exact (h w cells hruns').later hcells

theorem Done.agree (he : ways.Extend) (hu : u.Done ways m) (hv : v.Due ways m) : u.Agree v := by
  by_cases hf : u.frame = v.frame
  · obtain ⟨w, cells, hruns, hdue⟩ := hv
    rw [← hf] at hruns
    refine .of_done_due ?_ (hu w cells hruns) hdue
    generalize u.frame = frame at hruns
    cases hruns with
    | own => exact he
    | thunk => exact Term.ways_extend _
  · exact .of_frame hf

end Visit

end Interlude
