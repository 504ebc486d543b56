import Interlude.Proofs.Frame.Slots
import Mathlib.Data.List.Forall2
import Mathlib.Data.List.Induction
/-!
# Slots as their callers know them

Whoever takes slots can keep a ledger: for every open scope the slots in use when it was opened and
the blocks given in it since, put together from calls and their answers alone. Whatever the calls
were, the slots agree with the ledger (`play_accounted`): the blocks of open scopes lie side by
side, names and keys lead to the blocks they were given for, and closing a scope brings back the
slots that were in use before it.
-/

namespace Interlude

namespace Slots

/-- A call that takes or frees slots. -/
inductive Call where
  | enter
  | exit
  | alloc (name : String) (kind : SlotKind)
  | block (name : String) (kind : SlotKind) (width : Nat)
  | synthetic (key : String) (kind : SlotKind)

/-- The answer to a call for a block, and the slots after it; a failed call leaves them as they
are. -/
def settle (s : Slots) : Except Failure (Nat × Slots) → Except Failure (Option Nat) × Slots
  | .ok (index, later) => (.ok (some index), later)
  | .error e => (.error e, s)

/-- The answer to a call, and the slots after it. -/
def call (s : Slots) : Call → Except Failure (Option Nat) × Slots
  | .enter => (.ok none, s.enter)
  | .exit => (.ok none, s.exit)
  | .alloc name kind => s.settle (s.alloc name kind)
  | .block name kind width => s.settle (s.block name kind width)
  | .synthetic key kind => s.settle (.ok (s.synthetic key kind))

/-- What a block was taken for: a name, a key of the compiler's own, or neither. -/
inductive Purpose where
  | plain
  | named (name : String)
  | keyed (key : String)
deriving DecidableEq

namespace Purpose

/-- No name makes a block anonymous. -/
def ofName (name : String) : Purpose := if name.isEmpty then plain else named name

/-- The name of a block's first slot. -/
def name : Purpose → String
  | named name => name
  | plain | keyed _ => ""

theorem name_ofName (name : String) : (ofName name).name = name := by
  unfold ofName
  split
  · next h => exact (String.isEmpty_iff.1 h).symm
  · rfl

end Purpose

/-- A block that was given: `width` slots from `first` on. -/
structure Grant where
  purpose : Purpose
  kind : SlotKind
  first : Nat
  width : Nat

/-- The slots of a block. Only the first one has the name. -/
def Grant.slots (g : Grant) : List Slot :=
  (List.range g.width).map fun i =>
    { index := g.first + i, kind := g.kind, name := if i = 0 then g.purpose.name else "" }

/-- An open scope: the slots in use when it was opened, and the blocks given in it, the latest
first. -/
structure Tenure where
  before : List Slot
  grants : List Grant := []

/-- The block given for a purpose. -/
def Tenure.find? (t : Tenure) (p : Purpose) : Option Grant := t.grants.find? (·.purpose = p)

/-- The open scopes from the innermost outwards, and every index that was ever given. -/
structure Ledger where
  tenures : List Tenure
  given : List Nat := []

namespace Ledger

/-- The blocks of all open scopes, the latest first. -/
def live (l : Ledger) : List Grant := l.tenures.flatMap (·.grants)

/-- The block given for a purpose in the innermost scope. -/
def current? (l : Ledger) (p : Purpose) : Option Grant := l.tenures.head?.bind (·.find? p)

/-- The block given for a purpose in the innermost scope that has one. -/
def find? (l : Ledger) (p : Purpose) : Option Grant := l.tenures.findSome? (·.find? p)

/-- The same ledger with at least one open scope. -/
def opened (l : Ledger) (taken : List Slot) : Ledger :=
  match l.tenures with
  | [] => { l with tenures := [{ before := taken }] }
  | _ :: _ => l

/-- Enters a block into the innermost scope. -/
def add (l : Ledger) (g : Grant) : Ledger :=
  match l.tenures with
  | [] => l
  | t :: outer =>
    { tenures := { t with grants := g :: t.grants } :: outer,
                          given := l.given ++ List.range' g.first g.width }

/-- Enters a call and its answer. `taken` are the slots in use before the call. -/
def note (l : Ledger) (taken : List Slot) : Call → Except Failure (Option Nat) → Ledger
  | .enter, _ => { l with tenures := { before := taken } :: l.tenures }
  | .exit, _ => { l with tenures := l.tenures.tail }
  | .alloc name kind, .ok (some index) => (l.opened taken).add ⟨.ofName name, kind, index, 1⟩
  | .block name kind width, .ok (some index) =>
    (l.opened taken).add ⟨.ofName name, kind, index, max width 1⟩
  | .synthetic key kind, .ok (some index) =>
    if (l.current? (.keyed key)).isSome then { l with given := l.given ++ [index] }
    else (l.opened taken).add ⟨.keyed key, kind, index, 1⟩
  | _, _ => l

end Ledger

/-- Makes a call and enters it into the ledger. -/
def turn (sl : Slots × Ledger) (c : Call) : Slots × Ledger :=
  ((sl.1.call c).2, sl.2.note sl.1.taken c (sl.1.call c).1)

/-- The slots and the ledger after calls on new slots. -/
def play (calls : List Call) : Slots × Ledger := calls.foldl turn (new, ⟨[{ before := [] }], []⟩)

end Slots

/-- A scope that has given a block. -/
def SlotScope.give (scope : SlotScope) (g : Slots.Grant) : SlotScope :=
  match g.purpose with
  | .plain => scope
  | .named name => { scope with names := (name, g.first) :: scope.names }
  | .keyed key => { scope with keyed := (key, g.first) :: scope.keyed }

namespace Slots

/-! ## Books -/

/-- A block that may be given next: it starts behind the slots in use, and nothing else has its
purpose in the scope. -/
structure Grant.Fits (g : Grant) (taken : List Slot) (t : Tenure) : Prop where
  first : g.first = taken.length
  width : 0 < g.width
  name : g.purpose ≠ .named ""
  keyed : ∀ key, g.purpose = .keyed key → g.width = 1
  fresh : g.purpose ≠ .plain → t.find? g.purpose = none

/-- Slots and scopes that come about by opening the scopes of a ledger and giving its blocks. -/
inductive Books : List Slot → List SlotScope → List Tenure → Prop
  | shut : Books [] [] []
  | enter {taken scopes tenures} : Books taken scopes tenures →
      Books taken ({ start := taken.length } :: scopes) ({ before := taken } :: tenures)
  | grant {taken scope scopes t tenures} (g : Grant) :
      Books taken (scope :: scopes) (t :: tenures) → g.Fits taken t →
      Books (taken ++ g.slots) (scope.give g :: scopes)
        ({ t with grants := g :: t.grants } :: tenures)

theorem Grant.length_slots (g : Grant) : g.slots.length = g.width := by simp [slots]

theorem Grant.getElem?_slots (g : Grant) {i : Nat} (hi : i < g.width) : g.slots[i]? =
    some { index := g.first + i, kind := g.kind, name := if i = 0 then g.purpose.name
             else "" } := by
  simp [slots, hi]

namespace Books

variable {taken : List Slot} {scopes : List SlotScope} {tenures : List Tenure}

theorem numbered (h : Books taken scopes tenures) :
    taken.map (·.index) = List.range taken.length := by
  induction h with
  | shut => rfl
  | enter _ ih => exact ih
  | grant g _ hg ih =>
    rw [List.map_append, ih, List.length_append, List.range_add, g.length_slots]
    simp [Grant.slots, hg.first, Function.comp_def]

/-- Every block of an open scope is in use with all its slots. -/
theorem blocks (h : Books taken scopes tenures) : ∀ t ∈ tenures, ∀ g ∈ t.grants, ∀ i < g.width,
    taken[g.first + i]? =
      some { index := g.first + i, kind := g.kind, name := if i = 0 then g.purpose.name
               else "" } := by
  induction h with
  | shut => nofun
  | enter _ ih =>
    rintro t (_ | ⟨_, ht⟩) g hg
    · cases hg
    · exact ih t ht g hg
  | @grant taken scope scopes t₀ tenures g₀ _ hfits ih =>
    -- the slots of older blocks stay where they are
    have hold : ∀ t ∈ t₀ :: tenures, ∀ g ∈ t.grants, ∀ i < g.width,
        (taken ++ g₀.slots)[g.first + i]? =
            some { index := g.first + i, kind := g.kind,
                   name := if i = 0 then g.purpose.name else "" } :=
      fun t ht g hg i hi => by
        have hslot := ih t ht g hg i hi
        rw [List.getElem?_append_left (List.getElem?_eq_some_iff.1 hslot).1, hslot]
    rintro t (_ | ⟨_, ht⟩) g hg i hi
    · rcases List.mem_cons.1 hg with rfl | hg
      · rw [hfits.first, List.getElem?_append_right (Nat.le_add_right _ _), Nat.add_sub_cancel_left,
          g.getElem?_slots hi, hfits.first]
      · exact hold _ List.mem_cons_self g hg i hi
    · exact hold t (List.mem_cons_of_mem _ ht) g hg i hi

theorem within (h : Books taken scopes tenures) : ∀ g ∈ tenures.flatMap (·.grants),
    g.first + g.width ≤ taken.length := by
  induction h with
  | shut => nofun
  | enter _ ih => exact ih
  | grant g₀ _ hfits ih =>
    intro g hg
    rw [List.length_append, g₀.length_slots]
    rcases List.mem_cons.1 hg with rfl | hg
    · exact Nat.le_of_eq (congrArg (· + _) hfits.first)
    · exact Nat.le_trans (ih g hg) (Nat.le_add_right _ _)

/-- A block starts where the blocks before it have ended. -/
theorem apart (h : Books taken scopes tenures) :
    (tenures.flatMap (·.grants)).Pairwise fun later earlier =>
    earlier.first + earlier.width ≤ later.first := by
  induction h with
  | shut => exact .nil
  | enter _ ih => exact ih
  | grant g hb hfits ih => exact .cons (fun g' hg' => hfits.first ▸ hb.within g' hg') ih

/-- A scope gives no two blocks for one name or key. -/
theorem distinct (h : Books taken scopes tenures) : ∀ t ∈ tenures,
    t.grants.Pairwise fun later earlier => later.purpose ≠ .plain →
    earlier.purpose ≠ later.purpose := by
  induction h with
  | shut => nofun
  | enter _ ih =>
    rintro t (_ | ⟨_, ht⟩)
    · exact .nil
    · exact ih t ht
  | grant g _ hfits ih =>
    rintro t (_ | ⟨_, ht⟩)
    · refine .cons (fun g' hg' hp => ?_) (ih _ List.mem_cons_self)
      have hnone := List.find?_eq_none.1 (hfits.fresh hp) g' hg'
      simpa using hnone
    · exact ih t (List.mem_cons_of_mem _ ht)

/-- Every block has a slot, that of a key has one only, and no block has the empty name. -/
theorem shapes (h : Books taken scopes tenures) : ∀ t ∈ tenures, ∀ g ∈ t.grants,
    0 < g.width ∧ g.purpose ≠ .named "" ∧ ∀ key, g.purpose = .keyed key → g.width = 1 := by
  induction h with
  | shut => nofun
  | enter _ ih =>
    rintro t (_ | ⟨_, ht⟩) g hg
    · cases hg
    · exact ih t ht g hg
  | grant g₀ _ hfits ih =>
    rintro t (_ | ⟨_, ht⟩) g hg
    · rcases List.mem_cons.1 hg with rfl | hg
      · exact ⟨hfits.width, hfits.name, hfits.keyed⟩
      · exact ih _ List.mem_cons_self g hg
    · exact ih t (List.mem_cons_of_mem _ ht) g hg

end Books

/-- A scope that answers as an open scope of the ledger tells. -/
structure Tenure.Agrees (scope : SlotScope) (t : Tenure) : Prop where
  start : scope.start = t.before.length
  names : ∀ name, scope.names.lookup name = (t.find? (.named name)).map (·.first)
  keyed : ∀ key, scope.keyed.lookup key = (t.find? (.keyed key)).map (·.first)

theorem Tenure.Agrees.give {scope : SlotScope} {t : Tenure} (h : t.Agrees scope) (g : Grant) :
    Tenure.Agrees (scope.give g) { t with grants := g :: t.grants } := by
  obtain ⟨purpose, kind, first, width⟩ := g
  have hfind (p : Purpose) :
    ({ t with grants := ⟨purpose, kind, first, width⟩ :: t.grants } : Tenure).find? p =
      if purpose = p then some ⟨purpose, kind, first, width⟩ else t.find? p := by
    simp only [find?, List.find?_cons]
    by_cases hp : purpose = p <;> simp [hp]
  refine ⟨?_, fun name => ?_, fun key => ?_⟩
  · cases purpose <;> exact h.start
  · rw [hfind]
    cases purpose with
    | named n =>
      simp only [SlotScope.give, List.lookup_cons, Purpose.named.injEq, h.names]
      by_cases hn : n = name
      · simp [hn]
      · simp [hn, beq_false_of_ne (Ne.symm hn)]
    | plain | keyed => simpa [SlotScope.give] using h.names name
  · rw [hfind]
    cases purpose with
    | keyed k =>
      simp only [SlotScope.give, List.lookup_cons, Purpose.keyed.injEq, h.keyed]
      by_cases hk : k = key
      · simp [hk]
      · simp [hk, beq_false_of_ne (Ne.symm hk)]
    | plain | named => simpa [SlotScope.give] using h.keyed key

namespace Books

variable {taken : List Slot} {scopes : List SlotScope} {tenures : List Tenure}

theorem agrees (h : Books taken scopes tenures) :
    List.Forall₂ (fun scope t => t.Agrees scope) scopes tenures := by
  induction h with
  | shut => exact .nil
  | enter _ ih => exact .cons ⟨rfl, fun _ => rfl, fun _ => rfl⟩ ih
  | grant g _ _ ih =>
    cases ih with
    | cons h hrest => exact .cons (h.give g) hrest

/-- Names are looked up in the scopes as in the ledger. -/
theorem lookup (h : Books taken scopes tenures) (name : String) :
    (scopes.findSome? fun scope => scope.names.lookup name) =
      (tenures.findSome? (·.find? (.named name))).map (·.first) := by
  have hall := h.agrees
  clear h
  induction hall with
  | nil => rfl
  | cons h _ ih =>
    rw [List.findSome?_cons, List.findSome?_cons, h.names, ih]
    cases Tenure.find? _ _ <;> rfl

/-- What was in use when the innermost scope was opened is still in use, at the front. -/
theorem before {scope : SlotScope} {t : Tenure} (h : Books taken (scope :: scopes) (t :: tenures)) :
    t.before <+: taken ∧ Books t.before scopes tenures := by
  generalize hs : scope :: scopes = ss, ht : t :: tenures = ts at h
  induction h generalizing scope t with
  | shut => cases hs
  | enter h _ =>
    cases hs
    cases ht
    exact ⟨List.prefix_refl _, h⟩
  | grant g _ _ ih =>
    cases hs
    cases ht
    obtain ⟨hpre, hbooks⟩ := ih rfl rfl
    exact ⟨hpre.trans (List.prefix_append _ _), hbooks⟩

end Books

/-! ## Calls -/

/-- Slots that stand as the ledger says. -/
structure Kept (s : Slots) (l : Ledger) : Prop where
  books : Books s.taken s.scopes l.tenures
  size : s.mark ≤ s.size
  given : ∀ i ∈ l.given, i < s.size

namespace Kept

variable {s : Slots} {l : Ledger}

theorem new : Kept new ⟨[{ before := [] }], []⟩ := ⟨.enter .shut, Nat.le_refl _, nofun⟩

theorem enter (h : Kept s l) :
    Kept s.enter { l with tenures := { before := s.taken } :: l.tenures } :=
  ⟨h.books.enter, h.size, h.given⟩

/-- The innermost scope, opened if there was none. -/
theorem innermost (h : Kept s l) : ∃ scope outer t ts, s.opened.scopes = scope :: outer ∧
    (l.opened s.taken).tenures = t :: ts ∧ t.Agrees scope ∧ t.find? = l.current? ∧
    s.opened.taken = s.taken ∧ Kept s.opened (l.opened s.taken) ∧
    (l.tenures ≠ [] → s.opened = s) := by
  obtain ⟨taken, scopes, size⟩ := s
  obtain ⟨tenures, given⟩ := l
  cases hb : h.books.agrees with
  | nil =>
    exact ⟨_, _, _, _, rfl, rfl, ⟨rfl, fun _ => rfl, fun _ => rfl⟩, rfl, rfl, h.enter, fun hne =>
      (hne rfl).elim⟩
  | cons hagree _ => exact ⟨_, _, _, _, rfl, rfl, hagree, rfl, rfl, h, fun _ => rfl⟩

/-- A block that fits is given in the innermost scope. -/
theorem add (h : Kept s l) {scope : SlotScope} {outer : List SlotScope}
    (hs : s.scopes = scope :: outer) {t : Tenure} {ts : List Tenure} (ht : l.tenures = t :: ts)
    {g : Grant} (hg : g.Fits s.taken t) :
    Kept ((s.extend g.purpose.name g.kind g.width).mapScope (·.give g)) (l.add g) := by
  have hb := h.books
  rw [hs, ht] at hb
  have hslots : (s.extend g.purpose.name g.kind g.width).taken = s.taken ++ g.slots := by
    simp [extend, Grant.slots, mark, hg.first]
  have hscopes : (s.extend g.purpose.name g.kind g.width).scopes = scope :: outer := hs
  have hmark := mark_extend s g.purpose.name g.kind g.width
  have hsize : (s.extend g.purpose.name g.kind g.width).size = max s.size (s.mark + g.width) := rfl
  have hmap : (s.extend g.purpose.name g.kind g.width).mapScope (·.give g) =
      { s.extend g.purpose.name g.kind g.width with scopes := scope.give g :: outer } := by
    unfold mapScope
    rw [hscopes]
  unfold Ledger.add
  rw [hmap, ht]
  refine ⟨?_, ?_, fun i hi => ?_⟩
  · rw [hslots]
    exact hb.grant g hg
  · exact hmark ▸ hsize ▸ Nat.le_max_right _ _
  · simp only [hsize]
    rcases List.mem_append.1 hi with hi | hi
    · exact Nat.lt_of_lt_of_le (h.given i hi) (Nat.le_max_left _ _)
    · rw [List.mem_range'_1, hg.first] at hi
      exact Nat.lt_of_lt_of_le hi.2 (Nat.le_max_right _ _)

theorem exit (h : Kept s l) : Kept s.exit { l with tenures := l.tenures.tail } ∧
    ∀ t outer, l.tenures = t :: outer → s.exit.taken = t.before := by
  obtain ⟨taken, scopes, size⟩ := s
  obtain ⟨tenures, given⟩ := l
  cases hb : h.books.agrees with
  | nil => exact ⟨h, nofun⟩
  | @cons scope t scopes tenures hagree _ =>
    obtain ⟨hpre, hbooks⟩ := h.books.before
    have htake : taken.take scope.start = t.before := by
      rw [hagree.start]
      exact (List.prefix_iff_eq_take.1 hpre).symm
    have hexit : (Slots.exit ⟨taken, scope :: scopes, size⟩) = ⟨t.before, scopes, size⟩ := by
      simp only [Slots.exit, htake]
    rw [hexit]
    refine ⟨⟨hbooks, Nat.le_trans hpre.length_le h.size, h.given⟩, fun t' outer ht => ?_⟩
    cases ht
    rfl

/-- The empty name is never claimed. -/
theorem current?_empty (h : Kept s l) : l.current? (.named "") = none := by
  unfold Ledger.current?
  cases hl : l.tenures with
  | nil => rfl
  | cons t ts =>
    refine List.find?_eq_none.2 fun g hg => ?_
    simpa using (h.books.shapes t (hl ▸ List.mem_cons_self) g hg).2.1

/-- A name that is claimed in the innermost scope is refused. -/
theorem block_claimed (h : Kept s l) {name : String} (hname : (l.current? (.named name)).isSome)
    (kind : SlotKind) (width : Nat) :
    s.block name kind width = .error (Failure.duplicateSlot name) := by
  obtain ⟨scope, outer, t, ts, hs, _, hagree, hfind, _⟩ := h.innermost
  have hclaimed : (scope.names.lookup name).isSome := by
    rw [hagree.names, hfind, Option.isSome_map]
    exact hname
  have hne : name.isEmpty = false := by
    refine Bool.eq_false_iff.2 fun hempty => ?_
    rw [String.isEmpty_iff.1 hempty, h.current?_empty] at hname
    cases hname
  unfold Slots.block
  simp [hs, hclaimed, hne]

/-- A name that is not claimed there, or none, gets a block behind the slots in use. -/
theorem block_fresh (h : Kept s l) {name : String} (hname : l.current? (.named name) = none)
    (kind : SlotKind) (width : Nat) : ∃ later, s.block name kind width = .ok (s.mark, later) ∧
      Kept later ((l.opened s.taken).add ⟨.ofName name, kind, s.mark, max width 1⟩) := by
  obtain ⟨scope, outer, t, ts, hs, ht, hagree, hfind, htaken, hopen, _⟩ := h.innermost
  have hmark : s.opened.mark = s.mark := congrArg List.length htaken
  have hfree : (scope.names.lookup name).isSome = false := by
    rw [hagree.names, hfind, hname]
    rfl
  have hfits : Grant.Fits ⟨.ofName name, kind, s.mark, max width 1⟩ s.opened.taken t := by
    refine ⟨hmark.symm, Nat.le_max_right _ _, ?_, ?_, fun hp => ?_⟩ <;> unfold Purpose.ofName at *
    · split
      · nofun
      · next hne => simpa [String.isEmpty_iff] using hne
    · split <;> nofun
    · split at hp
      · exact (hp rfl).elim
      · next hne => simpa [hne, hfind] using hname
  have hkept := hopen.add hs ht hfits
  refine ⟨_, ?_, hkept⟩
  unfold Slots.block
  simp only [hs, hfree, Bool.and_false, Bool.false_eq_true, if_false, hmark, Purpose.name_ofName]
  congr 2
  unfold Purpose.ofName SlotScope.give mapScope
  split <;> simp [extend, hs]

/-- A key that has a slot in the innermost scope keeps it. -/
theorem synthetic_known (h : Kept s l) {key : String} {g : Grant}
    (hkey : l.current? (.keyed key) = some g) (kind : SlotKind) :
    s.synthetic key kind = (g.first, s) := by
  obtain ⟨scope, outer, t, ts, hs, _, hagree, hfind, _, _, hsame⟩ := h.innermost
  have hslot : scope.keyed.lookup key = some g.first := by
    rw [hagree.keyed, hfind, hkey]
    rfl
  have hopen : s.opened = s := hsame fun hl => by
    rw [Ledger.current?, hl] at hkey
    cases hkey
  rw [hopen] at hs
  unfold Slots.synthetic
  simp only [hopen, hs, hslot]

/-- A key without one gets the next slot. -/
theorem synthetic_fresh (h : Kept s l) {key : String} (hkey : l.current? (.keyed key) = none)
    (kind : SlotKind) :
    ∃ later, s.synthetic key kind = (s.mark, later) ∧
      Kept later ((l.opened s.taken).add ⟨.keyed key, kind, s.mark, 1⟩) := by
  obtain ⟨scope, outer, t, ts, hs, ht, hagree, hfind, htaken, hopen, _⟩ := h.innermost
  have hmark : s.opened.mark = s.mark := congrArg List.length htaken
  have hfree : scope.keyed.lookup key = none := by
    rw [hagree.keyed, hfind, hkey]
    rfl
  have hfits : Grant.Fits ⟨.keyed key, kind, s.mark, 1⟩ s.opened.taken t :=
    ⟨hmark.symm, Nat.one_pos, nofun, fun _ _ => rfl, fun _ => by rw [hfind, hkey]⟩
  have hagain : s.opened.opened = s.opened := by
    unfold Slots.opened at hs ⊢
    split at hs <;> simp_all
  refine ⟨_, ?_, hopen.add hs ht hfits⟩
  unfold Slots.synthetic Slots.anonymous
  simp only [hs, hfree, hagain, hmark]
  rfl

theorem mem_live {p : Purpose} {g : Grant} (hg : l.current? p = some g) : g ∈ l.live ∧
    g.purpose = p := by
  obtain ⟨t, ht, hfind⟩ := Option.bind_eq_some_iff.1 hg
  refine ⟨List.mem_flatMap.2 ⟨t, List.mem_of_mem_head? ht, List.mem_of_find?_eq_some hfind⟩, ?_⟩
  simpa using List.find?_some hfind

/-- A call for a block, whether or not its name is claimed. -/
theorem block (h : Kept s l) (name : String) (kind : SlotKind) (width : Nat) {c : Call}
    (hcall : s.call c = s.settle (s.block name kind width))
    (hrefused : ∀ e, l.note s.taken c (.error e) = l)
    (hgiven : ∀ i, l.note s.taken c (.ok (some i)) =
      (l.opened s.taken).add ⟨.ofName name, kind, i, max width 1⟩) :
    Kept (turn (s, l) c).1 (turn (s, l) c).2 := by
  unfold turn
  rw [hcall]
  cases hname : l.current? (.named name) with
  | some g =>
    rw [h.block_claimed (by rw [hname]; rfl)]
    simpa only [settle, hrefused] using h
  | none =>
    obtain ⟨later, hblock, hkept⟩ := h.block_fresh hname kind width
    rw [hblock]
    simpa only [settle, hgiven] using hkept

theorem turn (h : Kept s l) (c : Call) : Kept (turn (s, l) c).1 (turn (s, l) c).2 := by
  cases c with
  | enter => exact h.enter
  | exit => exact h.exit.1
  | alloc name kind => exact h.block name kind 1 rfl (fun _ => rfl) fun _ => rfl
  | block name kind width => exact h.block name kind width rfl (fun _ => rfl) fun _ => rfl
  | synthetic key kind =>
    unfold Slots.turn
    simp only [call, settle, Ledger.note]
    cases hkey : l.current? (.keyed key) with
    | some g =>
      rw [h.synthetic_known hkey]
      obtain ⟨hlive, hpurpose⟩ := mem_live hkey
      refine ⟨h.books, h.size, fun i hi => ?_⟩
      rcases List.mem_append.1 hi with hi | hi
      · exact h.given i hi
      · obtain ⟨t, ht, hg⟩ := List.mem_flatMap.1 hlive
        have hwidth := (h.books.shapes t ht g hg).2.2 key hpurpose
        have hwithin := h.books.within g hlive
        have hsize : s.taken.length ≤ s.size := h.size
        rw [List.mem_singleton.1 hi]
        simp only
        omega
    | none =>
      obtain ⟨later, hsynthetic, hkept⟩ := h.synthetic_fresh hkey kind
      rw [hsynthetic]
      simpa using hkept

theorem play (calls : List Call) : Kept (play calls).1 (play calls).2 := by
  induction calls using List.reverseRecOn with
  | nil => exact new
  | append_singleton calls c ih =>
    unfold Slots.play at ih ⊢
    rw [List.foldl_append]
    exact ih.turn c

end Kept

/-- What the ledger tells of the slots, and of the answer to the next call. -/
structure Accounted (s : Slots) (l : Ledger) : Prop where
  /-- The slots in use are numbered in their order, without gaps. -/
  numbered : s.taken.map (·.index) = List.range s.taken.length
  /-- The slots of a block stand in a row, from its first index on. -/
  blocks : ∀ g ∈ l.live, ∀ i < g.width, s.taken[g.first + i]? =
    some { index := g.first + i, kind := g.kind, name := if i = 0 then g.purpose.name else "" }
  /-- No slot is in two blocks. -/
  disjoint : l.live.Pairwise fun g g' => ∀ i, g.first ≤ i → i < g.first + g.width →
    ¬(g'.first ≤ i ∧ i < g'.first + g'.width)
  size : ∀ i ∈ l.given, i + 1 ≤ s.size
  /-- A name that the innermost scope has a block for is refused, and nothing changes. -/
  refused : ∀ name kind width, (l.current? (.named name)).isSome →
    s.call (.block name kind width) = (.error (Failure.duplicateSlot name), s) ∧
      s.call (.alloc name kind) = (.error (Failure.duplicateSlot name), s)
  /-- Any other name, or none, gets a block behind the slots in use. -/
  given : ∀ name kind width, l.current? (.named name) = none →
    (s.call (.block name kind width)).1 = .ok (some s.mark) ∧
    (s.call (.alloc name kind)).1 = .ok (some s.mark)
  /-- A name leads to the block of the innermost scope that has one for it. -/
  lookup : ∀ name, s.lookup name =
    (l.find? (.named name)).map fun g => { index := g.first, kind := g.kind, name := name }
  /-- A key that the innermost scope has a slot for gets this slot, and nothing changes. -/
  known : ∀ key kind g, l.current? (.keyed key) = some g →
    s.call (.synthetic key kind) = (.ok (some g.first), s)
  /-- Any other key gets the next slot. -/
  fresh : ∀ key kind, l.current? (.keyed key) = none →
    (s.call (.synthetic key kind)).1 = .ok (some s.mark)
  /-- No scope has two blocks for one name or key. -/
  distinct : ∀ t ∈ l.tenures, t.grants.Pairwise fun g g' => g.purpose ≠ .plain →
    g'.purpose ≠ g.purpose
  /-- Closing a scope brings back the slots that were in use when it was opened. -/
  exit : ∀ t outer, l.tenures = t :: outer → s.exit.taken = t.before

theorem Kept.accounted {s : Slots} {l : Ledger} (h : Kept s l) : Accounted s l where
  numbered := h.books.numbered
  blocks g hg := by
    obtain ⟨t, ht, hg⟩ := List.mem_flatMap.1 hg
    exact h.books.blocks t ht g hg
  disjoint := h.books.apart.imp fun {later earlier} hle i hlow hhigh hin => by omega
  size i hi := h.given i hi
  refused name kind width hname := by
    have hblock := h.block_claimed hname kind
    simp only [call, alloc, hblock, settle, and_self]
  given name kind width hname := by
    obtain ⟨_, hblock, _⟩ := h.block_fresh hname kind width
    obtain ⟨_, halloc, _⟩ := h.block_fresh hname kind 1
    simp only [call, alloc, hblock, halloc, settle, and_self]
  lookup name := by
    unfold Slots.lookup Ledger.find?
    rw [h.books.lookup name]
    cases hfind : l.tenures.findSome? (·.find? (.named name)) with
    | none => rfl
    | some g =>
      obtain ⟨t, ht, hg⟩ := List.exists_of_findSome?_eq_some hfind
      have hpurpose : g.purpose = .named name := by simpa using List.find?_some hg
      have hmem := List.mem_of_find?_eq_some hg
      have hslot := h.books.blocks t ht g hmem 0 (h.books.shapes t ht g hmem).1
      simpa [hpurpose, Purpose.name] using hslot
  known key kind g hkey := by
    simp only [call, h.synthetic_known hkey, settle]
  fresh key kind hkey := by
    obtain ⟨_, hsynthetic, _⟩ := h.synthetic_fresh hkey kind
    simp only [call, hsynthetic, settle]
  distinct := h.books.distinct
  exit := h.exit.2

/-- **Whatever the calls were, the slots are as the ledger of the calls tells.** -/
theorem play_accounted (calls : List Call) : Accounted (play calls).1 (play calls).2 :=
    (Kept.play calls).accounted

end Slots

end Interlude
