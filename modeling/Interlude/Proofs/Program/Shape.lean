import Interlude.Proofs.Term.Compile
/-!
# The shapes of cells in a program

Cells have no types, and blocks side by side use the same cells. What is known of the cells at each
instruction is told by an assignment of shapes; an instruction fits if it finds what it asks for and
if what is known at the instructions that may follow is what it leaves (`Instr.Fits`).
-/

namespace Interlude

/-- What is known of a cell. Of a `free` cell nothing is known and nothing is asked; `any` is the
content that was written last, whatever it is. -/
inductive Shape where
  | free
  | any
  | value
  | buffer
  | wrap
deriving DecidableEq

/-- What is known of all cells at an instruction. -/
abbrev Shapes := Nat → Shape

/-- The first shape asks for no more than is known by the second. -/
def Shape.Within (asked known : Shape) : Prop :=
  asked = .free ∨ asked = known ∨ asked = .any ∧ known ≠ .free

theorem Shape.Within.trans {a b c : Shape} (h : a.Within b) (h' : b.Within c) : a.Within c := by
  unfold Within at *
  cases a <;> cases b <;> cases c <;> simp_all

namespace Shapes

/-- Shapes that ask for no more than is known. -/
def Within (asked known : Shapes) : Prop := ∀ i, (asked i).Within (known i)

def set (shapes : Shapes) (i : Nat) (s : Shape) : Shapes := fun j => if j = i then s else shapes j

theorem Within.refl (g : Shapes) : g.Within g := fun _ => .inr (.inl rfl)

theorem Within.trans {g h k : Shapes} (hg : g.Within h) (hh : h.Within k) : g.Within k :=
  fun i => (hg i).trans (hh i)

/-- What is in use stays in use where more is known. -/
theorem Within.used {g h : Shapes} (hg : g.Within h) {i : Nat} (hi : g i ≠ .free) :
    h i ≠ .free := by
  rcases hg i with hf | he | ⟨_, hu⟩
  · exact (hi hf).elim
  · rw [← he]; exact hi
  · exact hu

/-- A shape that says more than that a cell is in use stays. -/
theorem Within.eq {g h : Shapes} (hg : g.Within h) {i : Nat} {s : Shape} (hi : g i = s)
    (hf : s ≠ .free) (ha : s ≠ .any) : h i = s := by
  rcases hg i with h' | h' | ⟨h', _⟩
  · exact (hf (hi.symm.trans h')).elim
  · rw [← h', hi]
  · exact (ha (hi.symm.trans h')).elim

theorem set_self (g : Shapes) (i : Nat) (s : Shape) : g.set i s i = s := if_pos rfl

theorem set_of_ne (g : Shapes) {i j : Nat} (h : j ≠ i) (s : Shape) : g.set i s j = g j := if_neg h

/-- Writing a cell nobody asks for loses nothing. -/
theorem within_set {g : Shapes} {i : Nat} (h : g i = .free) (s : Shape) : g.Within (g.set i s) := by
  intro j
  by_cases hj : j = i
  · subst hj; exact .inl h
  · rw [set_of_ne g hj]; exact Within.refl g j

theorem Within.set {g h : Shapes} (hg : g.Within h) (i : Nat) (s : Shape) :
    (g.set i s).Within (h.set i s) := by
  intro j
  by_cases hj : j = i
  · subst hj; rw [set_self, set_self]; exact .inr (.inl rfl)
  · rw [set_of_ne g hj, set_of_ne h hj]; exact hg j

/-- What was asked of a cell that is given up is asked no more. -/
theorem Within.set_free {g h : Shapes} {i : Nat} (hg : g.Within h) (hi : g i = .free) :
    g.Within (h.set i .free) := by
  intro j
  by_cases hj : j = i
  · subst hj; exact .inl hi
  · rw [set_of_ne h hj]; exact hg j

end Shapes

/-- A cell of that shape. -/
def Cell.Has (c : Cell) : Shape → Prop
  | .value => ∃ v, c = .value v
  | .buffer => ∃ id, c = .buffer id
  | .wrap => ∃ entry stages, c = .wrap entry stages
  | _ => True

theorem Cell.Has.within {c : Cell} {a b : Shape} (h : c.Has b) (hw : a.Within b) : c.Has a := by
  rcases hw with rfl | rfl | ⟨rfl, _⟩
  · trivial
  · exact h
  · trivial

/-! ## Instructions -/

/-- Output goes to the sink of the render, or to a buffer or stage in a cell. -/
def Out.Fits (g : Shapes) : Out → Prop
  | .sink => True
  | .cell slot => g slot = .buffer ∨ g slot = .wrap

theorem Out.Fits.mono {g h : Shapes} {out : Out} (ho : out.Fits g) (hg : g.Within h) :
    out.Fits h := by
  cases out with
  | sink => trivial
  | cell slot =>
    exact ho.imp (fun hs => hg.eq hs (by simp) (by simp)) fun hs => hg.eq hs (by simp) (by simp)

/-- The content params of a call are in cells with values. -/
def Argument.Fits (g : Shapes) : Argument → Prop
  | .content _ slot => g slot = .value
  | _ => True

/-- The cells of an instruction are free, and what is saved are all cells in use and its own. -/
structure Extent.Fits (size : Nat) (g : Shapes) (x : Extent) : Prop where
  low_le : x.low ≤ x.memo
  memo_le : x.memo ≤ x.high
  scratch : ∀ i, x.low ≤ i → i < x.high → g i = .free
  site : ∃ mark, x.site.slots = List.range mark ∧ x.high ≤ mark ∧ mark ≤ size ∧
    ∀ i, g i ≠ .free → i < mark

/-- Whether an instruction can be stopped by a pending value or a sink that asks for a pause. -/
def Op.stops : Op → Bool
  | print .. => true
  | checkLimit => true
  | jumpIfFalse .. => true
  | caseMatch .. => true
  | store .. => true
  | rangeInit .. => true
  | eachInit .. => true
  | call .. => true
  | beginWrap .. => true
  | _ => false

section

variable (size stop : Nat) (types : Nat → Shapes)

/-- What is known at an instruction to which others go on is what is known before. -/
def Goes (g : Shapes) (target : Nat) : Prop := target ≤ stop ∧ (types target).Within g

/-- What an operation asks of the cells, and what it leaves for those that may follow. `size` is the
number of cells and `stop` the length of the program. -/
def Op.Flows (pc : Nat) : Op → Prop
  | text out _ => out.Fits (types pc) ∧ Goes stop types (types pc) (pc + 1)
  | print out _ _ => out.Fits (types pc) ∧ Goes stop types (types pc) (pc + 1)
  | checkLimit => Goes stop types (types pc) (pc + 1)
  | jump target => Goes stop types (types pc) target
  | jumpIfFalse _ target => Goes stop types (types pc) target ∧ Goes stop types (types pc) (pc + 1)
  | caseMatch _ _ target => Goes stop types (types pc) target ∧ Goes stop types (types pc) (pc + 1)
  | store slot _ _ => slot < size ∧ Goes stop types ((types pc).set slot .any) (pc + 1)
  | storeThunk slot code =>
    slot < size ∧ code.Fits (types pc · ≠ .free) ∧
      Goes stop types ((types pc).set slot .any) (pc + 1)
  | rangeInit base _ _ _ => base + 2 < size ∧
    Goes stop types ((((types pc).set base .any).set (base + 1) .any).set (base + 2) .any) (pc + 1)
  | rangeNext base target =>
    (types pc base ≠ .free ∧ types pc (base + 1) ≠ .free) ∧
      Goes stop types (types pc) target ∧ Goes stop types (types pc) (pc + 1)
  | rangeStep base target =>
    (types pc base ≠ .free ∧ types pc (base + 1) ≠ .free ∧ types pc (base + 2) ≠ .free) ∧
      Goes stop types ((types pc).set base .any) target
  | eachInit base _ target => base + 2 < size ∧
    Goes stop types ((((types pc).set base .any).set (base + 1) .any).set (base + 2) .any) target ∧
    Goes stop types ((((types pc).set base .any).set (base + 1) .any).set (base + 2) .any) (pc + 1)
  | eachNext base target =>
    (types pc (base + 1) ≠ .free ∧ types pc (base + 2) ≠ .free) ∧
      Goes stop types (types pc) target ∧ Goes stop types (types pc) (pc + 1)
  | eachStep base target =>
    types pc (base + 1) ≠ .free ∧ Goes stop types ((types pc).set (base + 1) .any) target
  | beginBuffer slot => slot < size ∧ Goes stop types ((types pc).set slot .buffer) (pc + 1)
  | endBuffer slot dst _ => dst < size ∧ slot ≠ dst ∧ types pc slot = .buffer ∧
    Goes stop types (((types pc).set dst .value).set slot .free) (pc + 1)
  | call out slot site _ =>
    out.Fits (types pc) ∧ slot < size ∧ (∀ a ∈ site.args, a.Fits (types pc)) ∧
      Goes stop types (types pc) (pc + 1)
  | log slot => types pc slot = .buffer ∧ Goes stop types ((types pc).set slot .free) (pc + 1)
  | beginWrap out slot _ _ =>
    out.Fits (types pc) ∧ slot < size ∧ Goes stop types ((types pc).set slot .wrap) (pc + 1)
  | endWrap slot => types pc slot = .wrap ∧ Goes stop types ((types pc).set slot .free) (pc + 1)

/-- The cells an operation writes lie outside those its expressions keep results in, apart from the
cell of a call. -/
def Op.Apart (x : Extent) : Op → Prop
  | store slot _ _ => slot < x.low
  | rangeInit base _ _ _ => base + 2 < x.low
  | eachInit base _ _ => base + 2 < x.low
  | beginWrap _ slot _ _ => slot < x.low
  | call _ slot _ _ => x.low ≤ slot ∧ slot < x.memo
  | _ => True

/-- An instruction fits at its place in a program. -/
structure Instr.Fits (pc : Nat) (i : Instr) : Prop where
  bound : ∀ slot, types pc slot ≠ .free → slot < size
  extent : ∀ x, i.extent = some x → x.Fits size (types pc) ∧ i.op.Apart x
  stops : i.op.stops = true → i.extent.isSome = true
  touches : ∃ table : Table, ∀ x, i.extent = some x →
    i.op.Touches (types pc · ≠ .free) (keepIn x.memo x.high table)
  flows : i.op.Flows size stop types pc

end

/-! ## Typed code

Code is typed from some shapes to others if, however the instructions around it are typed, there are
shapes for the places inside it at which all of its instructions fit. It may also jump to `exits`
outside of it, at which shapes have to be as told. The rules here put together the types of code
from those of its parts.
-/

/-- The places code jumps to ask for no more than told. -/
def ExitsFit (exits : List (Nat × Shapes)) (stop : Nat) (types : Nat → Shapes) : Prop :=
  ∀ e ∈ exits, e.1 ≤ stop ∧ (types e.1).Within e.2

/-- Code that stands at `pc`, in a program with `size` cells, and goes from the shapes `g` to
`g'`. -/
def TypedTo (exits : List (Nat × Shapes)) (size pc : Nat) (code : List Instr)
    (g g' : Shapes) : Prop :=
  ∃ inner : Nat → Shapes, (inner 0).Within g ∧ inner code.length = g' ∧
    ∀ (stop : Nat) (types : Nat → Shapes), (∀ k, k < code.length → types (pc + k) = inner k) →
      (types (pc + code.length)).Within g' → pc + code.length ≤ stop → ExitsFit exits stop types →
      ∀ (k : Nat) (i : Instr), code[k]? = some i → i.Fits size stop types (pc + k)

/-- Code that does not jump out of itself. -/
abbrev Typed (size pc : Nat) (code : List Instr) (g g' : Shapes) : Prop :=
    TypedTo [] size pc code g g'

namespace TypedTo

variable {exits : List (Nat × Shapes)} {size pc : Nat} {code code' : List Instr}
  {g g' h h' k : Shapes}

theorem nil (hg : g'.Within g) : TypedTo exits size pc [] g g' :=
  ⟨fun _ => g', hg, rfl, fun _ _ _ _ _ _ _ _ hi => by cases hi⟩

theorem single {i : Instr} (hi : ∀ (stop : Nat) (types : Nat → Shapes), types pc = g →
      (types (pc + 1)).Within g' → pc + 1 ≤ stop → ExitsFit exits stop types →
      i.Fits size stop types pc) :
    TypedTo exits size pc [i] g g' := by
  refine ⟨fun k => if k = 0 then g else g', Shapes.Within.refl g, rfl, ?_⟩
  intro stop types htypes hend hstop hexits k j hj
  cases k with
  | zero =>
    cases hj
    exact hi stop types (htypes 0 Nat.zero_lt_one) hend hstop hexits
  | succ k => cases hj

/-- Code after code. Where the second begins, the first may also jump to. -/
theorem append_at {middle : Nat} (hc : TypedTo ((middle, h') :: exits) size pc code g g')
    (hc' : TypedTo exits size middle code' h k) (hm : middle = pc + code.length) (hh : h.Within g')
    (hh' : h.Within h') : TypedTo exits size pc (code ++ code') g k := by
  subst hm
  obtain ⟨inner, hstart, hend, hfit⟩ := hc
  obtain ⟨inner', hstart', hend', hfit'⟩ := hc'
  refine ⟨fun k => if k < code.length then inner k else inner' (k - code.length), ?_, ?_, ?_⟩
  · simp only
    split
    · exact hstart
    · next hlen =>
      have hzero : code.length = 0 := by omega
      rw [hzero] at hend ⊢
      rw [hend] at hstart
      exact hstart'.trans (hh.trans hstart)
  · simp only [List.length_append]
    rw [if_neg (by omega), Nat.add_sub_cancel_left]
    exact hend'
  · intro stop types htypes hlast hstop hexits
    rw [List.length_append] at htypes hlast hstop
    simp only at htypes
    have hsecond : ∀ k, k < code'.length → types (pc + code.length + k) = inner' k := by
      intro k hk
      have := htypes (code.length + k) (by omega)
      rw [if_neg (by omega), Nat.add_sub_cancel_left] at this
      rw [Nat.add_assoc]
      exact this
    have hjoint : (types (pc + code.length)).Within (inner' 0) := by
      by_cases hlen : code'.length = 0
      · rw [hlen, Nat.add_zero] at hlast
        rw [hlen] at hend'
        rw [hend']
        exact hlast
      · have := hsecond 0 (by omega)
        rw [Nat.add_zero] at this
        rw [this]
        exact Shapes.Within.refl _
    have hjoint' := hjoint.trans hstart'
    intro k i hi
    by_cases hk : k < code.length
    · rw [List.getElem?_append_left hk] at hi
      refine hfit stop types ?_ (hjoint'.trans hh) (by omega) ?_ k i hi
      · intro j hj
        have := htypes j (by omega)
        rwa [if_pos hj] at this
      · intro e he
        rcases List.mem_cons.1 he with rfl | he
        · exact ⟨by change pc + code.length ≤ stop; omega, hjoint'.trans hh'⟩
        · exact hexits e he
    · rw [List.getElem?_append_right (by omega)] at hi
      have := hfit' stop types hsecond (by rw [Nat.add_assoc]; exact hlast) (by omega) hexits
        (k - code.length) i hi
      rwa [Nat.add_assoc, Nat.add_sub_of_le (by omega)] at this

theorem addExit (hc : TypedTo exits size pc code g g') (e : Nat × Shapes) :
    TypedTo (e :: exits) size pc code g g' := by
  obtain ⟨inner, hstart, hend, hfit⟩ := hc
  refine ⟨inner, hstart, hend, fun stop types htypes hlast hstop hexits => ?_⟩
  exact hfit stop types htypes hlast hstop fun e he => hexits e (List.mem_cons_of_mem _ he)

theorem weakenExits {exits' : List (Nat × Shapes)} (hc : TypedTo exits size pc code g g')
    (he : ∀ e ∈ exits, e ∈ exits') : TypedTo exits' size pc code g g' := by
  obtain ⟨inner, hstart, hend, hfit⟩ := hc
  refine ⟨inner, hstart, hend, fun stop types htypes hlast hstop hexits => ?_⟩
  exact hfit stop types htypes hlast hstop fun e h => hexits e (he e h)

theorem append (hc : TypedTo exits size pc code g h)
    (hc' : TypedTo exits size (pc + code.length) code' h k) :
    TypedTo exits size pc (code ++ code') g k :=
  (hc.addExit _).append_at hc' rfl (Shapes.Within.refl h) (Shapes.Within.refl h)

theorem cons {i : Instr} (hi : TypedTo exits size pc [i] g h)
    (hc : TypedTo exits size (pc + 1) code h k) :
    TypedTo exits size pc (i :: code) g k :=
  hi.append hc

/-- What is left may be forgotten. -/
theorem forget (hc : TypedTo exits size pc code g g') (hh : h.Within g') :
    TypedTo exits size pc code g h := by
  have hn : TypedTo exits size (pc + code.length) [] g' h := nil hh
  simpa using hc.append hn

/-- A jump to the end of the code. -/
theorem closeEnd (stop : Nat) (hc : TypedTo ((stop, h) :: exits) size pc code g g')
    (hs : stop = pc + code.length) (hh : g'.Within h) : TypedTo exits size pc code g g' := by
  have hn : TypedTo exits size stop [] g' g' := nil (Shapes.Within.refl g')
  simpa using hc.append_at hn hs (Shapes.Within.refl g') hh

/-- A jump back to the start of the code. -/
theorem closeStart {i : Instr} (hc : TypedTo ((pc, g) :: exits) size pc (i :: code) g g') :
    TypedTo exits size pc (i :: code) g g' := by
  obtain ⟨inner, hstart, hend, hfit⟩ := hc
  refine ⟨inner, hstart, hend, fun stop types htypes hlast hstop hexits => ?_⟩
  refine hfit stop types htypes hlast hstop fun e he => ?_
  rcases List.mem_cons.1 he with rfl | he
  · have hpc := htypes 0 (by simp)
    rw [Nat.add_zero] at hpc
    exact ⟨by change pc ≤ stop; omega, by change (types pc).Within g; rw [hpc]; exact hstart⟩
  · exact hexits e he

end TypedTo

/-- A whole program is typed from its first instruction to its end. -/
theorem Typed.assign {size : Nat} {code : List Instr} {g g' : Shapes} (h : Typed size 0 code g g') :
    ∃ types : Nat → Shapes, (types 0).Within g ∧
      ∀ (k : Nat) (i : Instr), code[k]? = some i → i.Fits size code.length types k := by
  obtain ⟨inner, hstart, hend, hfit⟩ := h
  refine ⟨inner, hstart, fun k i hi => ?_⟩
  have := hfit code.length inner (fun k _ => by rw [Nat.zero_add])
    (by rw [Nat.zero_add, hend]; exact Shapes.Within.refl g') (by omega)
    (fun e he => by cases he) k i hi
  rwa [Nat.zero_add] at this

end Interlude
