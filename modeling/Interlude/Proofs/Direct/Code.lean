import Interlude.Proofs.Direct.Plan
import Interlude.Proofs.Program.Compile
import Interlude.Proofs.Resume.Twin
/-!
# Code that reads locals from cells

The compiler puts locals into cells, and those of a deferred expression into cells of its own. As
long as the cells hold what the names stand for, the code of an expression comes to what the
expression comes to (`Expr.compile_alike`).
-/

namespace Interlude

/-- Reading locals from the left cells comes to what reading them by name comes to. -/
def Locals.ReadAs (ls : Locals) (P : Pairing) (force : ThunkId → Eval Value) (r : Reading) : Prop :=
  ∀ names, (ls.reading force).Alike P names r

theorem Pairing.cell_alike {P : Pairing} {i j : Nat} (h : P.left.read i = P.right.read j) :
    P.Alike Cell (Eval.cell i) (Eval.cell j) := by
  intro m n _ hmc _ hnc
  refine ⟨.ok (m.cells.read i), m, n, rfl, ?_, .refl m, .refl n⟩
  rw [hmc, h, ← hnc]
  rfl

/-- The index and length of a loop that are in cells. -/
theorem Pairing.loop_alike {P : Pairing} {i j k l : Nat} (hi : P.left.read i = P.right.read k)
    (hj : P.left.read j = P.right.read l) : P.Alike (Int64 × Int64)
      (do return ((← Eval.cell i).int, (← Eval.cell j).int))
      (do return ((← Eval.cell k).int, (← Eval.cell l).int)) :=
  (Pairing.cell_alike hi).bind fun _ => (Pairing.cell_alike hj).bind fun _ => P.compatible.pure _

/-- A cell that only the left side looks at. -/
theorem Pairing.cell_left {P : Pairing} {α : Type} {i : Nat} {c : Cell} (hc : P.left.read i = c)
    {f : Cell → Eval α} {y : Eval α} (h : P.Alike α (f c) y) : P.Alike α (Eval.cell i >>= f) y := by
  intro m n hms hmc hns hnc
  have hcell : Eval.cell i P.env m = .ok c m := by rw [← hc, ← hmc]; rfl
  rw [Eval.bind_apply, hcell]
  exact h m n hms hmc hns hnc

namespace Locals.ReadAs

variable {ls : Locals} {P : Pairing} {r : Reading}

/-- Locals can be read as before as long as their cells are as they were; more deferred values do
not matter. -/
theorem keep {made later : Array Thunk} (h : ls.ReadAs P (Thunk.meaning made) r) {see : Seeing}
    (hs : ls.Seen see) (he : Thunk.Extends made later) {cells : Cells}
    (hc : ∀ i, see i → cells.read i = P.left.read i ∧ ∀ id, P.left.read i = .thunk id →
      id < made.size) :
    ls.ReadAs { P with left := cells } (Thunk.meaning later) r := by
  intro names
  have h := h names
  generalize hQ : (⟨P.states, P.env, cells, P.left⟩ : Pairing) = Q
  have hsame {α : Type} {x y : Eval α} {z : Eval α} (hx : Q.Alike α x y) (hy : P.Alike α y z) :
      Pairing.Alike { P with left := cells } α x z := by
    subst hQ
    exact hx.trans hy
  refine ⟨fun n hn => ?_, fun n hn => ?_, fun t v => hsame (Q.compatible.pure v) (h.check t v)⟩
  · have hvar := h.var n hn
    simp only [Locals.reading] at hvar ⊢
    split
    · next b hb =>
      rw [hb] at hvar
      have htouch : b.Touches fun i => P.left.read i = cells.read i ∧
          ∀ id, P.left.read i = .thunk id → id < made.size :=
        ⟨⟨(hc _ (hs n b hb).slot).1.symm, (hc _ (hs n b hb).slot).2⟩, fun i l hl =>
          ⟨(hc i ((hs n b hb).loop i l hl).1).1.symm, (hc i ((hs n b hb).loop i l hl).1).2⟩⟩
      have hmoved : (⟨P.states, P.env, P.left, cells⟩ : Pairing).Alike Value _ _ :=
        Binding.eval_alike he htouch
      exact hsame (hQ ▸ hmoved.symm) hvar
    · next hb =>
      rw [hb] at hvar
      exact hsame (Q.compatible.pure _) hvar
  · have hloop := h.loop n hn
    simp only [Locals.reading] at hloop ⊢
    split
    · next i l hb =>
      rw [hb] at hloop
      obtain ⟨b, hb, hl⟩ := Option.bind_eq_some_iff.1 hb
      obtain ⟨hi, hl⟩ := (hs n b hb).loop i l hl
      have hmoved : (⟨P.states, P.env, cells, P.left⟩ : Pairing).Alike (Int64 × Int64) _ _ :=
        Pairing.loop_alike (hc i hi).1 (hc l hl).1
      exact hsame (hQ ▸ hmoved) hloop
    · next hb =>
      rw [hb] at hloop
      exact hsame (Q.compatible.pure _) hloop

theorem push {force : ThunkId → Eval Value} (h : ls.ReadAs P force r) :
    ls.push.ReadAs P force r := by
  intro names
  have h := h names
  refine ⟨fun n hn => ?_, fun n hn => ?_, h.check⟩
  · have hvar := h.var n hn
    simp only [Locals.reading, Locals.lookup_push] at hvar ⊢
    exact hvar
  · have hloop := h.loop n hn
    simp only [Locals.reading, Locals.lookup_push] at hloop ⊢
    exact hloop

/-- A local of a loop is added. -/
theorem bindLoop {force : ThunkId → Eval Value} (h : ls.ReadAs P force r) {name : String}
    {b : Binding} {x : Eval Value} {index length : Int64} (hx : P.Alike Value (b.eval force) x)
    (hl : ∀ i l, b.loop = some (i, l) → (P.left.read i).int = index ∧ (P.left.read l).int = length)
    (hn : b.loop = none → index = 0 ∧ length = 0) :
    (ls.bind name b).ReadAs P force (r.bindLoop name x index length) := by
  intro names
  have h := h names
  refine ⟨fun n hn => ?_, fun n hn' => ?_, h.check⟩
  · have hvar := h.var n hn
    simp only [Locals.reading, Locals.lookup_bind, Reading.bindLoop] at hvar ⊢
    by_cases hname : (n == name) = true
    · simp only [hname, if_true]
      exact hx
    · simp only [hname, if_false, Bool.false_eq_true]
      exact hvar
  · have hloop := h.loop n hn'
    simp only [Locals.reading, Locals.lookup_bind, Reading.bindLoop] at hloop ⊢
    by_cases hname : (n == name) = true
    · simp only [hname, if_true, Option.bind_some]
      split
      · next i l hb =>
        obtain ⟨rfl, rfl⟩ := hl i l hb
        exact Pairing.cell_left rfl (Pairing.cell_left rfl (P.compatible.pure _))
      · next hb =>
        obtain ⟨rfl, rfl⟩ := hn hb
        exact P.compatible.pure _
    · simp only [hname, if_false, Bool.false_eq_true]
      exact hloop

end Locals.ReadAs

/-- Without locals nothing is read. -/
theorem Locals.readAs_empty (P : Pairing) (force : ThunkId → Eval Value) :
    Locals.empty.ReadAs P force .none := by
  intro names
  exact ⟨fun _ _ => P.compatible.pure _, fun _ _ => P.compatible.pure _, fun _ v =>
    P.compatible.pure v⟩

/-! ## Operands of instructions -/

namespace Program.Build

variable {a : Analyzer} {b b' : Builder} {P : Pairing} {force : ThunkId → Eval Value} {r : Reading}

theorem expr_comes (hr : b.locals.ReadAs P force r) {e : Expr} {c : Compiled}
    (h : expr e a b = .ok (c, b')) :
    c.Comes P force (e.eval r) ∧ b'.locals = b.locals := by
  obtain ⟨a', b₁, hread, h⟩ := bind_ok h
  cases hread
  obtain ⟨b₂, b₃, hget, h⟩ := bind_ok h
  cases hget
  obtain ⟨hc, hl⟩ := onSlots_ok h
  refine ⟨fun p => ?_, hl⟩
  rw [Expr.compile_means hc force p]
  exact Expr.eval_alike e (hr _) p

theorem exprs_come (hr : b.locals.ReadAs P force r) {es : List Expr} {cs : List Compiled}
    (h : exprs es a b = .ok (cs, b')) :
    List.Forall₂ (fun c (e : Expr) => c.Comes P force (e.eval r)) cs es ∧ b'.locals = b.locals := by
  induction es generalizing b cs with
  | nil =>
    obtain ⟨rfl, rfl⟩ := pure_ok h
    exact ⟨.nil, rfl⟩
  | cons e rest ih =>
    obtain ⟨c, b₁, hc, h⟩ := bind_ok h
    obtain ⟨later, b₂, hrest, h⟩ := bind_ok h
    obtain ⟨rfl, rfl⟩ := pure_ok h
    obtain ⟨hcome, hl⟩ := expr_comes hr hc
    obtain ⟨hcomes, hl'⟩ := ih (by rw [hl]; exact hr) hrest
    exact ⟨.cons hcome hcomes, hl'.trans hl⟩

theorem optional_comes (hr : b.locals.ReadAs P force r) {e : Option Expr} {c : Option Compiled}
    (h : optional e a b = .ok (c, b')) : Compiled.OptionComes P force r c e ∧
    b'.locals = b.locals := by
  cases e with
  | none =>
    obtain ⟨rfl, rfl⟩ := pure_ok h
    exact ⟨.none, rfl⟩
  | some e =>
    obtain ⟨c, b₁, hc, h⟩ := bind_ok h
    obtain ⟨rfl, rfl⟩ := pure_ok h
    obtain ⟨hcome, hl⟩ := expr_comes hr hc
    exact ⟨.some hcome, hl⟩

theorem resolve_ok {d : Directive} {f : Filter}
    (h : (liftM (Filter.resolve d.name d.args.length) : Build Filter) a b = .ok (f, b')) :
    Filter.resolve d.name d.args.length = .ok f ∧ b' = b := by
  cases hf : Filter.resolve d.name d.args.length with
  | error e => rw [hf] at h; cases h
  | ok f' => rw [hf] at h; cases h; exact ⟨rfl, rfl⟩

theorem filters_come (hr : b.locals.ReadAs P force r) {ds : List Directive} {fs : List FilterCall}
    (h : filters ds a b = .ok (fs, b')) :
    List.Forall₂ (FilterCall.Comes P force r) fs ds ∧ b'.locals = b.locals := by
  induction ds generalizing b fs with
  | nil =>
    obtain ⟨rfl, rfl⟩ := pure_ok h
    exact ⟨.nil, rfl⟩
  | cons d rest ih =>
    obtain ⟨filter, b₀, hresolve, hlater⟩ := bind_ok h
    obtain ⟨hfilter, rfl⟩ := resolve_ok hresolve
    obtain ⟨args, b₁, hargs, h⟩ := bind_ok hlater
    obtain ⟨later, b₂, hrest, h⟩ := bind_ok h
    obtain ⟨rfl, rfl⟩ := pure_ok h
    obtain ⟨hcomes, hl⟩ := exprs_come hr hargs
    obtain ⟨hlater, hl'⟩ := ih (by rw [hl]; exact hr) hrest
    exact ⟨.cons ⟨hfilter, hcomes⟩ hlater, hl'.trans hl⟩

theorem callee_comes (hr : b.locals.ReadAs P force r) {target : CallTarget} {whom : Callee}
    (h : callee target a b = .ok (whom, b')) : whom.Comes P force r target ∧
    b'.locals = b.locals := by
  cases target with
  | template =>
    obtain ⟨rfl, rfl⟩ := pure_ok h
    exact ⟨.template, rfl⟩
  | delegate variant allowEmpty =>
    obtain ⟨c, b₁, hc, h⟩ := bind_ok h
    obtain ⟨rfl, rfl⟩ := pure_ok h
    obtain ⟨hcome, hl⟩ := optional_comes hr hc
    exact ⟨.delegate hcome allowEmpty, hl⟩

theorem passed_comes (hr : b.locals.ReadAs P force r) {data : CallData} {what : Passed}
    (h : passed data a b = .ok (what, b')) : what.Comes P force r data ∧ b'.locals = b.locals := by
  cases data with
  | none =>
    obtain ⟨rfl, rfl⟩ := pure_ok h
    exact ⟨.none, rfl⟩
  | all =>
    obtain ⟨rfl, rfl⟩ := pure_ok h
    exact ⟨.all, rfl⟩
  | expr e =>
    obtain ⟨c, b₁, hc, h⟩ := bind_ok h
    obtain ⟨rfl, rfl⟩ := pure_ok h
    obtain ⟨hcome, hl⟩ := expr_comes hr hc
    exact ⟨.record hcome, hl⟩

end Program.Build

/-- The cells of content params hold what these were rendered to. -/
inductive Contents (cells : Cells) : List (CallParam (List Plan)) → List (Option Nat) →
    List (Option Value) → Prop
  | nil : Contents cells [] [] []
  | value {name : String} {e : Expr} {params : List (CallParam (List Plan))}
      {slots : List (Option Nat)} {contents : List (Option Value)}
      (h : Contents cells params slots contents) :
    Contents cells (.value name e :: params) (none :: slots) (none :: contents)
  | content {name : String} {kind : ContentKind} {body : List Plan}
      {params : List (CallParam (List Plan))} {slot : Nat} {slots : List (Option Nat)} {v : Value}
      {contents : List (Option Value)} (hv : cells.read slot = .value v)
      (h : Contents cells params slots contents) :
    Contents cells (.content name kind body :: params) (some slot :: slots) (some v :: contents)

namespace Program

variable {a : Analyzer} {P : Pairing} {force : ThunkId → Eval Value} {r : Reading}

theorem compileArguments_come {params : List (CallParam (List Plan))} {slots : List (Option Nat)}
    {contents : List (Option Value)} (hcontents : Contents P.left params slots contents)
    {b b' : Builder} {args : List Argument} (hr : b.locals.ReadAs P force r)
    (h : compileArguments params slots a b = .ok (args, b')) :
    Argument.Come P force r args params contents ∧ b'.locals = b.locals := by
  induction hcontents generalizing b args with
  | nil =>
    obtain ⟨rfl, rfl⟩ := Build.pure_ok h
    exact ⟨.nil, rfl⟩
  | @value name e params slots contents _ ih =>
    obtain ⟨arg, b₁, harg, h⟩ := Build.bind_ok h
    obtain ⟨later, b₂, hrest, h⟩ := Build.bind_ok h
    obtain ⟨rfl, rfl⟩ := Build.pure_ok h
    by_cases he : ∃ t param, e = .param t param false
    · obtain ⟨t, param, rfl⟩ := he
      obtain ⟨rfl, rfl⟩ := Build.pure_ok harg
      obtain ⟨hlater, hl⟩ := ih hr hrest
      exact ⟨.forward hlater, hl⟩
    · have hne : ∀ t param, e ≠ .param t param false := fun t param heq => he ⟨t, param, heq⟩
      rw [Build.argument.eq_2 _ _ hne] at harg
      obtain ⟨c, b₁, hc, harg⟩ := Build.bind_ok harg
      obtain ⟨rfl, rfl⟩ := Build.pure_ok harg
      obtain ⟨hcome, hl⟩ := Build.expr_comes hr hc
      obtain ⟨hlater, hl'⟩ := ih (by rw [hl]; exact hr) hrest
      exact ⟨.value hcome hne hlater, hl'.trans hl⟩
  | content hv _ ih =>
    obtain ⟨later, b₂, hrest, h⟩ := Build.bind_ok h
    obtain ⟨rfl, rfl⟩ := Build.pure_ok h
    obtain ⟨hlater, hl⟩ := ih hr hrest
    exact ⟨.content hv hlater, hl⟩

/-- What the parts of an instruction are compiled to. -/
theorem Build.step_parts {α : Type} {b b' : Builder} (hw : b.slots.Wf) {state : Option SlotKind}
    {parts : Nat → Build α} {p : α} {slot : Nat} {x : Extent}
    (h : Build.step state parts a b = .ok ((p, slot, x), b')) :
    ∃ b₁ b₂, b₁.slots.Wf ∧ b₁.locals = b.locals ∧ parts slot a b₁ = .ok (p, b₂) := by
  obtain ⟨u, b₁, henter, h⟩ := Build.bind_ok h
  cases henter
  obtain ⟨low, b₂, hget, h⟩ := Build.bind_ok h
  cases hget
  obtain ⟨slot', b₃, hstate, h⟩ := Build.bind_ok h
  obtain ⟨memo, b₄, hget, h⟩ := Build.bind_ok h
  cases hget
  obtain ⟨a', b₅, hparts, h⟩ := Build.bind_ok h
  obtain ⟨high, b₆, hget, h⟩ := Build.bind_ok h
  cases hget
  obtain ⟨site, b₇, hsite, h⟩ := Build.bind_ok h
  obtain ⟨u', b₈, hexit, h⟩ := Build.bind_ok h
  cases hexit
  obtain ⟨hres, rfl⟩ := Build.pure_ok h
  cases hres
  obtain ⟨hgrows, hl, _⟩ := Build.stateSlot_ok hw.enter hstate
  exact ⟨b₃, b₅, hgrows.wf, hl, hparts⟩

end Program

/-! ## Deferred expressions -/

/-- A local of a deferred expression whose cells are copies of those of a local outside. -/
structure Binding.CopiedTo (copies : List (Nat × Nat)) (b c : Binding) : Prop where
  slot : (b.slot, c.slot) ∈ copies
  plain : b.loop = none → c.loop = none ∧ c.kind = b.kind
  loop : ∀ i l, b.loop = some (i, l) → ∃ j k, c.loop = some (j, k) ∧ (i, j) ∈ copies ∧
    (l, k) ∈ copies

theorem Binding.CopiedTo.mono {copies copies' : List (Nat × Nat)} {b c : Binding}
    (h : b.CopiedTo copies c) (hc : copies ⊆ copies') : b.CopiedTo copies' c where
  slot := hc h.slot
  plain := h.plain
  loop i l hl := by
    obtain ⟨j, k, hc', hj, hk⟩ := h.loop i l hl
    exact ⟨j, k, hc', hc hj, hc hk⟩

theorem Binding.copied_alike {P : Pairing} {force : ThunkId → Eval Value}
    (hforce : ∀ id, P.Alike Value (force id) (force id)) {copies : List (Nat × Nat)} {b c : Binding}
    (h : b.CopiedTo copies c) (hcells : ∀ p ∈ copies, P.left.read p.2 = P.right.read p.1) :
    P.Alike Value (c.eval force) (b.eval force) := by
  unfold Binding.eval
  refine (Pairing.cell_alike (hcells _ h.slot)).bind fun cell => ?_
  cases hb : b.loop with
  | none =>
    obtain ⟨hc, hkind⟩ := h.plain hb
    rw [hc, hkind]
    cases b.kind with
    | thunk =>
      cases cell with
      | thunk id => exact hforce id
      | _ => exact P.compatible.pure _
    | _ => exact P.compatible.pure _
  | some il =>
    obtain ⟨j, k, hc, hj, _⟩ := h.loop il.1 il.2 hb
    rw [hc]
    simp only
    split
    · exact (Pairing.cell_alike (hcells _ hj)).bind fun _ => P.compatible.resolve _
    · exact P.compatible.pure _

namespace ThunkCode

/-- What capturing names gives: a copy of each of them, each into cells of its own. -/
structure Captured (outer inner inner' : Locals) (names : List String)
    (copies copies' : List (Nat × Nat)) : Prop where
  nodup : (copies'.map (·.2)).Nodup
  subset : copies ⊆ copies'
  rest : ∀ n, n ∉ names → inner'.lookup n = inner.lookup n
  copied : ∀ n ∈ names, ∃ b c, outer.lookup n = some b ∧ inner'.lookup n = some c ∧
    b.CopiedTo copies' c

theorem Captured.cons {outer inner inner' : Locals} {name : String} {names : List String}
    {b c : Binding} {copies more copies' : List (Nat × Nat)} (hb : outer.lookup name = some b)
    (hc : b.CopiedTo more c)
    (h : Captured outer (inner.bind name c) inner' names (copies ++ more) copies') :
    Captured outer inner inner' (name :: names) copies copies' where
  nodup := h.nodup
  subset := fun x hx => h.subset (List.mem_append_left _ hx)
  rest n hn := by
    rw [List.mem_cons, not_or] at hn
    rw [h.rest n hn.2, Locals.lookup_bind, if_neg (by simpa using hn.1)]
  copied n hn := by
    by_cases hin : n ∈ names
    · exact h.copied n hin
    · obtain rfl : n = name := (List.mem_cons.1 hn).resolve_right hin
      refine ⟨b, c, hb, ?_, hc.mono fun x hx => h.subset (List.mem_append_right _ hx)⟩
      rw [h.rest n hin, Locals.lookup_bind, if_pos (by simp)]

theorem nodup_append_targets {copies more : List (Nat × Nat)} {mark : Nat}
    (hn : (copies.map (·.2)).Nodup) (hc : ∀ c ∈ copies, c.2 < mark) (hm : (more.map (·.2)).Nodup)
    (hmore : ∀ c ∈ more, mark ≤ c.2) :
    ((copies ++ more).map (·.2)).Nodup := by
  rw [List.map_append, List.nodup_append]
  refine ⟨hn, hm, fun x hx y hy => ?_⟩
  obtain ⟨c, hc', rfl⟩ := List.mem_map.1 hx
  obtain ⟨d, hd, rfl⟩ := List.mem_map.1 hy
  exact Nat.ne_of_lt (Nat.lt_of_lt_of_le (hc c hc') (hmore d hd))

theorem capture_captured {outer : Locals} (names : List String) {slots slots' : Slots}
    {inner inner' : Locals} {copies copies' : List (Nat × Nat)} (hw : slots.Wf)
    (hn : (copies.map (·.2)).Nodup) (hc : ∀ c ∈ copies, c.2 < slots.mark)
    (h : capture outer names slots inner copies = .ok (slots', inner', copies')) :
    Captured outer inner inner' names copies copies' := by
  induction names generalizing slots inner copies with
  | nil =>
    cases h
    exact ⟨hn, fun _ hx => hx, fun _ _ => rfl, fun n hn => by cases hn⟩
  | cons name rest ih =>
    unfold capture at h
    cases hb : outer.lookup name with
    | none => simp only [hb] at h; cases h
    | some b =>
      simp only [hb] at h
      cases hloop : b.loop with
      | some il =>
        obtain ⟨index, length⟩ := il
        simp only [hloop] at h
        obtain ⟨⟨base, next⟩, hblock, h⟩ := Except.bind_ok h
        obtain ⟨rfl, hmark, hgrows⟩ := hw.block hblock
        refine .cons hb ?_ (ih hgrows.wf (nodup_append_targets hn hc ?_ ?_) ?_ h)
        · refine ⟨by simp, fun hnone => by simp [hloop] at hnone, fun i l hl => ?_⟩
          rw [hloop] at hl
          cases hl
          exact ⟨slots.mark + 1, slots.mark + 2, rfl, by simp, by simp⟩
        · simp
        · simp
        · intro c hmem
          rcases List.mem_append.1 hmem with hmem | hmem
          · exact Nat.lt_of_lt_of_le (hc c hmem) hgrows.mark
          · rw [hmark]
            simp only [List.mem_cons, List.not_mem_nil, or_false] at hmem
            rcases hmem with rfl | rfl | rfl <;> simp
      | none =>
        simp only [hloop] at h
        obtain ⟨⟨slot, next⟩, halloc, h⟩ := Except.bind_ok h
        obtain ⟨rfl, hmark, hgrows⟩ := hw.alloc halloc
        refine .cons hb ?_ (ih hgrows.wf (nodup_append_targets hn hc ?_ ?_) ?_ h)
        · exact ⟨by simp, fun _ => ⟨rfl, rfl⟩, fun i l hl => by rw [hloop] at hl; cases hl⟩
        · simp
        · simp
        · intro c hmem
          rcases List.mem_append.1 hmem with hmem | hmem
          · exact Nat.lt_of_lt_of_le (hc c hmem) hgrows.mark
          · rw [hmark]
            obtain rfl := List.mem_singleton.1 hmem
            simp

/-- Each cell that is copied is read in its copy. -/
theorem read_own_copy (code : ThunkCode) (outer : Cells) (hn : (code.copies.map (·.2)).Nodup)
    (hs : ∀ c ∈ code.copies, c.2 < code.size) {c : Nat × Nat} (hc : c ∈ code.copies) :
    (code.own outer).read c.2 = outer.read c.1 := by
  unfold own
  generalize hcs : Cells.cleared code.size = cs
  have hsize : ∀ c ∈ code.copies, c.2 < cs.size := by
    rw [← hcs, Cells.size_cleared]
    exact hs
  clear hcs hs
  generalize code.copies = copies at *
  induction copies generalizing cs with
  | nil => cases hc
  | cons d rest ih =>
    rw [List.foldl_cons]
    rw [List.map_cons, List.nodup_cons] at hn
    have hrest : ∀ c ∈ rest, c.2 < (cs.write d.2 (outer.read d.1)).size := fun c hc => by
      rw [Cells.size_write]
      exact hsize c (List.mem_cons_of_mem _ hc)
    rcases List.mem_cons.1 hc with rfl | hc
    · -- later copies go elsewhere
      have hkeep (cs : Cells) (hsub : ∀ c' ∈ rest, c'.2 ≠ c.2) :
          (rest.foldl (fun cs (c : Nat × Nat) => cs.write c.2 (outer.read c.1)) cs).read c.2 =
              cs.read c.2 := by
        clear ih hn hsize hrest hc
        induction rest generalizing cs with
        | nil => rfl
        | cons d rest ih =>
          rw [List.foldl_cons, ih _ fun c' hc' => hsub c' (List.mem_cons_of_mem _ hc'),
            Cells.read_write_of_ne _ (hsub d List.mem_cons_self)]
      rw [hkeep _ fun c' hc' heq => hn.1 (heq ▸ List.mem_map_of_mem hc'),
        Cells.read_write_self (hsize c List.mem_cons_self)]
    · exact ih _ hn.2 hc hrest

/-- The code of a deferred expression, on its own cells, comes to what the expression comes to. -/
theorem compile_alike {s : Expr.Scope} {see : Seeing} (hs : s.locals.Seen see) {e : Expr}
    {t : ThunkCode} (h : compile s e = .ok t) {P : Pairing} {made : Array Thunk} {r : Reading}
    (hr : s.locals.ReadAs P (Thunk.meaning made) r) :
    Pairing.Alike { P with left := t.own P.left } Value
      (t.code.value (.plain (Thunk.meaning made)) []) (e.eval r []) := by
  have hfits := compile_fits hs h
  obtain ⟨⟨slots, inner, copies⟩, hcapture, hrest⟩ := Except.bind_ok h
  obtain ⟨⟨c, slots'⟩, hcode, ht⟩ := Except.bind_ok hrest
  cases ht
  have hcap := capture_captured e.vars Slots.new_wf (by simp) (by simp) hcapture
  generalize hown : own _ P.left = cells
  have hcells : ∀ p ∈ copies, cells.read p.2 = P.left.read p.1 := fun p hp => by
    rw [← hown]
    exact read_own_copy _ P.left hcap.nodup (fun c hc => (hfits.copies c hc).2) hp
  have hmeans := Expr.compile_means hcode (Thunk.meaning made) []
  simp only at hmeans ⊢
  rw [hmeans]
  -- each name is read in the copies of its cells
  generalize hQ : (⟨P.states, P.env, cells, P.left⟩ : Pairing) = Q
  have hsame {α : Type} {x y z : Eval α} (hx : Q.Alike α x y) (hy : P.Alike α y z) :
      Pairing.Alike { P with left := cells } α x z := by
    subst hQ
    exact hx.trans hy
  have hcells : ∀ p ∈ copies, Q.left.read p.2 = Q.right.read p.1 := by
    subst hQ
    exact hcells
  refine Expr.eval_alike e ⟨fun n hn => ?_, fun n hn => ?_, fun ty v =>
    hsame (Q.compatible.pure v) ((hr []).check ty v)⟩ []
  · have hvar := (hr [n]).var n (List.mem_singleton_self n)
    obtain ⟨b, d, hb, hd, hcopied⟩ := hcap.copied n (List.mem_eraseDups.2 hn)
    simp only [Locals.reading, hb, hd] at hvar ⊢
    exact hsame (Binding.copied_alike (fun id => Thunk.meaningBelow_alike made (id + 1) Q id)
      hcopied hcells) hvar
  · have hloop := (hr [n]).loop n (List.mem_singleton_self n)
    obtain ⟨b, d, hb, hd, hcopied⟩ := hcap.copied n (List.mem_eraseDups.2 hn)
    simp only [Locals.reading, hb, hd, Option.bind_some] at hloop ⊢
    cases hbl : b.loop with
    | none =>
      rw [hbl] at hloop
      rw [(hcopied.plain hbl).1]
      exact hsame (Q.compatible.pure _) hloop
    | some il =>
      obtain ⟨j, k, hdl, hj, hk⟩ := hcopied.loop il.1 il.2 hbl
      rw [hbl] at hloop
      rw [hdl]
      exact hsame (Pairing.loop_alike (hcells _ hj) (hcells _ hk)) hloop

end ThunkCode

namespace Thunk

/-- Deferred values that were made before are all that a new one can refer to. -/
theorem meaningBelow_size (made : Array Thunk) : meaningBelow made made.size = meaning made := by
  have hbelow (count id : Nat) (hid : id < count) : meaningBelow made count id =
      meaning made id := by
    induction count with
    | zero => exact absurd hid (Nat.not_lt_zero id)
    | succ count ih =>
      by_cases heq : id = count
      · subst heq
        rfl
      · rw [meaningBelow, if_neg heq]
        exact ih (by omega)
  have habove (count id : Nat) (hid : count ≤ id) : meaningBelow made count id =
      pure .undefined := by
    induction count with
    | zero => rfl
    | succ count ih =>
      rw [meaningBelow, if_neg (Nat.ne_of_gt hid)]
      exact ih (Nat.le_of_succ_le hid)
  funext id
  by_cases hid : id < made.size
  · exact hbelow _ _ hid
  · rw [habove _ _ (Nat.le_of_not_lt hid),
      meaning_of_none (Array.getElem?_eq_none (Nat.le_of_not_lt hid))]

/-- What a new deferred value means. -/
theorem meaning_push (made : Array Thunk) (t : Thunk) : meaning (made.push t) made.size =
    Eval.onCells t.cells t.env (t.code.value (.plain (meaning made)) []) fun _ heap => heap := by
  rw [meaning_of_made (Array.getElem?_push_size ..),
    meaningBelow_extends (.push made t) (Nat.le_refl _), meaningBelow_size]
  rfl

end Thunk

end Interlude
