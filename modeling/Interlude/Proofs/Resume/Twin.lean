import Interlude.Proofs.Eval.Paired
import Interlude.Proofs.Resume.Effect
/-!
# Two runs of the same render

The first run meets pending values and sinks that ask for pauses; in the second more futures are
settled and no sink asks for anything. Both stand at the same instruction, with the same output and
the same contents of the cells in use (`Machine.Twin`). One instruction of the first run that goes
on or fails does the same in the second; one that is stopped leaves the first run where it can try
again.
-/

namespace Interlude

/-- A render as it was started. -/
def Render.started (r : Render) : Render := { r with status := .ready }

/-- Two stores with the same output, the same messages and the same renders, apart from where these
stand. The second has settled more futures. Deferred values were `made` alike, and neither store
keeps anything but what they mean. -/
structure Store.Twin (made : Array Thunk) (s t : Store) : Prop where
  tidy : Thunk.AllTidy made
  ahead : s.heap.futures.Ahead t.heap.futures
  fresh : s.heap.fresh = t.heap.fresh
  first : s.heap.Sound made
  second : t.heap.Sound made
  streams : s.streams.Alike t.streams
  messages : s.messages = t.messages
  renders : s.renders.map Render.started = t.renders.map Render.started

/-! ## The cells of an instruction -/

open Classical in
/-- What the cells of an instruction are for: terms that read cells in use only. -/
noncomputable def Instr.table (g : Shapes) (i : Instr) : Table := fun j =>
  match i.extent with
  | none => none
  | some x =>
    if h : ∃ table, i.op.Touches (g · ≠ .free) (keepIn x.memo x.high table) then
      if x.memo ≤ j ∧ j < x.high then
        (h.choose j).filter fun (p, y) => y.Touches (g · ≠ .free) (fun _ _ _ => True) p
      else none
    else none

namespace Instr

variable {g : Shapes} {i : Instr}

theorem table_own {j : Nat} (h : i.table g j ≠ none) : Exec.Instr.Own i j := by
  unfold table at h
  split at h
  · exact (h rfl).elim
  · next x hx =>
    split at h
    · split at h
      · next hj => exact ⟨x, hx, hj.1, hj.2⟩
      · exact (h rfl).elim
    · exact (h rfl).elim

open Classical in
theorem Fits.touches_table {size stop : Nat} {types : Nat → Shapes} {pc : Nat}
    (h : i.Fits size stop types pc) (hs : i.op.stops = true) :
    i.op.Touches (types pc · ≠ .free) (i.table (types pc)).keep := by
  obtain ⟨x, hx⟩ := Option.isSome_iff_exists.1 (h.stops hs)
  have hex : ∃ table, i.op.Touches (types pc · ≠ .free) (keepIn x.memo x.high table) := by
    obtain ⟨table, ht⟩ := h.touches
    exact ⟨table, ht x hx⟩
  refine hex.choose_spec.refine (fun _ h => h) ?_
  rintro p j y ⟨hlow, hhigh, hy⟩ htouch
  change i.table (types pc) j = some (p, y)
  unfold table
  rw [hx]
  simp only
  rw [dif_pos hex, if_pos ⟨hlow, hhigh⟩, hy]
  exact Option.filter_some_pos (decide_eq_true (htouch.mono (fun _ h => h) fun _ _ _ _ => trivial))

open Classical in
/-- What an instruction keeps is the result of a term that reads cells in use only. -/
theorem touches_of_table {j : Nat} {p : List Nat} {y : Term .boxed}
    (h : i.table g j = some (p, y)) :
    y.Touches (g · ≠ .free) (fun _ _ _ => True) p := by
  unfold table at h
  split at h
  · cases h
  · split at h
    · split at h
      · exact of_decide_eq_true (Option.filter_eq_some_iff.1 h).2
      · cases h
    · cases h

end Instr

namespace ThunkCode

/-- The cells of a deferred value as it is made. -/
def own (code : ThunkCode) (outer : Cells) : Cells :=
  code.copies.foldl (fun cs (c : Nat × Nat) => cs.write c.2 (outer.read c.1))
    (Cells.cleared code.size)

theorem own_congr (code : ThunkCode) {outer outer' : Cells}
    (h : ∀ c ∈ code.copies, outer.read c.1 = outer'.read c.1) :
    code.own outer = code.own outer' := by
  unfold own
  generalize Cells.cleared code.size = cs
  generalize code.copies = copies at h
  induction copies generalizing cs with
  | nil => rfl
  | cons c rest ih =>
    rw [List.foldl_cons, List.foldl_cons, h c List.mem_cons_self]
    exact ih _ fun c hc => h c (List.mem_cons_of_mem _ hc)

/-- A cell that nothing is copied into is empty. -/
theorem read_own (code : ThunkCode) (outer : Cells) {j : Nat} (h : ∀ c ∈ code.copies, c.2 ≠ j) :
    (code.own outer).read j = Cell.empty := by
  unfold own
  generalize hcs : Cells.cleared code.size = cs
  have hempty : cs.read j = Cell.empty := by rw [← hcs, Cells.read_cleared]
  clear hcs
  generalize code.copies = copies at h
  induction copies generalizing cs with
  | nil => exact hempty
  | cons c rest ih =>
    rw [List.foldl_cons]
    refine ih _ ?_ fun c hc => h c (List.mem_cons_of_mem _ hc)
    rw [Cells.read_write_of_ne _ (h c List.mem_cons_self)]
    exact hempty

end ThunkCode

/-! ## Machines -/

/-- Two frames with the same contents of the cells of which `g` knows. -/
structure Machine.Level (g : Shapes) (m k : Machine) : Prop where
  maker : m.maker = k.maker
  size : m.cells.size = k.cells.size
  cells : ∀ j, g j ≠ .free → m.cells.read j = k.cells.read j

/-- Two machines about to run the same instruction of the same render. -/
structure Machine.Twin (made : Array Thunk) (r : Render) (pc : Nat) (m k : Machine) : Prop
    extends m.Level (r.program.types pc) k where
  store : m.store.Twin made k.store

/-- The memory of a machine. -/
def Machine.memory (m : Machine) : Memory := ⟨m.cells, m.store.heap⟩

/-- Two machines within the same instruction. It may have been tried in the first, and its cells
keep what was found out; the cell of a call is the same in both. -/
structure Machine.Primed (made : Array Thunk) (sur : Surroundings) (pc : Nat) (i : Instr)
    (m k : Machine) : Prop extends m.Twin made sur.render pc k where
  state : ∀ x, i.extent = some x → ∀ j, x.low ≤ j → j < x.memo → m.cells.read j = k.cells.read j
  keeps : m.memory.Keeps made (i.table (sur.render.program.types pc)) (Exec.env sur m)
  keeps' : k.memory.Keeps made (i.table (sur.render.program.types pc)) (Exec.env sur m)

namespace Machine

variable {made : Array Thunk} {r : Render} {pc : Nat} {i : Instr} {m k : Machine}
  {sur : Surroundings}

/-- Setting up an instruction clears its cells and gives it the same number in both runs. -/
theorem Twin.setUp (h : m.Twin made sur.render pc k)
    (hi : i.Fits sur.render.program.size sur.render.program.code.size sur.render.program.types pc) :
    (m.setUp i).Primed made sur pc i (k.setUp i) := by
  have hread (cs : Cells) (j : Nat) : (i.clearScratch cs).read j =
      if ∃ x, i.extent = some x ∧ x.low ≤ j ∧ j < x.high then Cell.empty else cs.read j := by
    unfold Instr.clearScratch
    cases hx : i.extent with
    | none => rw [if_neg (by simp)]
    | some x =>
      simp only [Cells.read_clear]
      congr 1
      simp
  have hsize (cs : Cells) : (i.clearScratch cs).size = cs.size := by
    unfold Instr.clearScratch
    split
    · exact Cells.size_clear ..
    · rfl
  have hclean (cs : Cells) (j : Nat) (v : Value)
    (hj : i.table (sur.render.program.types pc) j ≠ none) :
      (i.clearScratch cs).read j ≠ .value v := by
    obtain ⟨x, hx, hlow, hhigh⟩ := Instr.table_own hj
    rw [hread, if_pos ⟨x, hx, Nat.le_trans (hi.extent x hx).1.low_le hlow, hhigh⟩]
    exact fun h => by cases h
  have hsound {h : Heap} (hs : h.Sound made) (fresh : Identity) :
    ({ h with fresh } : Heap).Sound made := ⟨hs.size, hs.thunks⟩
  refine
    { store :=
        { h.store with
          fresh := by simp only [Machine.setUp, h.store.fresh]
          first := hsound h.store.first _
          second := hsound h.store.second _ }
      maker := h.store.fresh
      size := by simp only [Machine.setUp, hsize, h.size]
      cells := fun j hj => ?_
      state := fun x hx j hlow hhigh => ?_
      keeps := .of_clean (hsound h.store.first _) (hclean m.cells) _
      keeps' := .of_clean (hsound h.store.second _) (hclean k.cells) _ }
  · simp only [Machine.setUp, hread]
    split
    · rfl
    · exact h.cells j hj
  · have hin : ∃ x, i.extent = some x ∧ x.low ≤ j ∧ j < x.high :=
      ⟨x, hx, hlow, Nat.lt_of_lt_of_le hhigh (hi.extent x hx).1.memo_le⟩
    simp only [Machine.setUp, hread, if_pos hin]

end Machine

end Interlude
