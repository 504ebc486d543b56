import Interlude.Frame.Cell
/-!
# Reading cells

What a cell holds after cells were written, cleared, saved and restored (`read_restore`).
-/

namespace Interlude

namespace Cells

@[simp] theorem size_write (cs : Cells) (i : Nat) (c : Cell) : (cs.write i c).size = cs.size := by
  simp [write]

theorem read_write (cs : Cells) (i j : Nat) (c : Cell) :
    (cs.write i c).read j = if i = j ∧ j < cs.size then c else cs.read j := by
  simp only [write, read, Array.getD_eq_getD_getElem?, Array.getElem?_setIfInBounds]
  by_cases hij : i = j
  · subst hij
    by_cases hi : i < cs.size
    · simp [hi]
    · simp [hi]
  · simp [hij]

theorem read_write_self {cs : Cells} {i : Nat} (h : i < cs.size) (c : Cell) :
    (cs.write i c).read i = c := by
  simp [read_write, h]

theorem read_write_of_ne (cs : Cells) {i j : Nat} (h : i ≠ j) (c : Cell) :
    (cs.write i c).read j = cs.read j := by
  simp [read_write, h]

theorem read_of_size_le {cs : Cells} {i : Nat} (h : cs.size ≤ i) : cs.read i = Cell.empty := by
  simp [read, Array.getD_eq_getD_getElem?, h]

@[simp] theorem size_cleared (n : Nat) : (cleared n).size = n := by
  simp [cleared]

@[simp] theorem read_cleared (n i : Nat) : (cleared n).read i = Cell.empty := by
  simp only [read, cleared, Array.getD_eq_getD_getElem?, Array.getElem?_replicate]
  split <;> rfl

/-- Cells cleared one by one. -/
private theorem read_clearAll (is : List Nat) (cs : Cells) (j : Nat) :
    (is.foldl (fun cs i => cs.write i Cell.empty) cs).read j = if j ∈ is then Cell.empty
      else cs.read j := by
  induction is generalizing cs with
  | nil => simp
  | cons i rest ih =>
    rw [List.foldl_cons, ih, read_write]
    by_cases hj : j ∈ rest
    · simp [hj]
    · by_cases hij : i = j
      · subst hij
        by_cases hs : i < cs.size
        · simp [hj, hs]
        · simp [hj, hs, read_of_size_le (Nat.le_of_not_lt hs)]
      · simp [hj, hij, Ne.symm hij]

private theorem size_clearAll (is : List Nat) (cs : Cells) :
    (is.foldl (fun cs i => cs.write i Cell.empty) cs).size = cs.size := by
  induction is generalizing cs with
  | nil => rfl
  | cons i rest ih => rw [List.foldl_cons, ih, size_write]

@[simp] theorem size_clear (cs : Cells) (low high : Nat) : (cs.clear low high).size = cs.size :=
  size_clearAll _ cs

theorem read_clear (cs : Cells) (low high j : Nat) :
    (cs.clear low high).read j = if low ≤ j ∧ j < high then Cell.empty else cs.read j := by
  unfold clear
  rw [read_clearAll]
  congr 1
  simp only [List.mem_range'_1, eq_iff_iff]
  omega

end Cells

namespace SavedFrame

/-- Cells written back one by one. -/
private theorem read_writeAll (saved : List Cell) (k : Nat) (cs : Cells)
    (hs : k + saved.length ≤ cs.size) (j : Nat) :
    (((List.range' k saved.length).zip saved).foldl (fun cs (ic : Nat × Cell) =>
        cs.write ic.1 ic.2) cs).read j =
      if k ≤ j then (saved[j - k]?).getD (cs.read j) else cs.read j := by
  induction saved generalizing k cs with
  | nil => simp
  | cons c rest ih =>
    rw [List.length_cons] at hs
    rw [List.length_cons, List.range'_succ, List.zip_cons_cons, List.foldl_cons, ih]
    · by_cases hkj : k = j
      · subst hkj
        rw [if_neg (by omega), if_pos (Nat.le_refl k), Cells.read_write_self (by omega)]
        simp
      · rw [Cells.read_write_of_ne cs hkj]
        by_cases hlt : k + 1 ≤ j
        · have hsucc : j - k = (j - (k + 1)) + 1 := by omega
          rw [if_pos hlt, if_pos (by omega), hsucc, List.getElem?_cons_succ]
        · rw [if_neg hlt, if_neg (by omega)]
    · rw [Cells.size_write]
      omega

private theorem size_writeAll (pairs : List (Nat × Cell)) (cs : Cells) :
    (pairs.foldl (fun cs (ic : Nat × Cell) => cs.write ic.1 ic.2) cs).size = cs.size := by
  induction pairs generalizing cs with
  | nil => rfl
  | cons p rest ih => rw [List.foldl_cons, ih, Cells.size_write]

@[simp] theorem size_restore (f : SavedFrame) (cs : Cells) (slots : List Nat) :
    (f.restore cs slots).size = cs.size :=
  size_writeAll _ cs

/-- What was saved is found again, and nothing else is changed. -/
theorem read_restore (f : SavedFrame) (cs : Cells) (hs : f.cells.length ≤ cs.size) (j : Nat) :
    (f.restore cs (List.range f.cells.length)).read j = (f.cells[j]?).getD (cs.read j) := by
  have h := read_writeAll f.cells 0 cs (by omega) j
  rw [← List.range_eq_range', if_pos (Nat.zero_le j), Nat.sub_zero] at h
  exact h

theorem getElem?_save (state : Nat) (cells : Cells) (mark : Nat) (maker : Identity) (j : Nat) :
    (save state cells (List.range mark) maker).cells[j]? = if j < mark then some (cells.read j)
      else none := by
  simp only [save, List.getElem?_map]
  split
  · next h => simp [h]
  · next h => simp [h]

end SavedFrame

end Interlude
