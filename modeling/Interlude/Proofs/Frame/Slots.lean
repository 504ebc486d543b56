import Interlude.Frame.Slot
/-!
# How slots are taken

Slots are numbered in the order in which they are taken, without gaps. Taking slots leaves those
taken before in place, and closing a scope gives back exactly what was taken since it was opened
(`exit_of_enter`).
-/

namespace Interlude

namespace Slots

/-- Slots numbered without gaps, with a scope open and the size kept up to date. -/
structure Wf (s : Slots) : Prop where
  index : s.taken.map (·.index) = List.range s.mark
  size : s.mark ≤ s.size
  scopes : s.scopes ≠ []

/-- More slots are taken in the innermost scope. -/
structure Grows (s s' : Slots) : Prop where
  wf : s'.Wf
  taken : s.taken <+: s'.taken
  size : s.size ≤ s'.size
  scopes : ∃ scope scope' outer,
    s.scopes = scope :: outer ∧ s'.scopes = scope' :: outer ∧ scope'.start = scope.start

theorem Wf.scope {s : Slots} (h : s.Wf) : ∃ scope outer, s.scopes = scope :: outer := by
  cases hs : s.scopes with
  | nil => exact (h.scopes hs).elim
  | cons scope outer => exact ⟨scope, outer, rfl⟩

theorem Wf.opened {s : Slots} (h : s.Wf) : s.opened = s := by
  unfold Slots.opened
  obtain ⟨scope, outer, hs⟩ := h.scope
  simp [hs]

theorem Grows.refl {s : Slots} (h : s.Wf) : s.Grows s := by
  obtain ⟨scope, outer, hs⟩ := h.scope
  exact ⟨h, List.prefix_refl _, Nat.le_refl _, scope, scope, outer, hs, hs, rfl⟩

theorem Grows.trans {s t u : Slots} (h : s.Grows t) (h' : t.Grows u) : s.Grows u := by
  obtain ⟨a, b, outer, hs, ht, hab⟩ := h.scopes
  obtain ⟨b', c, outer', ht', hu, hbc⟩ := h'.scopes
  rw [ht] at ht'
  cases ht'
  exact ⟨h'.wf, h.taken.trans h'.taken, Nat.le_trans h.size h'.size, a, c, outer, hs, hu,
    hbc.trans hab⟩

theorem Grows.mark {s t : Slots} (h : s.Grows t) : s.mark ≤ t.mark := h.taken.length_le

/-- Closing a scope gives back what was taken in it. -/
theorem exit_of_enter {s t : Slots} (h : s.enter.Grows t) : t.exit = { s with size := t.size } := by
  obtain ⟨a, b, outer, hs, ht, hab⟩ := h.scopes
  obtain ⟨rest, htaken⟩ := h.taken
  cases hs
  have htake : t.taken.take b.start = s.taken := by
    rw [hab, ← htaken]
    exact List.take_left' rfl
  unfold exit
  rw [ht]
  simp only [htake]

theorem Wf.enter {s : Slots} (h : s.Wf) : s.enter.Wf where
  index := h.index
  size := h.size
  scopes := by simp [Slots.enter]

theorem Wf.resize {s : Slots} (h : s.Wf) {n : Nat} (hn : s.size ≤ n) :
    ({ s with size := n } : Slots).Wf where
  index := h.index
  size := Nat.le_trans h.size hn
  scopes := h.scopes

theorem Grows.resize {s : Slots} (h : s.Wf) {n : Nat} (hn : s.size ≤ n) :
    s.Grows { s with size := n } := by
  obtain ⟨scope, outer, hs⟩ := h.scope
  exact ⟨h.resize hn, List.prefix_refl _, hn, scope, scope, outer, hs, hs, rfl⟩

theorem new_wf : Slots.new.Wf where
  index := rfl
  size := Nat.le_refl _
  scopes := by simp [Slots.new, Slots.enter]

/-! ## Taking slots -/

theorem mark_extend (s : Slots) (name : String) (kind : SlotKind) (width : Nat) :
    (s.extend name kind width).mark = s.mark + width := by
  simp [extend, mark]

theorem Wf.extend {s : Slots} (h : s.Wf) (name : String) (kind : SlotKind) (width : Nat) :
    s.Grows (s.extend name kind width) := by
  obtain ⟨scope, outer, hs⟩ := h.scope
  refine ⟨⟨?_, ?_, ?_⟩, List.prefix_append _ _, Nat.le_max_left _ _, scope, scope,
    outer, hs, hs, rfl⟩
  · rw [mark_extend]
    simp only [Slots.extend, List.map_append, h.index, List.map_map, Function.comp_def]
    rw [List.range_add]
  · rw [mark_extend]
    exact Nat.le_max_right _ _
  · exact h.scopes

theorem Grows.mapScope {s t : Slots} (h : s.Grows t) {f : SlotScope → SlotScope}
    (hf : ∀ scope, (f scope).start = scope.start) : s.Grows (t.mapScope f) := by
  obtain ⟨a, b, outer, hs, ht, hab⟩ := h.scopes
  have hmap : t.mapScope f = { t with scopes := f b :: outer } := by
    unfold Slots.mapScope
    rw [ht]
  rw [hmap]
  exact ⟨⟨h.wf.index, h.wf.size, by simp⟩, h.taken, h.size, a, f b, outer, hs, rfl,
    (hf b).trans hab⟩

theorem mark_mapScope (s : Slots) (f : SlotScope → SlotScope) : (s.mapScope f).mark = s.mark := by
  unfold mapScope
  split <;> rfl

/-- A block starts at the next index. -/
theorem Wf.block {s s' : Slots} (h : s.Wf) {name : String} {kind : SlotKind} {width i : Nat}
    (hb : s.block name kind width = .ok (i, s')) :
    i = s.mark ∧ s'.mark = s.mark + max width 1 ∧ s.Grows s' := by
  unfold Slots.block at hb
  rw [h.opened] at hb
  have hgrows := h.extend name kind (max width 1)
  obtain ⟨scope, outer, hs⟩ := h.scope
  simp only [hs] at hb
  split at hb
  · cases hb
  · cases hb
    refine ⟨rfl, ?_⟩
    split
    · exact ⟨mark_extend .., hgrows⟩
    · exact ⟨(mark_mapScope ..).trans (mark_extend ..), hgrows.mapScope fun _ => rfl⟩

theorem Wf.alloc {s s' : Slots} (h : s.Wf) {name : String} {kind : SlotKind} {i : Nat}
    (ha : s.alloc name kind = .ok (i, s')) : i = s.mark ∧ s'.mark = s.mark + 1 ∧ s.Grows s' :=
  h.block ha

theorem Wf.anonymous {s : Slots} (h : s.Wf) (kind : SlotKind) (width : Nat) :
    (s.anonymous kind width).1 = s.mark ∧ (s.anonymous kind width).2.mark = s.mark + max width 1 ∧
      s.Grows (s.anonymous kind width).2 := by
  unfold Slots.anonymous
  rw [h.opened]
  exact ⟨rfl, mark_extend .., h.extend ..⟩

/-- In a scope just opened, the compiler's own variables have no slots yet. -/
theorem Wf.synthetic {s : Slots} (h : s.Wf) (key : String) (kind : SlotKind) :
    (s.enter.synthetic key kind).1 = s.mark ∧ (s.enter.synthetic key kind).2.mark = s.mark + 1 ∧
      s.enter.Grows (s.enter.synthetic key kind).2 := by
  have hw := h.enter
  have hopen := hw.opened
  have hanon := hw.anonymous kind 1
  unfold Slots.synthetic
  rw [hopen]
  refine ⟨?_, ?_, ?_⟩
  · exact hanon.1
  · exact (mark_mapScope ..).trans hanon.2.1
  · exact hanon.2.2.mapScope (f := fun scope =>
      { scope with keyed := (key, (s.enter.anonymous kind 1).1) :: scope.keyed }) fun _ => rfl

end Slots

end Interlude
