import Interlude.Proofs.Term.Lower
import Interlude.Proofs.Frame.Slots
import Interlude.Proofs.Eval.Meaning
/-!
# Compiled expressions in their frames

An expression takes its memo cells behind the slots in use (`Expr.compile_table`). The code of a
deferred value runs on cells of its own: the captured locals come first, its memo cells behind them.
-/

namespace Interlude

namespace Locals

theorem lookup_bind (ls : Locals) (name : String) (b : Binding) (n : String) :
    (ls.bind name b).lookup n = if n == name then some b else ls.lookup n := by
  unfold bind lookup
  cases hn : n == name <;> cases hs : ls.scopes <;> simp [List.lookup_cons, List.findSome?, hn]

theorem lookup_push (ls : Locals) (n : String) : ls.push.lookup n = ls.lookup n := by
  simp [push, lookup, List.findSome?]

theorem Seen.mono {see see' : Seeing} {ls : Locals} (h : ls.Seen see) (hs : ∀ i, see i → see' i) :
    ls.Seen see' := fun name b hb =>
  ⟨hs _ (h name b hb).slot, fun i l hl =>
    ⟨hs _ ((h name b hb).loop i l hl).1, hs _ ((h name b hb).loop i l hl).2⟩⟩

theorem Seen.bind {see : Seeing} {ls : Locals} (h : ls.Seen see) {b : Binding} (hb : b.Seen see)
    (name : String) :
    (ls.bind name b).Seen see := by
  intro n c hc
  rw [lookup_bind] at hc
  split at hc
  · cases hc; exact hb
  · exact h n c hc

theorem Seen.push {see : Seeing} {ls : Locals} (h : ls.Seen see) : ls.push.Seen see := by
  intro n c hc
  rw [lookup_push] at hc
  exact h n c hc

theorem seen_empty (see : Seeing) : Locals.empty.Seen see := by
  intro n c hc
  cases hc

end Locals

/-- A local that is no loop is seen with its slot. -/
theorem Binding.seen_of_slot {see : Seeing} {slot : Nat} (kind : SlotKind) (h : see slot) :
    ({ slot, kind } : Binding).Seen see :=
  ⟨h, fun _ _ hl => by cases hl⟩

/-- What keeps nothing fits anywhere. -/
theorem Lowered.Fits.anywhere {see : Seeing} {x : Lowered} {n : Nat}
    (h : x.Fits see n n) (m : Nat) :
    x.Fits see m m := by
  refine ⟨Nat.le_refl m, fun place => ?_⟩
  obtain ⟨table, ht⟩ := h.touches place
  refine ⟨table, ht.mono (fun _ h => h) ?_⟩
  rintro p i y ⟨h₁, h₂, _⟩
  omega

theorem Expr.compile_fits {s : Expr.Scope} {see : Seeing} {slots slots' : Slots} {e : Expr}
    {c : Compiled} (hw : slots.Wf) (hs : s.locals.Seen see)
    (h : e.compile s slots = .ok (c, slots')) :
    slots.Grows slots' ∧ c.root.Fits see slots.mark slots'.mark := by
  unfold Expr.compile at h
  simp only at h
  split at h
  · next hwidth =>
    cases hl : (e.lower s false).run 0 with
    | error err => rw [hl] at h; cases h
    | ok r =>
      rw [hl] at h
      cases h
      obtain ⟨hf, hn⟩ := lower_fits hs e hl
      rw [hwidth] at hn
      rw [hn] at hf
      exact ⟨.refl hw, hf.anywhere _⟩
  · next hwidth =>
    obtain ⟨hstart, hmark, hgrows⟩ := hw.anonymous .memo (e.countMemo s false)
    cases hl : (e.lower s false).run (slots.anonymous .memo (e.countMemo s false)).1 with
    | error err => rw [hl] at h; cases h
    | ok r =>
      rw [hl] at h
      cases h
      obtain ⟨hf, hn⟩ := lower_fits hs e hl
      have hend : r.2 = (slots.anonymous .memo (e.countMemo s false)).2.mark := by
        rw [hn, hmark, hstart]
        omega
      rw [hend, hstart] at hf
      exact ⟨hgrows, hf⟩

/-- A table tells what the memo cells of an expression are for. It has no entries for other
cells. -/
theorem Expr.compile_table {s : Expr.Scope} {see : Seeing} {slots slots' : Slots} {e : Expr}
    {c : Compiled} (hw : slots.Wf) (hs : s.locals.Seen see)
    (h : e.compile s slots = .ok (c, slots')) (place : List Nat) :
    ∃ table : Table, c.Touches see table.keep place ∧ ∀ i, table i ≠ none → slots.mark ≤ i ∧
    i < slots'.mark := by
  obtain ⟨_, hfit⟩ := Expr.compile_fits hw hs h
  obtain ⟨table, htable⟩ := hfit.touches place
  refine ⟨fun i => if slots.mark ≤ i ∧ i < slots'.mark then table i else none, ?_, fun i hi => ?_⟩
  · refine htable.mono (fun _ hi => hi) ?_
    rintro p i x ⟨h₁, h₂, h₃⟩
    exact (if_pos ⟨h₁, h₂⟩).trans h₃
  · exact Classical.byContradiction fun hin => hi (if_neg hin)

/-- The memo cells of an expression lie behind the slots in use. -/
theorem Expr.compile_start {s : Expr.Scope} {slots slots' : Slots} {e : Expr} {c : Compiled}
    (hw : slots.Wf) (h : e.compile s slots = .ok (c, slots')) :
    slots'.mark = slots.mark ∧ c.width = 0 ∨ c.start = slots.mark ∧ 0 < c.width := by
  unfold Expr.compile at h
  simp only at h
  split at h
  · next hwidth =>
    cases hl : (e.lower s false).run 0 with
    | error err => rw [hl] at h; cases h
    | ok r =>
      rw [hl] at h
      cases h
      exact .inl ⟨rfl, hwidth⟩
  · next hwidth =>
    obtain ⟨hstart, _, _⟩ := hw.anonymous .memo (e.countMemo s false)
    cases hl : (e.lower s false).run (slots.anonymous .memo (e.countMemo s false)).1 with
    | error err => rw [hl] at h; cases h
    | ok r =>
      rw [hl] at h
      cases h
      exact .inr ⟨hstart, Nat.pos_of_ne_zero hwidth⟩

/-! ## Deferred values -/

namespace ThunkCode

/-- The captured locals take the first cells, and are copied from cells that are seen. -/
theorem capture_fits {outer : Locals} {see : Seeing} (ho : outer.Seen see) (names : List String)
    {slots slots' : Slots} {inner inner' : Locals} {copies copies' : List (Nat × Nat)}
    (hw : slots.Wf) (hi : inner.Seen (· < slots.mark))
    (hc : ∀ c ∈ copies, see c.1 ∧ c.2 < slots.mark)
    (h : capture outer names slots inner copies = .ok (slots', inner', copies')) :
    slots.Grows slots' ∧ inner'.Seen (· < slots'.mark) ∧ ∀ c ∈ copies', see c.1 ∧
    c.2 < slots'.mark := by
  induction names generalizing slots inner copies with
  | nil => cases h; exact ⟨.refl hw, hi, hc⟩
  | cons name rest ih =>
    unfold capture at h
    cases hb : outer.lookup name with
    | none => simp only [hb] at h; cases h
    | some b =>
      have hseen := ho name b hb
      simp only [hb] at h
      cases hloop : b.loop with
      | some il =>
        obtain ⟨index, length⟩ := il
        simp only [hloop] at h
        cases hblock : slots.block name .value 3 with
        | error err => rw [hblock] at h; cases h
        | ok r =>
          rw [hblock] at h
          obtain ⟨base, next⟩ := r
          obtain ⟨rfl, hmark, hgrows⟩ := hw.block hblock
          have hle := hgrows.mark
          have hil := hseen.loop index length hloop
          have hinner : (inner.bind name
              ⟨slots.mark, .value, some (slots.mark + 1, slots.mark + 2)⟩).Seen (· < next.mark) :=
            (hi.mono fun i hi => Nat.lt_of_lt_of_le hi hle).bind
              ⟨by rw [hmark]; simp, fun i l hl => by cases hl; rw [hmark]; simp⟩ name
          have hcopies : ∀ c ∈ copies ++ [(b.slot, slots.mark), (index, slots.mark + 1),
              (length, slots.mark + 2)], see c.1 ∧ c.2 < next.mark := by
            intro c hcopy
            rcases List.mem_append.1 hcopy with hcopy | hcopy
            · exact ⟨(hc c hcopy).1, Nat.lt_of_lt_of_le (hc c hcopy).2 hle⟩
            · rw [hmark]
              simp only [List.mem_cons, List.not_mem_nil, or_false] at hcopy
              rcases hcopy with rfl | rfl | rfl
              · exact ⟨hseen.slot, by simp⟩
              · exact ⟨hil.1, by simp⟩
              · exact ⟨hil.2, by simp⟩
          obtain ⟨hg, hrest⟩ := ih hgrows.wf hinner hcopies h
          exact ⟨hgrows.trans hg, hrest⟩
      | none =>
        simp only [hloop] at h
        cases halloc : slots.alloc name b.kind with
        | error err => rw [halloc] at h; cases h
        | ok r =>
          rw [halloc] at h
          obtain ⟨slot, next⟩ := r
          obtain ⟨rfl, hmark, hgrows⟩ := hw.alloc halloc
          have hle := hgrows.mark
          have hinner : (inner.bind name { slot := slots.mark, kind := b.kind }).Seen
              (· < next.mark) :=
            (hi.mono fun i hi => Nat.lt_of_lt_of_le hi hle).bind
              (Binding.seen_of_slot b.kind (by rw [hmark]; simp)) name
          have hcopies : ∀ c ∈ copies ++ [(b.slot, slots.mark)], see c.1 ∧ c.2 < next.mark := by
            intro c hcopy
            rcases List.mem_append.1 hcopy with hcopy | hcopy
            · exact ⟨(hc c hcopy).1, Nat.lt_of_lt_of_le (hc c hcopy).2 hle⟩
            · rw [hmark]
              simp only [List.mem_cons, List.not_mem_nil, or_false] at hcopy
              cases hcopy
              exact ⟨hseen.slot, by simp⟩
          obtain ⟨hg, hrest⟩ := ih hgrows.wf hinner hcopies h
          exact ⟨hgrows.trans hg, hrest⟩

/-- The code of a deferred value: a table tells what its cells are for, all of them are its own, and
what it copies is seen and is not put into a cell that keeps a result. -/
structure Fits (see : Seeing) (t : ThunkCode) : Prop where
  tidy : t.code.Tidy
  within : t.code.Touches (· < t.size) (fun _ i _ => i < t.size) []
  copies : ∀ c ∈ t.copies, see c.1 ∧ c.2 < t.size
  apart : ∀ c ∈ t.copies, t.code.table c.2 = none

theorem compile_fits {s : Expr.Scope} {see : Seeing} {e : Expr} {t : ThunkCode}
    (hs : s.locals.Seen see) (h : compile s e = .ok t) : t.Fits see := by
  unfold compile at h
  cases hcap : capture s.locals e.vars Slots.new Locals.empty [] with
  | error err => rw [hcap] at h; cases h
  | ok r =>
    rw [hcap] at h
    obtain ⟨slots, inner, copies⟩ := r
    obtain ⟨hgrows, hinner, hcopies⟩ :=
      capture_fits hs e.vars Slots.new_wf (Locals.seen_empty _) (fun _ hc => by cases hc) hcap
    cases hcode : e.compile { s with locals := inner } slots with
    | error err =>
      simp only [bind, Except.bind, hcode] at h
      cases h
    | ok r =>
      simp only [bind, Except.bind, hcode] at h
      cases h
      obtain ⟨code, slots'⟩ := r
      obtain ⟨hg, hfit⟩ := Expr.compile_fits hgrows.wf hinner hcode
      have hsize : slots'.mark ≤ slots'.size := hg.wf.size
      have hle := hfit.le
      obtain ⟨table, ht, hrange⟩ := Expr.compile_table hgrows.wf hinner hcode []
      have hstart := Expr.compile_start hgrows.wf hcode
      have htidy : code.Tidy := by
        refine ⟨table, ht.mono (fun i hi => ?_) fun _ _ _ h => h, fun i hi => ?_⟩
        · exact Classical.byContradiction fun hne => Nat.not_le.2 hi (hrange i hne).1
        · have hin := hrange i hi
          omega
      refine ⟨htidy, ?_, ?_, ?_⟩
      · refine ht.mono (fun i hi => ?_) fun p i x hx => ?_
        · change i < slots'.size
          omega
        · have hin := hrange i (by rw [hx]; simp)
          change i < slots'.size
          omega
      · intro c hc
        have := (hcopies c hc).2
        exact ⟨(hcopies c hc).1, by change c.2 < slots'.size; omega⟩
      · intro c hc
        change code.table c.2 = none
        refine Classical.byContradiction fun hne => ?_
        obtain ⟨hle, hpos⟩ := htidy.own hne
        have := (hcopies c hc).2
        omega

end ThunkCode

end Interlude
