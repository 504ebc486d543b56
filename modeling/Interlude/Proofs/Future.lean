import Interlude.Future
/-!
# Reading through futures

What a read finds does not depend on how often futures were asked before, and a read that came to an
end stays as it is when more futures are settled (`Futures.Ahead.resolve`). Futures are `Ahead` of
others if they have settled all of what those have settled, and in the same way.
-/

namespace Interlude

namespace Futures

/-- The second futures have settled at least what the first have. -/
structure Ahead (fs gs : Futures) : Prop where
  size : fs.states.size ≤ gs.states.size
  ready : ∀ id, (fs.get id).isReady = true → gs.get id = fs.get id

theorem Ahead.refl (fs : Futures) : Ahead fs fs := ⟨Nat.le_refl _, fun _ _ => rfl⟩

theorem Ahead.trans {fs gs hs : Futures} (h : Ahead fs gs) (h' : Ahead gs hs) : Ahead fs hs where
  size := Nat.le_trans h.size h'.size
  ready id hr := by
    have hg := h.ready id hr
    rw [← hg]
    exact h'.ready id (by rw [hg]; exact hr)

theorem get_congr {fs gs : Futures} (h : fs.states = gs.states) (id : FutureId) :
    fs.get id = gs.get id := by
  unfold get
  rw [h]

theorem Ahead.of_states {fs gs : Futures} (h : fs.states = gs.states) : Ahead fs gs :=
  ⟨Nat.le_of_eq (by rw [h]), fun id _ => (get_congr h id).symm⟩

/-- What is pending ahead was pending before. -/
theorem Ahead.pending {fs gs : Futures} (h : Ahead fs gs) {id : FutureId}
    (hp : gs.get id = .pending) :
    fs.get id = .pending := by
  cases hf : fs.get id with
  | pending => rfl
  | complete v => have := h.ready id (by rw [hf]; rfl); rw [hp, hf] at this; cases this
  | failed e => have := h.ready id (by rw [hf]; rfl); rw [hp, hf] at this; cases this

/-- Settling a future changes no other, and none that is settled. -/
theorem settle_ahead (fs : Futures) (f : FutureId) (state : Future) :
    fs.Ahead (fs.settle f state).2 := by
  unfold settle
  split
  · next hp =>
    refine ⟨by simp, fun id hid => ?_⟩
    have hne : f ≠ id := by
      rintro rfl
      rw [hp] at hid
      cases hid
    simp only [get, Array.getElem?_setIfInBounds_ne hne]
  · exact .refl fs

@[simp] theorem countRead_states (fs : Futures) (id : FutureId) :
    (fs.countRead id).states = fs.states := rfl

@[simp] theorem resolveFrom_states (fs : Futures) (fuel : Nat) (v : Value) :
    (fs.resolveFrom fuel v).2.states = fs.states := by
  fun_induction resolveFrom fs fuel v with
  | case1 => rfl
  | case2 => rfl
  | case3 fs fuel id v _ ih => rw [ih, countRead_states]
  | case4 => rfl
  | case5 => rfl

@[simp] theorem resolve_states (fs : Futures) (v : Value) : (fs.resolve v).2.states = fs.states :=
  resolveFrom_states ..

/-- Where a read stops in the end, seen from futures that are ahead. -/
def Lasts (gs : Futures) : Read → Prop
  | .value _ => True
  | .waiting id => gs.get id = .pending
  | .failed _ => True
  | .endless => False

theorem Ahead.resolveFrom {gs : Futures} (fs : Futures) (fuel : Nat) (v : Value) (h : Ahead fs gs)
    (hl : gs.Lasts (fs.resolveFrom fuel v).1) {more : Nat} (hm : fuel ≤ more) :
    (gs.resolveFrom more v).1 = (fs.resolveFrom fuel v).1 := by
  fun_induction Futures.resolveFrom fs fuel v generalizing gs more with
  | case1 => exact hl.elim
  | case2 fs fuel id hp =>
    obtain ⟨more, rfl⟩ : ∃ k, more = k + 1 := ⟨more - 1, by omega⟩
    have hg : gs.get id = .pending := hl
    simp only [Futures.resolveFrom, hg]
  | case3 fs fuel id v hc ih =>
    obtain ⟨more, rfl⟩ : ∃ k, more = k + 1 := ⟨more - 1, by omega⟩
    have hg := h.ready id (by rw [hc]; rfl)
    simp only [Futures.resolveFrom, hg, hc]
    have ha : Ahead (fs.countRead id) (gs.countRead id) := ⟨h.size, h.ready⟩
    exact ih ha hl (Nat.le_of_succ_le_succ hm)
  | case4 fs fuel id cause hc =>
    obtain ⟨more, rfl⟩ : ∃ k, more = k + 1 := ⟨more - 1, by omega⟩
    have hg := h.ready id (by rw [hc]; rfl)
    simp only [Futures.resolveFrom, hg, hc]
  | case5 fuel fs v hz hs =>
    cases v with
    | future id =>
      cases fuel with
      | zero => exact (hz id rfl rfl).elim
      | succ n => exact (hs n id rfl rfl).elim
    | _ => cases more <;> simp only [Futures.resolveFrom]

/-- A read that has come to its end finds the same in futures that are ahead. -/
theorem Ahead.resolve {fs gs : Futures} (h : Ahead fs gs) {v : Value}
    (hl : gs.Lasts (fs.resolve v).1) :
    (gs.resolve v).1 = (fs.resolve v).1 :=
  Ahead.resolveFrom fs _ v h hl (Nat.succ_le_succ h.size)

theorem resolveFrom_congr (fs : Futures) (fuel : Nat) (v : Value) {gs : Futures}
    (h : fs.states = gs.states) :
    (gs.resolveFrom fuel v).1 = (fs.resolveFrom fuel v).1 := by
  fun_induction Futures.resolveFrom fs fuel v generalizing gs with
  | case1 => rfl
  | case2 fs fuel id hp =>
    have hg := get_congr h id
    simp only [Futures.resolveFrom, ← hg, hp]
  | case3 fs fuel id v hc ih =>
    have hg := get_congr h id
    simp only [Futures.resolveFrom, ← hg, hc]
    exact ih h
  | case4 fs fuel id cause hc =>
    have hg := get_congr h id
    simp only [Futures.resolveFrom, ← hg, hc]
  | case5 fuel fs v hz hs =>
    cases v with
    | future id =>
      cases fuel with
      | zero => exact (hz id rfl rfl).elim
      | succ n => exact (hs n id rfl rfl).elim
    | _ => cases fuel <;> simp only [Futures.resolveFrom]

/-- What a read finds depends on the states of the futures alone. -/
theorem resolve_congr {fs gs : Futures} (h : fs.states = gs.states) (v : Value) :
    (gs.resolve v).1 = (fs.resolve v).1 := by
  unfold resolve
  rw [← h]
  exact resolveFrom_congr fs _ v h

/-- There is a value whose reading never ends. -/
def Endless (fs : Futures) : Prop := ∃ v, (fs.resolve v).1 = .endless

theorem Endless.congr {fs gs : Futures} (h : fs.states = gs.states) (he : fs.Endless) :
    gs.Endless := by
  obtain ⟨v, hv⟩ := he
  exact ⟨v, (resolve_congr h v).trans hv⟩

theorem pending_of_resolveFrom (fs : Futures) (fuel : Nat) (v : Value) {p : FutureId}
    (h : (fs.resolveFrom fuel v).1 = .waiting p) : fs.get p = .pending := by
  fun_induction Futures.resolveFrom fs fuel v with
  | case1 => cases h
  | case2 fs fuel id hp => cases h; exact hp
  | case3 fs fuel id v hc ih => exact ih h
  | case4 => cases h
  | case5 => cases h

/-- A read waits for a pending future only. -/
theorem pending_of_resolve {fs : Futures} {v : Value} {p : FutureId}
    (h : (fs.resolve v).1 = .waiting p) :
    fs.get p = .pending :=
  pending_of_resolveFrom fs _ v h

end Futures

end Interlude
