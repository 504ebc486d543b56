import Interlude.Proofs.Program.Valid
import Interlude.Proofs.Eval.Frame
import Interlude.Render.Run
/-!
# Safe stores

The invariant of running renders (`Store.Safe`). The cells of a frame have the shapes that are known
at the instruction it stands at; a call in progress goes to a render younger than the one that
called it; the code of a deferred value keeps to the cells of that value.
-/

namespace Interlude

/-- A cell refers to what there is: a call in progress goes from the render `id` to a younger one,
of `count` in all, and a deferred value is one of `thunks`. -/
def Cell.Refers (id count thunks : Nat) : Cell → Prop
  | .call st => id < st.callee ∧ st.callee < count
  | .thunk t => t < thunks
  | _ => True

theorem Cell.Refers.grow {id count count' thunks thunks' : Nat} {c : Cell}
    (h : c.Refers id count thunks) (hc : count ≤ count') (ht : thunks ≤ thunks') :
    c.Refers id count' thunks' := by
  cases c with
  | call st => exact ⟨h.1, Nat.lt_of_lt_of_le h.2 hc⟩
  | thunk t => exact Nat.lt_of_lt_of_le h ht
  | _ => trivial

/-- Cells of a frame at an instruction at which `g` is known. -/
structure Cells.Fits (size id count thunks : Nat) (g : Shapes) (cs : Cells) : Prop where
  size : cs.size = size
  shape : ∀ j, (cs.read j).Has (g j)
  refers : ∀ j, (cs.read j).Refers id count thunks

namespace Cells.Fits

variable {size id count thunks : Nat} {g g' : Shapes} {cs : Cells}

theorem within (h : cs.Fits size id count thunks g) (hg : g'.Within g) :
    cs.Fits size id count thunks g' :=
  ⟨h.size, fun j => (h.shape j).within (hg j), h.refers⟩

theorem grow (h : cs.Fits size id count thunks g) {count' thunks' : Nat} (hc : count ≤ count')
    (ht : thunks ≤ thunks') : cs.Fits size id count' thunks' g :=
  ⟨h.size, h.shape, fun j => (h.refers j).grow hc ht⟩

theorem cleared (hg : ∀ j, g j = .free) : (Cells.cleared size).Fits size id count thunks g where
  size := size_cleared size
  shape j := by rw [hg j]; trivial
  refers j := by rw [read_cleared]; trivial

theorem write (h : cs.Fits size id count thunks g) {i : Nat} {c : Cell} {s : Shape} (hs : c.Has s)
    (hc : c.Refers id count thunks) (hi : i < size ∨ ∀ c : Cell, c.Has s) :
    (cs.write i c).Fits size id count thunks (g.set i s) where
  size := (size_write ..).trans h.size
  shape j := by
    by_cases hij : j = i
    · subst hij
      rw [Shapes.set_self]
      rcases hi with hi | hall
      · rw [read_write_self (by rw [h.size]; exact hi)]
        exact hs
      · exact hall _
    · rw [Shapes.set_of_ne g hij, read_write_of_ne cs (Ne.symm hij)]
      exact h.shape j
  refers j := by
    rw [read_write]
    split
    · exact hc
    · exact h.refers j

/-- A cell is written that nothing is known of. -/
theorem write_free (h : cs.Fits size id count thunks g) {i : Nat} {c : Cell} (hi : g i = .free)
    (hc : c.Refers id count thunks) : (cs.write i c).Fits size id count thunks g := by
  have hw := h.write (s := .free) (i := i) (c := c) trivial hc (.inr fun _ => trivial)
  rwa [Shapes.set_same hi] at hw

theorem clear (h : cs.Fits size id count thunks g) {low high : Nat}
    (hg : ∀ j, low ≤ j → j < high → g j = .free) :
    (cs.clear low high).Fits size id count thunks g where
  size := (size_clear ..).trans h.size
  shape j := by
    rw [read_clear]
    split
    · next hj => rw [hg j hj.1 hj.2]; trivial
    · exact h.shape j
  refers j := by
    rw [read_clear]
    split
    · trivial
    · exact h.refers j

theorem later {own : Nat → Prop} {m m' : Memory} (h : m.cells.Fits size id count thunks g)
    (hl : m.Later own m') (hg : ∀ j, own j → g j = .free) :
    m'.cells.Fits size id count thunks g where
  size := hl.size.trans h.size
  shape j := by
    by_cases hj : own j
    · rw [hg j hj]; trivial
    · rw [hl.rest j hj]; exact h.shape j
  refers j := by
    rcases hl.kept j with heq | ⟨v, hv⟩
    · rw [heq]; exact h.refers j
    · rw [hv]; trivial

end Cells.Fits

/-! ## Stores -/

/-- What a suspended render keeps: the cells of an instruction that can stop, as they are known
there. -/
structure SavedFrame.Safe (p : Program) (id count thunks : Nat) (f : SavedFrame) : Prop where
  saved : ∃ i x, p.code[f.state]? = some i ∧ i.extent = some x ∧
    f.cells.length = x.site.slots.length
  shape : ∀ (j : Nat) (c : Cell), f.cells[j]? = some c → c.Has (p.types f.state j)
  refers : ∀ c ∈ f.cells, c.Refers id count thunks

theorem SavedFrame.Safe.grow {p : Program} {id count count' thunks thunks' : Nat} {f : SavedFrame}
    (h : f.Safe p id count thunks) (hc : count ≤ count') (ht : thunks ≤ thunks') :
    f.Safe p id count' thunks' :=
  ⟨h.saved, h.shape, fun c hm => (h.refers c hm).grow hc ht⟩

/-- A deferred value has tidy code, which keeps to the cells of the value as long as it is
pending. -/
structure Thunk.Safe (t : Thunk) : Prop where
  tidy : t.code.Tidy
  within : t.result = none → t.code.Touches (· < t.cells.size) (fun _ i _ => i < t.cells.size) []

/-- Deferred values are safe. -/
def Heap.Safe (h : Heap) : Prop := ∀ (id : ThunkId) (t : Thunk), h.thunks[id]? = some t → t.Safe

theorem Heap.Safe.later {h h' : Heap} (hs : h.Safe) (hl : h.Later h') : h'.Safe := by
  intro id t' ht'
  obtain ⟨t, ht, hlater⟩ := hl.thunks id t' ht'
  have hsafe := hs id t ht
  refine ⟨by rw [hlater.code]; exact hsafe.tidy, fun hn => ?_⟩
  obtain ⟨hpending, hsize⟩ := hlater.pending hn
  rw [hlater.code, hsize]
  exact hsafe.within hpending

/-- Renders of programs of a registry, with safe frames while they are suspended. -/
structure Store.Safe (reg : Registry) (s : Store) : Prop where
  programs : ∀ (id : RenderId) (r : Render), s.renders[id]? = some r → r.program ∈ reg.programs
  frames : ∀ (id : RenderId) (r : Render) (f : SavedFrame), s.renders[id]? = some r →
    r.status = .suspended f → f.Safe r.program id s.renders.size s.heap.thunks.size
  heap : s.heap.Safe

/-- A store after work in which renders before `bound` had no part. -/
structure Store.Later (bound : Nat) (s s' : Store) : Prop where
  below : ∀ j, j < bound → s'.renders[j]? = s.renders[j]?
  size : s.renders.size ≤ s'.renders.size
  states : s'.heap.futures.states = s.heap.futures.states
  blurred : s.heap.blurred = true → s'.heap.blurred = true
  thunks : s.heap.thunks.size ≤ s'.heap.thunks.size

namespace Store

theorem Later.refl (bound : Nat) (s : Store) : s.Later bound s :=
    ⟨fun _ _ => rfl, Nat.le_refl _, rfl, id, Nat.le_refl _⟩

theorem Later.trans {bound : Nat} {s s' s'' : Store} (h : s.Later bound s')
    (h' : s'.Later bound s'') :
    s.Later bound s'' where
  below j hj := (h'.below j hj).trans (h.below j hj)
  size := Nat.le_trans h.size h'.size
  states := h'.states.trans h.states
  blurred := h'.blurred ∘ h.blurred
  thunks := Nat.le_trans h.thunks h'.thunks

theorem Later.weaken {bound bound' : Nat} {s s' : Store} (h : s.Later bound s')
    (hb : bound' ≤ bound) :
    s.Later bound' s' :=
  ⟨fun j hj => h.below j (Nat.lt_of_lt_of_le hj hb), h.size, h.states, h.blurred, h.thunks⟩

/-- Evaluations and sinks do not concern renders. -/
theorem Later.of_heap {bound : Nat} {s s' : Store} (hr : s'.renders = s.renders)
    (hh : s.heap.Later s'.heap) :
    s.Later bound s' :=
  ⟨fun _ _ => by rw [hr], Nat.le_of_eq (by rw [hr]), hh.states, hh.blurred,
    Nat.le_of_eq hh.size.symm⟩

theorem Safe.of_heap {reg : Registry} {s s' : Store} (h : s.Safe reg) (hr : s'.renders = s.renders)
    (hh : s.heap.Later s'.heap) : s'.Safe reg where
  programs id r hid := h.programs id r (by rw [← hr]; exact hid)
  frames id r f hid hf := by
    rw [hr] at hid ⊢
    rw [hh.size]
    exact h.frames id r f hid hf
  heap := h.heap.later hh

theorem setStatus_get (s : Store) (id j : RenderId) (status : Status) :
    (s.setStatus id status).renders[j]? =
      if id = j then s.renders[j]?.map fun r => { r with status } else s.renders[j]? := by
  simp only [setStatus, Array.getElem?_modify]

theorem setStatus_size (s : Store) (id : RenderId) (status : Status) :
    (s.setStatus id status).renders.size = s.renders.size := by
  simp [setStatus]

theorem setStatus_later (s : Store) (id : RenderId) (status : Status) :
    s.Later id (s.setStatus id status) where
  below j hj := by rw [setStatus_get, if_neg (Nat.ne_of_gt hj)]
  size := Nat.le_of_eq (setStatus_size s id status).symm
  states := rfl
  blurred h := h
  thunks := Nat.le_refl _

theorem Safe.setStatus {reg : Registry} {s : Store} (h : s.Safe reg) {id : RenderId}
    {status : Status} (hf : ∀ r f, s.renders[id]? = some r → status = .suspended f →
      f.Safe r.program id s.renders.size s.heap.thunks.size) :
    (s.setStatus id status).Safe reg where
  programs j r hj := by
    rw [setStatus_get] at hj
    split at hj
    · next hid =>
      obtain ⟨r', hr', rfl⟩ := Option.map_eq_some_iff.1 hj
      exact h.programs j r' hr'
    · exact h.programs j r hj
  frames j r f hj hr := by
    rw [setStatus_size, show (s.setStatus id status).heap = s.heap from rfl]
    rw [setStatus_get] at hj
    split at hj
    · next hid =>
      subst hid
      obtain ⟨r', hr', rfl⟩ := Option.map_eq_some_iff.1 hj
      exact hf r' f hr' hr
    · exact h.frames j r f hj hr
  heap := h.heap

end Store

/-- A machine that runs the render `id`, with cells of which `g` is known. -/
structure Machine.Safe (reg : Registry) (id : RenderId) (r : Render) (g : Shapes)
    (m : Machine) : Prop where
  store : m.store.Safe reg
  render : m.store.renders[id]? = some { r with status := .ready }
  cells : m.cells.Fits r.program.size id m.store.renders.size m.store.heap.thunks.size g

end Interlude
