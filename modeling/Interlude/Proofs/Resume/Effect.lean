import Interlude.Proofs.Output
import Interlude.Proofs.Render.Step
/-!
# The effects of instructions in two runs

What an instruction does once it has evaluated its operands depends on the cells that are known at
it and on what sinks hold, not on pending values. In a second run in which these are the same it
does the same, whether or not the sinks of the first run ask for pauses (`onSink_agrees`).
-/

namespace Interlude

/-- Two machines that work has brought from `m₀` and `k₀`. Nothing that was evaluated has changed,
sinks hold the same, and so do the cells of which `g` knows. -/
structure Machine.Like (m₀ k₀ : Machine) (g : Shapes) (m k : Machine) : Prop where
  heap : m.store.heap = m₀.store.heap
  heap' : k.store.heap = k₀.store.heap
  renders : m.store.renders = m₀.store.renders
  renders' : k.store.renders = k₀.store.renders
  maker : m.maker = m₀.maker
  maker' : k.maker = k₀.maker
  streams : m.store.streams.Alike k.store.streams
  messages : m.store.messages = k.store.messages
  size : m.cells.size = m₀.cells.size
  size' : k.cells.size = k₀.cells.size
  sizes : m.cells.size = k.cells.size
  cells : ∀ j, g j ≠ .free → m.cells.read j = k.cells.read j

namespace Machine.Like

variable {m₀ k₀ m k : Machine} {g g' : Shapes}

theorem within (h : Like m₀ k₀ g m k) (hg : g'.Within g) : Like m₀ k₀ g' m k :=
  { h with cells := fun j hj => h.cells j (hg.used hj) }

/-- Only cells are changed. -/
theorem withCells (h : Like m₀ k₀ g m k) {cs ct : Cells} (hs : cs.size = m.cells.size)
    (ht : ct.size = k.cells.size) (hc : ∀ j, g' j ≠ .free → cs.read j = ct.read j) :
    Like m₀ k₀ g' { m with cells := cs } { k with cells := ct } :=
  { h with size := hs.trans h.size, size' := ht.trans h.size',
           sizes := hs.trans (h.sizes.trans ht.symm), cells := hc }

theorem write (h : Like m₀ k₀ g m k) (j : Nat) (c : Cell) (s : Shape) :
    Like m₀ k₀ (g.set j s) { m with cells := m.cells.write j c }
      { k with cells := k.cells.write j c } := by
  refine h.withCells (Cells.size_write ..) (Cells.size_write ..) fun i hi => ?_
  rw [Cells.read_write, Cells.read_write, h.sizes]
  by_cases hij : j = i
  · subst hij
    by_cases hlt : j < k.cells.size
    · simp [hlt]
    · rw [if_neg (by simp [hlt]), if_neg (by simp [hlt]),
        Cells.read_of_size_le (by rw [h.sizes]; omega), Cells.read_of_size_le (by omega)]
  · rw [if_neg (by simp [hij]), if_neg (by simp [hij])]
    rw [Shapes.set_of_ne g (Ne.symm hij)] at hi
    exact h.cells i hi

theorem withStreams (h : Like m₀ k₀ g m k) {s t : Streams} (hs : s.Alike t) :
    Like m₀ k₀ g { m with store := { m.store with streams := s } }
      { k with store := { k.store with streams := t } } :=
  { h with streams := hs }

theorem withLog (h : Like m₀ k₀ g m k) (e : Log.Entry) :
    Like m₀ k₀ g { m with store := m.store.logged e } { k with store := k.store.logged e } := by
  refine { h with messages := ?_ }
  have hm : m.store.log.toList.filter (·.level = .info) =
    k.store.log.toList.filter (·.level = .info) := h.messages
  simp only [Store.messages, Store.logged, Array.toList_push, List.filter_append, hm]

/-- After a failure nothing is known of cells. -/
theorem forget (h : Like m₀ k₀ g m k) : Like m₀ k₀ (fun _ => .free) m k :=
    h.within fun _ => .inl rfl

end Machine.Like

namespace Exec

/-- A computation in two runs: in the second it comes to the same result or failure as in the first.
It is never stopped otherwise, unless a cell is not of the form it expects. -/
def Agrees {α : Type} (sur : Surroundings) (m k : Machine) (ok : α → Machine → Machine → Prop)
    (bad : Machine → Machine → Prop) (x : Exec α) : Prop :=
  match x sur m with
  | .ok a m' => ∃ k', x sur k = .ok a k' ∧ ok a m' k'
  | .error (.failed e) m' => ∃ k', x sur k = .error (.failed e) k' ∧ bad m' k'
  | .error e _ => e = .broken

namespace Agrees

variable {α β : Type} {sur : Surroundings} {m k : Machine} {bad : Machine → Machine → Prop}

theorem pure {a : α} {ok : α → Machine → Machine → Prop} (h : ok a m k) :
    Agrees sur m k ok bad (pure a) := ⟨k, rfl, h⟩

theorem broken {ok : α → Machine → Machine → Prop} : Agrees sur m k ok bad (throw .broken) := rfl

theorem bind {x : Exec β} {f : β → Exec α} {mid : β → Machine → Machine → Prop}
    {ok : α → Machine → Machine → Prop} (hx : Agrees sur m k mid bad x)
    (hf : ∀ b m' k', mid b m' k' → Agrees sur m' k' ok bad (f b)) :
    Agrees sur m k ok bad (x >>= f) := by
  unfold Agrees at hx ⊢
  rw [bind_apply]
  cases hr : x sur m with
  | ok b m' =>
    rw [hr] at hx
    obtain ⟨k', hk, hmid⟩ := hx
    rw [bind_apply, hk]
    exact hf b m' k' hmid
  | error e m' =>
    rw [hr] at hx
    cases e with
    | failed e =>
      obtain ⟨k', hk, hbad⟩ := hx
      refine ⟨k', ?_, hbad⟩
      rw [bind_apply, hk]
    | _ => exact hx

theorem imp {x : Exec α} {ok ok' : α → Machine → Machine → Prop} {bad' : Machine → Machine → Prop}
    (h : Agrees sur m k ok bad x) (hok : ∀ a m' k', ok a m' k' → ok' a m' k')
    (hbad : ∀ m' k', bad m' k' → bad' m' k') :
    Agrees sur m k ok' bad' x := by
  unfold Agrees at h ⊢
  cases hr : x sur m with
  | ok a m' =>
    rw [hr] at h
    obtain ⟨k', hk, h⟩ := h
    exact ⟨k', hk, hok a m' k' h⟩
  | error e m' =>
    rw [hr] at h
    cases e with
    | failed e =>
      obtain ⟨k', hk, h⟩ := h
      exact ⟨k', hk, hbad m' k' h⟩
    | _ => exact h

end Agrees

/-! ## What effects are made of -/

/-- After a failure nothing is known of cells. -/
abbrev Fell (m₀ k₀ m k : Machine) : Prop := m₀.Like k₀ (fun _ => .free) m k

theorem surroundings_agrees {sur : Surroundings} {m k : Machine} {bad : Machine → Machine → Prop} :
    Agrees sur m k (fun _ m' k' => m' = m ∧ k' = k) bad read := ⟨k, rfl, rfl, rfl⟩

section

variable {sur : Surroundings} {m₀ k₀ m k : Machine} {g : Shapes} (h : m₀.Like k₀ g m k)

include h

theorem cell_agrees {j : Nat} (hj : g j ≠ .free) {bad : Machine → Machine → Prop} :
    Agrees sur m k (fun c m' k' => c = m.cells.read j ∧ m' = m ∧ k' = k) bad (cell j) := by
  refine ⟨k, ?_, rfl, rfl, rfl⟩
  rw [h.cells j hj]
  rfl

theorem setCell_agrees (j : Nat) (c : Cell) (s : Shape) {bad : Machine → Machine → Prop} :
    Agrees sur m k (fun _ m' k' => m₀.Like k₀ (g.set j s) m' k') bad (setCell j c) :=
  ⟨_, rfl, h.write j c s⟩

/-- A cell is written that nothing is known of. -/
theorem freeCell_agrees {j : Nat} (hj : g j = .free) (c : Cell) {bad : Machine → Machine → Prop} :
    Agrees sur m k (fun _ m' k' => m₀.Like k₀ g m' k') bad (setCell j c) := by
  refine ⟨_, rfl, ?_⟩
  have hw := h.write j c .free
  rwa [Shapes.set_same hj] at hw

theorem target_agrees {out : Out} (ho : out.Fits g) {bad : Machine → Machine → Prop} :
    Agrees sur m k (fun _ m' k' => m' = m ∧ k' = k) bad (target out) := by
  cases out with
  | sink => exact ⟨k, rfl, rfl, rfl⟩
  | cell slot =>
    have hslot : g slot ≠ .free := by
      rcases ho with ho | ho <;> rw [ho] <;> simp
    refine (cell_agrees h hslot).bind fun c m' k' ⟨_, hm, hk⟩ => ?_
    subst hm hk
    cases c with
    | wrap entry stages => exact .pure ⟨rfl, rfl⟩
    | buffer id => exact .pure ⟨rfl, rfl⟩
    | _ => exact .broken

/-- An operation on sinks. -/
theorem onSink_agrees {α : Type} {f : Streams → Except Failure α × Streams}
    (hf : ∀ s t, s.Alike t → (f s).1 = (f t).1 ∧ (f s).2.Alike (f t).2) :
    Agrees sur m k (fun _ m' k' => m₀.Like k₀ g m' k') (Fell m₀ k₀)
      (onSink fun s => ((f s.streams).1, { s with streams := (f s.streams).2 })) := by
  obtain ⟨hr, hs⟩ := hf _ _ h.streams
  have hlike := h.withStreams hs
  unfold Agrees
  cases hm : (f m.store.streams).1 with
  | ok a =>
    rw [onSink_ok hm, onSink_ok (hr.symm.trans hm)]
    exact ⟨_, rfl, hlike⟩
  | error e =>
    rw [onSink_error hm, onSink_error (hr.symm.trans hm)]
    exact ⟨_, rfl, hlike.forget⟩

theorem append_agrees (sink : Sink) (text : String) :
    Agrees sur m k (fun _ m' k' => m₀.Like k₀ g m' k') (Fell m₀ k₀) (onSink (·.append sink text)) :=
  onSink_agrees (f := (·.append sink text)) h fun _ _ ha => ha.append sink text

theorem write_agrees {out : Out} (ho : out.Fits g) (text : String) :
    Agrees sur m k (fun _ m' k' => m₀.Like k₀ g m' k') (Fell m₀ k₀) (write out text) := by
  refine (target_agrees h ho).bind fun sink m' k' ⟨hm, hk⟩ => ?_
  subst hm hk
  exact append_agrees h sink text

theorem close_agrees (entry : Sink) (stages : Nat) :
    Agrees sur m k (fun _ m' k' => m₀.Like k₀ g m' k') (Fell m₀ k₀) (close entry stages) :=
  onSink_agrees (f := (·.closeAll (entry.stages stages))) h fun _ _ ha => ha.closeAll _

/-- An operation on sinks that cannot fail. -/
theorem onStreams_agrees {α : Type} {f : Streams → α × Streams} {bad : Machine → Machine → Prop}
    (hf : ∀ s t, s.Alike t → (f s).1 = (f t).1 ∧ (f s).2.Alike (f t).2) :
    Agrees sur m k (fun _ m' k' => m₀.Like k₀ g m' k') bad
      (onStore fun s => ((f s.streams).1, { s with streams := (f s.streams).2 })) := by
  obtain ⟨hr, hs⟩ := hf _ _ h.streams
  refine ⟨{ k with store := { k.store with streams := (f k.store.streams).2 } }, ?_,
    h.withStreams hs⟩
  rw [hr]
  rfl

theorem newBuffer_agrees {bad : Machine → Machine → Prop} :
    Agrees sur m k (fun _ m' k' => m₀.Like k₀ g m' k') bad newBuffer :=
  onStreams_agrees (f := (·.newBuffer)) h fun _ _ ha => ha.newBuffer

theorem wrap_agrees (fs : List FilterCall) (args : List (List Value)) (kind : ContentKind)
    (sink : Sink) :
    Agrees sur m k (fun _ m' k' => m₀.Like k₀ g m' k') (Fell m₀ k₀) (wrap fs args kind sink) := by
  have hrun (l : Machine) : wrap fs args kind sink sur l =
      (ofExcept (Filter.stages l.store.heap.futures (Eval.applied fs args) kind) >>= fun stages =>
        onStore fun s => ((s.streams.wrap stages sink).1,
            { s with streams := (s.streams.wrap stages sink).2 })) sur l :=
    rfl
  unfold Agrees
  rw [hrun, hrun, Filter.stages_futures m.store.heap.futures k.store.heap.futures]
  cases Filter.stages k.store.heap.futures (Eval.applied fs args) kind with
  | error e => exact ⟨_, rfl, h.forget⟩
  | ok stages =>
    have hwrap : Agrees sur m k (fun _ m' k' => m₀.Like k₀ g m' k') (Fell m₀ k₀) _ :=
      onStreams_agrees (f := (·.wrap stages sink)) h fun _ _ ha => ha.wrap stages sink
    exact hwrap

theorem logged_agrees (e : Log.Entry) {bad : Machine → Machine → Prop} :
    Agrees sur m k (fun _ m' k' => m₀.Like k₀ g m' k') bad (onStore fun st => ((), st.logged e)) :=
  ⟨_, rfl, h.withLog e⟩

theorem bufferText_agrees (b : BufferId) {bad : Machine → Machine → Prop} :
    Agrees sur m k (fun t m' k' => t = m.store.streams.bufferText b ∧ m' = m ∧ k' = k) bad
      (bufferText b) := by
  refine ⟨k, ?_, rfl, rfl, rfl⟩
  rw [h.streams.bufferText b]
  rfl

theorem buffer_agrees {slot : Nat} (hs : g slot ≠ .free) {bad : Machine → Machine → Prop} :
    Agrees sur m k (fun _ m' k' => m' = m ∧ k' = k) bad (buffer slot) := by
  refine (cell_agrees h hs).bind fun c m' k' ⟨_, hm, hk⟩ => ?_
  subst hm hk
  cases c with
  | buffer id => exact .pure ⟨rfl, rfl⟩
  | _ => exact .broken

/-- The results of expressions are cleared. -/
theorem clearMemo_agrees (i : Instr) {bad : Machine → Machine → Prop} :
    Agrees sur m k (fun _ m' k' => m₀.Like k₀ g m' k') bad
      (modify fun m => { m with cells := i.clearMemo m.cells }) := by
  refine ⟨_, rfl, ?_⟩
  unfold Instr.clearMemo
  split
  · next x hx =>
    refine h.withCells (Cells.size_clear ..) (Cells.size_clear ..) fun j hj => ?_
    rw [Cells.read_clear, Cells.read_clear]
    split
    · rfl
    · exact h.cells j hj
  · exact h

theorem setLoop_agrees (base : Nat) (a b c : Cell) {bad : Machine → Machine → Prop} :
    Agrees sur m k (fun _ m' k' =>
      m₀.Like k₀ (((g.set base .any).set (base + 1) .any).set (base + 2) .any) m' k') bad
      (setLoop base a b c) := by
  refine (setCell_agrees h base a .any).bind fun _ m' k' h' => ?_
  refine (setCell_agrees h' (base + 1) b .any).bind fun _ m' k' h' => ?_
  exact setCell_agrees h' (base + 2) c .any

end

end Exec

end Interlude
