import Interlude.Proofs.Direct.Follow
import Interlude.Proofs.Resume.Run
/-!
# Courses that play direct runs

The course of a render plays a direct run if it gets on to the instruction behind the code of what
was run, with a store that shows the world after it, or ends as the direct run does. Instructions
that follow a direct run play it (`Plays.instr`).
-/

namespace Interlude

open Direct (World Act Setup Scene)

namespace Render

variable (reg : Registry) (context : Context) (id : RenderId) (rd : Render)

/-- The course of a render from an instruction on. -/
def course (pc : Nat) (m : Machine) : Course := fun n => Store.steps reg context n id rd pc false m

theorem course_steady (pc : Nat) (m : Machine) : (rd.course reg context id pc m).Steady :=
  fun hf => Store.steps_approximates reg context hf ..

/-- A course gets on to the instruction after a direct run, or ends as the run does. It is exhausted
in `depth` steps if the direct run is. -/
def Plays {β : Type} (depth : Nat) (x : Course) (next : β → Nat) (ok : β → Machine → World → Prop) :
    EStateM.Result Stop World β → Prop
  | .ok b w => ∃ m, x.Leads (rd.course reg context id (next b) m) ∧ ok b m w
  | .error (.failed e) w => ∃ s : Store, x.Comes (s.failRender id rd e) ∧ s.Left w
  | .error (.waiting p) w => ∃ (pc : Nat) (i : Instr) (m : Machine), rd.program.code[pc]? = some i ∧
      i.extent.isSome = true ∧ x.Comes (Store.suspend context id rd pc m (.waiting p)) ∧
      m.store.Left w
  | .error .exhausted _ => x.Late depth 0
  | .error .broken _ => False

end Render

theorem Store.suspend_ne_exhausted (context : Context) (id : RenderId) (rd : Render) (pc : Nat)
    (m : Machine) (p : FutureId) :
    (Store.suspend context id rd pc m (.waiting p)).1 ≠ .exhausted := by
  rcases Store.suspend_result context id rd pc m (.waiting p) with h | h
    | ⟨e, h⟩ <;> rw [h] <;> simp

namespace Render.Plays

variable {reg : Registry} {context : Context} {id : RenderId} {rd : Render} {β γ : Type}
  {depth : Nat} {x x' : Course}
  {next : β → Nat} {ok : β → Machine → World → Prop} {y : EStateM.Result Stop World β}

theorem done {b : β} {m : Machine} {w : World} {pc : Nat} (hpc : next b = pc) (h : ok b m w) :
    rd.Plays reg context id depth (rd.course reg context id pc m) next ok (.ok b w) := by
  subst hpc
  refine ⟨m, .refl ?_, h⟩
  exact rd.course_steady reg context id (next b) m

/-- A course that gets on as another plays what the other plays. -/
theorem lead (hx : x.Leads x') (h : rd.Plays reg context id depth x' next ok y) :
    rd.Plays reg context id depth x next ok y := by
  cases y with
  | ok b w =>
    obtain ⟨m, hm, hok⟩ := h
    exact ⟨m, hx.trans hm, hok⟩
  | error e w =>
    cases e with
    | failed e =>
      obtain ⟨s, hs, hleft⟩ := h
      exact ⟨s, hx.comes hs (by simp [Store.failRender]), hleft⟩
    | waiting p =>
      obtain ⟨pc, i, m, hi, hext, hs, hleft⟩ := h
      exact ⟨pc, i, m, hi, hext, hx.comes hs (Store.suspend_ne_exhausted context id rd pc m p),
        hleft⟩
    | exhausted => exact Course.Late.lead hx h
    | broken => exact h.elim

theorem bind {y : Act β} {g : β → Act γ} {w : World} {next' : γ → Nat}
    {ok' : γ → Machine → World → Prop} (h : rd.Plays reg context id depth x next ok (y w))
    (hg : ∀ b m w', ok b m w' →
      rd.Plays reg context id depth (rd.course reg context id (next b) m) next' ok' (g b w')) :
    rd.Plays reg context id depth x next' ok' ((y >>= g) w) := by
  rw [Act.bind_apply]
  cases hy : y w with
  | ok b w' =>
    rw [hy] at h
    obtain ⟨m, hm, hok⟩ := h
    exact (hg b m w' hok).lead hm
  | error e w' =>
    rw [hy] at h
    cases e <;> exact h

/-- The course goes on after what it plays. -/
theorem onward {next' : β → Nat} {ok' : β → Machine → World → Prop}
    (h : rd.Plays reg context id depth x next ok y)
    (hok : ∀ b m w, ok b m w →
      ∃ m', (rd.course reg context id (next b) m).Leads (rd.course reg context id (next' b) m') ∧
      ok' b m' w) : rd.Plays reg context id depth x next' ok' y := by
  cases y with
  | ok b w =>
    obtain ⟨m, hm, hb⟩ := h
    obtain ⟨m', hlead, hb'⟩ := hok b m w hb
    exact ⟨m', hm.trans hlead, hb'⟩
  | error e w => cases e <;> exact h

theorem imp {next' : β → Nat} {ok' : β → Machine → World → Prop}
    (h : rd.Plays reg context id depth x next ok y)
    (hok : ∀ b m w, ok b m w → next' b = next b ∧ ok' b m w) :
    rd.Plays reg context id depth x next' ok' y := by
  refine h.onward fun b m w hb => ?_
  obtain ⟨hnext, hb'⟩ := hok b m w hb
  rw [hnext]
  exact ⟨m, .refl (rd.course_steady reg context id _ m), hb'⟩

/-- A course that comes to the end of an instruction that is interrupted as the direct run is. -/
theorem interrupted {α : Type} {pc : Nat} {i : Instr} {m : Machine} {e : Interrupt}
    {ok' : α → Machine → β → World → Prop} (hi : rd.program.code[pc]? = some i)
    (hx : x.Comes (Store.interrupt context id rd pc m e)) (hlate : e = .exhausted → x.Late depth 0)
    (h : Exec.Follows (i.extent.isSome = true) ok' (.error e m) y) :
    rd.Plays reg context id depth x next ok y := by
  cases y with
  | ok b w => cases e <;> exact h.elim
  | error e' w =>
    cases e with
    | failed e =>
      cases e' with
      | failed e' =>
        obtain ⟨rfl, hleft⟩ := h
        exact ⟨m.store, hx, hleft⟩
      | _ => exact h.elim
    | waiting p =>
      cases e' with
      | waiting p' =>
        obtain ⟨hext, rfl, hleft⟩ := h
        exact ⟨pc, i, m, hi, hext, hx, hleft⟩
      | _ => exact h.elim
    | exhausted =>
      cases e' with
      | exhausted => exact hlate rfl
      | _ => exact h.elim
    | _ => cases e' <;> exact h.elim

/-- The same, if it takes one step to get there. -/
theorem interrupted_step {α : Type} {pc : Nat} {i : Instr} {m : Machine} {e : Interrupt}
    {ok' : α → Machine → β → World → Prop} (hi : rd.program.code[pc]? = some i)
    (hx : ∀ n, x (n + 1) = Store.interrupt context id rd pc m e) (hz : (x 0).1 = .exhausted)
    (h : Exec.Follows (i.extent.isSome = true) ok' (.error e m) y) :
    rd.Plays reg context id depth x next ok y := by
  refine interrupted hi ⟨1, fun n hn => ?_⟩ (fun he n _ => ?_) h
  · obtain ⟨n, rfl⟩ : ∃ k, n = k + 1 := ⟨n - 1, by omega⟩
    exact hx n
  · cases n with
    | zero => exact hz
    | succ n => rw [hx n, he]; rfl

/-- A step at an instruction that is no call does not depend on how other renders are called. -/
theorem course_instr (reg : Registry) (context : Context) (id : RenderId) {rd : Render}
    {pc : Nat} {i : Instr} (hi : rd.program.code[pc]? = some i)
    (hc : ∀ out slot site fs, i.op ≠ .call out slot site fs)
    (invoke : RenderId → Store → Outcome × Store) (m : Machine) (n : Nat) :
    rd.course reg context id pc m (n + 1) =
      match Exec.instr invoke pc i ⟨rd, reg, context⟩ (m.setUp i) with
      | .ok pc' m' => rd.course reg context id pc' m' n
      | .error e m' => Store.interrupt context id rd pc m' e := by
  have hsame : Exec.instr (Store.invoke reg context n) pc i = Exec.instr invoke pc i := by
    obtain ⟨op, extent⟩ := i
    cases op with
    | call out slot site fs => exact (hc out slot site fs rfl).elim
    | _ => rfl
  rw [← hsame]
  unfold course
  rw [Store.steps]
  simp only [hi]
  rfl

/-- The code goes on with an instruction that is no call. -/
theorem instr {pc : Nat} {i : Instr} {m : Machine} (hi : rd.program.code[pc]? = some i)
    (hc : ∀ out slot site fs, i.op ≠ .call out slot site fs)
    (h : ∀ invoke, Exec.Follows (i.extent.isSome = true) (fun pc' m' b w' =>
        pc' = next b ∧ ok b m' w') (Exec.instr invoke pc i ⟨rd, reg, context⟩ (m.setUp i)) y) :
    rd.Plays reg context id depth (rd.course reg context id pc m) next ok y := by
  let invoke : RenderId → Store → Outcome × Store := fun _ s => (.broken, s)
  replace h := h invoke
  have hstep := course_instr reg context id hi hc invoke m
  cases hr : Exec.instr invoke pc i ⟨rd, reg, context⟩ (m.setUp i) with
  | ok pc' m' =>
    rw [hr] at h hstep
    cases y with
    | error e w => cases e <;> exact h.elim
    | ok b w =>
      obtain ⟨rfl, hok⟩ := h
      refine ⟨m', .of_step hstep rfl ?_, hok⟩
      exact rd.course_steady reg context id (next b) m'
  | error e m' =>
    rw [hr] at h hstep
    exact interrupted_step hi hstep rfl h

end Render.Plays

/-! ## Instructions without a counterpart -/

namespace Render

variable {reg : Registry} {context : Context} {id : RenderId} {rd : Render} {pc : Nat} {m : Machine}
  {made : Array Thunk}
  {states : Array Future} {w : World}

theorem course_step {i : Instr} {pc' : Nat} {m' : Machine} (hi : rd.program.code[pc]? = some i)
    (h : ∀ invoke, Exec.instr invoke pc i ⟨rd, reg, context⟩ (m.setUp i) = .ok pc' m') :
    (rd.course reg context id pc m).Leads (rd.course reg context id pc' m') := by
  refine .of_step (fun n => ?_) rfl ?_
  · unfold course
    rw [Store.steps]
    simp only [hi]
    have hrun := h (Store.invoke reg context n)
    simp only [Bool.false_eq_true, if_false]
    rw [hrun]
  · exact rd.course_steady reg context id pc' m'

theorem course_jump {target : Nat} (hi : rd.program.code[pc]? = some { op := .jump target })
    (hm : m.store.Shows made states w) (mark : Nat) :
    ∃ m', (rd.course reg context id pc m).Leads (rd.course reg context id target m') ∧
      m.Still mark made states m' w := by
  refine ⟨_, course_step hi fun _ => rfl, .refl .., ?_⟩
  rw [m.setUp_plain rfl]
  exact hm

/-- A sink that never asks for a pause is asked for nothing. -/
theorem course_checkLimit {site : SaveSite}
    (hi : rd.program.code[pc]? = some { op := .checkLimit, extent := some { site } })
    (hm : m.store.Shows made states w) (mark : Nat) :
    ∃ m', (rd.course reg context id pc m).Leads (rd.course reg context id (pc + 1) m') ∧
      m.Still mark made states m' w := by
  have hlimited : m.store.streams.isLimited rd.sink = (false, m.store.streams) := by
    rw [hm.streams]
    exact hm.unlimited.isLimited rd.sink
  refine ⟨{ m with maker := m.store.heap.fresh }, course_step hi fun invoke => ?_, .refl .., hm⟩
  change (do
    if (m.store.streams.isLimited rd.sink).1 then throw .limited
    pure (pc + 1) : Exec Nat) ⟨rd, reg, context⟩
      { m with maker := m.store.heap.fresh,
               store := { m.store with streams := (m.store.streams.isLimited rd.sink).2 } } = _
  rw [hlimited]
  rfl

end Render

end Interlude
