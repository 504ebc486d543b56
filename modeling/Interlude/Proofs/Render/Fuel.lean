import Interlude.Proofs.Output
import Interlude.Proofs.Render.Order
/-!
# More steps

A run only adds to the output and to what is logged. A run that came to an end is not changed by
more steps, and one that ran out of steps has put out nothing that a longer run does not put out too
(`runs_approximate`).
-/

namespace Interlude

namespace Store

theorem grows_order : Order Grows where
  refl := .refl
  trans := .trans
  heap _ _ := .of_eq rfl rfl
  append s sink text := .of_streams (.append s.streams sink text) rfl
  isLimited s sink := .of_streams (.isLimited s.streams sink) rfl
  flush s sink := .of_streams (.flush s.streams sink) rfl
  wrap s stages sink := .of_streams (.wrap s.streams stages sink) rfl
  close s stages := .of_streams (.closeAll s.streams stages) rfl
  newBuffer _ := .of_streams (.of_outlet rfl) rfl
  logged := .logged
  push _ _ := .of_eq rfl rfl

/-- A status is neither put out nor logged. -/
theorem grows_runOrder : RunOrder Grows fun _ => Grows where
  order := grows_order
  trans := .trans
  own h := h
  status _ _ _ := .of_eq rfl rfl
  called _ _ h := h

theorem interrupt_grows (context : Context) (id : RenderId) (r : Render) (pc : Nat) (m : Machine)
    (e : Interrupt) :
    m.store.Grows (interrupt context id r pc m e).2 := grows_runOrder.interrupt context id r pc m e

/-- Runs only add to output and log. -/
theorem runs_grow (reg : Registry) (context : Context) (fuel : Nat) :
    (∀ (id : RenderId) (s : Store), s.Grows (invoke reg context fuel id s).2) ∧
      ∀ (id : RenderId) (r : Render) (pc : Nat) (resumed : Bool) (m : Machine),
        m.store.Grows (steps reg context fuel id r pc resumed m).2 :=
    grows_runOrder.runs context reg fuel

end Store

/-! ## Longer runs -/

/-- The first result is the second, or it comes from a run that had too few steps to get as far. -/
def Approximates (x y : Outcome × Store) : Prop := y = x ∨ x.1 = .exhausted ∧ x.2.Grows y.2

namespace Approximates

theorem refl (x : Outcome × Store) : Approximates x x := .inl rfl

theorem trans {x y z : Outcome × Store} (h : Approximates x y) (h' : Approximates y z) :
    Approximates x z := by
  rcases h with rfl | ⟨hx, hy⟩
  · exact h'
  · rcases h' with rfl | ⟨_, hz⟩
    · exact .inr ⟨hx, hy⟩
    · exact .inr ⟨hx, hy.trans hz⟩

theorem eq {x y : Outcome × Store} (h : Approximates x y) (hx : x.1 ≠ .exhausted) : y = x :=
  h.resolve_right fun h => hx h.1

theorem grows {x y : Outcome × Store} (h : Approximates x y) : x.2.Grows y.2 := by
  rcases h with rfl | h
  · exact .refl _
  · exact h.2

end Approximates

namespace Exec

/-- The same for one instruction. -/
def Approximates {α : Type} (x y : EStateM.Result Interrupt Machine α) : Prop :=
  y = x ∨ ∃ m, x = .error .exhausted m ∧ m.store.Grows (left y).store

theorem proceed_approximates {invoke invoke' : RenderId → Store → Outcome × Store}
    (h : ∀ id s, Interlude.Approximates (invoke id s) (invoke' id s)) (out : Out) (slot : Nat)
    (fs : List FilterCall) (st : CallState) (sur : Surroundings) (m : Machine) :
    Approximates (proceed invoke out slot fs st sur m) (proceed invoke' out slot fs st sur m) := by
  have hrun (inv : RenderId → Store → Outcome × Store) : proceed inv out slot fs st sur m =
      comeBack (inv st.callee m.store).1 out slot fs st sur
      { m with store := (inv st.callee m.store).2 } := rfl
  rw [hrun, hrun]
  rcases h st.callee m.store with heq | ⟨hex, hgrow⟩
  · exact .inl (by rw [heq])
  · refine .inr ⟨{ m with store := (invoke st.callee m.store).2 }, ?_, hgrow.trans ?_⟩
    · rw [hex]
      rfl
    · exact (Store.grows_order.comeBack ..).store sur
        { m with store := (invoke' st.callee m.store).2 }

/-- An instruction that makes a call. -/
theorem instr_call (invoke : RenderId → Store → Outcome × Store) (pc : Nat) (out : Out) (slot : Nat)
    (site : CallSite) (fs : List FilterCall) (extent : Option Extent) (sur : Surroundings)
    (m : Machine) :
    instr invoke pc { op := .call out slot site fs, extent } sur m =
      match callState { op := .call out slot site fs, extent } out slot site fs sur m with
      | .error e m' => .error e m'
      | .ok none m' => .ok (pc + 1) m'
      | .ok (some st) m' =>
        match proceed invoke out slot fs st sur m' with
        | .ok _ m'' => .ok (pc + 1) m''
        | .error e m'' => .error e m'' := by
  change (call invoke _ out slot site fs >>= fun _ => pure (pc + 1)) sur m = _
  unfold call
  rw [bind_apply, bind_apply]
  cases callState { op := .call out slot site fs, extent } out slot site fs sur m with
  | error e m' => rfl
  | ok st m' =>
    cases st with
    | none => rfl
    | some st =>
      simp only
      cases proceed invoke out slot fs st sur m' <;> rfl

/-- An instruction whose calls take more steps comes to the same, or gets further. -/
theorem instr_approximates {invoke invoke' : RenderId → Store → Outcome × Store}
    (h : ∀ id s, Interlude.Approximates (invoke id s) (invoke' id s)) (pc : Nat) (i : Instr)
    (sur : Surroundings) (m : Machine) :
    Approximates (instr invoke pc i sur m) (instr invoke' pc i sur m) := by
  obtain ⟨op, extent⟩ := i
  cases op with
  | call out slot site fs =>
    rw [instr_call, instr_call]
    cases callState { op := .call out slot site fs, extent } out slot site fs sur m with
    | error e m' => exact .inl rfl
    | ok st m' =>
      cases st with
      | none => exact .inl rfl
      | some st =>
        simp only
        rcases proceed_approximates h out slot fs st sur m' with heq | ⟨m'', hex, hgrow⟩
        · exact .inl (by rw [heq])
        · refine .inr ⟨m'', by rw [hex], ?_⟩
          cases hr : proceed invoke' out slot fs st sur m' with
          | ok a k => rw [hr] at hgrow; exact hgrow
          | error e k => rw [hr] at hgrow; exact hgrow
  | _ => exact .inl rfl

end Exec

namespace Store

/-- Runs with more steps come to the same, or get further. -/
theorem runs_approximate (reg : Registry) (context : Context) (fuel more : Nat) :
    (∀ (id : RenderId) (s : Store),
        Approximates (invoke reg context fuel id s) (invoke reg context (fuel + more) id s)) ∧
      ∀ (id : RenderId) (r : Render) (pc : Nat) (resumed : Bool) (m : Machine),
        Approximates (steps reg context fuel id r pc resumed m)
      (steps reg context (fuel + more) id r pc resumed m) := by
  induction fuel with
  | zero =>
    rw [Nat.zero_add]
    exact ⟨fun id s => .inr ⟨rfl, (runs_grow reg context more).1 id s⟩,
      fun id r pc resumed m => .inr ⟨rfl, (runs_grow reg context more).2 id r pc resumed m⟩⟩
  | succ fuel ih =>
    obtain ⟨hinv, hsteps⟩ := ih
    rw [Nat.add_right_comm]
    refine ⟨fun id s => ?_, fun id r pc resumed m => ?_⟩
    · unfold invoke
      split
      · exact .refl _
      · split
        · exact .refl _
        · exact .refl _
        · exact .refl _
        · exact hsteps ..
        · exact hsteps ..
    · unfold steps
      split
      · exact .refl _
      · next i _ =>
        simp only
        generalize (if resumed then m else m.setUp i) = m₁
        have hgrow := (grows_order.instr (runs_grow reg context (fuel + more)).1 pc i).store
          ⟨r, reg, context⟩ m₁
        rcases Exec.instr_approximates hinv pc i ⟨r, reg, context⟩ m₁ with heq | ⟨m', hex, hleft⟩
        · rw [heq]
          split
          · exact hsteps ..
          · exact .refl _
        · rw [hex]
          refine .inr ⟨rfl, hleft.trans ?_⟩
          cases Exec.instr (invoke reg context (fuel + more)) pc i ⟨r, reg, context⟩ m₁ with
          | ok next m'' => exact (runs_grow reg context (fuel + more)).2 ..
          | error e m'' => exact interrupt_grows ..

theorem invoke_approximates (reg : Registry) (context : Context) {fuel fuel' : Nat}
    (h : fuel ≤ fuel') (id : RenderId) (s : Store) :
    Approximates (invoke reg context fuel id s) (invoke reg context fuel' id s) := by
  obtain ⟨more, rfl⟩ := Nat.exists_eq_add_of_le h
  exact (runs_approximate reg context fuel more).1 id s

theorem steps_approximates (reg : Registry) (context : Context) {fuel fuel' : Nat}
    (h : fuel ≤ fuel') (id : RenderId) (r : Render) (pc : Nat) (resumed : Bool) (m : Machine) :
    Approximates (steps reg context fuel id r pc resumed m)
      (steps reg context fuel' id r pc resumed m) := by
  obtain ⟨more, rfl⟩ := Nat.exists_eq_add_of_le h
  exact (runs_approximate reg context fuel more).2 id r pc resumed m

end Store

end Interlude
