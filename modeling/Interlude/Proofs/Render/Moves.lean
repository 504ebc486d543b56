import Interlude.Proofs.Render.Confined
import Interlude.Proofs.Resume.Stand
/-!
# Moves of a render

A render moves from one position to the next by running an instruction; if that is stopped, the
render is suspended and goes on with the same instruction when it is called again. A move from a
confined instruction stays where the instruction is confined to and finds the cells below its mark
as they were, whatever happened in between (`Moves.near`).
-/

namespace Interlude

namespace Position

/-- From one position of a render to the next. An instruction that was stopped is run again in any
store in which the render is as it was left. -/
inductive Moves (reg : Registry) (context : Context) (q : Position) : Position → Prop where
  | next {i : Instr} {m : Machine} (fuel next : Nat) : q.render.program.code[q.pc]? = some i →
      Exec.instr (Store.invoke reg context fuel) q.pc i ⟨q.render, reg, context⟩ (q.found i) =
      .ok next m →
      Moves reg context q ⟨q.id, q.render, next, false, m⟩
  | again {i : Instr} {m : Machine} {e : Interrupt} {o : Outcome} {s : Store} {q' : Position}
    (fuel : Nat) :
      q.render.program.code[q.pc]? = some i →
      Exec.instr (Store.invoke reg context fuel) q.pc i ⟨q.render, reg, context⟩ (q.found i) =
        .error e m →
      e.outcome? = some o → s.Safe reg →
      s.renders[q.id]? = (Store.interrupt context q.id q.render q.pc m e).2.renders[q.id]? →
      start? context s q.id = some q' → Moves reg context q q'

/-- Moves one after the other, all of which lead to positions as told. -/
def Passes (reg : Registry) (context : Context) (P : Position → Prop) : Position →
    Position → Prop :=
  Relation.ReflTransGen fun q q' => Moves reg context q q' ∧ P q'

variable {reg : Registry} {context : Context} {q q' : Position} {i : Instr}

theorem Passes.imp {P Q : Position → Prop} (h : Passes reg context P q q') (hpq : ∀ q, P q → Q q) :
    Passes reg context Q q q' := by
  induction h with
  | refl => exact .refl
  | tail _ hlast ih => exact ih.tail ⟨hlast.1, hpq _ hlast.2⟩

/-- An instruction that needs no steps of others and comes to its end. -/
theorem moves_iff {next : Nat} {m : Machine} (hi : q.render.program.code[q.pc]? = some i)
    (h : ∀ fuel, Exec.instr (Store.invoke reg context fuel) q.pc i ⟨q.render, reg, context⟩
      (q.found i) = .ok next m) :
    Moves reg context q q' ↔ q' = ⟨q.id, q.render, next, false, m⟩ := by
  constructor
  · intro hmoves
    cases hmoves with
    | next fuel next hi' hnext =>
      rw [hi] at hi'
      cases hi'
      rw [h fuel] at hnext
      cases hnext
      rfl
    | again fuel hi' hstop =>
      rw [hi] at hi'
      cases hi'
      rw [h fuel] at hstop
      cases hstop
  · rintro rfl
    exact .next 0 next hi (h 0)

/-- Instructions without cells of their own find the cells as they are. -/
theorem found_plain (hi : i.extent = none) : (q.found i).cells = q.machine.cells := by
  unfold found
  split
  · rfl
  · change i.clearScratch q.machine.cells = _
    unfold Instr.clearScratch
    rw [hi]

/-- What an instruction finds below its mark is what was there before it was set up. -/
theorem found_same {low : Nat} (h : ∀ x, i.extent = some x → x.Behind low) :
    q.machine.cells.SameBelow low (q.found i).cells := by
  unfold found
  split
  · exact .refl ..
  · change q.machine.cells.SameBelow low (i.clearScratch q.machine.cells)
    unfold Instr.clearScratch
    split
    · next x hx =>
      refine ⟨Cells.size_clear .., fun j hj => ?_⟩
      rw [Cells.read_clear, if_neg]
      rintro ⟨hlow, hhigh⟩
      exact Nat.not_le.2 hj ((h x hx).own j hlow hhigh)
    · exact .refl ..

end Position

/-- A render that can be suspended is, with the frame saved at its instruction, or has failed. -/
theorem Store.suspend_status {context : Context} {id : RenderId} {r : Render} {pc : Nat}
    {i : Instr} {x : Extent} {m : Machine} (hi : r.program.code[pc]? = some i)
    (hx : i.extent = some x) (hr : m.store.renders[id]? = some { r with status := .ready })
    (o : Outcome) :
    (suspend context id r pc m o).2.renders[id]? =
        some { r with status := .suspended (SavedFrame.save pc m.cells x.site.slots m.maker) } ∨
      ∃ e, (suspend context id r pc m o).2.renders[id]? = some { r with status := .failed e } := by
  let saved := m.store.setStatus id (.suspended (SavedFrame.save pc m.cells x.site.slots m.maker))
  have hsaved : saved.renders[id]? =
      some { r with status := .suspended (SavedFrame.save pc m.cells x.site.slots m.maker) } := by
    rw [setStatus_get, if_pos rfl, hr]
    rfl
  have hflushed : (saved.flush r.sink).2.renders = saved.renders := rfl
  unfold suspend
  simp only [hi, hx]
  split
  · next e s hs =>
    have hrenders : s.renders = saved.renders := by rw [← hflushed, hs]
    refine .inr ⟨(Failure.sink e).within r.program.name, ?_⟩
    rw [failRender, setStatus_get, if_pos rfl, hrenders, hsaved]
    rfl
  · next u s hs =>
    have hrenders : s.renders = saved.renders := by rw [← hflushed, hs]
    refine .inl ?_
    split
    · change s.renders[id]? = _
      rw [hrenders, hsaved]
    · rw [hrenders, hsaved]

namespace Position

variable {reg : Registry} {context : Context} {q q' : Position} {i : Instr}

/-- Where a render goes on that was suspended at an instruction. -/
theorem start_suspended {m : Machine} {x : Extent} {o : Outcome} {s : Store}
    (hi : q.render.program.code[q.pc]? = some i) (hx : i.extent = some x)
    (hm : m.Safe reg q.id q.render (q.render.program.types q.pc))
    (hs : s.renders[q.id]? = (Store.suspend context q.id q.render q.pc m o).2.renders[q.id]?)
    (h : start? context s q.id = some q') :
    q'.id = q.id ∧ q'.render.program = q.render.program ∧ q'.pc = q.pc ∧ q'.resumed = true ∧ ∃ s',
      q'.machine = (SavedFrame.save q.pc m.cells x.site.slots m.maker).machine
      q.render.program s' := by
  unfold start? at h
  rcases Store.suspend_status hi hx hm.render o with hrender | ⟨e, hrender⟩ <;> rw [hs, hrender]
    at h <;> cases h
  obtain ⟨s', -, -, henter⟩ := Store.enter_suspended context (r := { q.render with
    status := .suspended (SavedFrame.save q.pc m.cells x.site.slots m.maker) }) rfl hi
      (s.setStatus q.id .ready)
  rw [henter]
  exact ⟨rfl, rfl, rfl, rfl, s', rfl⟩

/-- Where a move from a confined instruction leads. -/
structure Near (reg : Registry) (low : Nat) (q q' : Position) : Prop where
  safe : q'.Safe reg
  id : q'.id = q.id
  program : q'.render.program = q.render.program
  cells : q.machine.cells.SameBelow low q'.machine.cells

theorem Moves.safe (hreg : ∀ p ∈ reg.programs, p.Valid) (hq : q.Safe reg)
    (h : Moves reg context q q') :
    q'.Safe reg := by
  cases h with
  | next fuel next hi hnext =>
    have hmeets := Exec.instr_meets context (Store.runs_safe hreg context fuel).1
      (hq.running hreg hi)
    unfold Exec.Meets at hmeets
    rw [hnext] at hmeets
    exact ⟨hq.program, hmeets.2.safe⟩
  | again fuel _ _ _ hs _ hstart => exact start_safe hreg hs hstart

/-- A confined instruction goes on where it is confined to, or it is run again. -/
theorem Moves.near (hreg : ∀ p ∈ reg.programs, p.Valid) (hq : q.Safe reg) {low first last : Nat}
    (hi : q.render.program.code[q.pc]? = some i) (hc : i.Confined low first last q.pc)
    (h : Moves reg context q q') :
    q.Near reg low q' ∧ (first ≤ q'.pc ∧ q'.pc ≤ last ∨ q'.pc = q.pc ∧ q'.resumed = true) := by
  have hrun := hq.running hreg hi
  have hfound := found_same (q := q) hc.extent
  have hsafe := h.safe hreg hq
  cases h with
  | next fuel next hi' hnext =>
    rw [hi] at hi'
    cases hi'
    have hspares := Exec.instr_spares context (Store.invoke reg context fuel) hrun hc
    unfold Exec.SparesAt Exec.Meets at hspares
    rw [hnext] at hspares
    exact ⟨⟨hsafe, rfl, rfl, hfound.trans hspares⟩,
      .inl (hc.onward _ (Exec.instr_onward _ _ _ _ _ _ _ hnext))⟩
  | @again _ m e o s _ fuel hi' hstop ho hs hrenders hstart =>
    rw [hi] at hi'
    cases hi'
    have hmeets := Exec.instr_meets context (Store.runs_safe hreg context fuel).1 hrun
    have hspares := Exec.instr_spares context (Store.invoke reg context fuel) hrun hc
    unfold Exec.Meets at hmeets
    unfold Exec.SparesAt Exec.Meets at hspares
    rw [hstop] at hmeets hspares
    obtain ⟨hext, hm⟩ : i.extent.isSome = true ∧
        m.Safe reg q.id q.render (q.render.program.types q.pc) := by
      cases e with
      | waiting f => exact ⟨hmeets.1, hmeets.2.1.safe⟩
      | limited => exact ⟨hmeets.1, hmeets.2.safe⟩
      | _ => cases ho
    obtain ⟨x, hx⟩ := Option.isSome_iff_exists.1 hext
    have hsuspend : Store.interrupt context q.id q.render q.pc m e =
        Store.suspend context q.id q.render q.pc m o := by
      cases e <;> cases ho <;> rfl
    rw [hsuspend] at hrenders
    obtain ⟨hid, hprogram, hpc, hresumed, s', hmachine⟩ := start_suspended hi hx hm hrenders hstart
    obtain ⟨mark, hlow, hslots⟩ := (hc.extent x hx).site
    obtain ⟨mark', hslots', -, hmark, -⟩ := (hrun.fits.extent x hx).1.site
    obtain rfl : mark = mark' := by
      rw [hslots] at hslots'
      simpa using congrArg List.length hslots'
    refine ⟨⟨hsafe, hid, hprogram, (hfound.trans hspares).trans ⟨?_, fun j hj => ?_⟩⟩,
      .inr ⟨hpc, hresumed⟩⟩
    · rw [hmachine, SavedFrame.size_machine, hm.cells.size]
    · rw [hmachine]
      exact SavedFrame.read_machine m hi hx hslots hmark s' (Nat.lt_of_lt_of_le hj hlow)

end Position

end Interlude
