import Interlude.Proofs.Render.Call
/-!
# Runs keep stores safe

By induction on the number of steps: a call of a render, however it ends, leaves a safe store, is
never broken, and has no part in renders older than its own (`runs_safe`, `invoke_stays`).
-/

namespace Interlude

namespace Store

variable {reg : Registry} {context : Context} {id : RenderId} {r : Render} {pc : Nat} {m : Machine}

/-- What a call of the render `id` comes to. -/
structure Ran (reg : Registry) (id : RenderId) (s : Store) (result : Outcome × Store) : Prop where
  safe : result.2.Safe reg
  later : s.Later id result.2
  due : result.1.Due result.2

theorem Ran.trans {s s' : Store} {result : Outcome × Store} (h : Ran reg id s' result)
    (hl : s.Later id s') :
    Ran reg id s result :=
  ⟨h.safe, hl.trans h.later, h.due⟩

theorem failRender_ran {s : Store} (hs : s.Safe reg) (r : Render) (cause : Failure) :
    Ran reg id s (s.failRender id r cause) :=
  ⟨hs.setStatus (fun _ _ _ hf => nomatch hf), setStatus_later .., trivial⟩

/-- A frame as it is saved at an instruction that can stop. -/
theorem save_safe {i : Instr} {x : Extent} {size count thunks : Nat}
    (hi : r.program.code[pc]? = some i) (hx : i.extent = some x)
    (hfit : x.Fits size (r.program.types pc))
    (hm : m.cells.Fits r.program.size id count thunks (r.program.types pc)) :
    (SavedFrame.save pc m.cells x.site.slots m.maker).Safe r.program id count thunks := by
  obtain ⟨mark, hslots, -⟩ := hfit.site
  have hcell {j : Nat} {c : Cell}
    (hc : (SavedFrame.save pc m.cells x.site.slots m.maker).cells[j]? = some c) :
      c = m.cells.read j := by
    rw [hslots, SavedFrame.getElem?_save] at hc
    split at hc
    · cases hc
      rfl
    · cases hc
  refine ⟨⟨i, x, hi, hx, by simp [SavedFrame.save]⟩, fun j c hc => ?_, fun c hc => ?_⟩
  · rw [hcell hc]
    exact hm.shape j
  · obtain ⟨j, hj⟩ := List.getElem?_of_mem hc
    rw [hcell hj]
    exact hm.refers j

theorem suspend_ran {i : Instr} (hr : m.Safe reg id r (r.program.types pc))
    (hi : r.program.code[pc]? = some i)
    (hfits : i.Fits r.program.size r.program.code.size r.program.types pc)
    (hext : i.extent.isSome = true) (outcome : Outcome) (ho : outcome.Due m.store) :
    Ran reg id m.store (suspend context id r pc m outcome) := by
  obtain ⟨x, hx⟩ := Option.isSome_iff_exists.1 hext
  have hsaved : (m.store.setStatus id
      (.suspended (SavedFrame.save pc m.cells x.site.slots m.maker))).Safe reg := by
    refine hr.store.setStatus ?_
    rintro r' f hr' ⟨⟩
    rw [hr.render] at hr'
    cases hr'
    exact save_safe hi hx (hfits.extent x hx).1 hr.cells
  have hlater := setStatus_later m.store id
    (.suspended (SavedFrame.save pc m.cells x.site.slots m.maker))
  unfold suspend
  simp only [hi, hx]
  cases hflush : (m.store.setStatus id
      (.suspended (SavedFrame.save pc m.cells x.site.slots m.maker))).flush r.sink with
  | mk result s =>
    have hs : s = ((m.store.setStatus id
        (.suspended (SavedFrame.save pc m.cells x.site.slots m.maker))).flush r.sink).2 := by
      rw [hflush]
    have hsafe : s.Safe reg := by
      rw [hs]
      exact hsaved.of_heap rfl (.refl _)
    have hl : m.store.Later id s := by
      rw [hs]
      exact hlater.trans (.of_heap rfl (.refl _))
    have hdue : outcome.Due s := by
      rw [hs]
      exact ho
    cases result with
    | error e => exact (failRender_ran hsafe r _).trans hl
    | ok u =>
      simp only
      split
      · exact ⟨hsafe.of_heap rfl (.refl _), hl.trans (.of_heap rfl (.refl _)), hdue⟩
      · exact ⟨hsafe, hl, hdue⟩

theorem interrupt_ran {i : Instr} {m₀ : Machine} {e : Interrupt} (hi : r.program.code[pc]? = some i)
    (hfits : i.Fits r.program.size r.program.code.size r.program.types pc)
    (h : Machine.Halts reg id r pc i m₀ e m) :
    Ran reg id m₀.store (interrupt context id r pc m e) := by
  cases e with
  | failed cause => exact (failRender_ran h.1 r cause).trans (h.2.weaken (Nat.le_succ id))
  | waiting f =>
    exact (suspend_ran h.2.1.safe hi hfits h.1 (.waiting f) h.2.2).trans
      (h.2.1.later.weaken (Nat.le_succ id))
  | limited =>
    exact (suspend_ran h.2.safe hi hfits h.1 .limited trivial).trans
      (h.2.later.weaken (Nat.le_succ id))
  | exhausted => exact ⟨h.1, h.2.weaken (Nat.le_succ id), trivial⟩
  | broken => exact h.elim

/-- Setting up an instruction clears its cells, of which nothing is known. -/
theorem setUp_safe {i : Instr} (h : m.Safe reg id r (r.program.types pc))
    (hfits : i.Fits r.program.size r.program.code.size r.program.types pc) :
    (m.setUp i).Safe reg id r (r.program.types pc) where
  store := h.store.of_heap rfl ⟨rfl, fun h => h, rfl, fun _ t ht => ⟨t, ht, .refl t⟩⟩
  render := h.render
  cells := by
    change (i.clearScratch m.cells).Fits _ _ _ _ _
    unfold Instr.clearScratch
    split
    · next x hx => exact h.cells.clear (hfits.extent x hx).1.scratch
    · exact h.cells

/-- Where a suspended render goes on, its cells are as they were. -/
theorem enter_safe (context : Context) {s : Store} (hs : s.Safe reg) (hv : r.program.Valid)
    (hr : s.renders[id]? = some r) {f : SavedFrame} (hf : r.status = .suspended f) :
    (enter context r (s.setStatus id .ready)).1 = f.state ∧
      (enter context r (s.setStatus id .ready)).2.Safe reg id r (r.program.types f.state) ∧
      (s.setStatus id .ready).Later id (enter context r (s.setStatus id .ready)).2.store := by
  have hframe := hs.frames id r f hr hf
  obtain ⟨i, x, hi, hx, hlength⟩ := hframe.saved
  obtain ⟨mark, hslots, -, hmark, hbound⟩ := ((hv.types.fits f.state i hi).extent x hx).1.site
  have hready : (s.setStatus id .ready).Safe reg := hs.setStatus (fun _ _ _ hf => nomatch hf)
  have hrender : (s.setStatus id .ready).renders[id]? = some { r with status := .ready } := by
    rw [setStatus_get, if_pos rfl, hr]
    rfl
  have hcells : (f.restore (Cells.cleared r.program.size) x.site.slots).Fits r.program.size id
      s.renders.size s.heap.thunks.size (r.program.types f.state) := by
    have hmark' : mark = f.cells.length := by rw [hlength, hslots, List.length_range]
    subst hmark'
    rw [hslots]
    have hread (j : Nat) :=
      f.read_restore (Cells.cleared r.program.size) (by rw [Cells.size_cleared]; exact hmark) j
    refine ⟨(f.size_restore ..).trans (Cells.size_cleared _), fun j => ?_, fun j => ?_⟩
    · rw [hread]
      cases hc : f.cells[j]? with
      | some c => exact hframe.shape j c hc
      | none =>
        have hfree : r.program.types f.state j = .free := by
          cases hs : r.program.types f.state j with
          | free => rfl
          | _ =>
            have := hbound j (by rw [hs]; simp)
            rw [List.getElem?_eq_none_iff] at hc
            omega
        rw [hfree]
        trivial
    · rw [hread]
      cases hc : f.cells[j]? with
      | some c => exact hframe.refers c (List.mem_of_getElem? hc)
      | none =>
        rw [Cells.read_cleared]
        trivial
  rw [← setStatus_size s id .ready] at hcells
  unfold enter
  simp only [hf, hi, hx, Option.map_some, Option.getD_some]
  split
  · exact ⟨trivial, ⟨hready.of_heap rfl (.refl _), hrender, hcells⟩, .of_heap rfl (.refl _)⟩
  · exact ⟨trivial, ⟨hready, hrender, hcells⟩, .refl _ _⟩

/-- Runs keep stores safe, for any number of steps. -/
theorem runs_safe (hreg : ∀ p ∈ reg.programs, p.Valid) (context : Context) (fuel : Nat) :
    Invokes reg (invoke reg context fuel) ∧
      ∀ (id : RenderId) (r : Render) (pc : Nat) (resumed : Bool) (m : Machine),
    r.program ∈ reg.programs → m.Safe reg id r (r.program.types pc) →
    Ran reg id m.store (steps reg context fuel id r pc resumed m) := by
  induction fuel with
  | zero =>
    refine ⟨fun id s hs _ => ⟨hs, .refl _ _, trivial⟩, fun id r pc resumed m _ hm => ?_⟩
    exact ⟨hm.store, .refl _ _, trivial⟩
  | succ fuel ih =>
    obtain ⟨hinv, hsteps⟩ := ih
    refine ⟨fun id s hs hid => ?_, fun id r pc resumed m hp hm => ?_⟩
    · obtain ⟨r, hr⟩ : ∃ r, s.renders[id]? = some r := ⟨_, Array.getElem?_eq_getElem hid⟩
      have hp := hs.programs id r hr
      suffices h : Ran reg id s (invoke reg context (fuel + 1) id s) from ⟨h.safe, h.later, h.due⟩
      unfold invoke
      simp only [hr]
      cases hstatus : r.status with
      | done => exact ⟨hs, .refl _ _, trivial⟩
      | failed e => exact ⟨hs, .refl _ _, trivial⟩
      | abandoned => exact ⟨hs, .refl _ _, trivial⟩
      | ready =>
        have hm : Machine.Safe reg id r (r.program.types 0) { cells := Cells.cleared r.program.size,
                                                              store := s } :=
          ⟨hs, by rw [hr, ← hstatus], .cleared (hreg _ hp).types.start⟩
        have henter : enter context r s =
            (0, { cells := Cells.cleared r.program.size, store := s }) := by
          unfold enter
          rw [hstatus]
        rw [henter]
        exact hsteps id r 0 false _ hp hm
      | suspended f =>
        obtain ⟨hpc, hm, hl⟩ := enter_safe context hs (hreg _ hp) hr hstatus
        rw [← hpc] at hm
        have hm' : Machine.Safe reg id { r with status := .ready } _ _ :=
          ⟨hm.store, hm.render, hm.cells⟩
        exact (hsteps id { r with status := .ready } _ true _ hp hm').trans
          ((setStatus_later s id .ready).trans hl)
    · unfold steps
      cases hi : r.program.code[pc]? with
      | none => exact ⟨hm.store.setStatus (fun _ _ _ hf => nomatch hf), setStatus_later .., trivial⟩
      | some i =>
        simp only
        have hfits := (hreg _ hp).types.fits pc i hi
        have hup : (if resumed then m else m.setUp i).Safe reg id r (r.program.types pc) := by
          split
          · exact hm
          · exact setUp_safe hm hfits
        have hl : m.store.Later id (if resumed then m else m.setUp i).store := by
          split
          · exact .refl _ _
          · exact ⟨fun _ _ => rfl, Nat.le_refl _, rfl, fun h => h, Nat.le_refl _⟩
        generalize (if resumed then m else m.setUp i) = m₁ at hup hl
        have hrun := Exec.instr_meets context hinv ⟨hfits, hup⟩
        unfold Exec.Meets at hrun
        cases hres : Exec.instr (invoke reg context fuel) pc i ⟨r, reg, context⟩ m₁ with
        | ok next m₂ =>
          rw [hres] at hrun
          exact ((hsteps id r next false m₂ hp hrun.2.safe).trans
            (hrun.2.later.weaken (Nat.le_succ id))).trans hl
        | error e m₂ =>
          rw [hres] at hrun
          exact (interrupt_ran hi hfits hrun).trans hl

/-! ## Renders that have come to their end -/

end Store

/-- Whether a render is at its end, well or not. -/
def Outcome.isFinal : Outcome → Bool
  | done => true
  | failed _ => true
  | _ => false

namespace Store

variable {reg : Registry} {context : Context} {id : RenderId} {r : Render} {pc : Nat} {m : Machine}

/-- If a call has ended for good, the render tells so whenever it is called again. -/
def Stays (reg : Registry) (context : Context) (id : RenderId) (result : Outcome × Store) : Prop :=
  result.1.isFinal = true → ∃ r, result.2.renders[id]? = some r ∧
    ∀ s : Store, s.renders[id]? = some r → ∀ n, s.invoke reg context (n + 1) id = (result.1, s)

theorem setStatus_stays {s : Store} (hid : id < s.renders.size) {status : Status} {o : Outcome}
    (h : ∀ r s', r.status = status → s'.renders[id]? = some r →
      ∀ n, invoke reg context (n + 1) id s' = (o, s')) :
    Stays reg context id (o, s.setStatus id status) := by
  intro _
  have hr : (s.setStatus id status).renders[id]? = some { s.renders[id] with status } := by
    rw [setStatus_get, if_pos rfl, Array.getElem?_eq_getElem hid]
    rfl
  exact ⟨_, hr, fun s' hs' => h _ s' rfl hs'⟩

theorem failRender_stays {s : Store} (hid : id < s.renders.size) (r : Render) (cause : Failure) :
    Stays reg context id (s.failRender id r cause) :=
  setStatus_stays hid fun r s' hs hr n => by
    unfold invoke
    simp only [hr, hs]

theorem suspend_stays (hid : id < m.store.renders.size) {o : Outcome} (ho : o.isFinal = false) :
    Stays reg context id (suspend context id r pc m o) := by
  have hgoes (s : Store) : Stays reg context id (o, s) := fun h => by
    rw [ho] at h
    cases h
  unfold suspend
  split
  · exact fun h => nomatch h
  · split
    · exact failRender_stays hid r _
    · simp only
      split
      · next hflush =>
        have hs := congrArg (·.2.renders.size) hflush
        refine failRender_stays ?_ r _
        rw [← hs]
        exact (setStatus_size ..).symm ▸ hid
      · split <;> exact hgoes _

theorem steps_stay (hreg : ∀ p ∈ reg.programs, p.Valid) (context : Context) (fuel : Nat)
    (hp : r.program ∈ reg.programs) (resumed : Bool) (hm : m.Safe reg id r (r.program.types pc)) :
    Stays reg context id (steps reg context fuel id r pc resumed m) := by
  have hin {m : Machine} {g : Shapes} (hm : m.Safe reg id r g) : id < m.store.renders.size := by
    have := hm.render
    exact (Array.getElem?_eq_some_iff.1 this).1
  induction fuel generalizing pc resumed m with
  | zero => exact fun h => nomatch h
  | succ fuel ih =>
    unfold steps
    cases hi : r.program.code[pc]? with
    | none =>
      refine setStatus_stays (hin hm) fun r s' hs hr n => ?_
      unfold invoke
      simp only [hr, hs]
    | some i =>
      simp only
      have hfits := (hreg _ hp).types.fits pc i hi
      have hup : (if resumed then m else m.setUp i).Safe reg id r (r.program.types pc) := by
        split
        · exact hm
        · exact setUp_safe hm hfits
      generalize (if resumed then m else m.setUp i) = m₁ at hup
      have hrun := Exec.instr_meets context (runs_safe hreg context fuel).1 ⟨hfits, hup⟩
      unfold Exec.Meets at hrun
      cases hres : Exec.instr (invoke reg context fuel) pc i ⟨r, reg, context⟩ m₁ with
      | ok next m₂ =>
        rw [hres] at hrun
        exact ih false hrun.2.safe
      | error e m₂ =>
        rw [hres] at hrun
        cases e with
        | failed cause => exact failRender_stays (Nat.lt_of_lt_of_le (hin hup) hrun.2.size) r cause
        | waiting f => exact suspend_stays (hin hrun.2.1.safe) rfl
        | limited => exact suspend_stays (hin hrun.2.safe) rfl
        | exhausted => exact fun h => nomatch h
        | broken => exact hrun.elim

/-- A render that has come to its end stays there. -/
theorem invoke_stays (hreg : ∀ p ∈ reg.programs, p.Valid) (context : Context) (fuel : Nat)
    {s : Store} (hs : s.Safe reg) (hid : id < s.renders.size) :
    Stays reg context id (s.invoke reg context fuel id) := by
  cases fuel with
  | zero => exact fun h => nomatch h
  | succ fuel =>
    obtain ⟨r, hr⟩ : ∃ r, s.renders[id]? = some r := ⟨_, Array.getElem?_eq_getElem hid⟩
    have hp := hs.programs id r hr
    unfold invoke
    simp only [hr]
    cases hstatus : r.status with
    | done | failed | abandoned =>
      refine fun _ => ⟨r, hr, fun s' hs' n => ?_⟩
      unfold invoke
      simp only [hs', hstatus]
    | ready =>
      have hm : Machine.Safe reg id r (r.program.types 0) { cells := Cells.cleared r.program.size,
                                                            store := s } :=
        ⟨hs, by rw [hr, ← hstatus], .cleared (hreg _ hp).types.start⟩
      have henter : enter context r s =
          (0, { cells := Cells.cleared r.program.size, store := s }) := by
        unfold enter
        rw [hstatus]
      rw [henter]
      exact steps_stay hreg context fuel hp false hm
    | suspended f =>
      obtain ⟨hpc, hm, _⟩ := enter_safe context hs (hreg _ hp) hr hstatus
      rw [← hpc] at hm
      have hm' : Machine.Safe reg id { r with status := .ready } _ _ :=
        ⟨hm.store, hm.render, hm.cells⟩
      exact steps_stay (r := { r with status := .ready }) hreg context fuel hp true hm'

end Store

end Interlude
