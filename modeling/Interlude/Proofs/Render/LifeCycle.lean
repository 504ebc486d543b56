import Mathlib.Logic.Relation
import Interlude.Proofs.Render.Order
import Interlude.Proofs.Render.Reachable
/-!
# The life of a render

A render is ready, suspended with a frame, or at its end: done, failed or given up. A call leaves it
with the status that its outcome tells; at its end it answers every call in the same way and changes
nothing more. Giving up a render reaches all renders that it has called, through the frames in which
the calls are kept, and touches nothing but their status. A render that was driven is at its end,
whatever the reason was. All of this is `Store.Reachable.life_cycle`.
-/

namespace Interlude

/-- What a render that has come to its end answers to every call. -/
def Render.verdict? (r : Render) : Option Outcome :=
  match r.status with
  | .done => some .done
  | .failed e => some (.failed e)
  | .abandoned => some (.failed (Failure.abandoned r.program.name))
  | _ => none

namespace Store

variable {reg : Registry} {context : Context} {s t u : Store} {id : RenderId} {r : Render}
  {o : Outcome}

/-- A render at its end gives its answer and leaves everything as it is. -/
theorem invoke_of_verdict (hr : s.renders[id]? = some r) (hv : r.verdict? = some o) (n : Nat) :
    s.invoke reg context (n + 1) id = (o, s) := by
  unfold invoke
  unfold Render.verdict? at hv
  cases hstatus : r.status with
  | done | failed | abandoned =>
    rw [hstatus] at hv
    cases hv
    simp only [hr, hstatus]
  | ready | suspended =>
    rw [hstatus] at hv
    cases hv

/-! ## Ends last -/

/-- Renders that have come to their end are as they were. -/
def KeepsEnds (s t : Store) : Prop :=
  ∀ (j : RenderId) (r : Render), s.renders[j]? = some r → r.verdict?.isSome = true →
    t.renders[j]? = some r

/-- The same for all renders but one, which is running. -/
def KeepsOtherEnds (id : RenderId) (s t : Store) : Prop :=
  ∀ (j : RenderId) (r : Render), j ≠ id → s.renders[j]? = some r → r.verdict?.isSome = true →
    t.renders[j]? = some r

theorem KeepsEnds.of_renders (h : t.renders = s.renders) : s.KeepsEnds t :=
    fun j r hr _ => by rw [h]; exact hr

theorem keepsEnds_order : Order KeepsEnds where
  refl _ := .of_renders rfl
  trans h h' j r hr hv := h' j r (h j r hr hv) hv
  heap _ _ := .of_renders rfl
  append _ _ _ := .of_renders rfl
  isLimited _ _ := .of_renders rfl
  flush _ _ := .of_renders rfl
  wrap _ _ _ := .of_renders rfl
  close _ _ := .of_renders rfl
  newBuffer _ := .of_renders rfl
  logged _ _ := .of_renders rfl
  push s r j r' hr _ := by
    have hlt : j < s.renders.size := (Array.getElem?_eq_some_iff.1 hr).1
    simp only [Array.getElem?_push, if_neg (Nat.ne_of_lt hlt)]
    exact hr

theorem keepsEnds_runOrder : RunOrder KeepsEnds KeepsOtherEnds where
  order := keepsEnds_order
  trans h h' j r hj hr hv := h' j r hj (h j r hj hr hv) hv
  own h j r _ := h j r
  status id s status j r hj hr _ := by rw [setStatus_get, if_neg (Ne.symm hj)]; exact hr
  called {id s t r} hr hrun hkeeps j r' hr' hv := by
    by_cases hj : j = id
    · -- the render that was called was not at its end
      subst hj
      rw [hr] at hr'
      cases hr'
      rcases hrun with hrun | ⟨f, hrun⟩ <;> simp [Render.verdict?, hrun] at hv
    · exact hkeeps j r' hj hr' hv

/-- What may become of a store: renders are started, called and given up, futures are settled, and
anything may happen to the outlet. -/
inductive Onward (reg : Registry) (context : Context) (s : Store) : Store → Prop where
  | refl : Onward reg context s s
  | start {t : Store} (name : String) (params injected : List (String × Datum)) :
      Onward reg context s t →
      Onward reg context s (reg.start context name params injected .root t).2
  | invoke {t : Store} (fuel : Nat) (id : RenderId) :
      Onward reg context s t → Onward reg context s (t.invoke reg context fuel id).2
  | settle {t : Store} (f : FutureId) (state : Future) : Onward reg context s t →
      Onward reg context s
      { t with heap := { t.heap with futures := (t.heap.futures.settle f state).2 } }
  | outlet {t : Store} (outlet : Outlet) : Onward reg context s t →
      Onward reg context s { t with streams := { t.streams with outlet } }
  | abandon {t : Store} (id : RenderId) : Onward reg context s t →
    Onward reg context s (t.abandon id)

/-! ## Giving up -/

/-- A suspended render has a call of another in its frame. -/
def Calls (s : Store) (id callee : RenderId) : Prop :=
  ∃ r f, s.renders[id]? = some r ∧ r.status = .suspended f ∧ callee ∈ callees f

/-- A render, or one that it has called, at any depth. -/
def Under (s : Store) : RenderId → RenderId → Prop := Relation.ReflTransGen s.Calls

/-- Calls go to younger renders. -/
def CallsYounger (s : Store) : Prop := ∀ {id callee : Nat}, s.Calls id callee → id < callee ∧
    callee < s.renders.size

theorem Safe.callsYounger (h : s.Safe reg) : s.CallsYounger := by
  rintro id callee ⟨r, f, hr, hf, hcallee⟩
  obtain ⟨c, hc, hcell⟩ := List.mem_filterMap.1 hcallee
  have hrefers := (h.frames id r f hr hf).refers c hc
  cases c with
  | call st =>
    cases hcell
    exact hrefers
  | _ => cases hcell

/-- The renders that `who` tells are given up, unless they are finished; nothing else has
changed. -/
structure GivesUp (s : Store) (who : RenderId → Prop) (t : Store) : Prop where
  heap : t.heap = s.heap
  streams : t.streams = s.streams
  log : t.log = s.log
  size : t.renders.size = s.renders.size
  given : ∀ (j : RenderId) (r : Render), who j → s.renders[j]? = some r → r.status.isFinal = false →
    t.renders[j]? = some { r with status := .abandoned }
  finished : ∀ (j : RenderId) (r : Render), s.renders[j]? = some r → r.status.isFinal = true →
    t.renders[j]? = some r
  rest : ∀ j, ¬who j → t.renders[j]? = s.renders[j]?

namespace GivesUp

variable {who who' : RenderId → Prop}

theorem refl (s : Store)
    (h : ∀ (j : RenderId) (r : Render), who j → s.renders[j]? = some r → r.status.isFinal = true) :
    s.GivesUp who s where
  heap := rfl
  streams := rfl
  log := rfl
  size := rfl
  given j r hj hr hf := by
    rw [h j r hj hr] at hf
    cases hf
  finished _ _ hr _ := hr
  rest _ _ := rfl

theorem trans (h : s.GivesUp who t) (h' : t.GivesUp who' u) :
    s.GivesUp (fun j => who j ∨ who' j) u where
  heap := h'.heap.trans h.heap
  streams := h'.streams.trans h.streams
  log := h'.log.trans h.log
  size := h'.size.trans h.size
  given j r hj hr hf := by
    by_cases hw : who j
    · have ht := h.given j r hw hr hf
      by_cases hw' : who' j
      · exact h'.given j { r with status := .abandoned } hw' ht rfl
      · rw [h'.rest j hw']
        exact ht
    · have ht : t.renders[j]? = some r := by rw [h.rest j hw]; exact hr
      exact h'.given j r (hj.resolve_left hw) ht hf
  finished j r hr hf := h'.finished j r (h.finished j r hr hf) hf
  rest j hj := (h'.rest j fun hw => hj (.inr hw)).trans (h.rest j fun hw => hj (.inl hw))

theorem congr (h : s.GivesUp who t) (hw : ∀ j, who' j ↔ who j) : s.GivesUp who' t :=
  { h with
    given := fun j r hj => h.given j r ((hw j).1 hj)
    rest := fun j hj => h.rest j fun h' => hj ((hw j).2 h') }

/-- Who was given up calls nobody any more. -/
theorem calls (h : s.GivesUp who t) {id callee : RenderId} (hc : t.Calls id callee) :
    s.Calls id callee ∧ ¬who id := by
  obtain ⟨r, f, hr, hf, hcallee⟩ := hc
  have hnot : ¬who id := fun hw => by
    have hlt : id < s.renders.size := by rw [← h.size]; exact (Array.getElem?_eq_some_iff.1 hr).1
    have hs := Array.getElem?_eq_getElem hlt
    cases hfinal : (s.renders[id]).status.isFinal with
    | false =>
      rw [h.given id _ hw hs hfinal] at hr
      cases hr
      cases hf
    | true =>
      rw [h.finished id _ hs hfinal] at hr
      cases hr
      rw [hf] at hfinal
      cases hfinal
  exact ⟨⟨r, f, by rw [← h.rest id hnot]; exact hr, hf, hcallee⟩, hnot⟩

theorem callsYounger (h : s.GivesUp who t) (hs : s.CallsYounger) : t.CallsYounger := fun hc => by
  rw [h.size]
  exact hs (h.calls hc).1

/-- Once a render and all under it were given up, the others still have under them who they had,
apart from those. -/
theorem under_iff {first : RenderId} (h : s.GivesUp (s.Under first) t) {id j : RenderId} :
    s.Under first j ∨ t.Under id j ↔ s.Under first j ∨ s.Under id j := by
  constructor
  · rintro (hj | hj)
    · exact .inl hj
    · exact .inr (Relation.ReflTransGen.mono (fun _ _ hc => (h.calls hc).1) _ _ hj)
  · rintro (hj | hj)
    · exact .inl hj
    · induction hj with
      | refl => exact .inr .refl
      | @tail k j _ hc ih =>
        by_cases hk : s.Under first k
        · exact .inl (hk.tail hc)
        · have hcalls : t.Calls k j := by
            obtain ⟨r, f, hr, hf, hcallee⟩ := hc
            exact ⟨r, f, by rw [h.rest k hk]; exact hr, hf, hcallee⟩
          exact .inr ((ih.resolve_left hk).tail hcalls)

end GivesUp

/-- Giving up several renders, one after the other. -/
theorem abandonAll_givesUp {fuel : Nat}
    (ih : ∀ (s : Store) (id : RenderId), s.CallsYounger → s.renders.size - id ≤ fuel →
      s.GivesUp (s.Under id) (abandonFrom fuel s id)) (ids : List RenderId) :
    ∀ s : Store, s.CallsYounger → (∀ id ∈ ids, s.renders.size - id ≤ fuel) →
      s.GivesUp (fun j => ∃ id ∈ ids, s.Under id j) (ids.foldl (abandonFrom fuel) s) := by
  induction ids with
  | nil => exact fun s _ _ => .refl s fun j r hj => by simp at hj
  | cons id rest ihrest =>
    intro s hs hids
    have hfirst := ih s id hs (hids id List.mem_cons_self)
    have hrest := ihrest (abandonFrom fuel s id) (hfirst.callsYounger hs)
      (fun j hj => by rw [hfirst.size]; exact hids j (List.mem_cons_of_mem _ hj))
    refine (hfirst.trans hrest).congr fun j => ?_
    simp only [List.exists_mem_cons_iff]
    constructor
    · rintro (hj | ⟨k, hk, hj⟩)
      · exact .inl hj
      · exact (hfirst.under_iff.2 (.inr hj)).imp_right fun hj => ⟨k, hk, hj⟩
    · rintro (hj | ⟨k, hk, hj⟩)
      · exact .inl hj
      · exact (hfirst.under_iff.1 (.inr hj)).imp_right fun hj => ⟨k, hk, hj⟩

theorem setStatus_givesUp (hr : s.renders[id]? = some r) (hf : r.status.isFinal = false) :
    s.GivesUp (· = id) (s.setStatus id .abandoned) where
  heap := rfl
  streams := rfl
  log := rfl
  size := setStatus_size ..
  given j r' hj hr' _ := by
    subst hj
    rw [setStatus_get, if_pos rfl, hr']
    rfl
  finished j r' hr' hf' := by
    have hj : id ≠ j := by
      rintro rfl
      rw [hr] at hr'
      cases hr'
      rw [hf] at hf'
      cases hf'
    rw [setStatus_get, if_neg hj]
    exact hr'
  rest j hj := by rw [setStatus_get, if_neg (Ne.symm hj)]

/-- A render that is not there, or not suspended, has nobody under it but itself. -/
theorem under_of_no_frame (h : ∀ r, s.renders[id]? = some r → r.status.frame? = none)
    {j : RenderId} :
    s.Under id j ↔ j = id := by
  constructor
  · intro hj
    rcases Relation.ReflTransGen.cases_head hj with rfl | ⟨k, ⟨r, f, hr, hf, _⟩, _⟩
    · rfl
    · have hnone := h r hr
      rw [hf] at hnone
      cases hnone
  · rintro rfl
    exact .refl

theorem under_of_frame (hr : s.renders[id]? = some r) {f : SavedFrame}
    (hf : r.status = .suspended f) {j : RenderId} :
    s.Under id j ↔ (∃ c ∈ callees f, s.Under c j) ∨ j = id := by
  constructor
  · intro hj
    rcases Relation.ReflTransGen.cases_head hj with rfl | ⟨c, ⟨r', f', hr', hf', hc⟩, hj⟩
    · exact .inr rfl
    · rw [hr] at hr'
      cases hr'
      rw [hf] at hf'
      cases hf'
      exact .inl ⟨c, hc, hj⟩
  · rintro (⟨c, hc, hj⟩ | rfl)
    · exact hj.head ⟨r, f, hr, hf, hc⟩
    · exact .refl

/-- Giving up a render gives up all that it has called, if the depth allowed is enough. -/
theorem abandonFrom_givesUp (fuel : Nat) : ∀ (s : Store) (id : RenderId), s.CallsYounger →
    s.renders.size - id ≤ fuel → s.GivesUp (s.Under id) (abandonFrom fuel s id) := by
  induction fuel with
  | zero =>
    intro s id _ hfuel
    have hnone : s.renders[id]? = none :=
      Array.getElem?_eq_none (Nat.le_of_sub_eq_zero (Nat.le_zero.1 hfuel))
    refine .refl s fun j r hj hr => ?_
    rw [(under_of_no_frame fun r hr => by rw [hnone] at hr; cases hr).1 hj, hnone] at hr
    cases hr
  | succ fuel ih =>
    intro s id hs hfuel
    unfold abandonFrom
    cases hr : s.renders[id]? with
    | none =>
      refine .refl s fun j r hj hr' => ?_
      rw [(under_of_no_frame fun r hr' => by rw [hr] at hr'; cases hr').1 hj, hr] at hr'
      cases hr'
    | some r =>
      simp only
      cases hfinal : r.status.isFinal with
      | true =>
        have hframe : ∀ r', s.renders[id]? = some r' → r'.status.frame? = none := fun r' hr' => by
          rw [hr] at hr'
          cases hr'
          cases hstatus : r.status with
          | suspended f => rw [hstatus] at hfinal; cases hfinal
          | _ => rfl
        rw [if_pos rfl]
        refine .refl s fun j r' hj hr' => ?_
        rw [(under_of_no_frame hframe).1 hj, hr] at hr'
        cases hr'
        exact hfinal
      | false =>
        rw [if_neg (by simp)]
        -- the callees of a frame are younger, so one level less is enough for them
        have hbelow := abandonAll_givesUp ih ((r.status.frame?.map callees).getD [])
            s hs fun c hc => by
          cases hstatus : r.status with
          | suspended f =>
            rw [hstatus] at hc
            obtain ⟨hlt, _⟩ := hs ⟨r, f, hr, hstatus, hc⟩
            omega
          | _ => rw [hstatus] at hc; cases hc
        have hsome : ∃ r', (((r.status.frame?.map callees).getD []).foldl (abandonFrom fuel)
            s).renders[id]? = some r' ∧ r'.status.isFinal = false := by
          by_cases hwho : ∃ c ∈ (r.status.frame?.map callees).getD [], s.Under c id
          · exact ⟨_, hbelow.given id r hwho hr hfinal, rfl⟩
          · exact ⟨r, by rw [hbelow.rest id hwho]; exact hr, hfinal⟩
        obtain ⟨r', hr', hf'⟩ := hsome
        refine (hbelow.trans (setStatus_givesUp hr' hf')).congr fun j => ?_
        cases hstatus : r.status with
        | suspended f => exact under_of_frame hr hstatus
        | _ =>
          rw [under_of_no_frame fun r' hr' => by rw [hr] at hr'; cases hr'; rw [hstatus]; rfl]
          simp [Status.frame?]

theorem abandon_givesUp (hs : s.CallsYounger) (id : RenderId) :
    s.GivesUp (s.Under id) (s.abandon id) :=
  abandonFrom_givesUp _ s id hs (Nat.sub_le ..)

/-- A finished render cannot be given up. -/
theorem abandon_of_final (hr : s.renders[id]? = some r) (hf : r.status.isFinal = true) :
    s.abandon id = s := by
  have hlt : id < s.renders.size := (Array.getElem?_eq_some_iff.1 hr).1
  obtain ⟨n, hn⟩ := Nat.exists_eq_succ_of_ne_zero
    (Nat.ne_of_gt (Nat.lt_of_le_of_lt (Nat.zero_le id) hlt))
  unfold abandon
  rw [hn]
  unfold abandonFrom
  simp [hr, hf]

/-- Whoever is at its end when a render is given up stays as it is. -/
theorem abandonFrom_keepsEnds (fuel : Nat) : ∀ (s : Store) (id : RenderId),
    s.KeepsEnds (abandonFrom fuel s id) := by
  induction fuel with
  | zero => exact fun s _ => .of_renders rfl
  | succ fuel ih =>
    have hall (ids : List RenderId) : ∀ s : Store,
        s.KeepsEnds (ids.foldl (abandonFrom fuel) s) := by
      induction ids with
      | nil => exact fun s => .of_renders rfl
      | cons j rest ihrest => exact fun s => keepsEnds_order.trans (ih s j) (ihrest _)
    intro s id
    unfold abandonFrom
    split
    · exact .of_renders rfl
    · next r hr =>
      split
      · exact .of_renders rfl
      · next hfinal =>
        intro j r' hr' hv
        have hkept := hall ((r.status.frame?.map callees).getD []) s j r' hr' hv
        rw [setStatus_get]
        split
        · next hj =>
          -- it is at its end and not finished, so it was given up before
          subst hj
          rw [hr] at hr'
          cases hr'
          rw [hkept, Option.map_some]
          cases hstatus : r.status <;> simp_all [Render.verdict?, Status.isFinal]
          rw [← hstatus]
        · exact hkept

theorem start_keepsEnds (reg : Registry) (context : Context) (name : String)
    (params injected : List (String × Datum)) (sink : Sink) (s : Store) :
    s.KeepsEnds (reg.start context name params injected sink s).2 := by
  unfold Registry.start
  simp only
  split
  · exact .of_renders rfl
  · next fresh _ =>
    exact keepsEnds_order.trans (keepsEnds_order.heap s { s.heap with fresh })
      (keepsEnds_order.start context _ _ _ sink _)

theorem Onward.keepsEnds (h : Onward reg context s t) : s.KeepsEnds t := by
  induction h with
  | refl => exact .of_renders rfl
  | start name params injected _ ih =>
    exact keepsEnds_order.trans ih (start_keepsEnds reg context name params injected .root _)
  | invoke fuel id _ ih =>
    exact keepsEnds_order.trans ih ((keepsEnds_runOrder.runs context reg fuel).1 id _)
  | settle f state _ ih => exact keepsEnds_order.trans ih (keepsEnds_order.heap _ _)
  | outlet outlet _ ih => exact keepsEnds_order.trans ih (.of_renders rfl)
  | abandon id _ ih => exact keepsEnds_order.trans ih (abandonFrom_keepsEnds _ _ id)

/-- A render at its end gives the same answer for ever, and no call of it changes anything. -/
theorem Onward.invoke_of_verdict (h : Onward reg context s t) (hr : s.renders[id]? = some r)
    (hv : r.verdict? = some o) (n : Nat) : t.invoke reg context (n + 1) id = (o, t) :=
  Store.invoke_of_verdict (h.keepsEnds id r hr (by rw [hv]; rfl)) hv n

/-! ## Calls -/

/-- A call has left its render with the status that its outcome tells: at its end with that outcome,
or with a frame if it can go on. -/
def Reports (id : RenderId) (result : Outcome × Store) : Prop :=
  ∃ r, result.2.renders[id]? = some r ∧ r.status.frame?.isSome = !result.1.isFinal ∧
    (result.1.isFinal = true → r.verdict? = some result.1)

variable {pc : Nat} {m : Machine}

theorem setStatus_reports {s₀ : Store} {status : Status} (hr : s₀.renders[id]? = some r)
    (hs : s.renders = (s₀.setStatus id status).renders)
    (hframe : status.frame?.isSome = !o.isFinal)
    (hverdict : o.isFinal = true → ({ r with status } : Render).verdict? = some o) :
    Reports id (o, s) := by
  refine ⟨{ r with status }, ?_, hframe, hverdict⟩
  simp only [hs]
  rw [setStatus_get, if_pos rfl, hr]
  rfl

theorem failRender_reports (hr : s.renders[id]? = some r) (r' : Render) (cause : Failure) :
    Reports id (s.failRender id r' cause) :=
  setStatus_reports hr rfl rfl fun _ => rfl

theorem suspend_reports {i : Instr} {r' : Render} (hr : m.store.renders[id]? = some r')
    (hi : r.program.code[pc]? = some i) (hext : i.extent.isSome = true) (ho : o.isFinal = false) :
    Reports id (suspend context id r pc m o) := by
  obtain ⟨x, hx⟩ := Option.isSome_iff_exists.1 hext
  have hframe (f : SavedFrame) : (Status.suspended f).frame?.isSome = !o.isFinal := by rw [ho]; rfl
  have hno (f : SavedFrame) : o.isFinal = true →
      ({ r' with status := .suspended f } : Render).verdict? = some o :=
    fun h => by rw [ho] at h; cases h
  unfold suspend
  simp only [hi, hx]
  split
  · next e s hflush =>
    have hs : s.renders =
        (m.store.setStatus id
            (.suspended (SavedFrame.save pc m.cells x.site.slots m.maker))).renders :=
      (congrArg (·.2.renders) hflush).symm
    have hget : ∃ q, s.renders[id]? = some q := by
      rw [hs, setStatus_get, if_pos rfl, hr]
      exact ⟨_, rfl⟩
    exact failRender_reports hget.choose_spec r _
  · next s hflush =>
    have hs : s.renders =
        (m.store.setStatus id
            (.suspended (SavedFrame.save pc m.cells x.site.slots m.maker))).renders :=
      (congrArg (·.2.renders) hflush).symm
    split <;> exact setStatus_reports hr hs (hframe _) (hno _)

theorem steps_report (hreg : ∀ p ∈ reg.programs, p.Valid) (context : Context) (fuel : Nat)
    (hp : r.program ∈ reg.programs) (resumed : Bool) (hm : m.Safe reg id r (r.program.types pc))
    (hend : (steps reg context fuel id r pc resumed m).1 ≠ .exhausted) :
    Reports id (steps reg context fuel id r pc resumed m) := by
  induction fuel generalizing pc resumed m with
  | zero => exact (hend rfl).elim
  | succ fuel ih =>
    unfold steps at hend ⊢
    cases hi : r.program.code[pc]? with
    | none => exact setStatus_reports hm.render rfl rfl fun _ => rfl
    | some i =>
      simp only [hi] at hend ⊢
      have hfits := (hreg _ hp).types.fits pc i hi
      have hup : (if resumed then m else m.setUp i).Safe reg id r (r.program.types pc) := by
        split
        · exact hm
        · exact setUp_safe hm hfits
      generalize (if resumed then m else m.setUp i) = m₁ at hup hend ⊢
      have hrun := Exec.instr_meets context (runs_safe hreg context fuel).1 ⟨hfits, hup⟩
      unfold Exec.Meets at hrun
      cases hres : Exec.instr (Store.invoke reg context fuel) pc i ⟨r, reg, context⟩ m₁ with
      | ok next m₂ =>
        rw [hres] at hrun hend
        exact ih false hrun.2.safe hend
      | error e m₂ =>
        rw [hres] at hrun hend
        cases e with
        | failed cause =>
          have hid : m₂.store.renders[id]? = m₁.store.renders[id]? :=
            hrun.2.below id (Nat.lt_succ_self id)
          rw [hup.render] at hid
          exact failRender_reports hid r cause
        | waiting f => exact suspend_reports hrun.2.1.safe.render hi hrun.1 rfl
        | limited => exact suspend_reports hrun.2.safe.render hi hrun.1 rfl
        | exhausted => exact (hend rfl).elim
        | broken => exact hrun.elim

/-- A call of a render leaves it with the status that its outcome tells. -/
theorem invoke_reports (hreg : ∀ p ∈ reg.programs, p.Valid) (context : Context) (fuel : Nat)
    (hs : s.Safe reg) (hr : s.renders[id]? = some r)
    (hend : (s.invoke reg context fuel id).1 ≠ .exhausted) :
    Reports id (s.invoke reg context fuel id) := by
  cases fuel with
  | zero => exact (hend rfl).elim
  | succ fuel =>
    have hp := hs.programs id r hr
    cases hv : r.verdict? with
    | some o =>
      rw [Store.invoke_of_verdict hr hv]
      refine ⟨r, hr, ?_, fun _ => hv⟩
      unfold Render.verdict? at hv
      split at hv <;> cases hv <;> simp_all [Status.frame?, Outcome.isFinal]
    | none =>
      unfold invoke at hend ⊢
      simp only [hr] at hend ⊢
      cases hstatus : r.status with
      | done | failed | abandoned => simp [Render.verdict?, hstatus] at hv
      | ready =>
        simp only [hstatus] at hend
        have hm : Machine.Safe reg id r (r.program.types 0) { cells := Cells.cleared r.program.size,
                                                              store := s } :=
          ⟨hs, by rw [hr, ← hstatus], .cleared (hreg _ hp).types.start⟩
        have henter : enter context r s =
            (0, { cells := Cells.cleared r.program.size, store := s }) := by
          unfold enter
          rw [hstatus]
        rw [henter] at hend ⊢
        exact steps_report hreg context fuel hp false hm hend
      | suspended f =>
        simp only [hstatus] at hend
        obtain ⟨hpc, hm, _⟩ := enter_safe context hs (hreg _ hp) hr hstatus
        rw [← hpc] at hm
        have hm' : Machine.Safe reg id { r with status := .ready } _ _ :=
          ⟨hm.store, hm.render, hm.cells⟩
        exact steps_report (r := { r with status := .ready }) hreg context fuel hp true hm' hend

/-! ## Driving -/

/-- A render is at its end. -/
def Ended (s : Store) (id : RenderId) : Prop := ∃ r, s.renders[id]? = some r ∧
    r.verdict?.isSome = true

/-- Who was asked to give up is at its end, if it was not before. -/
theorem abandon_ended (hs : s.Safe reg) (hr : s.renders[id]? = some r) :
    (s.abandon id).Ended id := by
  have hgives := abandon_givesUp hs.callsYounger id
  cases hfinal : r.status.isFinal with
  | true =>
    refine ⟨r, hgives.finished id r hr hfinal, ?_⟩
    unfold Render.verdict?
    cases hstatus : r.status with
    | done | failed | abandoned => rfl
    | ready | suspended => rw [hstatus] at hfinal; cases hfinal
  | false => exact ⟨_, hgives.given id r .refl hr hfinal, rfl⟩

/-- Between two calls a render either is brought to its end, or waits for the next call. -/
theorem between_ended (hs : s.Safe reg) (hreports : Reports id (o, s)) (hend : o ≠ .exhausted)
    (hbroken : o ≠ .broken) (host : Host) (round : Nat) :
    match s.between host round id o with
    | .error ending => ending.2.Ended id
    | .ok t => t.Safe reg ∧ t.renders = s.renders := by
  obtain ⟨r, hr, _, hverdict⟩ := hreports
  have hflush : (s.flush .root).2.Safe reg := hs.of_heap rfl (.refl _)
  have hasked : ((s.flush .root).2.isLimited .root).2.Safe reg := hflush.of_heap rfl (.refl _)
  unfold between
  cases o with
  | done =>
    simp only
    generalize hf : s.flush .root = flushed at *
    obtain ⟨result, t⟩ := flushed
    have ht : t.renders = s.renders := (congrArg (·.2.renders) hf).symm
    have hended : t.Ended id := ⟨r, by rw [ht]; exact hr, by rw [hverdict rfl]; rfl⟩
    cases result with
    | error e => exact hended
    | ok _ => exact hended
  | limited =>
    simp only
    generalize hf : s.flush .root = flushed at *
    obtain ⟨result, t⟩ := flushed
    have ht : t.renders = s.renders := (congrArg (·.2.renders) hf).symm
    cases result with
    | error e => exact abandon_ended hflush (by rw [ht]; exact hr)
    | ok _ =>
      simp only at hasked ⊢
      generalize ha : t.isLimited .root = asked at *
      obtain ⟨limited, u⟩ := asked
      have hu : u.renders = s.renders := (congrArg (·.2.renders) ha).symm.trans ht
      cases limited with
      | true => exact abandon_ended hasked (by rw [hu]; exact hr)
      | false => exact ⟨hasked, hu⟩
  | waiting f =>
    simp only
    cases host.waitable f with
    | false => exact abandon_ended hs hr
    | true =>
      simp only [if_true]
      cases host.wait round f s.heap.futures with
      | ok futures => exact ⟨⟨hs.programs, hs.frames, hs.heap⟩, rfl⟩
      | error e => exact abandon_ended hs hr
  | failed e => exact ⟨r, hr, by rw [hverdict rfl]; rfl⟩
  | exhausted => exact (hend rfl).elim
  | broken => exact (hbroken rfl).elim

/-- A render that was driven is at its end. -/
theorem driveFrom_ended (hreg : ∀ p ∈ reg.programs, p.Valid) (context : Context) (host : Host)
    (round fuel : Nat) (hs : s.Safe reg) (hr : s.renders[id]? = some r)
    (hend : (s.driveFrom reg context host round fuel id).1 ≠ .exhausted) :
    (s.driveFrom reg context host round fuel id).2.Ended id := by
  induction fuel generalizing round s r with
  | zero => exact (hend rfl).elim
  | succ fuel ih =>
    have hid : id < s.renders.size := (Array.getElem?_eq_some_iff.1 hr).1
    have hran := (runs_safe hreg context fuel).1 id s hs hid
    have hreports := invoke_reports hreg context fuel hs hr
    unfold driveFrom at hend ⊢
    generalize hinvoke : s.invoke reg context fuel id = called at hran hreports hend ⊢
    obtain ⟨o, t⟩ := called
    by_cases ho : o = .exhausted
    · subst ho
      exact (hend rfl).elim
    have hbroken : o ≠ .broken := fun hb => by
      subst hb
      exact hran.2.2
    have hnext := between_ended hran.1 (hreports ho) ho hbroken host round
    obtain ⟨r', hr', _⟩ := hreports ho
    simp only at hend ⊢
    generalize t.between host round id o = next at hnext hend ⊢
    cases next with
    | error ending => exact hnext
    | ok u =>
      have hu : u.renders[id]? = some r' := by rw [hnext.2]; exact hr'
      simp only at hend ⊢
      cases hended : host.ended round with
      | some e => exact abandon_ended hnext.1 hu
      | none =>
        rw [hended] at hend
        exact ih (round + 1) hnext.1 hu hend

end Store

/-- **The life of a render.** In every store that can come about, a call of a render that ends
leaves it with the status that its outcome tells, and with a frame exactly if it can go on; if it
cannot, every later call has the same outcome. Once it is at its end it answers every call in the
same way, whatever happens, and no call of it changes anything. It cannot be given up once it is
finished; before that, giving it up puts an end to it and to all unfinished renders under it, at any
depth, writes nothing, closes no stage and settles no future. A render that was driven is at its
end. -/
theorem Store.Reachable.life_cycle {analyzer : Analyzer} {templates : List Template}
    {reg : Registry} (hbuild : Registry.build analyzer templates = .ok reg)
    {context : Context} {s : Store} (hs : Store.Reachable reg context s) {id : RenderId}
    {r : Render} (hr : s.renders[id]? = some r) :
    (∀ fuel o s', s.invoke reg context fuel id = (o, s') → o ≠ .exhausted →
      Reports id (o, s') ∧
      (o.isFinal = true → ∀ t, Onward reg context s' t →
        ∀ n, t.invoke reg context (n + 1) id = (o, t))) ∧
    (∀ o, r.verdict? = some o → ∀ t, Onward reg context s t →
      ∀ n, t.invoke reg context (n + 1) id = (o, t)) ∧
    (r.status.isFinal = true → s.abandon id = s) ∧
    (r.status.isFinal = false → (s.abandon id).heap = s.heap ∧ (s.abandon id).streams = s.streams ∧
      (s.abandon id).log = s.log ∧ ∀ j r', s.Under id j → s.renders[j]? = some r' →
      r'.status.isFinal = false → ∀ t, Onward reg context (s.abandon id) t →
      ∀ n, t.invoke reg context (n + 1) j = (.failed (Failure.abandoned r'.program.name), t)) ∧
    ∀ host fuel, (s.drive reg context host fuel id).1 ≠ .exhausted →
    (s.drive reg context host fuel id).2.Ended id := by
  have hreg := Registry.build_valid hbuild
  have hsafe := hs.safe hreg
  refine ⟨fun fuel o s' hcall hend => ?_, fun o hv t ht => ht.invoke_of_verdict hr hv,
    abandon_of_final hr, fun _ => ?_,
    fun host fuel => driveFrom_ended hreg context host 0 fuel hsafe hr⟩
  · have hreports := invoke_reports hreg context fuel hsafe hr (by rw [hcall]; exact hend)
    rw [hcall] at hreports
    refine ⟨hreports, fun hfinal t ht => ?_⟩
    obtain ⟨r', hr', _, hverdict⟩ := hreports
    exact ht.invoke_of_verdict hr' (hverdict hfinal)
  · have hgives := abandon_givesUp hsafe.callsYounger id
    refine ⟨hgives.heap, hgives.streams, hgives.log, fun j r' hj hr' hfinal t ht => ?_⟩
    exact ht.invoke_of_verdict (hgives.given j r' hj hr' hfinal) rfl

namespace Sample

/-- A template that passes what it is given on to the greeting. -/
def letter : Template :=
  { name := "letter", kind := .text, source := "", delegate := none
    params := [{ name := "who", type := .any, required := true, injected := false,
                 default := none }]
    body := [.call "greeting" .template .all [] [], .text "!"] }

/-- The registry of the greeting and the letter. -/
def letters : Registry := (Registry.build .conservative [greeting, letter]).toOption.getD ⟨[]⟩

/-- A letter to someone who is not known yet. -/
def addressed : Store :=
  (letters.start {} "letter" [("who", .boxed (.future 0))] [] .root
    { heap := { futures := { states := #[.pending], reads := #[0] } },
      streams := { outlet := .collecting } }).2

/-- The letter was called once. -/
def posted : Store := (addressed.invoke letters {} 16 0).2

theorem letters_built : Registry.build .conservative [greeting, letter] = .ok letters :=
  Registry.build_getD (by decide +kernel)

theorem posted_reachable : Store.Reachable letters {} posted := by
  have hwaits : (addressed.invoke letters {} 16 0).1 = .waiting 0 := by decide +kernel
  exact .invoke 16 0 (.start "letter" _ _ (.init _ _ _)) (by rw [hwaits]; simp)

/-- The letter waits in its call of the greeting. -/
theorem posted_calls : posted.Calls 0 1 := by
  have hcallees : posted.renders[0]?.bind (fun r : Render => r.status.frame?.map Store.callees) =
    some [1] := by decide +kernel
  obtain ⟨r, hr, hframe⟩ := Option.bind_eq_some_iff.1 hcallees
  obtain ⟨f, hf, hcalls⟩ := Option.map_eq_some_iff.1 hframe
  refine ⟨r, f, hr, ?_, by rw [hcalls]; exact List.mem_singleton_self 1⟩
  cases hstatus : r.status with
  | suspended f' => rw [hstatus] at hf; cases hf; rfl
  | _ => rw [hstatus] at hf; cases hf

end Sample

/-- Giving up the letter puts an end to the greeting that it has called. -/
theorem Sample.letter_given_up :
    (posted.abandon 0).streams = posted.streams ∧
    (posted.abandon 0).invoke letters {} 1 1 =
    (.failed (Failure.abandoned "greeting"), posted.abandon 0) := by
  obtain ⟨r, f, hr, hf, _⟩ := posted_calls
  have hcallee : ∃ r', posted.renders[1]? = some r' ∧ r'.status.isFinal = false ∧
      r'.program.name = "greeting" := by
    have hmap : posted.renders[1]?.map (fun r' : Render => (r'.status.isFinal, r'.program.name)) =
        some (false, "greeting") := by
      decide +kernel
    obtain ⟨r', hr', hpair⟩ := Option.map_eq_some_iff.1 hmap
    exact ⟨r', hr', (Prod.mk.injEq .. ▸ hpair).1, (Prod.mk.injEq .. ▸ hpair).2⟩
  obtain ⟨r', hr', hfinal, hname⟩ := hcallee
  obtain ⟨_, _, _, hgiven, _⟩ := Store.Reachable.life_cycle letters_built posted_reachable hr
  obtain ⟨_, hstreams, _, hbelow⟩ := hgiven (by rw [hf]; rfl)
  have hends := hbelow 1 r' (.single posted_calls) hr' hfinal _ .refl 0
  rw [hname] at hends
  exact ⟨hstreams, hends⟩

end Interlude
