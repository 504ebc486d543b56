import Interlude.Proofs.Resume.Stand
/-!
# Whole runs side by side

By induction on the number of steps: what a call of a render comes to in the first run, the second
run comes to too (`runs_tell`). A call that is stopped leaves the first run where the second is in
the middle of the same work, and waits there too if the value is still pending; one that ran out of
steps has put out nothing that the second run does not put out.
-/

namespace Interlude

/-- A run that does not come to an end in fewer steps than the first run had, of which `depth` led
to where it stopped. -/
def Course.Late (fuel depth : Nat) (x : Course) : Prop := ∀ n, n + depth ≤ fuel →
    (x n).1 = .exhausted

/-- Before it does anything else, the second run waits for `p`, as the first does in the store
`s`. -/
def Course.Pauses (x : Course) (gs : Array Future) (made : Array Thunk) (p : FutureId)
    (s : Store) : Prop :=
  ∃ t, x.Awaits p t ∧ s.Twin made t ∧ t.heap.futures.states = gs

/-- What a call of the first run with `fuel` steps came to tells the course of the second. -/
def Course.Tells (reg : Registry) (context : Context) (gs : Array Future) (fuel depth : Nat)
    (id : RenderId) (x : Course) (result : Outcome × Store) : Prop :=
  result.2.heap.blurred = false →
    match result.1 with
    | .done => ∃ made t, x.Comes (.done, t) ∧ result.2.Twin made t ∧ t.heap.futures.states = gs
    | .failed e =>
      ∃ made t, x.Comes (.failed e, t) ∧ result.2.Twin made t ∧ t.heap.futures.states = gs
    | .waiting p => ∃ made depth y, Stands reg context gs made result.2 depth id y ∧ x.Leads y ∧
        (∀ fs : Futures, fs.states = gs → fs.get p = .pending → y.Pauses gs made p result.2)
    | .limited =>
      ∃ made depth y, Stands reg context gs made result.2 depth id y ∧ x.Leads y ∧
        ∀ p t, ¬ x.Awaits p t
    | .exhausted =>
      (∃ made t, result.2.Twin made t ∧ ∃ n, ∀ f, n ≤ f → t.Grows (x f).2) ∧
        (result.2.heap.futures.Endless ∧
          (result.2.heap.futures.states = gs → ∀ p t, ¬ x.Awaits p t) ∨ x.Late fuel depth)
    | .broken => True

namespace Course

variable {reg : Registry} {context : Context} {gs : Array Future} {fuel depth : Nat} {id : RenderId}
  {x y : Course}
  {result : Outcome × Store}

theorem Late.lead (h : x.Leads y) (hy : y.Late fuel depth) : x.Late fuel depth := by
  intro n hn
  refine Classical.byContradiction fun hne => hne ?_
  rw [← h.rest n hne]
  exact hy n hn

/-- What tells the rest of a run tells the run. -/
theorem Tells.lead {fuel' depth' : Nat} (h : x.Leads y)
    (hl : y.Late fuel depth → x.Late fuel' depth')
    (ht : y.Tells reg context gs fuel depth id result) :
    x.Tells reg context gs fuel' depth' id result := by
  intro hclear
  have ht := ht hclear
  cases hr : result.1 with
  | done =>
    rw [hr] at ht
    obtain ⟨made, t, hy, htwin⟩ := ht
    exact ⟨made, t, h.comes hy (by simp), htwin⟩
  | failed e =>
    rw [hr] at ht
    obtain ⟨made, t, hy, htwin⟩ := ht
    exact ⟨made, t, h.comes hy (by simp), htwin⟩
  | waiting p =>
    rw [hr] at ht
    obtain ⟨made, d, z, hz, hyz, hpause⟩ := ht
    exact ⟨made, d, z, hz, h.trans hyz, hpause⟩
  | limited =>
    rw [hr] at ht
    obtain ⟨made, d, z, hz, hyz, hgo⟩ := ht
    exact ⟨made, d, z, hz, h.trans hyz, fun p t hx => hgo p t (h.awaits hx)⟩
  | exhausted =>
    rw [hr] at ht
    obtain ⟨⟨made, t, htwin, hgrow⟩, hlate⟩ := ht
    refine ⟨⟨made, t, htwin, h.grows hgrow⟩, hlate.imp ?_ hl⟩
    exact fun ⟨hendless, hgo⟩ => ⟨hendless, fun hsame p t hx => hgo hsame p t (h.awaits hx)⟩
  | broken => trivial

/-- One more step on both sides. -/
theorem Tells.step (hx : ∀ f, x (f + 1) = y f) (hz : (x 0).1 = .exhausted) (hy : y.Steady)
    (ht : y.Tells reg context gs fuel 0 id result) :
    x.Tells reg context gs (fuel + 1) 0 id result := by
  refine ht.lead (.of_step hx hz hy) fun hl n hn => ?_
  cases n with
  | zero => exact hz
  | succ n =>
    rw [hx]
    exact hl n (Nat.le_of_succ_le_succ hn)

end Course

namespace Store

variable (reg : Registry) (context : Context) (gs : Array Future) (fuel : Nat)

/-- Calls with `fuel` steps tell the course of the second run. -/
def InvokesTell : Prop :=
    ∀ (s : Store) (depth : Nat) (id : RenderId) (x : Course) (made : Array Thunk), s.Safe reg →
    Stands reg context gs made s depth id x →
    x.Tells reg context gs fuel depth id (s.invoke reg context fuel id)

/-- So do the steps of renders. -/
def StepsTell : Prop :=
    ∀ (id : RenderId) (r : Render) (pc : Nat) (m k : Machine) (made : Array Thunk),
    r.program ∈ reg.programs → r.status = .ready → m.Safe reg id r (r.program.types pc) →
    m.Twin made r pc k → k.store.heap.futures.states = gs →
    Course.Tells reg context gs fuel 0 id (fun n => steps reg context n id r pc false k)
      (steps reg context fuel id r pc false m)

end Store

namespace Store

variable {reg : Registry} {context : Context} {gs : Array Future} {fuel : Nat} {id : RenderId}
  {r : Render} {pc : Nat}
  {i : Instr} {m k : Machine} {made : Array Thunk}

/-- A second run that waits at its next step is suspended there. -/
theorem pauses_of_suspend (context : Context) (id : RenderId) {x : Course} {s : Store}
    {p : FutureId} (hx : x 1 = suspend context id r pc k (.waiting p)) (ht : s.Twin made k.store)
    (hi : r.program.code[pc]? = some i) (hext : i.extent.isSome = true)
    (hgs : k.store.heap.futures.states = gs) : x.Pauses gs made p s := by
  obtain ⟨t, hs, htwin, hheap⟩ := suspend_awaits context id ht hi hext (.waiting p)
  exact ⟨t, hx.trans hs, htwin, by rw [hheap]; exact hgs⟩

/-- Both runs fail. -/
theorem failRender_tells {x : Course} {depth : Nat} {e : Failure} (ht : m.store.Twin made k.store)
    (hgs : k.store.heap.futures.states = gs) (hx : x.Comes (k.store.failRender id r e)) :
    x.Tells reg context gs fuel depth id (m.store.failRender id r e) :=
  fun _ => ⟨made, _, hx, (ht.idle (.setStatus ..)).idle' (.setStatus ..), hgs⟩

/-- What a callee comes to is taken back alike. -/
theorem takeBack_leads {out : Out} {slot : Nat} {fs : List FilterCall} {st : CallState} {y : Course}
    {t : Store} {k' : Machine} (hs : y.Steady) (hy : y.Comes (.done, t))
    (hk : Exec.comeBack .done out slot fs st ⟨r, reg, context⟩ { k with store := t } = .ok () k') :
    (y.caller reg context id r pc out slot fs st k).Leads fun n =>
        steps reg context n id r (pc + 1) false k' := by
  obtain ⟨n, hn⟩ := hy
  have hrun (f : Nat) (hf : y f = (.done, t)) :
      y.caller reg context id r pc out slot fs st k f =
          steps reg context f id r (pc + 1) false k' := by
    unfold Course.caller takeBack
    rw [hf, hk]
  refine ⟨fun f => ⟨max n f, fun f' hf' => ?_⟩, fun f hf => ?_⟩
  · rw [hrun f' (hn f' (Nat.le_trans (Nat.le_max_left n f) hf'))]
    exact steps_approximates reg context (Nat.le_trans (Nat.le_max_right n f) hf') ..
  · have hne : (y f).1 ≠ .exhausted := fun hex => hf (by
      unfold Course.caller
      rw [Course.takeBack_exhausted (h := hex), hex])
    have heq := (hs (Nat.le_max_left f n)).eq hne
    rw [hn _ (Nat.le_max_right f n)] at heq
    rw [hrun f heq.symm]

theorem comeBack_meets {sur : Surroundings} (h : m.Safe reg id r (r.program.types pc)) {out : Out}
    (ho : out.Fits (r.program.types pc)) {slot : Nat} (hslot : r.program.types pc slot = .free)
    (st : CallState) (fs : List FilterCall) (hi : i.extent.isSome = true) :
    Exec.Meets sur m (fun _ m' => m'.Reaches reg id r m (r.program.types pc))
      (Machine.Halts reg id r pc i m) (Exec.comeBack .done out slot fs st) :=
  (Exec.freeCell_meets (.refl h) hslot).bind fun _ _ h' => Exec.finishCall_meets h' ho st fs hi

/-- Suspending a render evaluates nothing. -/
theorem suspend_heap (context : Context) (id : RenderId) (r : Render) (pc : Nat) (m : Machine)
    (o : Outcome) :
    (suspend context id r pc m o).2.heap = m.store.heap := by
  unfold suspend
  split
  · rfl
  · split
    · rfl
    · simp only
      split
      · next e s hs => exact (congrArg (·.2.heap) hs).symm
      · next u s hs =>
        have hheap : s.heap = m.store.heap := (congrArg (·.2.heap) hs).symm
        split <;> exact hheap

theorem Later.clear {bound : RenderId} {s s' : Store} (h : s.Later bound s')
    (hb : s'.heap.blurred = false) :
    s.heap.blurred = false := by
  cases hbefore : s.heap.blurred with
  | false => rfl
  | true => rw [h.blurred hbefore] at hb; cases hb

section

variable {out : Out} {slot : Nat} {site : CallSite} {fs : List FilterCall} {extent : Option Extent}
  {st : CallState}
  {depth : Nat} {y : Course}

theorem takeBack_done : takeBack reg context id r pc out slot fs st m fuel (.done, m.store) =
      match Exec.comeBack .done out slot fs st ⟨r, reg, context⟩ m with
      | .ok _ m' => steps reg context fuel id r (pc + 1) false m'
      | .error e m' => interrupt context id r pc m' e := rfl

/-- A caller whose callee is through. -/
theorem takeBack_done_tells (hreg : ∀ p ∈ reg.programs, p.Valid)
    (hsteps : StepsTell reg context gs fuel) (hp : r.program ∈ reg.programs)
    (hr : r.status = .ready)
    (hrun : Exec.Running reg id r pc { op := .call out slot site fs, extent } m)
    (hl : m.Level (r.program.types pc) k) (hs : y.Steady)
    (hy : m.store.heap.blurred = false → ∃ made t, y.Comes (.done, t) ∧ m.store.Twin made t ∧
      t.heap.futures.states = gs) :
    (y.caller reg context id r pc out slot fs st k).Tells reg context gs fuel depth id
      (takeBack reg context id r pc out slot fs st m fuel (.done, m.store)) := by
  obtain ⟨ho, _, _, hgo⟩ := hrun.fits.flows
  have hmeets : Exec.Meets ⟨r, reg, context⟩ m _ _ _ :=
    comeBack_meets hrun.safe ho (hrun.state_free rfl) st fs (hrun.fits.stops rfl)
  unfold Exec.Meets at hmeets
  rw [takeBack_done]
  -- what both come back to, if nothing is blurred
  have hback (hclear :
      (Exec.left (Exec.comeBack .done out slot fs st ⟨r, reg, context⟩ m)).store.heap.blurred =
        false) (hbefore : m.store.heap.blurred = false) : ∃ made t, y.Comes (.done, t) ∧
          t.heap.futures.states = gs ∧
          Exec.Agrees ⟨r, reg, context⟩ m { k with store := t } (fun _ m' k' =>
            Exec.Abreast made (r.program.types pc) { k with store := t } m' k')
          (Exec.Fallen made { k with store := t }) (Exec.comeBack .done out slot fs st) := by
    obtain ⟨made, t, hcomes, htwin, hgs⟩ := hy hbefore
    have hbreast : Exec.Abreast made (r.program.types pc) { k with store := t } m
        { k with store := t } :=
      ⟨⟨hl.maker, hl.size, hl.cells⟩, htwin, rfl⟩
    exact ⟨made, t, hcomes, hgs,
      Exec.comeBack_mirrors hbreast ho (hrun.state_free rfl) st fs hclear⟩
  cases hres : Exec.comeBack .done out slot fs st ⟨r, reg, context⟩ m with
  | ok u m' =>
    rw [hres] at hmeets hback
    intro hclear
    have hsafe' : m'.Safe reg id r (r.program.types (pc + 1)) := (hmeets.within hgo.2).safe
    have hclear' : m'.store.heap.blurred = false :=
      ((runs_safe hreg context fuel).2 id r (pc + 1) false m' hp hsafe').later.clear hclear
    obtain ⟨made, t, hcomes, hgs, hagrees⟩ := hback hclear' (hmeets.later.clear hclear')
    unfold Exec.Agrees at hagrees
    rw [hres] at hagrees
    obtain ⟨k', hk, hbreast⟩ := hagrees
    have htwin : m'.Twin made r (pc + 1) k' :=
      ⟨⟨hbreast.level.maker, hbreast.level.size, fun j hj => hbreast.level.cells j (hgo.2.used hj)⟩,
        hbreast.store⟩
    have hrest := hsteps id r (pc + 1) m' k' made hp hr hsafe' htwin (hbreast.same.trans hgs)
    have hleads : (y.caller reg context id r pc out slot fs st k).Leads _ :=
      takeBack_leads hs hcomes hk
    refine hrest.lead hleads (fun hlate n hn => ?_) hclear
    exact (hlate.lead hleads) n (by omega)
  | error e m' =>
    rw [hres] at hmeets hback
    cases e with
    | failed e =>
      intro hclear
      have hclear' : m'.store.heap.blurred = false := hclear
      obtain ⟨made, t, hcomes, hgs, hagrees⟩ := hback hclear' (hmeets.2.clear hclear')
      unfold Exec.Agrees at hagrees
      rw [hres] at hagrees
      obtain ⟨k', hk, hfallen⟩ := hagrees
      obtain ⟨n, hn⟩ := hcomes
      have hfail : (y.caller reg context id r pc out slot fs st k).Comes
          (k'.store.failRender id r e) := by
        refine ⟨n, fun f hf => ?_⟩
        unfold Course.caller takeBack
        rw [hn f hf, hk]
        rfl
      have htell : Course.Tells reg context gs fuel depth id _ _ :=
        failRender_tells hfallen.store (hfallen.same.trans hgs) hfail
      exact htell hclear
    | broken => exact hmeets.elim
    | exhausted =>
      intro hclear
      obtain ⟨made, t, hcomes, hgs, hagrees⟩ := hback hclear (hmeets.2.clear hclear)
      unfold Exec.Agrees at hagrees
      rw [hres] at hagrees
      cases hagrees
    | waiting f =>
      intro hclear
      have hclear' : m'.store.heap.blurred = false := by rw [← suspend_heap]; exact hclear
      obtain ⟨made, t, hcomes, hgs, hagrees⟩ := hback hclear' (hmeets.2.1.later.clear hclear')
      unfold Exec.Agrees at hagrees
      rw [hres] at hagrees
      cases hagrees
    | limited =>
      intro hclear
      have hclear' : m'.store.heap.blurred = false := by rw [← suspend_heap]; exact hclear
      obtain ⟨made, t, hcomes, hgs, hagrees⟩ := hback hclear' (hmeets.2.later.clear hclear')
      unfold Exec.Agrees at hagrees
      rw [hres] at hagrees
      cases hagrees

/-- Taking back what a callee came to keeps stores safe. -/
theorem takeBack_ran (hreg : ∀ p ∈ reg.programs, p.Valid) (hp : r.program ∈ reg.programs)
    (hi : r.program.code[pc]? = some { op := .call out slot site fs, extent })
    (hrun : Exec.Running reg id r pc { op := .call out slot site fs, extent } m)
    (hst : id < st.callee ∧ st.callee < m.store.renders.size) :
    Ran reg id m.store
      (takeBack reg context id r pc out slot fs st m fuel
          (m.store.invoke reg context fuel st.callee)) := by
  obtain ⟨ho, _, _, hgo⟩ := hrun.fits.flows
  have hmeets : Exec.Meets ⟨r, reg, context⟩ m _ _ _ :=
    Exec.proceed_meets (runs_safe hreg context fuel).1 (.refl hrun.safe) ho
      (hrun.state_free rfl) st fs hst (hrun.fits.stops rfl)
  have hproceed : Exec.proceed (invoke reg context fuel) out slot fs st ⟨r, reg, context⟩ m =
      Exec.comeBack (m.store.invoke reg context fuel st.callee).1 out slot fs st ⟨r, reg, context⟩
        { m with store := (m.store.invoke reg context fuel st.callee).2 } := rfl
  unfold Exec.Meets at hmeets
  rw [hproceed] at hmeets
  unfold takeBack
  cases hres : Exec.comeBack (m.store.invoke reg context fuel st.callee).1 out slot fs st
      ⟨r, reg, context⟩ { m with store := (m.store.invoke reg context fuel st.callee).2 } with
  | ok u m' =>
    rw [hres] at hmeets
    have hsafe : m'.Safe reg id r (r.program.types (pc + 1)) := (hmeets.within hgo.2).safe
    exact ((runs_safe hreg context fuel).2 id r (pc + 1) false m' hp hsafe).trans
      (hmeets.later.weaken (Nat.le_succ id))
  | error e m' =>
    rw [hres] at hmeets
    exact interrupt_ran hi hrun.fits hmeets

/-- A caller whose callee stands somewhere. -/
theorem takeBack_tells (hreg : ∀ p ∈ reg.programs, p.Valid) (hinv : InvokesTell reg context gs fuel)
    (hsteps : StepsTell reg context gs fuel) (hp : r.program ∈ reg.programs)
    (hr : r.status = .ready)
    (hi : r.program.code[pc]? = some { op := .call out slot site fs, extent })
    (hrun : Exec.Running reg id r pc { op := .call out slot site fs, extent } m)
    (hl : m.Level (r.program.types pc) k) (hc : m.cells.read slot = .call st)
    (hy : Stands reg context gs made m.store depth st.callee y) :
    (y.caller reg context id r pc out slot fs st k).Tells reg context gs fuel depth id
      (takeBack reg context id r pc out slot fs st m fuel
      (m.store.invoke reg context fuel st.callee)) := by
  have hst : id < st.callee ∧ st.callee < m.store.renders.size := by
    have hrefers := hrun.safe.cells.refers slot
    rw [hc] at hrefers
    exact hrefers
  have hfirst := hy.one_step
  have htell := hinv m.store depth st.callee y made hrun.safe.store hy
  obtain ⟨hsafe, hlater, _⟩ :=
    (runs_safe hreg context fuel).1 st.callee m.store hrun.safe.store hst.2
  cases hres : m.store.invoke reg context fuel st.callee with
  | mk o s =>
  rw [hres] at htell hsafe hlater
  -- the caller with what its callee has left
  let m₁ : Machine := { m with store := s }
  have hrun₁ : Exec.Running reg id r pc { op := .call out slot site fs, extent } m₁ :=
    ⟨hrun.fits, ((Machine.Reaches.refl hrun.safe).withStore hsafe (hlater.weaken hst.1)).safe⟩
  have hl₁ : m₁.Level (r.program.types pc) k := ⟨hl.maker, hl.size, hl.cells⟩
  cases o with
  | done => exact takeBack_done_tells (m := m₁) hreg hsteps hp hr hrun₁ hl₁ hy.steady htell
  | failed e =>
    intro hclear
    obtain ⟨made', t, ⟨n, hn⟩, htwin, hgs⟩ := htell hclear
    have hfail : (y.caller reg context id r pc out slot fs st k).Comes
        (Store.failRender ({ k with store := t } : Machine).store id r e) := by
      refine ⟨n, fun f hf => ?_⟩
      unfold Course.caller takeBack
      rw [hn f hf]
      rfl
    have htell : Course.Tells reg context gs fuel depth id _ (m₁.store.failRender id r e) :=
      failRender_tells (k := { k with store := t }) htwin hgs hfail
    exact htell hclear
  | waiting f =>
    have htake : takeBack reg context id r pc out slot fs st m fuel (.waiting f, s) =
      suspend context id r pc m₁ (.waiting f) := rfl
    rw [htake]
    intro hclear
    rw [suspend_heap] at hclear
    obtain ⟨made', depth', y', hy', hleads, hpause⟩ := htell hclear
    obtain ⟨s', hs', hidle, hstands⟩ :=
      Stands.of_suspend_call hrun₁ hr hi hl₁ hc hst.1 hy' (.waiting f)
    rw [hs']
    refine ⟨made', _, _, hstands, hleads.caller, fun fs hfs hp => ?_⟩
    obtain ⟨t, hy, htwin, hgs⟩ := hpause fs hfs hp
    refine pauses_of_suspend context id (k := { k with store := t }) ?_ (htwin.idle hidle) hi
      (hrun.fits.stops rfl) hgs
    unfold Course.caller takeBack
    rw [hy]
    rfl
  | limited =>
    have htake : takeBack reg context id r pc out slot fs st m fuel (.limited, s) =
      suspend context id r pc m₁ .limited := rfl
    rw [htake]
    intro hclear
    rw [suspend_heap] at hclear
    obtain ⟨made', depth', y', hy', hleads, hgo⟩ := htell hclear
    obtain ⟨s', hs', _, hstands⟩ := Stands.of_suspend_call hrun₁ hr hi hl₁ hc hst.1 hy' .limited
    rw [hs']
    refine ⟨made', _, _, hstands, hleads.caller, fun p t hx => ?_⟩
    obtain ⟨t', hy⟩ := Course.Awaits.callee hx hfirst
    exact hgo p t' hy
  | exhausted =>
    intro hclear
    obtain ⟨⟨made', t, htwin, n, hn⟩, hlate⟩ := htell hclear
    refine ⟨⟨made', t, htwin, n, fun f hf => (hn f hf).trans (Course.takeBack_grows ..)⟩, ?_⟩
    rcases hlate with ⟨hendless, hgo⟩ | hlate
    · refine .inl ⟨hendless, fun hsame p t hx => ?_⟩
      obtain ⟨t', hy⟩ := Course.Awaits.callee hx hfirst
      exact hgo hsame p t' hy
    · refine .inr fun f hf => ?_
      unfold Course.caller
      rw [Course.takeBack_exhausted (h := hlate f hf), hlate f hf]
  | broken => exact fun _ => trivial

end

/-! ## Steps -/

/-- Only calls run other renders. -/
theorem instr_uncalling (hc : ∀ out slot site fs, i.op ≠ .call out slot site fs)
    (invoke invoke' : RenderId → Store → Outcome × Store) :
    Exec.instr invoke pc i = Exec.instr invoke' pc i := by
  obtain ⟨op, extent⟩ := i
  cases op with
  | call out slot site fs => exact (hc out slot site fs rfl).elim
  | _ => rfl

theorem steps_resumed (hi : r.program.code[pc]? = some i) (n : Nat) (m : Machine) :
    steps reg context (n + 1) id r pc true m =
      match Exec.instr (invoke reg context n) pc i ⟨r, reg, context⟩ m with
      | .ok next m' => steps reg context n id r next false m'
      | .error e m' => interrupt context id r pc m' e := by
  cases hx : Exec.instr (invoke reg context n) pc i ⟨r, reg, context⟩
    m <;> simp only [steps, hi, hx, if_true]

/-- An instruction of the first run that is interrupted. In the second run the next step is
interrupted as `y` is, and waits for a value only if `y` does. -/
theorem interrupt_tells {α : Type} {ok : α → Machine → Machine → Prop}
    {y : EStateM.Result Interrupt Machine α} {e : Interrupt} {m' : Machine} (hr : r.status = .ready)
    (hi : r.program.code[pc]? = some i)
    (hfits : i.Fits r.program.size r.program.code.size r.program.types pc)
    (hmeets : Machine.Halts reg id r pc i m e m')
    (hmirror : Exec.Reflects made ⟨r, reg, context⟩ pc i k ok (.error e m') y)
    (hnew : i.Uncalled k.cells) (hgs : k.store.heap.futures.states = gs)
    (hstep : ∀ e k' n, y = .error e k' →
      steps reg context (n + 1) id r pc true k = interrupt context id r pc k' e)
    (hawaits : ∀ p t, Course.Awaits (fun n => steps reg context n id r pc true k) p t →
      Exec.Awaits y) :
    Course.Tells reg context gs (fuel + 1) 0 id (fun n => steps reg context n id r pc true k)
      (interrupt context id r pc m' e) := by
  cases e with
  | failed e =>
    intro hclear
    obtain ⟨k', hk, hsame, made', htwin⟩ := hmirror hclear
    have hfail : Course.Comes (fun n => steps reg context n id r pc true k)
        (k'.store.failRender id r e) := by
      refine ⟨1, fun n hn => ?_⟩
      obtain ⟨n, rfl⟩ : ∃ l, n = l + 1 := ⟨n - 1, by omega⟩
      exact hstep _ _ n hk
    have htell : Course.Tells reg context gs (fuel + 1) 0 id _ _ :=
      failRender_tells htwin (hsame.trans hgs) hfail
    exact htell hclear
  | waiting f =>
    simp only [interrupt]
    intro hclear
    rw [suspend_heap] at hclear
    obtain ⟨hprimed, hwait⟩ := hmirror hclear
    obtain ⟨s', hs', hidle, hstands⟩ := Stands.of_suspend ⟨hfits, hmeets.2.1.safe⟩ hr hi hmeets.1
      hprimed hnew hgs hclear (.waiting f)
    rw [hs']
    refine ⟨made, 1, _, hstands, .refl hstands.steady, fun fs hfs hp => ?_⟩
    obtain ⟨k', hk, hsame, htwin⟩ :=
      hwait (by rw [Futures.get_congr (hgs.trans hfs.symm)]; exact hp)
    exact pauses_of_suspend context id (hstep _ _ 0 hk) (htwin.idle hidle) hi hmeets.1
      (hsame.trans hgs)
  | limited =>
    simp only [interrupt]
    intro hclear
    rw [suspend_heap] at hclear
    obtain ⟨hprimed, hgo⟩ := hmirror hclear
    obtain ⟨s', hs', _, hstands⟩ := Stands.of_suspend ⟨hfits, hmeets.2.safe⟩ hr hi hmeets.1
      hprimed hnew hgs hclear .limited
    rw [hs']
    exact ⟨made, 1, _, hstands, .refl hstands.steady, fun p t hx => hgo (hawaits p t hx)⟩
  | exhausted =>
    intro hclear
    obtain ⟨htwin, hendless, hgo⟩ := hmirror hclear
    refine ⟨⟨made, k.store, htwin, 0, fun n _ => (runs_grow reg context n).2 ..⟩,
      .inl ⟨hendless, fun hsame p t hx => ?_⟩⟩
    exact hgo (hgs.trans hsame.symm) (hawaits p t hx)
  | broken => exact fun _ => trivial

/-- An instruction that makes no call. -/
theorem uncalling_tells (hreg : ∀ p ∈ reg.programs, p.Valid)
    (hsteps : StepsTell reg context gs fuel) (hp : r.program ∈ reg.programs)
    (hr : r.status = .ready) (hi : r.program.code[pc]? = some i)
    (hrun : Exec.Running reg id r pc i m) (h : m.Primed made ⟨r, reg, context⟩ pc i k)
    (hgs : k.store.heap.futures.states = gs)
    (hc : ∀ out slot site fs, i.op ≠ .call out slot site fs) :
    Course.Tells reg context gs (fuel + 1) 0 id (fun n => steps reg context n id r pc true k)
      (steps reg context (fuel + 1) id r pc true m) := by
  have hmeets := Exec.instr_meets context (runs_safe hreg context fuel).1 hrun
  have hmirror := Exec.instr_mirrors h hrun hc (invoke reg context fuel) (invoke reg context fuel)
  have hsecond (n : Nat) : steps reg context (n + 1) id r pc true k =
      match Exec.instr (invoke reg context fuel) pc i ⟨r, reg, context⟩ k with
      | .ok next k' => steps reg context n id r next false k'
      | .error e k' => interrupt context id r pc k' e := by
    rw [steps_resumed hi, instr_uncalling hc (invoke reg context n) (invoke reg context fuel)]
  have hnew : i.Uncalled k.cells := fun out slot site fs hop => (hc out slot site fs hop).elim
  unfold Exec.Meets at hmeets
  rw [steps_resumed hi]
  cases hres : Exec.instr (invoke reg context fuel) pc i ⟨r, reg, context⟩ m with
  | ok next m' =>
    rw [hres] at hmeets hmirror
    intro hclear
    have hclear' : m'.store.heap.blurred = false :=
      ((runs_safe hreg context fuel).2 id r next false m' hp hmeets.2.safe).later.clear hclear
    obtain ⟨k', hk, hsame, made', htwin⟩ := hmirror hclear'
    have hrest := hsteps id r next m' k' made' hp hr hmeets.2.safe htwin (hsame.trans hgs)
    refine hrest.step (fun n => ?_) rfl (fun hf => steps_approximates reg context hf ..) hclear
    rw [hsecond, hk]
  | error e m' =>
    rw [hres] at hmeets hmirror
    refine interrupt_tells hr hi hrun.fits hmeets hmirror hnew hgs (fun e k' n hk => ?_)
      fun p t hx => ?_
    · rw [hsecond, hk]
    · unfold Course.Awaits at hx
      simp only [hsecond] at hx
      split at hx
      · cases hx
      · next e k' hk =>
        cases (interrupt_waits hx).1
        exact ⟨p, k', hk⟩

/-- An instruction that makes a call. -/
theorem steps_call {out : Out} {slot : Nat} {site : CallSite} {fs : List FilterCall}
    {extent : Option Extent}
    (hi : r.program.code[pc]? = some { op := .call out slot site fs, extent }) (n : Nat)
    (m : Machine) :
    steps reg context (n + 1) id r pc true m =
      match Exec.callState { op := .call out slot site fs, extent } out slot site fs
      ⟨r, reg, context⟩ m with
      | .error e m' => interrupt context id r pc m' e
      | .ok none m' => steps reg context n id r (pc + 1) false m'
      | .ok (some st) m' =>
        takeBack reg context id r pc out slot fs st m' n
            (m'.store.invoke reg context n st.callee) := by
  rw [steps_resumed hi, Exec.instr_call]
  cases Exec.callState { op := .call out slot site fs, extent } out slot site fs
      ⟨r, reg, context⟩ m with
  | error e m' => rfl
  | ok st m' =>
    cases st with
    | none => rfl
    | some st =>
      have hproceed : Exec.proceed (invoke reg context n) out slot fs st ⟨r, reg, context⟩ m' =
          Exec.comeBack (m'.store.invoke reg context n st.callee).1 out slot fs st ⟨r, reg, context⟩
            { m' with store := (m'.store.invoke reg context n st.callee).2 } := rfl
      simp only [hproceed, takeBack]
      cases Exec.comeBack (m'.store.invoke reg context n st.callee).1 out slot fs st
        ⟨r, reg, context⟩ { m' with store := (m'.store.invoke reg context n st.callee).2 } <;> rfl

/-- A call that is in its cell already. -/
theorem callState_held {out : Out} {slot : Nat} {site : CallSite} {fs : List FilterCall}
    {st : CallState} {sur : Surroundings} (h : m.cells.read slot = .call st) :
    Exec.callState i out slot site fs sur m = .ok (some st) m := by
  rw [Exec.callState_apply, h]
  rfl

/-- An instruction that makes a call for the first time. -/
theorem calling_tells (hreg : ∀ p ∈ reg.programs, p.Valid)
    (hprompt : ∀ p ∈ reg.programs, ∀ d ∈ p.params, d.Prompt)
    (hinv : InvokesTell reg context gs fuel) (hsteps : StepsTell reg context gs fuel) {out : Out}
    {slot : Nat} {site : CallSite} {fs : List FilterCall} {extent : Option Extent}
    (hp : r.program ∈ reg.programs) (hr : r.status = .ready)
    (hi : r.program.code[pc]? = some { op := .call out slot site fs, extent })
    (hrun : Exec.Running reg id r pc { op := .call out slot site fs, extent } m)
    (h : m.Primed made ⟨r, reg, context⟩ pc { op := .call out slot site fs, extent } k)
    (hnew : Instr.Uncalled { op := .call out slot site fs, extent } k.cells)
    (hgs : k.store.heap.futures.states = gs) :
    Course.Tells reg context gs (fuel + 1) 0 id (fun n => steps reg context n id r pc true k)
      (steps reg context (fuel + 1) id r pc true m) := by
  obtain ⟨ho, _, _, hgo⟩ := hrun.fits.flows
  have hnew' (st : CallState) : m.cells.read slot ≠ .call st := by
    obtain ⟨x, hx⟩ := Option.isSome_iff_exists.1 (hrun.fits.stops rfl)
    have hin := (hrun.fits.extent x hx).2
    rw [h.state x hx slot hin.1 hin.2]
    exact hnew out slot site fs rfl st
  have hmeets := Exec.callState_meets context hrun
  have hmirror := Exec.callState_mirrors hreg hprompt h hrun hnew'
  unfold Exec.Meets at hmeets
  rw [steps_call hi]
  cases hres : Exec.callState { op := .call out slot site fs, extent } out slot site fs
      ⟨r, reg, context⟩ m with
  | error e m' =>
    rw [hres] at hmeets hmirror
    refine interrupt_tells hr hi hrun.fits hmeets hmirror hnew hgs (fun e k' n hk => ?_)
      fun p t hx => ?_
    · rw [steps_call hi, hk]
    · unfold Course.Awaits at hx
      simp only [steps_call hi] at hx
      split at hx
      · next e k' hk =>
        cases (interrupt_waits hx).1
        exact ⟨p, k', hk⟩
      · cases hx
      · cases hx
  | ok started m' =>
    rw [hres] at hmeets hmirror
    obtain ⟨hreach, hst⟩ := hmeets
    cases started with
    | none =>
      intro hclear
      have hsafe : m'.Safe reg id r (r.program.types (pc + 1)) := (hreach.within hgo.2).safe
      have hclear' : m'.store.heap.blurred = false :=
        ((runs_safe hreg context fuel).2 id r (pc + 1) false m' hp hsafe).later.clear hclear
      obtain ⟨k', hk, hl, _⟩ := hmirror hclear'
      have htwin : m'.Twin made r (pc + 1) k' :=
        ⟨⟨hl.level.maker, hl.level.size, fun j hj => hl.level.cells j (hgo.2.used hj)⟩, hl.store⟩
      have hrest := hsteps id r (pc + 1) m' k' made hp hr hsafe htwin (hl.same.trans hgs)
      refine hrest.step (fun n => ?_) rfl (fun hf => steps_approximates reg context hf ..) hclear
      rw [steps_call hi, hk]
    | some st =>
      intro hclear
      have hclear' : m'.store.heap.blurred = false :=
        (takeBack_ran hreg hp hi ⟨hrun.fits, hreach.safe⟩ (hst st rfl)).later.clear hclear
      obtain ⟨k', hk, hl, hheld⟩ := hmirror hclear'
      obtain ⟨rc, hrc, hrc', hready⟩ := hl.ready st rfl
      have hstands : Stands reg context gs made m'.store 0 st.callee _ :=
        .ready hrc hready hrc' hl.store (hl.same.trans hgs)
      have hrest := takeBack_tells hreg hinv hsteps hp hr hi ⟨hrun.fits, hreach.safe⟩ hl.level
        (hheld st rfl) hstands
      refine hrest.step (fun n => ?_) rfl (Course.Steady.caller hstands.steady) hclear
      rw [steps_call hi, hk]
      rfl

/-- Any instruction that both runs are within, and that has not called yet. -/
theorem primed_tells (hreg : ∀ p ∈ reg.programs, p.Valid)
    (hprompt : ∀ p ∈ reg.programs, ∀ d ∈ p.params, d.Prompt)
    (hinv : InvokesTell reg context gs fuel) (hsteps : StepsTell reg context gs fuel)
    (hp : r.program ∈ reg.programs) (hr : r.status = .ready) (hi : r.program.code[pc]? = some i)
    (hrun : Exec.Running reg id r pc i m) (h : m.Primed made ⟨r, reg, context⟩ pc i k)
    (hnew : i.Uncalled k.cells) (hgs : k.store.heap.futures.states = gs) :
    Course.Tells reg context gs (fuel + 1) 0 id (fun n => steps reg context n id r pc true k)
      (steps reg context (fuel + 1) id r pc true m) := by
  by_cases hc : ∃ out slot site fs, i.op = .call out slot site fs
  · obtain ⟨out, slot, site, fs, hop⟩ := hc
    obtain ⟨op, extent⟩ := i
    cases hop
    exact calling_tells hreg hprompt hinv hsteps hp hr hi hrun h hnew hgs
  · exact uncalling_tells hreg hsteps hp hr hi hrun h hgs fun out slot site fs hop =>
      hc ⟨out, slot, site, fs, hop⟩

/-- An instruction is set up, then it is run. -/
theorem steps_fresh (hi : r.program.code[pc]? = some i) (n : Nat) (m : Machine) :
    steps reg context (n + 1) id r pc false m = steps reg context (n + 1) id r pc true
      (m.setUp i) := by
  rw [steps, steps]
  simp only [hi]
  rfl

theorem steps_fresh_leads (hi : r.program.code[pc]? = some i) (m : Machine) :
    Course.Leads (fun n => steps reg context n id r pc false m) fun n =>
    steps reg context n id r pc true (m.setUp i) := by
  refine ⟨fun f => ⟨f + 1, fun f' hf' => ?_⟩, fun f hf => ?_⟩
  · obtain ⟨n, rfl⟩ : ∃ n, f' = n + 1 := ⟨f' - 1, by omega⟩
    simp only [steps_fresh hi n m]
    exact steps_approximates reg context (by omega) ..
  · cases f with
    | zero => exact (hf rfl).elim
    | succ n => exact (steps_fresh hi n m).symm

/-- Setting up an instruction leaves no call in its cell. -/
theorem setUp_uncalled (hfits : i.Fits r.program.size r.program.code.size r.program.types pc)
    (m : Machine) :
    i.Uncalled (m.setUp i).cells := by
  intro out slot site fs hop st
  obtain ⟨x, hx⟩ := Option.isSome_iff_exists.1 (hfits.stops (by rw [hop]; rfl))
  obtain ⟨hfit, hslot⟩ := hfits.extent x hx
  rw [hop] at hslot
  have hcells : (m.setUp i).cells = m.cells.clear x.low x.high := by
    simp only [Machine.setUp, Instr.clearScratch, hx]
  rw [hcells, Cells.read_clear, if_pos ⟨hslot.1, Nat.lt_of_lt_of_le hslot.2 hfit.memo_le⟩]
  exact fun h => by cases h

/-- The steps of a render, from an instruction that is set up first. -/
theorem fresh_tells (hreg : ∀ p ∈ reg.programs, p.Valid)
    (hprompt : ∀ p ∈ reg.programs, ∀ d ∈ p.params, d.Prompt)
    (hinv : InvokesTell reg context gs fuel) (hsteps : StepsTell reg context gs fuel) :
    StepsTell reg context gs (fuel + 1) := by
  intro id r pc m k made hp hr hm h hgs
  cases hi : r.program.code[pc]? with
  | none =>
    have hend (l : Machine) (n : Nat) : steps reg context (n + 1) id r pc false l =
        (.done, l.store.setStatus id .done) := by
      rw [steps]
      simp only [hi]
    rw [hend]
    refine fun _ => ⟨made, k.store.setStatus id .done, ⟨1, fun n hn => ?_⟩,
      (h.store.idle (.setStatus ..)).idle' (.setStatus ..), hgs⟩
    obtain ⟨n, rfl⟩ : ∃ l, n = l + 1 := ⟨n - 1, by omega⟩
    exact hend k n
  | some i =>
    have hfits := (hreg _ hp).types.fits pc i hi
    have hrun : Exec.Running reg id r pc i (m.setUp i) := ⟨hfits, setUp_safe hm hfits⟩
    have hprimed : (m.setUp i).Primed made ⟨r, reg, context⟩ pc i (k.setUp i) :=
      Machine.Twin.setUp h hfits
    have htell := primed_tells hreg hprompt hinv hsteps hp hr hi hrun hprimed
      (setUp_uncalled hfits k) hgs
    rw [steps_fresh hi]
    exact htell.lead (steps_fresh_leads hi k) (.lead (steps_fresh_leads hi k))

/-- A call of a render that was started and not called yet. -/
theorem ready_tells (hreg : ∀ p ∈ reg.programs, p.Valid) (hsteps : StepsTell reg context gs fuel)
    {s t : Store} (hs : s.Safe reg) (hr : s.renders[id]? = some r) (hready : r.status = .ready)
    (ht : t.renders[id]? = some r) (htwin : s.Twin made t) (hgs : t.heap.futures.states = gs) :
    Course.Tells reg context gs (fuel + 1) 0 id (fun n => t.invoke reg context n id)
      (s.invoke reg context (fuel + 1) id) := by
  have hp := hs.programs id r hr
  let entered (l : Store) : Machine := { cells := Cells.cleared r.program.size, store := l }
  have hinvoke {l : Store} (hl : l.renders[id]? = some r) (n : Nat) :
      l.invoke reg context (n + 1) id = steps reg context n id r 0 false (entered l) := by
    rw [invoke]
    simp only [hl, hready, enter, entered]
  have hm : (entered s).Safe reg id r (r.program.types 0) :=
    ⟨hs, by rw [Stands.ready_self hready]; exact hr, .cleared (hreg _ hp).types.start⟩
  have htwin' : (entered s).Twin made r 0 (entered t) := ⟨⟨rfl, rfl, fun _ _ => rfl⟩, htwin⟩
  rw [hinvoke hr]
  exact (hsteps id r 0 _ _ made hp hready hm htwin' hgs).step (fun n => hinvoke ht n) rfl
    fun hf => steps_approximates reg context hf ..

/-- A call of a render that was stopped goes on at the instruction it stands at. -/
theorem invoke_suspended (context : Context) (hreg : ∀ p ∈ reg.programs, p.Valid) {s : Store}
    (hs : s.Safe reg) (hr : s.renders[id]? = some r) {f : SavedFrame} (hf : r.status = .suspended f)
    (hi : r.program.code[f.state]? = some i) :
    ∃ s', s.Idle s' ∧ (∀ j, id < j → s'.renders[j]? = s.renders[j]?) ∧
      Exec.Running reg id { r with status := .ready } f.state i (f.machine r.program s') ∧
      ∀ n, s.invoke reg context (n + 1) id =
        steps reg context n id { r with status := .ready } f.state true
            (f.machine r.program s') := by
  have hp := hs.programs id r hr
  obtain ⟨s', hidle, hrenders, henter⟩ := enter_suspended context hf hi (s.setStatus id .ready)
  obtain ⟨_, hsafe, _⟩ := enter_safe context hs (hreg _ hp) hr hf
  rw [henter] at hsafe
  refine ⟨s', (Idle.setStatus s id .ready).trans hidle, fun j hj =>
    ?_, ⟨(hreg _ hp).types.fits f.state i hi, hsafe.store, hsafe.render, hsafe.cells⟩, fun n => ?_⟩
  · rw [hrenders, setStatus_get, if_neg (Nat.ne_of_lt hj)]
  · rw [invoke]
    simp only [hr, hf, henter]

/-- A call of a render that was stopped. -/
theorem suspended_tells (hreg : ∀ p ∈ reg.programs, p.Valid)
    (hprompt : ∀ p ∈ reg.programs, ∀ d ∈ p.params, d.Prompt)
    (hinv : InvokesTell reg context gs fuel) (hsteps : StepsTell reg context gs fuel) {s : Store}
    (hs : s.Safe reg) {depth : Nat} {x : Course} (h : Stands reg context gs made s depth id x) :
    x.Tells reg context gs (fuel + 2) depth id (s.invoke reg context (fuel + 2) id) := by
  cases h with
  | ready hr hready ht htwin hgs =>
    exact ready_tells hreg (fresh_tells hreg hprompt hinv hsteps) hs hr hready ht htwin hgs
  | @stopped _ r f i k hr hf hi hprimed hnew hgs =>
    obtain ⟨s', hidle, habove, hrun, hinvoke⟩ := invoke_suspended context hreg hs hr hf hi
    have hprimed' := hprimed.rests (hidle.rests (fun j hj => habove j hj) gs) hgs
    have htell := primed_tells (r := { r with status := .ready }) hreg hprompt hinv hsteps
      (hs.programs id r hr) rfl hi hrun hprimed' hnew hgs
    rw [hinvoke]
    exact htell.lead (.refl fun hf => steps_approximates reg context hf ..) fun hl n hn =>
      hl n (by omega)
  | @calling _ r f out slot site fs extent st k depth y hr hf hi hl hc hlt hy =>
    obtain ⟨s', hidle, habove, hrun, hinvoke⟩ := invoke_suspended context hreg hs hr hf hi
    have hrests : s.Rests gs (id + 1) s' := hidle.rests (fun j hj => habove j hj) gs
    have hlevel : (f.machine r.program s').Level (r.program.types f.state) k :=
      ⟨hl.maker, hl.size, hl.cells⟩
    have htell := takeBack_tells (r := { r with status := .ready }) hreg hinv hsteps
      (hs.programs id r hr) rfl hi hrun hlevel hc (hy.rests hrests hlt)
    have hheld : (f.machine r.program s').cells.read slot = .call st := hc
    rw [hinvoke, steps_call (r := { r with status := .ready }) hi, callState_held hheld]
    exact htell.lead (.refl (Course.Steady.caller hy.steady)) fun hl n hn => hl n (by omega)

theorem noSteps_tell : StepsTell reg context gs 0 := by
  intro id r pc m k made _ _ _ h hgs _
  refine ⟨⟨made, k.store, h.store, 0, fun n _ => (runs_grow reg context n).2 ..⟩,
    .inr fun n hn => ?_⟩
  obtain rfl : n = 0 := by omega
  rfl

/-- A call that ends before the first instruction. -/
theorem noSteps_invoke_tell (hreg : ∀ p ∈ reg.programs, p.Valid) {s : Store} (hs : s.Safe reg)
    {depth : Nat} {x : Course} (h : Stands reg context gs made s depth id x) :
    x.Tells reg context gs 1 depth id (s.invoke reg context 1 id) := by
  obtain ⟨t, htwin, hgrow⟩ := h.shows
  cases h with
  | ready hr hready ht htwin hgs => exact ready_tells hreg noSteps_tell hs hr hready ht htwin hgs
  | stopped hr hf hi =>
    obtain ⟨s', hidle, _, _, hinvoke⟩ := invoke_suspended context hreg hs hr hf hi
    rw [hinvoke]
    refine fun _ => ⟨⟨made, t, htwin.idle hidle, 0, fun n _ => hgrow n⟩, .inr fun n hn => ?_⟩
    obtain rfl : n = 0 := by omega
    rfl
  | calling hr hf hi =>
    obtain ⟨s', hidle, _, _, hinvoke⟩ := invoke_suspended context hreg hs hr hf hi
    rw [hinvoke]
    exact fun _ => ⟨⟨made, t, htwin.idle hidle, 0, fun n _ => hgrow n⟩, .inr fun n hn => by omega⟩

/-- Runs of any number of steps tell the course of the second run. -/
theorem runs_tell (hreg : ∀ p ∈ reg.programs, p.Valid)
    (hprompt : ∀ p ∈ reg.programs, ∀ d ∈ p.params, d.Prompt) (context : Context) (gs : Array Future)
    (fuel : Nat) :
    InvokesTell reg context gs fuel ∧ StepsTell reg context gs fuel := by
  induction fuel using Nat.strongRecOn with
  | ind fuel ih =>
    refine ⟨fun s depth id x made hs h => ?_, ?_⟩
    · match fuel with
      | 0 =>
        obtain ⟨t, htwin, hgrow⟩ := h.shows
        refine fun _ => ⟨⟨made, t, htwin, 0, fun n _ => hgrow n⟩, .inr fun n hn => ?_⟩
        obtain ⟨rfl, rfl⟩ : n = 0 ∧ depth = 0 := by omega
        cases h
        rfl
      | 1 => exact noSteps_invoke_tell hreg hs h
      | fuel + 2 =>
        -- two steps lead from a call to where its caller goes on
        obtain ⟨hinv, hsteps⟩ := ih fuel (by omega)
        exact suspended_tells hreg hprompt hinv hsteps hs h
    · match fuel with
      | 0 => exact noSteps_tell
      | fuel + 1 =>
        obtain ⟨hinv, hsteps⟩ := ih fuel (by omega)
        exact fresh_tells hreg hprompt hinv hsteps

end Store

end Interlude
