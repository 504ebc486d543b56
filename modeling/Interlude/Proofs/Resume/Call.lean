import Interlude.Proofs.Render.Call
import Interlude.Proofs.Resume.Step
/-!
# Calls in two runs

A call starts the same render with the same params in both runs (`startCall_mirrors`). The defaults
of params must come to an end whatever the futures are; else a render that is started while a value
is pending would fail where the other does not.
-/

namespace Interlude

/-! ## Starting renders -/

/-- Two heaps of which the second has settled more futures. -/
structure Heap.Twin (made : Array Thunk) (h h' : Heap) : Prop where
  tidy : Thunk.AllTidy made
  ahead : h.futures.Ahead h'.futures
  fresh : h.fresh = h'.fresh
  first : h.Sound made
  second : h'.Sound made

theorem Store.Twin.heap {made : Array Thunk} {s t : Store} (h : s.Twin made t) :
    s.heap.Twin made t.heap :=
  ⟨h.tidy, h.ahead, h.fresh, h.first, h.second⟩

theorem Store.Twin.withHeap {made : Array Thunk} {s t : Store} (h : s.Twin made t) {hs ht : Heap}
    (hh : hs.Twin made ht) :
    ({ s with heap := hs } : Store).Twin made { t with heap := ht } :=
  { h with ahead := hh.ahead, fresh := hh.fresh, first := hh.first, second := hh.second }

theorem Heap.Later.clear {h h' : Heap} (hl : h.Later h') (hb : h'.blurred = false) :
    h.blurred = false := by
  cases hbefore : h.blurred with
  | false => rfl
  | true => rw [hl.blurred hbefore] at hb; cases hb

/-- The default of a param comes to a result or a failure, whatever the futures. -/
def ParamDecl.Prompt (d : ParamDecl) : Prop :=
  ∀ c size, d.default = some (c, size) → ∀ force env m,
    ∃ r m', c.value (.plain force) [] env m = Eval.ending r m' ∧ Stop.Settles r

namespace Binding.Step

variable {α β : Type} {made : Array Thunk} {hs ht : Heap}

/-- How a step ends. -/
def ending (r : Except Failure α) (h : Heap) : EStateM.Result Failure Heap α :=
  match r with
  | .ok a => .ok a h
  | .error e => .error e h

/-- A step of binding params comes to the same in two heaps. -/
def Mirrors (made : Array Thunk) (hs ht : Heap) (x : Binding.Step α) : Prop :=
  ∃ r hs', x hs = ending r hs' ∧ (hs'.blurred = false →
    ∃ ht', x ht = ending r ht' ∧ hs'.Twin made ht' ∧ ht'.futures.states = ht.futures.states)

theorem bind_apply (x : Binding.Step α) (f : α → Binding.Step β) (h : Heap) :
    (x >>= f) h =
      match x h with
      | .ok a h' => f a h'
      | .error e h' => .error e h' := by
  change EStateM.bind x f h = _
  rw [EStateM.bind]
  cases x h <;> rfl

theorem Mirrors.bind {x : Binding.Step α} {f : α → Binding.Step β} (hx : Mirrors made hs ht x)
    (hl : ∀ a h, Leaves h (f a h))
    (hf : ∀ a hs' ht', hs'.Twin made ht' → Mirrors made hs' ht' (f a)) :
    Mirrors made hs ht (x >>= f) := by
  obtain ⟨r, hs', hr, hx⟩ := hx
  unfold Mirrors
  rw [bind_apply, bind_apply, hr]
  cases r with
  | error e =>
    refine ⟨.error e, hs', rfl, fun hclear => ?_⟩
    obtain ⟨ht', hy, htwin⟩ := hx hclear
    rw [hy]
    exact ⟨ht', rfl, htwin⟩
  | ok a =>
    have hleaves := hl a hs'
    cases hr' : f a hs' with
    | error e hs'' =>
      refine ⟨.error e, hs'', hr', fun hclear => ?_⟩
      rw [hr'] at hleaves
      obtain ⟨ht', hy, htwin, hsame⟩ := hx (hleaves.clear hclear)
      obtain ⟨r, hs₂, hrest, hlater⟩ := hf a hs' ht' htwin
      rw [hr'] at hrest
      cases r <;> cases hrest
      obtain ⟨ht'', hy', htwin', hsame'⟩ := hlater hclear
      rw [hy]
      exact ⟨ht'', hy', htwin', hsame'.trans hsame⟩
    | ok b hs'' =>
      refine ⟨.ok b, hs'', hr', fun hclear => ?_⟩
      rw [hr'] at hleaves
      obtain ⟨ht', hy, htwin, hsame⟩ := hx (hleaves.clear hclear)
      obtain ⟨r, hs₂, hrest, hlater⟩ := hf a hs' ht' htwin
      rw [hr'] at hrest
      cases r <;> cases hrest
      obtain ⟨ht'', hy', htwin', hsame'⟩ := hlater hclear
      rw [hy]
      exact ⟨ht'', hy', htwin', hsame'.trans hsame⟩

end Binding.Step

open Binding.Step

/-- The default of a param is evaluated alike. -/
theorem ParamDecl.absent_mirrors {made : Array Thunk} {hs ht : Heap} {d : ParamDecl} (hf : d.Fits)
    (hp : d.Prompt) (h : hs.Twin made ht) (template : String) (env : Env) :
    Mirrors made hs ht (d.absent template env) := by
  unfold Mirrors ParamDecl.absent
  split
  · exact ⟨.error _, hs, rfl, fun _ => ⟨ht, rfl, h, rfl⟩⟩
  split
  · exact ⟨.ok .undefined, hs, rfl, fun _ => ⟨ht, rfl, h, rfl⟩⟩
  next c size hdefault =>
    obtain ⟨table, htouch⟩ := hf c size hdefault
    let mem (l : Heap) : Memory := ⟨Cells.cleared size, { l with fresh := l.fresh + 1 }⟩
    let env' : Env := { env with maker := hs.fresh }
    have hclean (l : Heap) (hl : l.Sound made) : (mem l).Keeps made table env' :=
      have hsound : (mem l).heap.Sound made := ⟨hl.size, hl.thunks⟩
      .of_cleared hsound size env'
    have hpair : Paired made table (fun _ => False) env' (mem hs) (mem ht) :=
      ⟨h.tidy, h.ahead, hclean hs h.first, hclean ht h.second, fun _ hi =>
        hi.elim, fun _ _ hi => hi.elim⟩
    have hact : Operand (fun _ => False) (keepIn 0 size table) (fun _ => False) (c.value · []) :=
      fun {_ _ _} hc _ => hc.value htouch
    obtain ⟨r, m, hx, hmove, _, hlater⟩ := hpair.eval hact (fun _ hi => hi.elim) fun _ _ _ hk =>
      hk.2.2
    have hr : Stop.Settles r := by
      obtain ⟨r₁, _, _, _, hx₁, hy₁, _⟩ :=
        hpair.first.eval h.tidy hact (fun _ hi => hi.elim) fun _ _ _ hk => hk.2.2
      obtain ⟨rfl, _⟩ := Eval.ending_inj (hx.symm.trans hx₁)
      obtain ⟨r₂, _, hy₂, hr⟩ := hp c size hdefault (Thunk.meaning made) env' (mem hs)
      obtain ⟨rfl, _⟩ := Eval.ending_inj (hy₁.symm.trans hy₂)
      exact hr
    have henv : ({ env with maker := ht.fresh } : Env) = env' := by rw [← h.fresh]
    -- both come to the same, and what is left are twins
    have htwin (hclear : m.heap.blurred = false) : ∃ m',
        c.value .usual [] env' (mem ht) = Eval.ending r m' ∧ m.heap.Twin made m'.heap ∧
            m'.heap.futures.states = ht.futures.states := by
      obtain ⟨m', hy, hmove', hpair'⟩ := hlater hclear (hr.stays _ _)
      refine ⟨m', hy, ⟨h.tidy, hpair'.ahead, ?_, hpair'.first.heap, hpair'.second.heap⟩,
        hmove'.states⟩
      rw [hmove.fresh, hmove'.fresh]
      exact congrArg (· + 1) h.fresh
    have hx : c.value .usual [] { env with maker := hs.fresh } (mem hs) = Eval.ending r m := hx
    simp only [mem] at hx htwin
    simp only [hx, henv]
    cases r with
    | ok v =>
      refine ⟨.ok v, m.heap, rfl, fun hclear => ?_⟩
      obtain ⟨m', hy, htwin⟩ := htwin hclear
      rw [hy]
      exact ⟨m'.heap, rfl, htwin⟩
    | error e =>
      cases e with
      | failed e =>
        refine ⟨.error (e.within template), m.heap, rfl, fun hclear => ?_⟩
        obtain ⟨m', hy, htwin⟩ := htwin hclear
        rw [hy]
        exact ⟨m'.heap, rfl, htwin⟩
      | _ => exact hr.elim

theorem Program.bindParams_mirrors {made : Array Thunk} (context : Context) (template : String)
    {ds : List ParamDecl} (hf : ∀ d ∈ ds, d.Fits) (hp : ∀ d ∈ ds, d.Prompt)
    (params injected : List (String × Value)) {hs ht : Heap} (h : hs.Twin made ht) :
    Mirrors made hs ht (bindParams context template params injected ds) := by
  induction ds generalizing params injected hs ht with
  | nil => exact ⟨.ok (params, injected), hs, rfl, fun _ => ⟨ht, rfl, h, rfl⟩⟩
  | cons d rest ih =>
    have ih := ih (fun d hd => hf d (List.mem_cons_of_mem _ hd)) fun d hd =>
      hp d (List.mem_cons_of_mem _ hd)
    have habsent := d.absent_mirrors (hf d List.mem_cons_self) (hp d List.mem_cons_self) h template
      { params, injected, context }
    unfold bindParams
    split
    · exact ih _ _ h
    · refine habsent.bind (fun v h => ?_) fun v hs' ht' h' => ?_
      · cases d.injected <;> exact bindParams_leaves ..
      · cases d.injected <;> exact ih _ _ h'

theorem Render.started_push {rs rt : Array Render}
    (h : rs.map Render.started = rt.map Render.started) (r : Render) :
    (rs.push r).map Render.started = (rt.push r).map Render.started := by
  rw [Array.map_push, Array.map_push, h]

/-- A render that is started has the same number in both runs. -/
theorem Program.start_mirrors {made : Array Thunk} {p : Program} (hv : p.Valid)
    (hp : ∀ d ∈ p.params, d.Prompt) {s t : Store} (h : s.Twin made t) (context : Context)
    (params injected : List (String × Value)) (sink : Sink)
    (hclear : (p.start context params injected sink s).2.heap.blurred = false) :
    (p.start context params injected sink t).1 = (p.start context params injected sink s).1 ∧
      (p.start context params injected sink s).2.Twin made
      (p.start context params injected sink t).2 ∧
    (p.start context params injected sink t).2.heap.futures.states = t.heap.futures.states := by
  have hsize : t.renders.size =
    s.renders.size := by simpa using (congrArg Array.size h.renders).symm
  obtain ⟨r, hs, hx, hlater⟩ :=
    bindParams_mirrors context p.name hv.defaults hp params injected h.heap
  unfold Program.start at hclear ⊢
  rw [hx] at hclear ⊢
  cases r with
  | error e =>
    obtain ⟨ht, hy, htwin, hsame⟩ := hlater hclear
    rw [hy]
    exact ⟨rfl, h.withHeap htwin, hsame⟩
  | ok bound =>
    obtain ⟨ht, hy, htwin, hsame⟩ := hlater hclear
    rw [hy]
    exact ⟨congrArg Except.ok hsize,
      { h.withHeap htwin with renders := Render.started_push h.renders _ }, hsame⟩

/-- Starting a render only evaluates defaults. -/
theorem Program.start_heap (p : Program) (context : Context)
    (params injected : List (String × Value)) (sink : Sink) (s : Store) :
    s.heap.Later (p.start context params injected sink s).2.heap := by
  have hleaves := bindParams_leaves context p.name p.params params injected s.heap
  unfold Program.start
  cases hb : bindParams context p.name params injected p.params s.heap with
  | error e heap => rw [hb] at hleaves; exact hleaves
  | ok bound heap => rw [hb] at hleaves; exact hleaves

/-- A render that was started is ready. -/
theorem Program.start_ready {p : Program} {context : Context}
    {params injected : List (String × Value)} {sink : Sink} {s : Store} {id : RenderId}
    (h : (p.start context params injected sink s).1 = .ok id) :
    ∃ r, (p.start context params injected sink s).2.renders[id]? = some r ∧ r.status = .ready := by
  unfold Program.start at h ⊢
  split at h
  · cases h
  · next bound inj heap hb =>
    cases h
    simp

/-! ## The state of a call -/

namespace Exec

variable {made : Array Thunk} {reg : Registry} {sur : Surroundings} {id : RenderId} {pc : Nat}
  {i : Instr} {m k : Machine}

theorem calleeSink_agrees {m₀ k₀ : Machine} {g : Shapes} (h : m₀.Like k₀ g m k) (kind : ContentKind)
    (fs : List FilterCall) (args : List (List Value)) (sink : Sink) :
    Agrees sur m k (fun _ m' k' => m₀.Like k₀ g m' k') (Fell m₀ k₀)
      (calleeSink kind fs args sink) := by
  unfold calleeSink
  split
  · exact .pure h
  · split
    · exact (wrap_agrees h fs args kind sink).bind fun entry m' k' h' => .pure h'
    · exact (newBuffer_agrees h).bind fun b m' k' h' => .pure h'

/-- Starts the callee of a call whose operands were evaluated. -/
def launch (sur : Surroundings) (out : Out) (fs : List FilterCall) (d : Eval.Dispatch) :
    Exec (Option CallState) := do
  let sink ← target out
  let (entry, stages, buffer) ← calleeSink d.program.kind fs d.args sink
  match ← onStore (d.program.start sur.context d.params sur.render.injected entry) with
  | .error e => fail e
  | .ok id => return some { callee := id, entry, stages, buffer, args := d.args }

theorem startCall_eq (out : Out) (site : CallSite) (fs : List FilterCall) (sur : Surroundings)
    (m : Machine) :
    startCall out site fs sur m =
      (eval (Eval.dispatch .usual sur.registry sur.render.data site fs) >>= fun d =>
        match d with
        | none => pure none
        | some d => launch sur out fs d) sur m := rfl

theorem startCall_apply (out : Out) (site : CallSite) (fs : List FilterCall) (sur : Surroundings)
    (m : Machine) :
    startCall out site fs sur m =
      match eval (Eval.dispatch .usual sur.registry sur.render.data site fs) sur m with
      | .error e m' => .error e m'
      | .ok none m' => .ok none m'
      | .ok (some d) m' => launch sur out fs d sur m' := by
  rw [startCall_eq, bind_apply]
  cases eval (Eval.dispatch .usual sur.registry sur.render.data site fs) sur m with
  | error e m' => rfl
  | ok d m' => cases d <;> rfl

/-- Where the output of a callee goes. -/
def place (out : Out) (fs : List FilterCall) (d : Eval.Dispatch) :
    Exec (Sink × Nat × Option BufferId) := do
  let sink ← target out
  calleeSink d.program.kind fs d.args sink

theorem place_agrees {m₀ k₀ : Machine} {g : Shapes} (h : m₀.Like k₀ g m k) {out : Out}
    (ho : out.Fits g) (fs : List FilterCall) (d : Eval.Dispatch) :
    Agrees sur m k (fun _ m' k' => m₀.Like k₀ g m' k') (Fell m₀ k₀) (place out fs d) := by
  refine (target_agrees h ho).bind fun sink m' k' ⟨hm, hk⟩ => ?_
  subst hm hk
  exact calleeSink_agrees h ..

theorem launch_apply (out : Out) (fs : List FilterCall) (d : Eval.Dispatch) (sur : Surroundings)
    (m : Machine) :
    launch sur out fs d sur m =
      match place out fs d sur m with
      | .error e m' => .error e m'
      | .ok (entry, stages, buffer) m' =>
        let started := d.program.start sur.context d.params sur.render.injected entry m'.store
        match started.1 with
        | .error e => .error (.failed e) { m' with store := started.2 }
        | .ok id =>
          .ok (some { callee := id, entry, stages, buffer, args := d.args })
              { m' with store := started.2 } := by
  rw [launch, place, bind_apply, bind_apply]
  cases target out sur m with
  | error e m' => rfl
  | ok sink m' =>
    simp only
    rw [bind_apply]
    cases calleeSink d.program.kind fs d.args sink sur m' with
    | error e m'' => rfl
    | ok p m'' =>
      have hstart : onStore (d.program.start sur.context d.params sur.render.injected p.1) sur m'' =
          .ok (d.program.start sur.context d.params sur.render.injected p.1 m''.store).1 { m'' with
            store := (d.program.start sur.context d.params sur.render.injected p.1 m''.store).2 } :=
              rfl
      simp only
      rw [bind_apply, hstart]
      cases (d.program.start sur.context d.params sur.render.injected p.1 m''.store).1 <;> rfl

/-- Starting the callee blurs nothing that was not blurred before. -/
theorem launch_clear {g : Shapes} {out : Out} (ho : out.Fits g)
    (hs : m.store.streams.Alike k.store.streams) (hl : m.store.messages = k.store.messages)
    (fs : List FilterCall) (d : Eval.Dispatch) :
    (∃ m', launch sur out fs d sur m = .error .broken m') ∨
      ((left (launch sur out fs d sur m)).store.heap.blurred = false →
      m.store.heap.blurred = false) := by
  have hplace : (∃ m', place out fs d sur m = .error .broken m') ∨ _ :=
    Agrees.heap (g := g) (l := fun _ => g) hs hl fun k' h => place_agrees h ho fs d
  rw [launch_apply]
  cases hp : place out fs d sur m with
  | error e m' =>
    rw [hp] at hplace
    rcases hplace with ⟨m'', hb⟩ | hheap
    · cases hb
      exact .inl ⟨_, rfl⟩
    · exact .inr fun hclear => by rw [← hheap]; exact hclear
  | ok p m' =>
    rw [hp] at hplace
    rcases hplace with ⟨m'', hb⟩ | hheap
    · cases hb
    · have hheap : m'.store.heap = m.store.heap := hheap
      have hlater := d.program.start_heap sur.context d.params sur.render.injected p.1 m'.store
      refine .inr fun hclear => ?_
      rw [← hheap]
      refine hlater.clear ?_
      simp only at hclear
      split at hclear <;> exact hclear

/-- Two machines within a call, of which the second comes from `k₀`. -/
structure Abreast (made : Array Thunk) (g : Shapes) (k₀ m k : Machine) : Prop where
  level : m.Level g k
  store : m.store.Twin made k.store
  same : k₀.SameFutures k

/-- Two machines after a failure within a call. -/
structure Fallen (made : Array Thunk) (k₀ m k : Machine) : Prop where
  store : m.store.Twin made k.store
  same : k₀.SameFutures k

theorem Abreast.like {g : Shapes} {k₀ : Machine} (h : Abreast made g k₀ m k) : m.Like k g m k :=
  ⟨rfl, rfl, rfl, rfl, rfl, rfl, h.store.streams, h.store.messages, rfl, rfl, h.level.size,
    h.level.cells⟩

theorem Abreast.to {g g' : Shapes} {k₀ m' k' : Machine} (h : Abreast made g k₀ m k)
    (hl : m.Like k g' m' k') :
    Abreast made g' k₀ m' k' :=
  ⟨⟨by rw [hl.maker, hl.maker', h.level.maker], hl.sizes, hl.cells⟩, h.store.like hl,
    hl.sameFutures.trans h.same⟩

theorem Abreast.fall {g : Shapes} {k₀ m' k' : Machine} (h : Abreast made g k₀ m k)
    (hl : Fell m k m' k') :
    Fallen made k₀ m' k' := ⟨h.store.like hl, hl.sameFutures.trans h.same⟩

/-- A callee that is ready to run in both runs. -/
structure Launched (made : Array Thunk) (g : Shapes) (k₀ : Machine) (started : Option CallState)
    (m k : Machine) : Prop extends Abreast made g k₀ m k where
  ready : ∀ st, started = some st → ∃ r, m.store.renders[st.callee]? = some r ∧
    k.store.renders[st.callee]? = some r ∧ r.status = .ready

/-- Renders that are ready in both runs are the same. -/
theorem ready_eq {s t : Store} (h : s.renders.map Render.started = t.renders.map Render.started)
    {id : RenderId} {r r' : Render} (hr : s.renders[id]? = some r) (hr' : t.renders[id]? = some r')
    (hs : r.status = .ready) (hs' : r'.status = .ready) : r = r' := by
  have heq := congrArg (·[id]?) h
  simp only [Array.getElem?_map, hr, hr', Option.map_some, Option.some.injEq] at heq
  obtain ⟨_, _, _, _, _, _⟩ := r
  obtain ⟨_, _, _, _, _, _⟩ := r'
  simp only at hs hs'
  subst hs hs'
  exact heq

/-- The callee of a call is started alike in both runs. -/
theorem launch_mirrors {g : Shapes} (h : m.store.Twin made k.store) (hl : m.Level g k) {out : Out}
    (ho : out.Fits g) (fs : List FilterCall) {d : Eval.Dispatch} (hv : d.program.Valid)
    (hp : ∀ p ∈ d.program.params, p.Prompt) :
    (left (launch sur out fs d sur m)).store.heap.blurred = false →
      Agrees sur m k (Launched made g k) (Fallen made k) (launch sur out fs d) := by
  have hbreast : Abreast made g k m k := ⟨hl, h, rfl⟩
  have hplace : Agrees sur m k _ _ _ := place_agrees hbreast.like ho fs d
  unfold Agrees at hplace
  unfold Agrees
  rw [launch_apply, launch_apply]
  intro hclear
  cases hx : place out fs d sur m with
  | error e m' =>
    rw [hx] at hplace
    cases e with
    | failed e =>
      obtain ⟨k', hy, hl'⟩ := hplace
      rw [hy]
      exact ⟨k', rfl, hbreast.fall hl'⟩
    | broken => rfl
    | _ => cases hplace
  | ok p m' =>
    rw [hx] at hplace hclear
    obtain ⟨k', hy, hl'⟩ := hplace
    rw [hy]
    have hclear' : (d.program.start sur.context d.params sur.render.injected p.1
        m'.store).2.heap.blurred = false := by
      simp only at hclear
      split at hclear <;> exact hclear
    obtain ⟨hres, htwin, hsame⟩ :=
      Program.start_mirrors hv hp (h.like hl') sur.context d.params sur.render.injected p.1 hclear'
    have hlevel : ∀ s t : Store,
        ({ m' with store := s } : Machine).Level g { k' with store := t } := fun _ _ =>
      ⟨by rw [hl'.maker, hl'.maker', hl.maker], hl'.sizes, hl'.cells⟩
    have hsame : k.SameFutures { k' with
        store := (d.program.start sur.context d.params sur.render.injected p.1 k'.store).2 } :=
      hsame.trans hl'.sameFutures
    simp only [hres]
    cases hid : (d.program.start sur.context d.params sur.render.injected p.1 m'.store).1 with
    | error e => exact ⟨_, rfl, htwin, hsame⟩
    | ok callee =>
      refine ⟨_, rfl, ⟨hlevel _ _, htwin, hsame⟩, ?_⟩
      rintro st ⟨⟩
      obtain ⟨r, hr, hs⟩ := Program.start_ready hid
      obtain ⟨r', hr', hs'⟩ := Program.start_ready (hres.trans hid)
      have heq := ready_eq htwin.renders hr hr' hs hs'
      subst heq
      exact ⟨r, hr, hr', hs⟩

/-- A call is started alike in both runs, or it is stopped in the first before it has done
anything. -/
theorem startCall_mirrors {out : Out} {slot : Nat} {site : CallSite} {fs : List FilterCall}
    {extent : Option Extent} (hreg : ∀ p ∈ sur.registry.programs, p.Valid)
    (hp : ∀ p ∈ sur.registry.programs, ∀ d ∈ p.params, d.Prompt)
    (h : m.Primed made sur pc { op := .call out slot site fs, extent } k)
    (hrun : Running reg id sur.render pc { op := .call out slot site fs, extent } m) :
    Reflects made sur pc { op := .call out slot site fs, extent } k
      (Launched made (sur.render.program.types pc) k) (startCall out site fs sur m)
          (startCall out site fs sur k) := by
  obtain ⟨ho, _, hargs, _⟩ := hrun.fits.flows
  obtain ⟨r, mem, hx, hstop, hendless, hlater⟩ := eval_primed h hrun
    (Eval.dispatch · sur.registry sur.render.data site fs) _ rfl (fun j ⟨name, hm⟩ => hargs _ hm)
    fun _ => Operand.dispatch
  rw [startCall_apply, startCall_apply, hx]
  intro hclear
  cases r with
  | error e =>
    cases e with
    | failed e =>
      obtain ⟨mem', hy, hprimed, hsame⟩ := hlater hclear trivial
      rw [hy]
      exact ⟨_, rfl, hsame, made, hprimed.store⟩
    | waiting p =>
      refine ⟨hstop, fun hp => ?_⟩
      obtain ⟨mem', hy, hprimed, hsame⟩ := hlater hclear hp
      rw [hy]
      exact ⟨_, rfl, hsame, hprimed.store⟩
    | exhausted =>
      refine ⟨hstop.store, hendless rfl, fun hsame => ?_⟩
      obtain ⟨mem', hy, _⟩ := hlater hclear hsame.symm
      rw [hy]
      rintro ⟨p, k', ⟨⟩⟩
    | broken => trivial
  | ok found =>
    cases found with
    | none =>
      obtain ⟨mem', hy, hprimed, hsame⟩ := hlater hclear trivial
      rw [hy]
      exact ⟨_, rfl, ⟨hprimed.toLevel, hprimed.store, hsame⟩, fun st hst => by cases hst⟩
    | some d =>
      have hmem : d.program ∈ sur.registry.programs := by
        rw [eval_apply] at hx
        split at hx
        · next a mem'' hact =>
          injection hx with ha _
          subst ha
          exact Eval.dispatch_mem hact
        · cases hx
      simp only [ended] at hclear ⊢
      have hback : (∃ m', launch sur out fs d sur (after m mem) = .error .broken m') ∨ _ :=
        launch_clear (m := after m mem) (k := k) ho h.store.streams h.store.messages fs d
      rcases hback with ⟨m', hbroken⟩ | hback
      · rw [hbroken]
        trivial
      · obtain ⟨mem', hy, hprimed, hsame⟩ := hlater (hback hclear) trivial
        rw [hy]
        have hagrees : Agrees sur _ _ _ _ _ :=
          launch_mirrors hprimed.store hprimed.toLevel ho fs (hreg _ hmem) (hp _ hmem) hclear
        unfold Agrees at hagrees
        revert hagrees
        cases launch sur out fs d sur (after m mem) with
        | ok started m' =>
          rintro ⟨k', hy, hl⟩
          exact ⟨k', hy, { hl with same := hl.same.trans hsame }⟩
        | error e m' =>
          cases e with
          | failed e =>
            rintro ⟨k', hy, htwin, hsame'⟩
            exact ⟨k', hy, hsame'.trans hsame, made, htwin⟩
          | broken => exact fun _ => trivial
          | _ => exact fun he => by cases he

theorem callState_eq {out : Out} {slot : Nat} {site : CallSite} {fs : List FilterCall}
    (hnew : ∀ st, m.cells.read slot ≠ .call st) :
    callState i out slot site fs sur m = (startCall out site fs >>= register i slot) sur m := by
  rw [callState_apply]
  cases hc : m.cells.read slot with
  | call st => exact (hnew st hc).elim
  | _ => rfl

theorem register_agrees {m₀ k₀ : Machine} {g : Shapes} (h : m₀.Like k₀ g m k) {slot : Nat}
    (hs : g slot = .free) (started : Option CallState) {bad : Machine → Machine → Prop} :
    Agrees sur m k (fun a m' k' => a = started ∧ m₀.Like k₀ g m' k') bad
      (register i slot started) := by
  refine (clearMemo_agrees h i).bind fun _ m' k' h' => ?_
  cases started with
  | none => exact .pure ⟨rfl, h'⟩
  | some st => exact (freeCell_agrees h' hs (.call st)).bind fun _ m' k' h'' => .pure ⟨rfl, h''⟩

theorem register_held {slot : Nat} (hs : slot < m.cells.size) {started : Option CallState}
    {st : CallState} {m' : Machine} (h : register i slot started sur m = .ok (some st) m') :
    m'.cells.read slot = .call st := by
  cases started with
  | none => cases h
  | some st' =>
    cases h
    have hsize : (i.clearMemo m.cells).size = m.cells.size := by
      unfold Instr.clearMemo
      split
      · exact Cells.size_clear ..
      · rfl
    exact Cells.read_write_self (by rw [hsize]; exact hs) _

/-- Putting a call into its cell waits for nothing. -/
theorem awaits_registered {x : Exec (Option CallState)} {slot : Nat}
    (h : Awaits ((x >>= register i slot) sur m)) :
    Awaits (x sur m) := by
  obtain ⟨p, k', h⟩ := h
  rw [bind_apply] at h
  cases hx : x sur m with
  | ok started m' =>
    rw [hx] at h
    cases started <;> cases h
  | error e m' =>
    rw [hx] at h
    cases h
    exact ⟨p, k', rfl⟩

/-- A call that is not in its cell yet gets there alike in both runs. -/
theorem callState_mirrors {r : Render} {context : Context} {out : Out} {slot : Nat}
    {site : CallSite} {fs : List FilterCall} {extent : Option Extent}
    (hreg : ∀ p ∈ reg.programs, p.Valid) (hp : ∀ p ∈ reg.programs, ∀ d ∈ p.params, d.Prompt)
    (h : m.Primed made ⟨r, reg, context⟩ pc { op := .call out slot site fs, extent } k)
    (hrun : Running reg id r pc { op := .call out slot site fs, extent } m)
    (hnew : ∀ st, m.cells.read slot ≠ .call st) :
    Reflects made ⟨r, reg, context⟩ pc { op := .call out slot site fs, extent } k
      (fun started m' k' => Launched made (r.program.types pc) k started m' k' ∧
        ∀ st, started = some st → m'.cells.read slot = .call st)
      (callState { op := .call out slot site fs, extent } out slot site fs ⟨r, reg, context⟩ m)
      (callState { op := .call out slot site fs, extent } out slot site fs
          ⟨r, reg, context⟩ k) := by
  have hnew' (st : CallState) : k.cells.read slot ≠ .call st := by
    obtain ⟨x, hx⟩ := Option.isSome_iff_exists.1 (hrun.fits.stops rfl)
    have hin := (hrun.fits.extent x hx).2
    rw [← h.state x hx slot hin.1 hin.2]
    exact hnew st
  have hstart := startCall_mirrors hreg hp h hrun
  have hmeets : Meets ⟨r, reg, context⟩ m _ _ _ := startCall_meets hrun
  obtain ⟨_, hslot, _, _⟩ := hrun.fits.flows
  rw [callState_eq hnew, callState_eq hnew', bind_apply]
  unfold Meets at hmeets
  cases hx : startCall out site fs ⟨r, reg, context⟩ m with
  | error e m' =>
    rw [hx] at hstart
    intro hclear
    have hstart := hstart hclear
    cases e with
    | failed e =>
      obtain ⟨k', hy, hfail⟩ := hstart
      rw [bind_apply, hy]
      exact ⟨k', rfl, hfail⟩
    | waiting p =>
      refine ⟨hstart.1, fun hp => ?_⟩
      obtain ⟨k', hy, hwait⟩ := hstart.2 hp
      rw [bind_apply, hy]
      exact ⟨k', rfl, hwait⟩
    | limited => exact ⟨hstart.1, fun h => hstart.2 (awaits_registered h)⟩
    | exhausted =>
      exact ⟨hstart.1, hstart.2.1, fun hsame h => hstart.2.2 hsame (awaits_registered h)⟩
    | broken => trivial
  | ok started m' =>
    rw [hx] at hstart hmeets
    have hsize : slot < m'.cells.size := by
      rw [hmeets.1.safe.cells.size]
      exact hslot
    intro hclear
    have hback : m'.store.heap.blurred = false := by
      cases started <;> exact hclear
    obtain ⟨k', hy, hl⟩ := hstart hback
    have hregister : Agrees ⟨r, reg, context⟩ m' k' _ (fun _ _ => False)
        (register { op := .call out slot site fs, extent } slot started) :=
      register_agrees hl.like (hrun.state_free rfl) started
    rw [bind_apply, hy]
    simp only
    unfold Agrees at hregister
    cases hr : register { op := .call out slot site fs, extent } slot started
        ⟨r, reg, context⟩ m' with
    | error e m'' => cases started <;> cases hr
    | ok a m'' =>
      rw [hr] at hregister
      obtain ⟨k'', hy', rfl, hl'⟩ := hregister
      refine ⟨k'', hy', ⟨hl.toAbreast.to hl', fun st hst => ?_⟩, fun st hst => ?_⟩
      · rw [hl'.renders, hl'.renders']
        exact hl.ready st hst
      · subst hst
        exact register_held hsize hr

/-! ## The end of a call -/

/-- Filtering what a callee has written never waits. -/
theorem filteredText_settles (fs : List FilterCall) (args : List (List Value)) (v : Value) (e : Env)
    (mem : Memory) :
    ∃ r mem', (Eval.filtered fs args v >>= Eval.text) e mem = Eval.ending r mem' ∧
    Stop.Settles r := by
  let mem₁ : Memory := if Filter.takeText (Eval.applied fs args) then
    { mem with heap := { mem.heap with blurred := mem.heap.blurred || v.holdsFuture } } else mem
  have hfiltered : Eval.filtered fs args v e mem =
      Eval.ofExcept (Filter.applyAll mem₁.heap.futures (Eval.applied fs args) v) e mem₁ := by
    simp only [Eval.filtered, mem₁]
    split <;> rfl
  rw [Eval.bind_apply, hfiltered]
  cases Filter.applyAll mem₁.heap.futures (Eval.applied fs args) v with
  | error e => exact ⟨.error (.failed e), mem₁, rfl, trivial⟩
  | ok w => exact ⟨.ok _, _, rfl, trivial⟩

theorem evalFiltered_mirrors {g : Shapes} {k₀ : Machine} (h : Abreast made g k₀ m k)
    (fs : List FilterCall) (args : List (List Value)) (v : Value) :
    (left (eval (Eval.filtered fs args v >>= Eval.text) sur m)).store.heap.blurred = false →
      Agrees sur m k (fun _ m' k' => Abreast made g k₀ m' k') (Fallen made k₀)
        (eval (Eval.filtered fs args v >>= Eval.text)) := by
  have hact : Operand (fun _ => False) (fun _ _ _ => False) (fun _ => False)
      fun _ => Eval.filtered fs args v >>= Eval.text :=
    fun {_ _ _} hc _ => hc.bind (hc.filtered fs args v) fun w => hc.text w
  have hclean {l : Machine} (hl : l.store.heap.Sound made) :
      l.memory.Keeps made (fun _ => none) (env sur m) :=
    .of_clean hl (fun _ _ hn => (hn rfl).elim) _
  have hpair : Paired made (fun _ => none) (fun _ => False) (env sur m) m.memory k.memory :=
    ⟨h.store.tidy, h.store.ahead, hclean h.store.first, hclean h.store.second, fun _ hf =>
      hf.elim, fun _ _ hf => hf.elim⟩
  obtain ⟨r, mem, hx, hmove, _, hlater⟩ := hpair.eval hact (fun _ hf => hf.elim) fun _ _ _ hf =>
    hf.elim
  obtain ⟨r', mem', hx', hr⟩ := filteredText_settles fs args v (env sur m) m.memory
  obtain ⟨rfl, rfl⟩ := Eval.ending_inj (hx.symm.trans hx')
  have henv : env sur k = env sur m := by
    unfold env
    rw [h.level.maker]
  rw [eval_ending hx]
  intro hclear
  have hclear : mem.blurred = false := by cases r <;> exact hclear
  obtain ⟨mem', hy, hmove', hpair'⟩ := hlater hclear (hr.stays _ _)
  rw [← henv] at hy
  have htwin := twin_after h.store hpair' hmove.fresh hmove'.fresh
  have hsame : k₀.SameFutures (after k mem') := hmove'.states.trans h.same
  unfold Agrees
  rw [eval_ending hx, eval_ending hy]
  cases r with
  | ok s =>
    refine ⟨_, rfl, ⟨h.level.maker, hmove.size.trans (h.level.size.trans hmove'.size.symm),
      fun j hj => ?_⟩, htwin, hsame⟩
    exact (hmove.rest j rfl).trans ((h.level.cells j hj).trans (hmove'.rest j rfl).symm)
  | error e =>
    cases e with
    | failed e => exact ⟨_, rfl, htwin, hsame⟩
    | _ => exact hr.elim

theorem kind_eq {s t : Store} (h : s.renders.map Render.started = t.renders.map Render.started)
    (id : RenderId) :
    s.renders[id]?.map (·.program.kind) = t.renders[id]?.map (·.program.kind) := by
  have heq := congrArg (fun rs : Array Render => rs[id]?.map (·.program.kind)) h
  simp only [Array.getElem?_map, Option.map_map] at heq
  exact heq

/-- What the callee of a call has put into a buffer. -/
def written (st : CallState) (b : BufferId) (m : Machine) : Value :=
  .ofContent ((m.store.renders[st.callee]?.map (·.program.kind)).getD .html)
    (m.store.streams.bufferText b)

/-- Puts a filtered value out. -/
def passOn (sink : Sink) (fs : List FilterCall) (args : List (List Value)) (v : Value) :
    Exec Unit := do
  let s ← eval (Eval.filtered fs args v >>= Eval.text)
  onSink (·.append sink s)

theorem finishCall_apply (st : CallState) (out : Out) (fs : List FilterCall) (sur : Surroundings)
    (m : Machine) :
    finishCall st out fs sur m =
      match target out sur m with
      | .error e m' => .error e m'
      | .ok sink m' =>
        match st.buffer with
        | none => close st.entry st.stages sur m'
        | some b => passOn sink fs st.args (written st b m') sur m' := by
  rw [finishCall, bind_apply]
  cases target out sur m with
  | error e m' => rfl
  | ok sink m' => cases st.buffer <;> rfl

/-- Operations on sinks leave values alone. -/
theorem onSink_heap {α : Type} (f : Streams → Except Failure α × Streams) (sur : Surroundings)
    (m : Machine) :
    (left (onSink (fun s => ((f s.streams).1, { s with streams := (f s.streams).2 }))
        sur m)).store.heap = m.store.heap := by
  have hrun : onSink (fun s => ((f s.streams).1, { s with streams := (f s.streams).2 })) sur m =
      (match (f m.store.streams).1 with
        | .ok a => pure a
        | .error e => fail (Failure.sink e) : Exec α) sur
        { m with store := { m.store with streams := (f m.store.streams).2 } } := rfl
  rw [hrun]
  cases (f m.store.streams).1 <;> rfl

theorem passOn_mirrors {g : Shapes} {k₀ : Machine} (h : Abreast made g k₀ m k) (sink : Sink)
    (fs : List FilterCall) (args : List (List Value)) (v : Value)
    (hclear : (left (passOn sink fs args v sur m)).store.heap.blurred = false) :
    Agrees sur m k (fun _ m' k' => Abreast made g k₀ m' k') (Fallen made k₀)
      (passOn sink fs args v) := by
  have hback : (left (eval (Eval.filtered fs args v >>= Eval.text) sur m)).store.heap.blurred =
      false := by
    rw [passOn, bind_apply] at hclear
    cases hx : eval (Eval.filtered fs args v >>= Eval.text) sur m with
    | error e m' => rw [hx] at hclear; exact hclear
    | ok s m' =>
      rw [hx] at hclear
      have hheap : (left (onSink (·.append sink s) sur m')).store.heap = m'.store.heap :=
        onSink_heap (·.append sink s) sur m'
      change m'.store.heap.blurred = false
      rw [← hheap]
      exact hclear
  refine (evalFiltered_mirrors h fs args v hback).bind fun s m' k' h' => ?_
  exact (append_agrees h'.like sink s).imp (fun _ _ _ hl => h'.to hl) fun _ _ hl => h'.fall hl

theorem finishCall_mirrors {g : Shapes} {k₀ : Machine} (h : Abreast made g k₀ m k) {out : Out}
    (ho : out.Fits g) (st : CallState) (fs : List FilterCall)
    (hclear : (left (finishCall st out fs sur m)).store.heap.blurred = false) :
    Agrees sur m k (fun _ m' k' => Abreast made g k₀ m' k') (Fallen made k₀)
      (finishCall st out fs) := by
  have htarget : Agrees sur m k (fun _ m' k' => m' = m ∧ k' = k) (Fallen made k₀) (target out) :=
    target_agrees h.like ho
  unfold Agrees at htarget ⊢
  rw [finishCall_apply] at hclear ⊢
  rw [finishCall_apply]
  cases hx : target out sur m with
  | error e m' =>
    rw [hx] at htarget
    cases e with
    | failed e =>
      obtain ⟨k', hy, hfall⟩ := htarget
      rw [hy]
      exact ⟨k', rfl, hfall⟩
    | _ => exact htarget
  | ok sink m' =>
    rw [hx] at htarget hclear
    obtain ⟨k', hy, rfl, rfl⟩ := htarget
    rw [hy]
    cases hb : st.buffer with
    | none =>
      exact (close_agrees h.like st.entry st.stages).imp (fun _ _ _ hl => h.to hl) fun _ _ hl =>
        h.fall hl
    | some b =>
      rw [hb] at hclear
      have hwritten : written st b k' = written st b m' := by
        simp only [written, kind_eq h.store.renders, h.store.streams.bufferText b]
      simp only [hwritten]
      exact passOn_mirrors h sink fs st.args _ hclear

/-- A callee that is through comes back to its caller alike in both runs. -/
theorem comeBack_mirrors {g : Shapes} {k₀ : Machine} (h : Abreast made g k₀ m k) {out : Out}
    (ho : out.Fits g) {slot : Nat} (hs : g slot = .free) (st : CallState) (fs : List FilterCall)
    (hclear : (left (comeBack .done out slot fs st sur m)).store.heap.blurred = false) :
    Agrees sur m k (fun _ m' k' => Abreast made g k₀ m' k') (Fallen made k₀)
      (comeBack .done out slot fs st) := by
  have hset : ∀ l : Machine, comeBack .done out slot fs st sur l =
      finishCall st out fs sur { l with cells := l.cells.write slot .empty } := fun _ => rfl
  have hagrees : Agrees sur m k _ (Fallen made k₀) (setCell slot .empty) :=
    freeCell_agrees h.like hs .empty
  obtain ⟨k', hk, hl⟩ := hagrees
  cases hk
  unfold Agrees
  rw [hset] at hclear ⊢
  rw [hset]
  exact finishCall_mirrors (h.to hl) ho st fs hclear

end Exec

end Interlude
