import Interlude.Proofs.Direct.Start
/-!
# Code plays calls

The code of a call renders the content params, evaluates what is handed over, and starts a render of
the callee. If each render of a template answers the run of the template, so does the callee; what
it has written then passes the filters of the call as in the direct run (`call_performs`).
-/

namespace Interlude

open Direct (World Act Setup Scene Caller Handover)

/-! ## Content params -/

namespace Contents

variable {cells cells' : Cells} {params : List (CallParam (List Plan))} {slots : List (Option Nat)}
  {contents : List (Option Value)}

theorem keep (h : Contents cells params slots contents) {mark : Nat}
    (hs : ∀ slot, some slot ∈ slots → slot < mark) (hc : cells.SameBelow mark cells') :
    Contents cells' params slots contents := by
  induction h with
  | nil => exact .nil
  | value _ ih => exact .value (ih fun slot hslot => hs slot (List.mem_cons_of_mem _ hslot))
  | content hv _ ih =>
    refine .content ((hc.read _ (hs _ List.mem_cons_self)).trans hv) ?_
    exact ih fun slot hslot => hs slot (List.mem_cons_of_mem _ hslot)

end Contents

namespace Program

variable {su : Setup} {reg : Registry} {depth : Nat} {a : Analyzer} {call : Caller}

section

variable (su reg depth a)

/-- The code of content params plays their rendering: what each is rendered to is in its cell. -/
def CarriesContents (call : Caller) (params : List (CallParam (List Plan))) : Prop :=
  ∀ ⦃pc : Nat⦄ ⦃b b' : Builder⦄ ⦃slots : List (Option Nat)⦄ ⦃code :
    List Instr⦄ (id : RenderId) {rd : Render} {made : Array Thunk} {m : Machine}
    {r : Reading} {w : World},
    compileContents pc params a b = .ok ((slots, code), b') → rd.program.Has pc code →
    b'.slots.size ≤ m.cells.size → Situated su made b m r w →
    rd.Plays reg su.context id depth (rd.course reg su.context id pc m) (fun _ => pc + code.length)
      (fun contents m' w' => m.Went su made b.slots.mark m' w' ∧
        Contents m'.cells params slots contents ∧
        (∀ slot, some slot ∈ slots → slot < b'.slots.mark) ∧ b'.locals = b.locals)
      (Direct.contents su call rd.scene r params w)

end

theorem noParam_carries : CarriesContents su reg depth a call [] := by
  intro pc b b' slots code id rd made m r w hcode _ _ h
  unfold compileContents at hcode
  obtain ⟨hpair, rfl⟩ := Build.pure_ok hcode
  cases hpair
  unfold Direct.contents
  exact .done rfl ⟨Machine.Still.went ⟨.refl .., h.store⟩, .nil, (fun _ hs => by cases hs), rfl⟩

theorem valueParam_carries {name : String} {e : Expr} {rest : List (CallParam (List Plan))}
    (hrest : CarriesContents su reg depth a call rest) :
    CarriesContents su reg depth a call (.value name e :: rest) := by
  intro pc b b' slots code id rd made m r w hcode hhas hsize h
  unfold compileContents at hcode
  obtain ⟨⟨later, laterCode⟩, b₁, hlater, hcode⟩ := Build.bind_ok hcode
  obtain ⟨hpair, rfl⟩ := Build.pure_ok hcode
  cases hpair
  unfold Direct.contents
  refine (hrest id hlater hhas hsize h).bind ?_
  rintro contents m' w' ⟨hw, hcontents, hslots, hl⟩
  exact .done rfl ⟨hw, .value hcontents, fun slot hs => hslots slot (by simpa using hs), hl⟩

theorem contentParam_carries {name : String} {kind : ContentKind} {body : List Plan}
    {rest : List (CallParam (List Plan))}
    (hbody : Carries su reg depth a (fun out pc => compileBlock out pc body) fun scene r sink =>
      Direct.block su call scene r sink body) (hrest : CarriesContents su reg depth a call rest) :
    CarriesContents su reg depth a call (.content name kind body :: rest) := by
  intro pc b b' slots code id rd made m r w hcode hhas hsize h
  unfold compileContents at hcode
  obtain ⟨slot, b₁, halloc, hcode⟩ := Build.bind_ok hcode
  obtain ⟨inner, b₂, hbuffered, hcode⟩ := Build.bind_ok hcode
  obtain ⟨⟨later, laterCode⟩, b₃, hlater, hcode⟩ := Build.bind_ok hcode
  obtain ⟨hpair, rfl⟩ := Build.pure_ok hcode
  cases hpair
  obtain ⟨hslot, hmark, hg, hl⟩ := Build.alloc_ok h.slots halloc
  have h₁ := h.grown hg hl
  have hgrown : b₂.slots.Grows b'.slots := by
    obtain ⟨hr, _⟩ := buffered_ok (compileBlock_ok body) h₁.holds (by omega) hbuffered
    obtain ⟨_, hp, _⟩ := compileContents_ok rest (hr.holds h₁.holds) hlater
    exact hp.grows
  obtain ⟨hr, hplays⟩ := buffered_plays (compileBlock_ok body) hbody id hbuffered hhas.left
    (Nat.le_trans hgrown.size hsize) h₁ (by omega)
  unfold Direct.contents
  refine hplays.bind ?_
  rintro s m₁ w₁ ⟨⟨made', he, hs₁⟩, hcell⟩
  rw [hslot] at hs₁
  have h₂ := ((h.still he hs₁).grown hg hl).resized hr
  refine (hrest id hlater hhas.right (by rw [hs₁.cells.size]; exact hsize) h₂).bind ?_
  rintro contents m₂ w₂ ⟨⟨made'', he', hs₂⟩, hcontents, hslots, hl₂⟩
  rw [hr.mark] at hs₂
  have hlt : slot < b₁.slots.mark := by omega
  refine .done (by rw [List.length_append, Nat.add_assoc])
    ⟨?_, ?_, ?_, hl₂.trans (hr.locals.trans hl)⟩
  · exact .after he hs₁ ⟨made'', he', hs₂⟩ (by omega)
  · exact .content ((hs₂.cells.read slot hlt).trans hcell) hcontents
  · intro slot' hmem
    have hmark' := hgrown.mark
    rw [hr.mark] at hmark'
    rcases List.mem_cons.1 hmem with heq | hmem
    · cases heq
      omega
    · exact hslots slot' hmem

end Program

/-! ## What a call evaluates -/

theorem touchArguments_content {see : Seeing} {keep : Keeping} {place : List Nat}
    {args : List Argument} (h : touchArguments see keep place args) {name : String} {slot : Nat}
    (hm : .content name slot ∈ args) : see slot := by
  induction args generalizing place with
  | nil => cases hm
  | cons arg rest ih =>
    rcases List.mem_cons.1 hm with rfl | hrest
    · exact h.1
    · cases arg with
      | content => exact ih h.2 hrest
      | forward => exact ih h hrest
      | value => exact ih h.2 hrest

theorem Argument.Come.content_held {Body : Type} {P : Pairing} {force : ThunkId → Eval Value}
    {r : Reading} {args : List Argument} {params : List (CallParam Body)}
    {contents : List (Option Value)} (h : Argument.Come P force r args params contents)
    {name : String} {slot : Nat} (hm : .content name slot ∈ args) :
    ∃ v, P.left.read slot = .value v := by
  induction h with
  | nil => cases hm
  | content hv _ ih =>
    rcases List.mem_cons.1 hm with heq | hm
    · cases heq
      exact ⟨_, hv⟩
    · exact ih hm
  | forward _ ih => exact ih ((List.mem_cons.1 hm).resolve_left (by simp))
  | value _ _ _ ih => exact ih ((List.mem_cons.1 hm).resolve_left (by simp))

/-- The operands of a call come to what the direct run evaluates. -/
structure CallSite.Comes (P : Pairing) (force : ThunkId → Eval Value) (r : Reading)
    (site : CallSite) (fs : List FilterCall) (name : String) (target : CallTarget) (data : CallData)
    (params : List (CallParam (List Plan))) (contents : List (Option Value))
    (ds : List Directive) : Prop where
  name : site.name = name
  callee : site.callee.Comes P force r target
  passed : site.passed.Comes P force r data
  args : Argument.Come P force r site.args params contents
  filters : List.Forall₂ (FilterCall.Comes P force r) fs ds

namespace Program

variable {su : Setup} {reg : Registry} {depth : Nat} {a : Analyzer} {call : Caller}

theorem callParts_come {P : Pairing} {force : ThunkId → Eval Value} {r : Reading} {name : String}
    {target : CallTarget} {data : CallData} {params : List (CallParam (List Plan))}
    {slots : List (Option Nat)} {contents : List (Option Value)} {ds : List Directive}
    {b b' : Builder} {site : CallSite} {fs : List FilterCall} (hr : b.locals.ReadAs P force r)
    (hcontents : Contents P.left params slots contents) (h : (do
      let whom ← Build.callee target
      let passed ← Build.passed data
      let args ← compileArguments params slots
      let fs ← Build.filters ds
      return ({ name, callee := whom, passed, args : CallSite }, fs)) a b = .ok ((site, fs), b')) :
    site.Comes P force r fs name target data params contents ds := by
  obtain ⟨whom, b₁, hwhom, h⟩ := Build.bind_ok h
  obtain ⟨what, b₂, hwhat, h⟩ := Build.bind_ok h
  obtain ⟨args, b₃, hargs, h⟩ := Build.bind_ok h
  obtain ⟨fs', b₄, hfs, h⟩ := Build.bind_ok h
  obtain ⟨hpair, rfl⟩ := Build.pure_ok h
  cases hpair
  obtain ⟨hcallee, hl₁⟩ := Build.callee_comes hr hwhom
  obtain ⟨hpassed, hl₂⟩ := Build.passed_comes (by rw [hl₁]; exact hr) hwhat
  obtain ⟨hcome, hl₃⟩ := compileArguments_come hcontents (by rw [hl₂, hl₁]; exact hr) hargs
  obtain ⟨hfilters, _⟩ := Build.filters_come (by rw [hl₃, hl₂, hl₁]; exact hr) hfs
  exact ⟨rfl, hcallee, hpassed, hcome, hfilters⟩

end Program

namespace Direct

theorem dispatch_mem {Body : Type} {ts : Directory Template} {r : Reading}
    {data : List (String × Value)} {name : String} {target : CallTarget} {passes : CallData}
    {params : List (CallParam Body)} {contents : List (Option Value)} {ds : List Directive}
    {env : Env} {m m' : Memory} {h : Handover}
    (hd : dispatch ts r data name target passes params contents ds env m = .ok (some h) m') :
    h.template ∈ ts.all := by
  obtain ⟨found, k, hfound, hd⟩ := Eval.bind_ok hd
  cases found with
  | none => cases hd
  | some t =>
    obtain ⟨given, k₁, _, hd⟩ := Eval.bind_ok hd
    obtain ⟨args, k₂, _, hd⟩ := Eval.bind_ok hd
    obtain ⟨chain, k₃, _, hd⟩ := Eval.bind_ok hd
    cases hd
    cases target with
    | template =>
      obtain ⟨t', k', ht', hpure⟩ := Eval.bind_ok hfound
      cases hpure
      exact Directory.template_mem (Eval.ofExcept_ok ht')
    | delegate e allowEmpty =>
      obtain ⟨variant, k', _, hfound⟩ := Eval.bind_ok hfound
      obtain ⟨env', k'', _, hfound⟩ := Eval.bind_ok hfound
      exact Directory.select_mem (Eval.ofExcept_ok hfound)

theorem dispatch_args {s : Strategy} {reg : Registry} {data : List (String × Value)}
    {site : CallSite} {fs : List FilterCall} {env : Env} {m m' : Memory} {d : Eval.Dispatch}
    (h : Eval.dispatch s reg data site fs env m = .ok (some d) m') : d.args.length = fs.length := by
  obtain ⟨found, k, _, h⟩ := Eval.bind_ok h
  cases found with
  | none => cases h
  | some p =>
    obtain ⟨given, k₁, _, h⟩ := Eval.bind_ok h
    obtain ⟨params, k₂, _, h⟩ := Eval.bind_ok h
    obtain ⟨args, k₃, hargs, h⟩ := Eval.bind_ok h
    cases h
    exact filterArgs_length hargs

theorem Scene.eval_ok {α : Type} {su : Setup} {scene : Scene} {x : Eval α} {w w' : World} {a : α}
    (h : scene.eval su x w = .ok a w') : ∃ env m m', x env m = .ok a m' := by
  unfold Scene.eval Act.eval at h
  simp only at h
  split at h
  · next hx =>
    cases h
    exact ⟨_, _, _, hx⟩
  · cases h

end Direct

/-! ## Starting the callee -/

namespace Direct

/-- A call under way: what it hands over, where its output goes, and the params of the callee with
its injected data. -/
structure Underway where
  handover : Handover
  place : Sink × Nat × Option BufferId
  bound : List (String × Value) × List (String × Value)

/-- What the callee is given. -/
def Underway.scene (u : Underway) : Scene :=
  { template := u.handover.template.name, params := u.bound.1, injected := u.bound.2,
    data := u.handover.params }

/-- A call before its callee runs; none if it goes nowhere. -/
def opening (su : Setup) (injected : List (String × Value)) (sink : Sink) : Option Handover →
    Act (Option Underway)
  | none => pure none
  | some h => do
    let place ← placed su h sink
    let bound ← bindParams su h.template.name h.params injected h.template.params
    return some ⟨h, place, bound⟩

/-- The rest of the call. -/
def closing (su : Setup) (sink : Sink) (run : Template → Scene → Sink → Act Unit) :
    Option Underway → Act Unit
  | none => pure ()
  | some u => do
    run u.handover.template u.scene u.place.1
    finished su u.handover sink u.place

theorem carryOut_start (su : Setup) (run : Template → Scene → Sink → Act Unit)
    (injected : List (String × Value)) (sink : Sink) (found : Option Handover) :
    carryOut su (start su run) injected sink found = opening su injected sink found >>=
    closing su sink run := by
  cases found with
  | none => rfl
  | some h => simp only [carryOut, start, opening, closing, Underway.scene, bind_assoc, pure_bind]

end Direct

namespace Exec

variable {su : Setup} {reg : Registry} {rd : Render} {made : Array Thunk} {m : Machine} {w : World}
  {waits : Prop}
  {fs : List FilterCall} {h : Handover} {sur : Surroundings}

theorem newBuffer_follows {states : Array Future} (hm : m.store.Shows made states w) :
    Follows waits (fun id m' id' w' => id = id' ∧ m'.cells = m.cells ∧
      m'.store.Shows made states w') (newBuffer sur m) (Act.newBuffer w) := by
  have hs : m.store.streams = w.streams := hm.streams
  refine ⟨congrArg (·.newBuffer.1) hs, rfl, ?_⟩
  change Store.Shows made states { m.store with streams := m.store.streams.newBuffer.2 } _
  rw [hs]
  exact hm.withStreams hm.unlimited

/-- The output of the callee goes where the direct run lets it go. -/
theorem calleeSink_follows (hm : m.store.Shows made su.futures.states w) {args : List (List Value)}
    (hlen : args.length = fs.length) (hchain : Eval.applied fs args = h.chain) (sink : Sink) :
    Follows waits (fun place m' place' w' => place = place' ∧ m'.cells = m.cells ∧
        m'.store.Shows made su.futures.states w')
      (calleeSink h.template.kind fs args sink sur m) (Direct.placed su h sink w) := by
  have hlength : h.chain.length = fs.length := by rw [← hchain, Direct.applied_length hlen]
  have hempty : h.chain.isEmpty = fs.isEmpty := by
    rw [Bool.eq_iff_iff, List.isEmpty_iff_length_eq_zero, List.isEmpty_iff_length_eq_zero, hlength]
  have hall : h.chain.all (·.1.streams) = fs.all (·.filter.streams) := by
    have hfirst : (Eval.applied fs args).map Prod.fst = fs.map (·.filter) :=
      List.map_fst_zip (by rw [List.length_map, hlen])
    have hstreams := congrArg (List.all · (·.streams)) hfirst
    simp only [List.all_map, hchain] at hstreams
    exact hstreams
  unfold calleeSink Direct.placed
  rw [hempty, hall, hlength]
  split
  · exact ⟨rfl, rfl, hm⟩
  · split
    · rw [← hchain]
      refine Follows.bind (wrap_follows hm fs args su.futures h.template.kind sink) ?_
      rintro entry m' _ w' ⟨rfl, hcells, hshow⟩
      exact ⟨rfl, hcells, hshow⟩
    · refine Follows.bind (newBuffer_follows hm) ?_
      rintro id m' _ w' ⟨rfl, hcells, hshow⟩
      exact ⟨rfl, hcells, hshow⟩

/-- A callee is started as in the direct run. -/
theorem launch_follows {a : Analyzer} {f : Template → Program} (hcomp : su.Compiled a f reg)
    (ht : h.template ∈ su.templates.all) {d : Eval.Dispatch}
    (hd : (d.program, d.params, Eval.applied fs d.args) = (f h.template, h.params, h.chain))
    (hlen : d.args.length = fs.length) (hm : m.store.Shows made su.futures.states w)
    {out : Out} {mark : Nat} {sink : Sink} (ho : out.Reaches rd mark m.cells sink) :
    Follows waits (fun started m' opened w' =>
      (m'.cells = m.cells ∧ m'.store.Shows made su.futures.states w') ∧ ∃ st u, started = some st ∧
      opened = some u ∧ st.args = d.args ∧ u.handover = h ∧
      u.place = (st.entry, st.stages, st.buffer) ∧
      m'.store.Begun st.callee (f h.template) u.scene st.entry)
      (launch ⟨rd, reg, su.context⟩ out fs d ⟨rd, reg, su.context⟩ m)
      (Direct.opening su rd.scene.injected sink (some h) w) := by
  injection hd with hprogram hd
  injection hd with hparams hchain
  have hcompiled := hcomp.programs h.template ht
  unfold launch
  refine .skip (ho.target rfl) ?_
  rw [hprogram, (Program.ofTemplate_known hcompiled).2.1, hparams]
  refine Follows.bind (calleeSink_follows hm hlen hchain sink) ?_
  rintro ⟨entry, stages, buffer⟩ m₁ _ w₁ ⟨rfl, hcells, hshow⟩
  have hstart := Program.start_follows hcompiled h.params rd.scene.injected entry hshow
  have hrun : onStore ((f h.template).start su.context h.params rd.scene.injected entry)
      ⟨rd, reg, su.context⟩ m₁ =
        .ok ((f h.template).start su.context h.params rd.scene.injected entry m₁.store).1
        { m₁ with store := ((f h.template).start su.context h.params rd.scene.injected entry
          m₁.store).2 } := rfl
  refine .skip hrun ?_
  rw [Act.bind_apply]
  cases hs : (f h.template).start su.context h.params rd.scene.injected entry m₁.store with
  | mk result s' =>
    rw [hs] at hstart
    cases hb : Direct.bindParams su h.template.name h.params rd.scene.injected
        h.template.params w₁ with
    | ok bound w₂ =>
      rw [hb] at hstart
      cases result with
      | error e => exact hstart.elim
      | ok id => exact ⟨⟨hcells, hstart.2⟩, _, _, rfl, rfl, rfl, rfl, rfl, hstart.1⟩
    | error e w₂ =>
      rw [hb] at hstart
      cases result with
      | ok id => cases e <;> exact hstart.elim
      | error e' => cases e <;> exact hstart

/-! ## The end of a call -/

/-- What the callee has put into a buffer is filtered, and goes on. -/
theorem passOn_follows (hm : m.store.Shows made su.futures.states w) (sink : Sink)
    (args : List (List Value)) (v : Value) (mark : Nat) :
    Follows waits (fun _ m' (_ : Unit) w' => m.Still mark made su.futures.states m' w')
      (passOn sink fs args v sur m) ((do
        let v ← Act.ofExcept (Filter.applyAll su.futures (Eval.applied fs args) v)
        Act.write sink (v.text su.futures)) w) := by
  have hact : Operand (fun _ => False) (fun _ _ _ => False) (fun _ => False)
      fun _ => Eval.filtered fs args v >>= Eval.text :=
    fun {_ _ _} hc _ => hc.bind (hc.filtered fs args v) fun w => hc.text w
  have hclean : m.memory.Keeps made (fun _ => none) (env sur m) :=
    .of_clean hm.sound (fun _ _ hn => (hn rfl).elim) _
  obtain ⟨r, mem, _, _, hx, _, hmoves, hkeeps, _, _⟩ :=
    hclean.eval hm.tidy hact (fun _ hf => hf.elim) fun _ _ _ hf => hf.elim
  have hshows : (after m mem).store.Shows made su.futures.states w :=
    ⟨hm.tidy, hkeeps.heap, hmoves.states.trans hm.states, hmoves.fresh.trans hm.fresh, hm.streams,
      hm.messages, hm.unlimited⟩
  -- the futures are those of the direct run
  have hresult : r = ((Filter.applyAll su.futures (Eval.applied fs args) v).mapError
      Stop.failed).map (·.text su.futures) := by
    have hstates : m.memory.heap.futures.states = su.futures.states := hm.states
    have hx' := hx
    rw [Eval.bind_apply, Eval.filtered_apply, Filter.applyAll_congr hstates] at hx'
    cases happly : Filter.applyAll su.futures (Eval.applied fs args) v with
    | error e =>
      rw [happly] at hx'
      exact (Eval.ending_inj (r := .error (.failed e)) hx').1.symm
    | ok v' =>
      rw [happly] at hx'
      have hx' : Eval.text v' _ _ = _ := hx'
      rw [Eval.text_apply] at hx'
      rw [(Eval.ending_inj (r := .ok _) hx').1.symm]
      exact congrArg Except.ok (Value.text_congr hstates v')
  unfold passOn
  rw [bind_apply, eval_ending hx, hresult]
  cases Filter.applyAll su.futures (Eval.applied fs args) v with
  | error e => exact ⟨rfl, hshows.left⟩
  | ok v' =>
    have happend : Follows waits _ (onSink (·.append sink (v'.text su.futures)) sur (after m mem))
        _ :=
      append_follows hshows sink (v'.text su.futures)
    refine happend.imp ?_
    rintro _ m' _ w' ⟨hcells, hshow⟩
    refine ⟨?_, hshow⟩
    rw [hcells]
    exact ⟨hmoves.size, fun j _ => hmoves.rest j rfl⟩

/-- A callee that is through comes back to its caller as in the direct run. -/
theorem comeBack_follows {args : List (List Value)} (hchain : Eval.applied fs args = h.chain)
    (hm : m.store.Shows made su.futures.states w) {out : Out} {mark : Nat} {sink : Sink}
    (ho : out.Reaches rd mark m.cells sink) {slot : Nat} (hslot : mark ≤ slot) {id : RenderId}
    (hkind : m.store.renders[id]?.map (·.program.kind) = some h.template.kind)
    (place : Sink × Nat × Option BufferId) :
    Follows waits (fun _ m' (_ : Unit) w' => m.Still mark made su.futures.states m' w')
      (comeBack .done out slot fs
        { callee := id, entry := place.1, stages := place.2.1, buffer := place.2.2, args }
      ⟨rd, reg, su.context⟩ m) (Direct.finished su h sink place w) := by
  obtain ⟨entry, stages, buffer⟩ := place
  -- the call has left its cell
  let m₁ : Machine := { m with cells := m.cells.write slot .empty }
  have hs₁ : m.Still mark made su.futures.states m₁ w := Machine.Still.write ⟨.refl .., hm⟩ hslot _
  let st : CallState := { callee := id, entry, stages, buffer, args }
  have hrun : comeBack .done out slot fs st ⟨rd, reg, su.context⟩ m =
    finishCall st out fs ⟨rd, reg, su.context⟩ m₁ := rfl
  have htarget : target out ⟨rd, reg, su.context⟩ m₁ = .ok sink m₁ := (ho.keep hs₁.cells).target rfl
  change Follows waits _ (comeBack .done out slot fs st ⟨rd, reg, su.context⟩ m) _
  rw [hrun, finishCall_apply, htarget]
  cases buffer with
  | none =>
    refine (close_follows hs₁.store entry stages).imp ?_
    rintro _ m' _ w' ⟨hcells, hshow⟩
    exact ⟨by rw [hcells]; exact hs₁.cells, hshow⟩
  | some buf =>
    have hwritten : written st buf m₁ =
        Value.ofContent h.template.kind (w.streams.bufferText buf) := by
      have hkind : m₁.store.renders[st.callee]?.map (·.program.kind) = some h.template.kind := hkind
      have hstreams : m₁.store.streams = w.streams := hm.streams
      rw [written, hkind, hstreams]
      rfl
    have hpass : Follows waits _ (passOn sink fs args (written st buf m₁) ⟨rd, reg, su.context⟩ m₁)
        _ :=
      passOn_follows hs₁.store sink args (written st buf m₁) mark
    rw [hchain] at hpass
    change Follows waits _ (passOn sink fs args (written st buf m₁) ⟨rd, reg, su.context⟩ m₁) _
    rw [hwritten] at hpass ⊢
    exact hpass.imp fun _ _ _ _ hs => hs₁.trans hs

end Exec

/-! ## Calls -/

namespace Render.Plays

variable {su : Setup} {reg : Registry} {context : Context} {id : RenderId} {rd : Render}
  {β γ : Type} {depth : Nat}
  {x : Course} {next : γ → Nat} {ok : γ → Machine → World → Prop} {pc slot : Nat} {out : Out}
    {site : CallSite}
  {fs : List FilterCall} {extent : Option Extent} {m : Machine} {w : World}

/-- The code goes on with a call: it is started, then its callee is run. -/
theorem call (hi : rd.program.code[pc]? = some { op := .call out slot site fs, extent }) {y : Act β}
    {g : β → Act γ} {opens : Option CallState → Machine → β → World → Prop}
    (hstart : Exec.Follows (extent.isSome = true) opens
      (Exec.callState { op := .call out slot site fs, extent } out slot site fs ⟨rd, reg, context⟩
        (m.setUp { op := .call out slot site fs, extent })) (y w))
    (hnone : ∀ m' b w', opens none m' b w' →
      rd.Plays reg context id depth (rd.course reg context id (pc + 1) m') next ok (g b w'))
    (hsome : ∀ st m' b w', opens (some st) m' b w' →
      rd.Plays reg context id depth (Course.caller reg context id rd pc out slot fs st m'
        fun n => m'.store.invoke reg context n st.callee) next ok (g b w')) :
    rd.Plays reg context id depth (rd.course reg context id pc m) next ok ((y >>= g) w) := by
  have hstep (n : Nat) : rd.course reg context id pc m (n + 1) = _ :=
    (Store.steps_fresh hi n m).trans
      (Store.steps_call hi n (m.setUp { op := .call out slot site fs, extent }))
  cases hr : Exec.callState { op := .call out slot site fs, extent } out slot site fs
      ⟨rd, reg, context⟩ (m.setUp { op := .call out slot site fs, extent }) with
  | error e m' =>
    rw [hr] at hstart
    simp only [hr] at hstep
    have hstop : Exec.Follows (extent.isSome = true) (fun (_ : Unit) _ (_ : γ) _ => False)
        (.error e m') ((y >>= g) w) := by
      rw [Act.bind_apply]
      cases hy : y w with
      | ok b w' => rw [hy] at hstart; cases e <;> exact hstart.elim
      | error e' w' => rw [hy] at hstart; cases e <;> cases e' <;> exact hstart
    exact interrupted_step hi hstep rfl hstop
  | ok started m' =>
    rw [hr] at hstart
    simp only [hr] at hstep
    rw [Act.bind_apply]
    cases hy : y w with
    | error e w' => rw [hy] at hstart; cases e <;> exact hstart.elim
    | ok b w' =>
      rw [hy] at hstart
      cases started with
      | none =>
        exact (hnone m' b w' hstart).lead
          (.of_step hstep rfl (rd.course_steady reg context id (pc + 1) m'))
      | some st =>
        have hsteady : Course.Steady fun n => m'.store.invoke reg context n st.callee :=
          fun hf => Store.invoke_approximates reg context hf ..
        refine (hsome st m' b w' hstart).lead (.of_step hstep rfl ?_)
        exact hsteady.caller

/-- A caller plays what its callee answers, and what is done when that is through. -/
theorem caller {i : Instr} {st : CallState} {made : Array Thunk}
    (hi : rd.program.code[pc]? = some i) (hext : i.extent.isSome = true) (hs : x.Steady)
    {y : Act Unit} {g : Act γ} (hx : x.Answers su made depth (y w))
    (hback : ∀ s made' w', x.Comes (.done, s) → Thunk.Extends made made' →
      s.Shows made' su.futures.states w' →
      Exec.Follows (i.extent.isSome = true) (fun _ m' b w'' => next b = pc + 1 ∧ ok b m' w'')
      (Exec.comeBack .done out slot fs st ⟨rd, reg, context⟩ { m with store := s }) (g w')) :
    rd.Plays reg context id depth (x.caller reg context id rd pc out slot fs st m) next ok
        ((y >>= fun _ => g) w) := by
  -- what the caller takes back once the callee has come to a result
  have htake {result : Outcome × Store} (hcomes : x.Comes result) {e : Interrupt} {m' : Machine}
      (hrun : Exec.comeBack result.1 out slot fs st ⟨rd, reg, context⟩
        { m with store := result.2 } = .error e m') :
      (x.caller reg context id rd pc out slot fs st m).Comes
          (Store.interrupt context id rd pc m' e) := by
    obtain ⟨n, hn⟩ := hcomes
    refine ⟨n, fun k hk => ?_⟩
    unfold Course.caller Store.takeBack
    rw [hn k hk, hrun]
  rw [Act.bind_apply]
  cases hy : y w with
  | error e w' =>
    rw [hy] at hx
    cases e with
    | failed e =>
      obtain ⟨s, hcomes, hleft⟩ := hx
      exact ⟨s, htake hcomes rfl, hleft⟩
    | waiting p =>
      obtain ⟨s, hcomes, hleft⟩ := hx
      exact ⟨pc, i, { m with store := s }, hi, hext, htake hcomes rfl, hleft⟩
    | exhausted =>
      intro n hn
      unfold Course.caller
      rw [Course.takeBack_exhausted (h := hx n hn)]
      exact hx n hn
    | broken => exact hx.elim
  | ok _ w' =>
    rw [hy] at hx
    obtain ⟨s, made', hcomes, he, hshow⟩ := hx
    have hback := hback s made' w' hcomes he hshow
    simp only
    cases hr : Exec.comeBack .done out slot fs st ⟨rd, reg, context⟩ { m with store := s } with
    | ok u m' =>
      rw [hr] at hback
      cases hg : g w' with
      | error e w'' => rw [hg] at hback; cases e <;> exact hback.elim
      | ok b w'' =>
        rw [hg] at hback
        obtain ⟨hnext, hok⟩ := hback
        refine ⟨m', ?_, hok⟩
        rw [hnext]
        exact Store.takeBack_leads hs hcomes hr
    | error e m' =>
      rw [hr] at hback
      refine interrupted hi (htake hcomes hr) (fun hexh n _ => ?_) hback
      -- the callee is through, or was not yet
      by_cases hne : (x n).1 = .exhausted
      · unfold Course.caller
        rw [Course.takeBack_exhausted (h := hne)]
        exact hne
      · obtain ⟨k, hk⟩ := hcomes
        have hsame := (hs (Nat.le_max_left n k)).eq hne
        rw [hk _ (Nat.le_max_right n k)] at hsame
        unfold Course.caller Store.takeBack
        rw [← hsame, hr, hexh]
        rfl

end Render.Plays

namespace Exec

variable {su : Setup} {reg : Registry} {rd : Render} {made : Array Thunk} {m : Machine} {w : World}
  {r : Reading}
  {a : Analyzer} {f : Template → Program} {b b' : Program.Builder} {slot : Nat} {x : Extent}
    {site : CallSite}
  {fs : List FilterCall} {out : Out} {sink : Sink} {name : String} {target : CallTarget}
    {data : CallData}
  {params : List (CallParam (List Plan))} {contents : List (Option Value)} {ds : List Directive}

/-- A call that goes nowhere, or is under way as in the direct run. -/
def Opened (su : Setup) (f : Template → Program) (made : Array Thunk) (fs : List FilterCall)
    (mark : Nat) (m : Machine) (started : Option CallState) (m' : Machine)
    (opened : Option Direct.Underway) (w' : World) : Prop :=
  m.Still mark made su.futures.states m' w' ∧
    match started, opened with
    | none, none => True
    | some st, some u =>
      u.handover.template ∈ su.templates.all ∧ Eval.applied fs st.args = u.handover.chain ∧
        u.place = (st.entry, st.stages, st.buffer) ∧
        m'.store.Begun st.callee (f u.handover.template) u.scene st.entry
    | _, _ => False

/-- A call is started as in the direct run. -/
theorem startCall_follows (hcomp : su.Compiled a f reg) (h : Situated su made b m r w)
    (hx : Program.Build.Stepped b b' (some .renderer) slot x) {table : Table}
    (ht : site.Touches (· < b.slots.mark) (keepIn x.memo x.high table) fs)
    (hcome : ∀ env cells, m.cells.SameBelow b.slots.mark cells →
      site.Comes ⟨su.futures.states, env, cells, #[]⟩ (Thunk.meaning made) r fs name target data
      params contents ds) (ho : out.Reaches rd b.slots.mark m.cells sink) :
    Follows ((some x).isSome = true) (Opened su f made fs b.slots.mark m)
      (startCall out site fs ⟨rd, reg, su.context⟩
      (m.setUp { op := .call out slot site fs, extent := some x }))
      ((rd.scene.eval su (Direct.dispatch su.templates r rd.scene.data name target data params
        contents ds) >>= Direct.opening su rd.scene.injected sink) w) := by
  have hop : Operand (· < b.slots.mark) (keepIn x.memo x.high table) (fun slot =>
      ∃ name, .content name slot ∈ site.args) (Eval.dispatch · reg rd.data site fs) :=
        Operand.dispatch ht
  have hdispatch := (h.evaluates (f := Option.map fun d =>
    (d.program, d.params, Eval.applied fs d.args)) (g := Option.map fun h : Handover =>
      (f h.template, h.params, h.chain)) hx
    (i := { op := .call out slot site fs, extent := some x }) rfl rfl
    hop
    (d := Direct.dispatch su.templates r rd.scene.data name target data params contents ds)
    (fun j hj => ?_) (fun env cells hc => ?_) rd reg).also
    (p := fun found found' => (∀ d, found = some d → d.args.length = fs.length) ∧
      ∀ h : Handover, found' = some h → h.template ∈ su.templates.all) ?_
  · rw [startCall_eq]
    refine hdispatch.bind ?_
    rintro found m₁ found' w₁ ⟨⟨hfound, hs₁⟩, hlen, hmem⟩
    cases found with
    | none =>
      cases found' with
      | some h => cases hfound
      | none => exact ⟨hs₁, trivial⟩
    | some d =>
      cases found' with
      | none => cases hfound
      | some h =>
        have hlaunch : Follows ((some x).isSome = true) _ _ _ := launch_follows hcomp (hmem h rfl)
          (Option.some.inj hfound) (hlen d rfl) hs₁.store (ho.keep hs₁.cells)
        refine hlaunch.imp ?_
        rintro _ m₂ _ w₂ ⟨⟨hcells, hshow⟩, st, u, rfl, rfl, hargs, rfl, hplace, hbegun⟩
        refine ⟨⟨by rw [hcells]; exact hs₁.cells, hshow⟩, hmem _ rfl, ?_, hplace, hbegun⟩
        injection Option.some.inj hfound with _ hrest
        injection hrest with _ hchain
        rw [hargs]
        exact hchain
  · obtain ⟨name, hm⟩ := hj
    exact ⟨touchArguments_content ht.args hm,
      (hcome (rd.scene.env su) m.cells (.refl ..)).args.content_held hm⟩
  · have hsite := hcome env cells hc
    rw [← hsite.name]
    exact Direct.dispatch_alike hcomp.maps hsite.callee hsite.passed hsite.args
      hsite.filters rd.data
  · rintro found m₁ found' w₁ hfound hfound'
    constructor
    · rintro d rfl
      obtain ⟨mem, hmem, -⟩ := eval_ok hfound
      exact Direct.dispatch_args hmem
    · rintro h rfl
      obtain ⟨_, _, _, hd⟩ := Direct.Scene.eval_ok hfound'
      exact Direct.dispatch_mem hd

end Exec

namespace Program

variable {su : Setup} {reg : Registry} {depth : Nat} {a : Analyzer} {f : Template → Program}
  {run : Template → Scene → Sink → Act Unit} {name : String} {target : CallTarget} {data : CallData}
  {params : List (CallParam (List Plan))} {ds : List Directive}

/-- The instruction of a call plays the call. -/
theorem callInstr_plays (id : RenderId) {rd : Render} {made : Array Thunk} {m : Machine} {w : World}
    {r : Reading} {b b' : Builder} {slot pc : Nat} {x : Extent} {site : CallSite}
    {fs : List FilterCall} {out : Out} {sink : Sink} {contents : List (Option Value)}
    (hcomp : su.Compiled a f reg) (hanswers : su.Answers f reg depth run)
    (hi : rd.program.code[pc]? = some { op := .call out slot site fs, extent := some x })
    (h : Situated su made b m r w) (hx : Build.Stepped b b' (some .renderer) slot x) {table : Table}
    (ht : site.Touches (· < b.slots.mark) (keepIn x.memo x.high table) fs)
    (hcome : ∀ env cells, m.cells.SameBelow b.slots.mark cells →
      site.Comes ⟨su.futures.states, env, cells, #[]⟩ (Thunk.meaning made) r fs name target data
      params contents ds) (ho : out.Reaches rd b.slots.mark m.cells sink) :
    rd.Plays reg su.context id depth (rd.course reg su.context id pc m) (fun _ => pc + 1)
      (fun _ m' w' => m.Went su made b.slots.mark m' w')
      ((rd.scene.eval su (Direct.dispatch su.templates r rd.scene.data name target data params
        contents ds) >>= Direct.carryOut su (Direct.start su run) rd.scene.injected sink) w) := by
  let i : Instr := { op := .call out slot site fs, extent := some x }
  obtain ⟨hslot, hlow⟩ := hx.state rfl
  have hmark := hx.low
  have hmemo := hx.mark_le_memo
  have hnew (st : CallState) : (m.setUp i).cells.read slot ≠ .call st := by
    have hclean := (Machine.setUp_still (i := i) rfl rfl h.store).2.2 slot (by omega)
      (Nat.lt_of_lt_of_le (by omega) hx.memo_le)
    rw [hclean]
    exact fun hc => by cases hc
  -- the call gets to its cell
  have hstate : Exec.Follows ((some x).isSome = true) (Exec.Opened su f made fs b.slots.mark m)
      (Exec.callState i out slot site fs ⟨rd, reg, su.context⟩ (m.setUp i))
      ((rd.scene.eval su (Direct.dispatch su.templates r rd.scene.data name target data params
        contents ds) >>= Direct.opening su rd.scene.injected sink) w) := by
    rw [Exec.callState_eq hnew]
    refine (Exec.startCall_follows hcomp h hx ht hcome ho).finish ?_
    rintro started m₁ opened w₁ ⟨hs₁, hopened⟩
    have hs₂ := hs₁.clearMemo (i := i) rfl hmemo
    cases started with
    | none => exact ⟨_, _, rfl, hs₂, hopened⟩
    | some st => exact ⟨_, _, rfl, hs₂.write (by omega) _, hopened⟩
  have hsplit : (rd.scene.eval su
      (Direct.dispatch su.templates r rd.scene.data name target data params contents ds) >>=
      Direct.carryOut su (Direct.start su run) rd.scene.injected sink) =
      (rd.scene.eval su (Direct.dispatch su.templates r rd.scene.data name target data params
        contents ds) >>= Direct.opening su rd.scene.injected sink) >>=
            Direct.closing su sink run := by
    rw [bind_assoc]
    exact bind_congr fun found => Direct.carryOut_start ..
  rw [hsplit]
  refine .call hi hstate ?_ ?_
  · rintro m₁ opened w₁ ⟨hs₁, hopened⟩
    cases opened with
    | some u => exact hopened.elim
    | none => exact .done rfl hs₁.went
  · rintro st m₁ opened w₁ ⟨hs₁, hopened⟩
    cases opened with
    | none => exact hopened.elim
    | some u =>
    obtain ⟨hmem, hchain, hplace, hbegun⟩ := hopened
    have hanswer := hanswers hmem hbegun hs₁.store
    rw [show st.entry = u.place.1 by rw [hplace]] at hanswer
    have hsteady : Course.Steady fun n => m₁.store.invoke reg su.context n st.callee :=
      fun hf => Store.invoke_approximates reg su.context hf ..
    refine .caller hi rfl hsteady hanswer ?_
    intro s made' w' hcomes he hshow
    have hkind : s.renders[st.callee]?.map (·.program.kind) = some u.handover.template.kind := by
      obtain ⟨rd', hrd', hprogram, _⟩ := hbegun.found
      obtain ⟨n, hn⟩ := hcomes
      have hkeep := (Store.keepsPrograms_runOrder.runs su.context reg n).1 st.callee m₁.store
        st.callee rd'.program (by rw [hrd']; rfl)
      have hdone : m₁.store.invoke reg su.context n st.callee = (.done, s) := hn n (Nat.le_refl n)
      rw [hdone] at hkeep
      obtain ⟨rd'', hrd'', hsame⟩ := Option.map_eq_some_iff.1 hkeep
      rw [hrd'', Option.map_some, hsame, hprogram, (ofTemplate_known (hcomp.programs _ hmem)).2.1]
    have hback : Exec.Follows ((some x).isSome = true)
        _ (Exec.comeBack .done out slot fs _ ⟨rd, reg, su.context⟩ _) _ :=
      Exec.comeBack_follows (m := { m₁ with store := s }) hchain hshow (ho.keep hs₁.cells)
        (by omega) hkind u.place
    rw [hplace] at hback ⊢
    refine hback.imp ?_
    rintro _ m₂ _ w₂ hs₂
    exact ⟨rfl, made', he, hs₁.cells.trans hs₂.cells, hs₂.store⟩

theorem call_performs (hcomp : su.Compiled a f reg) (hanswers : su.Answers f reg depth run)
    (hparams : CarriesContents su reg depth a (Direct.start su run) params) :
    Performs su reg depth a (fun out pc => compilePlan out pc (.call name target data params ds))
      fun scene r sink => Direct.plan su (Direct.start su run) scene r sink
      (.call name target data params ds) := by
  intro out pc b b' is id rd made m r sink w hcode hhas hsize h ho
  unfold compilePlan at hcode
  obtain ⟨check, hcode, hcheck⟩ := check_plays h.slots hcode
  obtain ⟨b₄, hcode, hexit⟩ := Build.inScope_ok hcode
  obtain ⟨⟨slots, code⟩, b₁, hcontents, hcode⟩ := Build.bind_ok hcode
  obtain ⟨⟨⟨site, fs⟩, slot, x⟩, b₂, hstep, hcode⟩ := Build.bind_ok hcode
  obtain ⟨rfl, rfl⟩ := Build.pure_ok hcode
  obtain ⟨g, hp, hslots⟩ := compileContents_ok params h.inner.holds hcontents
  obtain ⟨hx, ht⟩ := Build.step_ok (P := fun keep _ => site.Touches (· < b₁.slots.mark) keep fs)
    hp.holds.slots hstep
    fun _ _ hw hl hparts => (callParts_ok hw (by rw [hl]; exact hp.holds.locals) hslots hparts).imp
      (fun _ _ _ hk ht => ht.mono (fun _ hi => hi) hk)
      fun _ _ ht => ht.1.mono (fun i hi => hp.holds.bound i hi) fun _ _ _ hk => hk
  obtain ⟨table, ht⟩ := ht []
  obtain ⟨b₅, b₆, _, hl₅, hparts⟩ := Build.step_parts hp.holds.slots hstep
  obtain ⟨hr, hsame⟩ := hexit (hp.grows.trans (hx.resized.grows hp.holds.slots))
  rw [hsame] at hsize
  obtain ⟨m₁, hlead, hs₁⟩ := hcheck hhas.head h.store b.slots.mark
  have h₁ := h.still (.refl made) hs₁
  unfold Direct.plan
  refine .lead hlead ((hparams id hcontents hhas.tail.left ?_ h₁.inner).bind ?_)
  · rw [hs₁.cells.size]
    exact Nat.le_trans hx.resized.size hsize
  rintro contents m₂ w₂ ⟨⟨made₂, he₂, hs₂⟩, hcells, hbelow, hl₂⟩
  have h₂ := (h₁.inner.still he₂ hs₂).grown hp.grows hl₂
  have ho₂ : out.Reaches rd b₁.slots.mark m₂.cells sink :=
    ((ho.keep hs₁.cells).keep hs₂.cells).mono hp.grows.mark
  have hcome (env : Env) (cells : Cells) (hc : m₂.cells.SameBelow b₁.slots.mark cells) :
      site.Comes ⟨su.futures.states, env, cells, #[]⟩ (Thunk.meaning made₂) r fs name target data
          params contents ds :=
    callParts_come (by rw [hl₅]; exact h₂.readAs hc env) (hcells.keep hbelow hc) hparts
  have hplays := callInstr_plays id hcomp hanswers hhas.tail.right.head h₂ hx ht hcome ho₂
  rw [← bind_assoc]
  refine hplays.bind fun _ m₃ w₃ hw =>
    .done ?_ (h.went (.after he₂ (hs₁.trans hs₂) hw hp.grows.mark) hr)
  simp only [List.length_append, List.length_cons, List.length_nil]
  omega

end Program

end Interlude
