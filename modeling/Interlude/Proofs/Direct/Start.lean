import Interlude.Proofs.Direct.Loop
/-!
# Renders that are started

Starting a render binds the params of its program, where the direct run binds those of the template:
the code of a default comes to what the default comes to (`Program.start_follows`). Once it is
started, a render answers a direct run if its calls come to what the run of the body comes to.
-/

namespace Interlude

open Direct (World Act Setup Scene Caller)

/-! ## Programs of templates -/

/-- The declaration of a param, compiled. -/
structure ParamDecl.Declares (a : Analyzer) (d : ParamDecl) (p : Param) : Prop where
  name : d.name = p.name
  required : d.required = p.required
  injected : d.injected = p.injected
  default : Program.paramDefault a p.default = .ok d.default

theorem Program.compileParams_declares {a : Analyzer} {seen : List String} {ps : List Param}
    {ds : List ParamDecl} (h : compileParams a seen ps = .ok ds) :
    List.Forall₂ (ParamDecl.Declares a) ds ps := by
  induction ps generalizing seen ds with
  | nil =>
    cases h
    exact .nil
  | cons p rest ih =>
    unfold compileParams at h
    simp only at h
    generalize (if p.injected then "$ij." ++ p.name else p.name) = key at h
    split at h
    · cases h
    · obtain ⟨default, hdefault, h⟩ := Except.bind_ok h
      obtain ⟨later, hlater, h⟩ := Except.bind_ok h
      cases h
      exact .cons ⟨rfl, rfl, rfl, hdefault⟩ (ih hlater)

/-- The registry of the programs of the templates. -/
structure Direct.Setup.Compiled (su : Setup) (a : Analyzer) (f : Template → Program)
    (reg : Registry) : Prop where
  maps : Directory.Maps f su.templates reg.directory
  programs : ∀ t ∈ su.templates.all, Program.ofTemplate a t = .ok (f t)

/-! ## Params -/

namespace Binding.Step

/-- A step of binding params ends as a direct run does, from a store whose heap it changes. -/
def Follows {α : Type} (su : Setup) (made : Array Thunk) (s : Store) :
    EStateM.Result Failure Heap α → EStateM.Result Stop World α → Prop
  | .ok a heap, .ok b w => a = b ∧ ({ s with heap } : Store).Shows made su.futures.states w
  | .error e heap, .error (.failed e') w => e = e' ∧ ({ s with heap } : Store).Left w
  | _, _ => False

theorem Follows.bind {α β : Type} {su : Setup} {made : Array Thunk} {s : Store}
    {x : Binding.Step α} {y : Act α} {f : α → Binding.Step β} {g : α → Act β} {heap : Heap}
    {w : World} (hx : Follows su made s (x heap) (y w))
    (hf : ∀ a heap' w', ({ s with heap := heap' } : Store).Shows made su.futures.states w' →
      Follows su made s (f a heap') (g a w')) :
    Follows su made s ((x >>= f) heap) ((y >>= g) w) := by
  rw [bind_apply, Act.bind_apply]
  cases hxm : x heap with
  | ok a heap' =>
    cases hyw : y w with
    | ok b w' =>
      rw [hxm, hyw] at hx
      obtain ⟨rfl, hs⟩ := hx
      exact hf a heap' w' hs
    | error e w' => rw [hxm, hyw] at hx; exact hx.elim
  | error e heap' =>
    cases hyw : y w with
    | ok b w' => rw [hxm, hyw] at hx; exact hx.elim
    | error e' w' => rw [hxm, hyw] at hx; cases e' <;> exact hx

end Binding.Step

open Binding.Step

/-- A param that was not given has the same value. -/
theorem ParamDecl.absent_follows {su : Setup} {a : Analyzer} {made : Array Thunk}
    {d : ParamDecl} {p : Param} (hd : d.Declares a p) {s : Store} {w : World}
    (h : s.Shows made su.futures.states w) (template : String) (env : Env) :
    Binding.Step.Follows su made s (d.absent template env s.heap)
      (Direct.absent su.futures template p env w) := by
  unfold ParamDecl.absent Direct.absent
  rw [hd.required, hd.name]
  cases p.required with
  | true => exact ⟨rfl, h.left⟩
  | false =>
  simp only [Bool.false_eq_true, if_false]
  have hdefault := hd.default
  cases he : p.default with
  | none =>
    rw [he] at hdefault
    injection hdefault with hnone
    rw [← hnone]
    exact ⟨rfl, h⟩
  | some e =>
    rw [he] at hdefault
    obtain ⟨⟨c, slots⟩, hc, hsome⟩ := Except.bind_ok hdefault
    injection hsome with hsome
    obtain ⟨table, htouch⟩ := Program.paramDefault_fits hdefault hsome.symm
    rw [← hsome]
    -- the code is evaluated on clean cells, under the next number
    let mem : Memory := ⟨Cells.cleared slots.size, { s.heap with fresh := s.heap.fresh + 1 }⟩
    let env' : Env := { env with maker := s.heap.fresh }
    have hsound : mem.heap.Sound made := ⟨h.sound.size, h.sound.thunks⟩
    have hkeeps : mem.Keeps made table env' := .of_cleared hsound slots.size env'
    have hact : Operand (fun _ => False) (keepIn 0 slots.size table) (fun _ => False)
        (c.value · []) :=
      fun {_ _ _} hc _ => hc.value htouch
    obtain ⟨r, mem', n, b, husual, hmeaning, hmoves, hkeeps', _, _⟩ :=
      hkeeps.eval h.tidy hact (fun _ hi => hi.elim)
      fun _ _ _ hk => hk.2.2
    -- without locals the expression is evaluated alike
    let P : Pairing := ⟨su.futures.states, env', mem.cells, #[]⟩
    have hcome : P.Alike Value (c.value (.meaning made) []) (e.eval .none []) := by
      have hmeans : c.value (.plain (Thunk.meaning made)) [] =
          e.eval (Locals.empty.reading (Thunk.meaning made)) [] :=
        Expr.compile_means hc (Thunk.meaning made) []
      change P.Alike Value (c.value (.plain (Thunk.meaning made)) []) _
      rw [hmeans]
      exact Expr.eval_alike e (Locals.readAs_empty P _ _) []
    obtain ⟨r', _, k, hl, hr, _, _⟩ :=
      hcome mem ⟨#[], { futures := su.futures }⟩ h.states rfl rfl rfl
    obtain ⟨rfl, _⟩ := Eval.ending_inj (hmeaning.symm.trans hl)
    have hr : e.eval .none [] { env with maker := w.fresh } ⟨#[], { futures := su.futures }⟩ =
        Eval.ending r k := by
      rw [← h.fresh]
      exact hr
    have hshows : ({ s with heap := mem'.heap } : Store).Shows made su.futures.states
        { w with fresh := w.fresh + 1 } :=
      ⟨h.tidy, hkeeps'.heap, hmoves.states.trans h.states,
        hmoves.fresh.trans (congrArg (· + 1) h.fresh), h.streams, h.messages, h.unlimited⟩
    have husual : c.value .usual [] { env with maker := s.heap.fresh }
        ⟨Cells.cleared slots.size, { s.heap with fresh := s.heap.fresh + 1 }⟩ =
        Eval.ending r mem' := husual
    simp only [husual, Act.eval, hr]
    cases r with
    | ok v => exact ⟨rfl, hshows⟩
    | error e => cases e <;> exact ⟨rfl, hshows.left⟩

theorem Program.bindParams_follows {su : Setup} {a : Analyzer} {made : Array Thunk}
    {ds : List ParamDecl} {ps : List Param} (hd : List.Forall₂ (ParamDecl.Declares a) ds ps)
    (template : String) (params injected : List (String × Value)) {s : Store} {w : World}
    (h : s.Shows made su.futures.states w) :
    Binding.Step.Follows su made s (bindParams su.context template params injected ds s.heap)
      (Direct.bindParams su template params injected ps w) := by
  induction hd generalizing params injected s w with
  | nil => exact ⟨rfl, h⟩
  | @cons d p ds ps hdecl _ ih =>
    unfold bindParams Direct.bindParams
    rw [hdecl.injected, hdecl.name]
    cases (if p.injected then injected else params).lookup p.name with
    | some v => exact ih params injected h
    | none =>
      refine (d.absent_follows hdecl h template _).bind fun v heap w' h' => ?_
      have ih (params injected) := ih params injected h'
      cases p.injected with
      | true => exact ih ..
      | false => exact ih ..

/-! ## Starting -/

/-- A render that was started: it is ready, and was given what the direct run was given. -/
structure Store.Begun (s : Store) (id : RenderId) (p : Program) (scene : Scene)
    (sink : Sink) : Prop where
  found : ∃ rd, s.renders[id]? = some rd ∧ rd.program = p ∧ rd.status = .ready ∧ rd.scene = scene ∧
    rd.sink = sink

/-- Starting a render ends as binding the params of its template. -/
theorem Program.start_follows {su : Setup} {a : Analyzer} {made : Array Thunk} {t : Template}
    {p : Program} (hp : ofTemplate a t = .ok p) (params injected : List (String × Value))
    (sink : Sink) {s : Store} {w : World} (h : s.Shows made su.futures.states w) :
    match p.start su.context params injected sink s,
    Direct.bindParams su t.name params injected t.params w with
    | (.ok id, s'), .ok bound w' =>
      s'.Begun id p { template := t.name, params := bound.1, injected := bound.2, data := params }
        sink ∧ s'.Shows made su.futures.states w'
    | (.error e, s'), .error (.failed e') w' => e = e' ∧ s'.Left w'
    | _, _ => False := by
  obtain ⟨ds, hds, hrest⟩ := Except.bind_ok hp
  obtain ⟨⟨code, b⟩, _, hpure⟩ := Except.bind_ok hrest
  cases hpure
  have hbind := bindParams_follows (compileParams_declares hds) t.name params injected h
  unfold Program.start
  simp only
  cases hm : bindParams su.context t.name params injected ds s.heap with
  | error e heap =>
    rw [hm] at hbind
    cases hw : Direct.bindParams su t.name params injected t.params w with
    | ok bound w' => rw [hw] at hbind; exact hbind.elim
    | error e' w' => rw [hw] at hbind; cases e' <;> exact hbind
  | ok bound heap =>
    rw [hm] at hbind
    cases hw : Direct.bindParams su t.name params injected t.params w with
    | error e' w' => rw [hw] at hbind; cases e' <;> exact hbind.elim
    | ok bound' w' =>
      rw [hw] at hbind
      obtain ⟨rfl, hs⟩ := hbind
      refine ⟨⟨_, Array.getElem?_push_size .., rfl, rfl, rfl, rfl⟩, ?_⟩
      exact { hs with }

/-! ## Answers -/

/-- The calls of a render come to what a direct run comes to. They are exhausted in `depth` steps if
the direct run is. -/
def Course.Answers (su : Setup) (made : Array Thunk) (depth : Nat) (x : Course) :
    EStateM.Result Stop World Unit → Prop
  | .ok _ w =>
    ∃ s made', x.Comes (.done, s) ∧ Thunk.Extends made made' ∧ s.Shows made' su.futures.states w
  | .error (.failed e) w => ∃ s : Store, x.Comes (.failed e, s) ∧ s.Left w
  | .error (.waiting p) w => ∃ s : Store, x.Comes (.waiting p, s) ∧ s.Left w
  | .error .exhausted _ => x.Late depth 0
  | .error .broken _ => False

/-- Each render of a template that was started answers the run of the template. -/
def Direct.Setup.Answers (su : Setup) (f : Template → Program) (reg : Registry) (depth : Nat)
    (run : Template → Scene → Sink → Act Unit) : Prop :=
  ∀ ⦃t : Template⦄ ⦃id : RenderId⦄ ⦃scene : Scene⦄ ⦃sink : Sink⦄ ⦃s : Store⦄ ⦃made :
    Array Thunk⦄ ⦃w : World⦄, t ∈ su.templates.all → s.Begun id (f t) scene sink →
    s.Shows made su.futures.states w →
    Course.Answers su made depth (fun n => s.invoke reg su.context n id) (run t scene sink w)

/-- The programs of renders are never changed. -/
def Store.KeepsPrograms (s t : Store) : Prop :=
  ∀ (id : RenderId) (p : Program), s.renders[id]?.map (·.program) = some p →
    t.renders[id]?.map (·.program) = some p

theorem Store.KeepsPrograms.of_renders {s t : Store} (h : t.renders = s.renders) :
    s.KeepsPrograms t := fun id p hp => by
  rw [h]
  exact hp

theorem Store.keepsPrograms_order : Order KeepsPrograms where
  refl s id p hp := hp
  trans h h' id p hp := h' id p (h id p hp)
  heap s heap := .of_renders rfl
  append s sink text := .of_renders rfl
  isLimited s sink := .of_renders rfl
  flush s sink := .of_renders rfl
  wrap s stages sink := .of_renders rfl
  close s stages := .of_renders rfl
  newBuffer s := .of_renders rfl
  logged s e := .of_renders rfl
  push s r id p hp := by
    obtain ⟨r', hr', rfl⟩ := Option.map_eq_some_iff.1 hp
    have hlt := (Array.getElem?_eq_some_iff.1 hr').1
    simp only
    rw [Array.getElem?_push_lt hlt, ← Array.getElem?_eq_getElem hlt, hr']
    rfl

theorem Store.keepsPrograms_runOrder : RunOrder KeepsPrograms fun _ => KeepsPrograms where
  order := keepsPrograms_order
  trans h h' := keepsPrograms_order.trans h h'
  own h := h
  status id s status j p hp := by
    obtain ⟨r', hr', rfl⟩ := Option.map_eq_some_iff.1 hp
    simp only [Store.setStatus, Array.getElem?_modify, hr', Option.map_some]
    split <;> rfl
  called _ _ h := h

end Interlude
