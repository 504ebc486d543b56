import Interlude.Proofs.Registry
import Interlude.Proofs.Render.Step
/-!
# Calls keep stores safe

A call starts a render of a program of the registry, younger than all others, and runs it. What the
callee does is taken from its own runs; here it is enough that these keep stores safe and leave
older renders alone (`instr_meets`).
-/

namespace Interlude

namespace Eval

theorem bind_ok {α β : Type} {x : Eval α} {f : α → Eval β} {env : Env} {m m' : Memory} {b : β}
    (h : (x >>= f) env m = .ok b m') : ∃ a k, x env m = .ok a k ∧ f a env k = .ok b m' := by
  rw [bind_apply] at h
  cases hx : x env m with
  | error e k => rw [hx] at h; cases h
  | ok a k => rw [hx] at h; exact ⟨a, k, rfl, h⟩

theorem ofExcept_ok {α : Type} {r : Except Failure α} {env : Env} {m m' : Memory} {a : α}
    (h : ofExcept r env m = .ok a m') : r = .ok a := by
  cases r with
  | error e => cases h
  | ok b => cases h; rfl

/-- A call goes to a program of the registry. -/
theorem callee_mem {s : Strategy} {reg : Registry} {site : CallSite} {env : Env} {m m' : Memory}
    {p : Program} (h : callee s reg site env m = .ok (some p) m') : p ∈ reg.programs := by
  unfold callee at h
  cases hc : site.callee with
  | template =>
    rw [hc] at h
    obtain ⟨q, k, hq, h⟩ := bind_ok h
    cases h
    exact Registry.template_mem (ofExcept_ok hq)
  | delegate e allowEmpty =>
    rw [hc] at h
    obtain ⟨variant, k, _, h⟩ := bind_ok h
    obtain ⟨env', k', _, h⟩ := bind_ok h
    exact Registry.select_mem (ofExcept_ok h)

theorem dispatch_mem {s : Strategy} {reg : Registry} {data : List (String × Value)}
    {site : CallSite} {fs : List FilterCall} {env : Env} {m m' : Memory} {d : Dispatch}
    (h : dispatch s reg data site fs env m = .ok (some d) m') : d.program ∈ reg.programs := by
  obtain ⟨found, k, hfound, h⟩ := bind_ok h
  cases found with
  | none => cases h
  | some p =>
    obtain ⟨given, k₁, _, h⟩ := bind_ok h
    obtain ⟨params, k₂, _, h⟩ := bind_ok h
    obtain ⟨args, k₃, _, h⟩ := bind_ok h
    cases h
    exact callee_mem hfound

end Eval

/-! ## Starting renders -/

/-- However a step of binding params ends. -/
def Binding.Step.Leaves {α : Type} (h : Heap) : EStateM.Result Failure Heap α → Prop
  | .ok _ h' => h.Later h'
  | .error _ h' => h.Later h'

theorem ParamDecl.absent_leaves (d : ParamDecl) (template : String) (env : Env) (h : Heap) :
    Binding.Step.Leaves h (d.absent template env h) := by
  unfold ParamDecl.absent
  split
  · exact .refl h
  · split
    · exact .refl h
    · next code size _ =>
      have hcong : Congruence
          (Eval.Tame (fun _ => True) (fun _ => False) { env with maker := h.fresh }) (fun _ => True)
          (fun _ _ _ => True) .usual .usual := Eval.Tame.usual _ _ _ fun _ _ _ _ => trivial
      have htame := hcong.value
        (c := code) (p := []) ?_ { cells := Cells.cleared size,
                                   heap := { h with fresh := h.fresh + 1 } }
        (fun _ hf => hf.elim)
      · have hlater {m : Memory} (hm : Memory.Later (fun _ => True)
            { cells := Cells.cleared size, heap := { h with fresh := h.fresh + 1 } } m) :
                h.Later m.heap :=
          ⟨hm.heap.states, hm.heap.blurred, hm.heap.size, hm.heap.thunks⟩
        simp only
        cases hr : code.value .usual [] { env with maker := h.fresh }
            { cells := Cells.cleared size, heap := { h with fresh := h.fresh + 1 } } with
        | ok v m => rw [hr] at htame; exact hlater htame
        | error e m =>
          rw [hr] at htame
          cases e <;> exact hlater htame.2
      · exact Lowered.touches_everywhere _ _

theorem Binding.Step.Leaves.bind {α β : Type} {x : Binding.Step α}
    {f : α → Binding.Step β} {h : Heap} (hx : Leaves h (x h)) (hf : ∀ a h', Leaves h' (f a h')) :
    Leaves h ((x >>= f) h) := by
  change Leaves h (EStateM.bind x f h)
  unfold EStateM.bind
  cases hr : x h with
  | error e h' => rw [hr] at hx; exact hx
  | ok a h' =>
    rw [hr] at hx
    have hrest := hf a h'
    simp only
    cases hr' : f a h' with
    | error e h'' => rw [hr'] at hrest; exact Heap.Later.trans hx hrest
    | ok b h'' => rw [hr'] at hrest; exact Heap.Later.trans hx hrest

theorem Program.bindParams_leaves (context : Context) (template : String) (ds : List ParamDecl) :
    ∀ (params injected : List (String × Value)) (h : Heap),
      Binding.Step.Leaves h (bindParams context template params injected ds h) := by
  induction ds with
  | nil => exact fun _ _ h => .refl h
  | cons d rest ih =>
    intro params injected h
    unfold bindParams
    cases d.injected with
    | true =>
      simp only [if_true]
      cases List.lookup d.name injected with
      | some _ => exact ih params injected h
      | none => exact .bind (d.absent_leaves ..) fun v h' => ih _ _ h'
    | false =>
      simp only [Bool.false_eq_true, if_false]
      cases List.lookup d.name params with
      | some _ => exact ih params injected h
      | none => exact .bind (d.absent_leaves ..) fun v h' => ih _ _ h'

/-- A render was started, or none was; the others had no part in it. -/
structure Store.Started (reg : Registry) (s : Store) (result : Except Failure RenderId)
    (s' : Store) : Prop where
  safe : s'.Safe reg
  later : s.Later s.renders.size s'
  id : ∀ i, result = .ok i → i = s.renders.size ∧ i < s'.renders.size

theorem Program.start_safe {reg : Registry} {p : Program} (hp : p ∈ reg.programs) {s : Store}
    (hs : s.Safe reg) (context : Context) (params injected : List (String × Value)) (sink : Sink) :
    s.Started reg (p.start context params injected sink s).1
      (p.start context params injected sink s).2 := by
  have hleaves := bindParams_leaves context p.name p.params params injected s.heap
  unfold Program.start
  cases hr : bindParams context p.name params injected p.params s.heap with
  | error e heap =>
    rw [hr] at hleaves
    exact ⟨hs.of_heap rfl hleaves, .of_heap rfl hleaves, fun i hi => by cases hi⟩
  | ok bound heap =>
    rw [hr] at hleaves
    obtain ⟨bound, inj⟩ := bound
    refine ⟨⟨?_, ?_, hs.heap.later hleaves⟩,
      ⟨?_, ?_, hleaves.states, hleaves.blurred, Nat.le_of_eq hleaves.size.symm⟩, ?_⟩
    · intro j x hx
      simp only [Array.getElem?_push] at hx
      split at hx
      · cases hx
        exact hp
      · exact hs.programs j x hx
    · intro j x f hx hf
      simp only [Array.getElem?_push] at hx
      split at hx
      · cases hx
        cases hf
      · refine (hs.frames j x f hx hf).grow ?_ (Nat.le_of_eq hleaves.size.symm)
        simp
    · intro j hj
      simp only [Array.getElem?_push]
      rw [if_neg (Nat.ne_of_lt hj)]
    · simp
    · rintro i ⟨⟩
      exact ⟨rfl, by simp⟩

/-! ## Calls -/

/-- What a call comes to is due: what it waits for is pending, and it is not broken. -/
def Outcome.Due (s : Store) : Outcome → Prop
  | .waiting p => s.heap.futures.get p = .pending
  | .broken => False
  | _ => True

/-- Calls of renders keep stores safe, come to what is due, and leave older renders alone. -/
def Invokes (reg : Registry) (invoke : RenderId → Store → Outcome × Store) : Prop :=
  ∀ (id : RenderId) (s : Store), s.Safe reg → id < s.renders.size →
    (invoke id s).2.Safe reg ∧ s.Later id (invoke id s).2 ∧ (invoke id s).1.Due (invoke id s).2

namespace Exec

open Machine

variable {reg : Registry} {id : RenderId} {r : Render} {pc : Nat} {i : Instr}
  {m₀ m : Machine} {g : Shapes}
  {context : Context}

theorem calleeSink_meets {sur : Surroundings} (h : m.Reaches reg id r m₀ g) (kind : ContentKind)
    (fs : List FilterCall) (args : List (List Value)) (sink : Sink) :
    Meets sur m (fun _ m' => m'.Reaches reg id r m₀ g) (Halts reg id r pc i m₀)
      (calleeSink kind fs args sink) := by
  unfold calleeSink
  split
  · exact h
  · split
    · refine (wrap_meets h fs args kind sink).bind fun entry m' h' => ?_
      exact h'
    · refine (newBuffer_meets h).bind fun b m' h' => ?_
      exact h'

/-- The cell of a call is free. -/
theorem Running.state_free (h : Running reg id r pc i m) {out : Out} {slot : Nat} {site : CallSite}
    {fs : List FilterCall} (hop : i.op = .call out slot site fs) :
    r.program.types pc slot = .free := by
  obtain ⟨x, hx⟩ := Option.isSome_iff_exists.1 (h.fits.stops (by rw [hop]; rfl))
  obtain ⟨hfit, hapart⟩ := h.fits.extent x hx
  rw [hop] at hapart
  exact hfit.scratch slot hapart.1 (Nat.lt_of_lt_of_le hapart.2 hfit.memo_le)

/-- Starting a call either fails, or goes nowhere, or gives a callee that is younger than all
renders. -/
theorem startCall_meets {out : Out} {slot : Nat} {site : CallSite} {fs : List FilterCall}
    {extent : Option Extent} (h : Running reg id r pc { op := .call out slot site fs, extent } m) :
    Meets ⟨r, reg, context⟩ m
      (fun started m' => m'.Reaches reg id r m (r.program.types pc) ∧
        ∀ st, started = some st → id < st.callee ∧ st.callee < m'.store.renders.size)
      (Halts reg id r pc { op := .call out slot site fs, extent } m) (startCall out site fs) := by
  obtain ⟨ho, hslot, hargs, hgo⟩ := h.fits.flows
  refine Meets.bind (Q := fun sur m' => sur = ⟨r, reg, context⟩ ∧ m' = m) ⟨rfl, rfl⟩
    fun sur m₁ ⟨hsur, hm⟩ => ?_
  subst hsur hm
  refine ((h.eval_meets (Eval.dispatch · reg r.data site fs) _ rfl ?_ fun _ =>
    Operand.dispatch).result (P := fun d => ∀ d', d = some d' → d'.program ∈ reg.programs) ?_).bind
      fun d m' ⟨h', hd⟩ => ?_
  · rintro j ⟨name, hm⟩
    exact hargs _ hm
  · rintro d m' hrun d' rfl
    rw [eval_apply] at hrun
    split at hrun
    · next found mem hact =>
      cases hrun
      exact Eval.dispatch_mem hact
    · cases hrun
  cases d with
  | none => exact ⟨h', fun st hst => by cases hst⟩
  | some d =>
    refine (target_meets h' ho).bind fun sink m'' hm => ?_
    subst hm
    refine (calleeSink_meets h' d.program.kind fs d.args sink).bind fun place m' h' => ?_
    obtain ⟨entry, stages, buffer⟩ := place
    have hstart := Program.start_safe (hd d rfl) h'.safe.store context d.params r.injected entry
    have hreach := h'.withStore hstart.safe (hstart.later.weaken h'.lt)
    refine Meets.bind (Q := fun result m => m.Reaches reg id r m₁ (r.program.types pc) ∧
      ∀ i, result = .ok i → id < i ∧ i < m.store.renders.size) ⟨hreach, ?_⟩ fun result m' h'' => ?_
    · intro i hi
      obtain ⟨heq, hlt⟩ := hstart.id i hi
      exact ⟨by rw [heq]; exact h'.lt, hlt⟩
    · cases result with
      | error e => exact Reaches.failed h''.1 pc { op := .call out slot site fs, extent } e
      | ok callee =>
        refine ⟨h''.1, fun st hst => ?_⟩
        cases hst
        exact h''.2 callee rfl

/-- The call that is in its cell now. -/
theorem callState_meets (context : Context) {out : Out} {slot : Nat} {site : CallSite}
    {fs : List FilterCall} {extent : Option Extent}
    (h : Running reg id r pc { op := .call out slot site fs, extent } m) :
    Meets ⟨r, reg, context⟩ m
      (fun state m' => m'.Reaches reg id r m (r.program.types pc) ∧
        ∀ st, state = some st → id < st.callee ∧ st.callee < m'.store.renders.size)
      (Halts reg id r pc { op := .call out slot site fs, extent } m)
      (callState { op := .call out slot site fs, extent } out slot site fs) := by
  have hfree := h.state_free rfl
  have hnew : Meets ⟨r, reg, context⟩ m
      (fun state m' => m'.Reaches reg id r m (r.program.types pc) ∧
        ∀ st, state = some st → id < st.callee ∧ st.callee < m'.store.renders.size)
      (Halts reg id r pc { op := .call out slot site fs, extent } m)
      (startCall out site fs >>= register { op := .call out slot site fs, extent } slot) := by
    refine (startCall_meets h).bind fun started m' ⟨h', hst⟩ => ?_
    refine Meets.bind (Q := fun _ m₁ => m₁.Reaches reg id r m (r.program.types pc) ∧
      m₁.store = m'.store) ?_
      fun _ m₁ ⟨h₁, hstore⟩ => ?_
    · have hclear : Meets ⟨r, reg, context⟩ m' (fun _ m₁ =>
          m₁.Reaches reg id r m (r.program.types pc)) (fun _ _ => False) _ :=
            clearMemo_meets h' (h.memo_free fun _ _ => rfl)
      exact ⟨hclear, rfl⟩
    cases started with
    | none => exact ⟨h₁, fun st hst => by cases hst⟩
    | some st =>
      obtain ⟨hlow, hhigh⟩ := hst st rfl
      rw [← hstore] at hhigh
      refine ⟨h₁.withCells (h₁.safe.cells.write_free hfree (c := .call st) ⟨hlow, hhigh⟩), ?_⟩
      rintro st' ⟨⟩
      exact ⟨hlow, hhigh⟩
  refine (cell_meets slot).bind fun c m' ⟨hc, hm⟩ => ?_
  subst hm
  cases c with
  | call st =>
    refine ⟨.refl h.safe, ?_⟩
    rintro st' ⟨⟩
    have hst := h.safe.cells.refers slot
    rw [← hc] at hst
    exact hst
  | _ => exact hnew

/-- Filtering what a callee wrote into a buffer reads no cell. -/
theorem evalFiltered_meets {sur : Surroundings} (h : m.Reaches reg id r m₀ (r.program.types pc))
    (fs : List FilterCall) (args : List (List Value)) (v : Value) (hi : i.extent.isSome = true) :
    Meets sur m (fun _ m' => m'.Reaches reg id r m₀ (r.program.types pc)) (Halts reg id r pc i m₀)
      (eval do
        let w ← Eval.filtered fs args v
        Eval.text w) := by
  have hact : Operand (fun _ => True) (fun _ _ _ => False) (fun _ => False)
      fun _ => Eval.filtered fs args v >>= Eval.text :=
    fun {_ _ _} hc _ => hc.bind (hc.filtered fs args v) fun w => hc.text w
  refine (eval_meets (fun _ => False) hact (fun _ _ _ h => h.elim) fun _ hf => hf.elim).imp ?_ ?_
  · exact fun _ m' he => h.evaluated he fun _ hf => hf.elim
  · exact fun e m' ⟨he, hm⟩ => (h.evaluated hm fun _ hf => hf.elim).fromEval he hi

theorem finishCall_meets {sur : Surroundings} (h : m.Reaches reg id r m₀ (r.program.types pc))
    {out : Out} (ho : out.Fits (r.program.types pc)) (st : CallState) (fs : List FilterCall)
    (hi : i.extent.isSome = true) :
    Meets sur m (fun _ m' => m'.Reaches reg id r m₀ (r.program.types pc)) (Halts reg id r pc i m₀)
      (finishCall st out fs) := by
  refine (target_meets h ho).bind fun sink m' hm => ?_
  subst hm
  cases st.buffer with
  | none => exact close_meets h _ _
  | some b =>
    refine Meets.bind (Q := fun _ m => m = m') rfl fun before m'' hm => ?_
    subst hm
    refine (bufferText_meets b).bind fun t m' hm => ?_
    subst hm
    refine (evalFiltered_meets h fs st.args _ hi).bind fun s m' h' => ?_
    exact onSink_meets (f := (·.append sink s)) h'

theorem proceed_meets {sur : Surroundings} {invoke : RenderId → Store → Outcome × Store}
    (hinv : Invokes reg invoke) (h : m.Reaches reg id r m₀ (r.program.types pc)) {out : Out}
    (ho : out.Fits (r.program.types pc)) {slot : Nat} (hslot : r.program.types pc slot = .free)
    (st : CallState) (fs : List FilterCall)
    (hst : id < st.callee ∧ st.callee < m.store.renders.size) (hi : i.extent.isSome = true) :
    Meets sur m (fun _ m' => m'.Reaches reg id r m₀ (r.program.types pc)) (Halts reg id r pc i m₀)
      (proceed invoke out slot fs st) := by
  obtain ⟨hsafe, hlater, hdue⟩ := hinv st.callee m.store h.safe.store hst.2
  have hreach := h.withStore hsafe (hlater.weaken hst.1)
  refine Meets.bind (Q := fun o m => m.Reaches reg id r m₀ (r.program.types pc) ∧ o.Due m.store)
    ⟨hreach, hdue⟩
    fun o m' ⟨h', ho'⟩ => ?_
  cases o with
  | done => exact (freeCell_meets h' hslot).bind fun _ m' h' => finishCall_meets h' ho st fs hi
  | failed e => exact (freeCell_meets h' hslot).bind fun _ m' h' => Reaches.failed h' pc i e
  | waiting f => exact ⟨hi, h', ho'⟩
  | limited => exact ⟨hi, h'⟩
  | exhausted => exact ⟨h'.safe.store, h'.later⟩
  | broken => exact ho'.elim

theorem call_meets {invoke : RenderId → Store → Outcome × Store} (hinv : Invokes reg invoke)
    {out : Out} {slot : Nat} {site : CallSite} {fs : List FilterCall} {extent : Option Extent}
    (h : Running reg id r pc { op := .call out slot site fs, extent } m) :
    Meets ⟨r, reg, context⟩ m (Advances reg id r m)
      (Halts reg id r pc { op := .call out slot site fs, extent } m)
          (instr invoke pc { op := .call out slot site fs, extent }) := by
  obtain ⟨ho, hslot, hargs, hgo⟩ := h.fits.flows
  have hi := h.fits.stops rfl
  refine Meets.bind (Q := fun _ m' => m'.Reaches reg id r m (r.program.types pc)) ?_
    fun _ m' h' => Advances.of_goes h' hgo
  refine (callState_meets context h).bind fun state m' ⟨h', hst⟩ => ?_
  cases state with
  | none => exact h'
  | some st => exact proceed_meets hinv h' ho (h.state_free rfl) st fs (hst st rfl) hi

/-- One instruction, whatever it is. -/
theorem instr_meets (context : Context) {invoke : RenderId → Store → Outcome × Store}
    (hinv : Invokes reg invoke) (h : Running reg id r pc i m) :
    Meets ⟨r, reg, context⟩ m (Advances reg id r m) (Halts reg id r pc i m)
      (instr invoke pc i) := by
  obtain ⟨op, extent⟩ := i
  cases op with
  | text => exact text_meets h
  | print => exact print_meets h
  | checkLimit => exact checkLimit_meets h
  | jump => exact jump_meets h
  | jumpIfFalse => exact jumpIfFalse_meets h
  | caseMatch => exact caseMatch_meets h
  | store => exact store_meets h
  | storeThunk => exact storeThunk_meets h
  | rangeInit => exact rangeInit_meets h
  | rangeNext => exact rangeNext_meets h
  | rangeStep => exact rangeStep_meets h
  | eachInit => exact eachInit_meets h
  | eachNext => exact eachNext_meets h
  | eachStep => exact eachStep_meets h
  | beginBuffer => exact beginBuffer_meets h
  | endBuffer => exact endBuffer_meets h
  | call => exact call_meets hinv h
  | log => exact log_meets h
  | beginWrap => exact beginWrap_meets h
  | endWrap => exact endWrap_meets h

end Exec

end Interlude
