import Interlude.Proofs.Render.Step
import Interlude.Proofs.Suspension.Expr
import Interlude.Render.Run
/-!
# Instructions that cannot suspend

Only in its expressions, and in a render that it calls, can an instruction meet a pending value. A
render that waits stands at an instruction that has met one (`invoke_waits`).
-/

namespace Interlude

/-- An instruction that calls nobody and runs over no list, with expressions that never wait. -/
def Op.Prompt : Op → Prop
  | .print _ e fs => e.Prompt ∧ ∀ f ∈ fs, ∀ c ∈ f.args, c.Prompt
  | .jumpIfFalse e _ => e.Prompt
  | .caseMatch _ values _ => ∀ c ∈ values, c.Prompt
  | .store _ _ e => e.Prompt
  | .rangeInit _ start stop step =>
    (∀ c ∈ start, c.Prompt) ∧ (∀ c ∈ stop, c.Prompt) ∧ ∀ c ∈ step, c.Prompt
  | .eachInit .. => False
  | .call .. => False
  | .beginWrap _ _ _ fs => ∀ f ∈ fs, ∀ c ∈ f.args, c.Prompt
  | _ => True

/-- A computation is never interrupted by a pending value. -/
def Exec.NeverWaits {α : Type} (x : Exec α) : Prop := ∀ sur m f m', x sur m ≠ .error (.waiting f) m'

namespace Exec.NeverWaits

variable {α β : Type}

/-! ## What instructions are made of -/

/-- A computation that is never interrupted at all. -/
theorem total {x : Exec α} (h : ∀ sur m, ∃ a m', x sur m = .ok a m') : x.NeverWaits := by
  intro sur m f m' hwait
  obtain ⟨a, m₁, hx⟩ := h sur m
  rw [hx] at hwait
  cases hwait

theorem pure (a : α) : NeverWaits (Pure.pure a : Exec α) := total fun _ m => ⟨a, m, rfl⟩

theorem throw {e : Interrupt} (h : ∀ f, e ≠ .waiting f) : NeverWaits (throw e : Exec α) := by
  intro sur m f m' hwait
  cases hwait
  exact h f rfl

theorem fail (e : Failure) : NeverWaits (Exec.fail e : Exec α) := throw fun _ h => by cases h

theorem bind {x : Exec α} {g : α → Exec β} (hx : x.NeverWaits) (hg : ∀ a, (g a).NeverWaits) :
    (x >>= g).NeverWaits := by
  intro sur m f m' hwait
  rw [bind_apply] at hwait
  cases hr : x sur m with
  | ok a m₁ =>
    rw [hr] at hwait
    exact hg a sur m₁ f m' hwait
  | error e m₁ =>
    rw [hr] at hwait
    cases hwait
    exact hx sur m f m' hr

theorem eval {act : Eval α} (h : act.NeverWaits) : (Exec.eval act).NeverWaits := by
  intro sur m f m' hwait
  rw [eval_apply] at hwait
  cases hr : act (env sur m) ⟨m.cells, m.store.heap⟩ with
  | ok a mem =>
    rw [hr] at hwait
    cases hwait
  | error stop mem =>
    rw [hr] at hwait
    cases stop with
    | waiting id => exact h _ _ id mem hr
    | _ => cases hwait

theorem ofExcept (r : Except Failure α) : (Exec.ofExcept r).NeverWaits := by
  cases r with
  | ok a => exact pure a
  | error e => exact fail e

theorem surroundings : NeverWaits (read : Exec Surroundings) := total fun sur m => ⟨sur, m, rfl⟩

theorem machine : NeverWaits (get : Exec Machine) := total fun _ m => ⟨m, m, rfl⟩

theorem modified (f : Machine → Machine) : NeverWaits (modify f : Exec Unit) := total fun _ m =>
    ⟨(), f m, rfl⟩

theorem onStore (f : Store → α × Store) : NeverWaits (Exec.onStore f) :=
    total fun _ _ => ⟨_, _, rfl⟩

theorem cell (i : Nat) : NeverWaits (Exec.cell i) := machine.bind fun _ => pure _

theorem setCell (i : Nat) (c : Cell) : NeverWaits (Exec.setCell i c) := modified _

theorem buffer (i : Nat) : NeverWaits (Exec.buffer i) := by
  refine (cell i).bind fun c => ?_
  cases c with
  | buffer id => exact pure id
  | _ => exact throw fun _ h => by cases h

theorem target (out : Out) : NeverWaits (Exec.target out) := by
  cases out with
  | sink => exact surroundings.bind fun _ => pure _
  | cell slot =>
    refine (cell slot).bind fun c => ?_
    cases c with
    | wrap entry _ => exact pure entry
    | buffer id => exact pure _
    | _ => exact throw fun _ h => by cases h

theorem onSink (f : Store → Except Failure α × Store) : NeverWaits (Exec.onSink f) := by
  refine (onStore f).bind fun r => ?_
  cases r with
  | ok a => exact pure a
  | error e => exact fail _

theorem write (out : Out) (s : String) : NeverWaits (Exec.write out s) :=
    (target out).bind fun _ => onSink _

theorem wrap (fs : List FilterCall) (args : List (List Value)) (kind : ContentKind) (sink : Sink) :
    NeverWaits (Exec.wrap fs args kind sink) :=
  machine.bind fun _ => (ofExcept _).bind fun _ => onStore _

theorem bufferText (id : BufferId) : NeverWaits (Exec.bufferText id) := machine.bind fun _ => pure _

theorem setLoop (base : Nat) (a b c : Cell) : NeverWaits (Exec.setLoop base a b c) :=
  (setCell _ _).bind fun _ => (setCell _ _).bind fun _ => setCell _ _

/-! ## Instructions -/

/-- An instruction with prompt expressions never waits, whatever cells and store are like. -/
theorem instr (invoke : RenderId → Store → Outcome × Store) (pc : Nat) {i : Instr}
    (h : i.op.Prompt) :
    NeverWaits (Exec.instr invoke pc i) := by
  have hclear : NeverWaits (modify fun m : Machine =>
    { m with cells := i.clearMemo m.cells } : Exec Unit) := modified _
  unfold Exec.instr
  cases hop : i.op with
  | text out s => exact (write _ _).bind fun _ => pure _
  | print out e fs =>
    rw [hop] at h
    have hprinted := Regime.Gives.neverWaits fun env =>
      (h.1 env Thunk.force).printed fun f hf c hc => h.2 f hf c hc env Thunk.force
    exact (eval hprinted).bind fun _ => (write _ _).bind fun _ => hclear.bind fun _ => pure _
  | checkLimit =>
    refine surroundings.bind fun sur => (onStore _).bind fun b => ?_
    cases b with
    | true => exact (throw fun _ h => by cases h).bind fun _ => pure _
    | false => exact (pure _).bind fun _ => pure _
  | jump target => exact pure _
  | jumpIfFalse e target =>
    rw [hop] at h
    have hbool := Regime.Gives.neverWaits fun env => (h env Thunk.force).bool []
    exact (eval hbool).bind fun _ => hclear.bind fun _ => pure _
  | caseMatch slot values target =>
    rw [hop] at h
    have hmatch := Regime.Gives.neverWaits fun env =>
      Regime.Evaluates.matchesCase (fun c hc => h c hc env Thunk.force) slot
    exact (eval hmatch).bind fun _ => hclear.bind fun _ => pure _
  | store slot kind e =>
    rw [hop] at h
    have hcell := Regime.Gives.neverWaits fun env => (h env Thunk.force).cellOf kind
    exact (eval hcell).bind fun _ => (setCell _ _).bind fun _ => hclear.bind fun _ => pure _
  | storeThunk slot code =>
    have hmake : (Thunk.make code).NeverWaits := fun _ _ _ _ hwait => by cases hwait
    exact (eval hmake).bind fun _ => (setCell _ _).bind fun _ => pure _
  | rangeInit base start stop step =>
    rw [hop] at h
    have hrange := Regime.Gives.neverWaits fun env =>
      Regime.Evaluates.range (fun c hc => h.1 c hc env Thunk.force) (fun c hc =>
        h.2.1 c hc env Thunk.force) fun c hc => h.2.2 c hc env Thunk.force
    exact (eval hrange).bind fun _ => (setLoop _ _ _ _).bind fun _ => hclear.bind fun _ => pure _
  | rangeNext base target => exact (cell _).bind fun _ => (cell _).bind fun _ => pure _
  | rangeStep base target =>
    exact (cell _).bind fun _ => (cell _).bind fun _ => (cell _).bind fun _ =>
      (setCell _ _).bind fun _ => pure _
  | eachInit base e target => rw [hop] at h; exact h.elim
  | eachNext base target => exact (cell _).bind fun _ => (cell _).bind fun _ => pure _
  | eachStep base target => exact (cell _).bind fun _ => (setCell _ _).bind fun _ => pure _
  | beginBuffer slot => exact (onStore _).bind fun _ => (setCell _ _).bind fun _ => pure _
  | endBuffer slot dst kind =>
    exact (buffer _).bind fun _ => (bufferText _).bind fun _ => (setCell _ _).bind fun _ =>
      (setCell _ _).bind fun _ => pure _
  | call out slot site fs => rw [hop] at h; exact h.elim
  | log slot =>
    exact (buffer _).bind fun _ => (bufferText _).bind fun _ => surroundings.bind fun _ =>
        (onStore _).bind fun _ =>
      (setCell _ _).bind fun _ => pure _
  | beginWrap out slot kind fs =>
    rw [hop] at h
    have hargs := Regime.Gives.neverWaits fun env =>
      Regime.Evaluates.filterArgs (fun f hf c hc => h f hf c hc env Thunk.force) []
    exact (eval hargs).bind fun _ => (target _).bind fun _ => (wrap _ _ _ _).bind fun _ =>
        (setCell _ _).bind fun _ =>
      hclear.bind fun _ => pure _
  | endWrap slot =>
    refine (cell _).bind fun c => ?_
    cases c with
    | wrap entry stages => exact (setCell _ _).bind fun _ => (onSink _).bind fun _ => pure _
    | _ => exact throw fun _ h => by cases h

end Exec.NeverWaits

/-! ## Runs -/

namespace Store

variable {reg : Registry} {context : Context} {fuel : Nat} {id : RenderId} {f : FutureId}
  {s t : Store} {r : Render}
  {pc : Nat} {m : Machine}

/-- A render has been left at an instruction of its program, at which it met a pending value. -/
def WaitsAt (id : RenderId) (p : Program) (f : FutureId) (t : Store) : Prop :=
  ∃ pc i, p.code[pc]? = some i ∧
    (∃ invoke sur m m', Exec.instr invoke pc i sur m = .error (.waiting f) m') ∧ ∀ r frame,
    t.renders[id]? = some r → r.status = .suspended frame → frame.state = pc

theorem suspend_waits {o : Outcome} (ht : suspend context id r pc m o = (.waiting f, t)) :
    o = .waiting f ∧ ∀ r' frame, t.renders[id]? = some r' → r'.status = .suspended frame →
    frame.state = pc := by
  have hstate (x : Extent) {u : Store}
      (hu : u.renders = (m.store.setStatus id
        (.suspended (SavedFrame.save pc m.cells x.site.slots m.maker))).renders)
      (r' : Render) (frame : SavedFrame) (hr : u.renders[id]? = some r')
        (hframe : r'.status = .suspended frame) :
      frame.state = pc := by
    rw [hu, setStatus_get, if_pos rfl] at hr
    obtain ⟨q, _, rfl⟩ := Option.map_eq_some_iff.1 hr
    cases hframe
    rfl
  unfold suspend at ht
  split at ht
  · cases ht
  · split at ht
    · cases ht
    · next x _ =>
      simp only at ht
      split at ht
      · cases ht
      · next u hflush =>
        have hu := (congrArg (·.2.renders) hflush).symm
        split at ht
        · cases ht
          exact ⟨rfl, hstate x hu⟩
        · cases ht
          exact ⟨rfl, hstate x hu⟩

theorem interrupt_waits {e : Interrupt} (ht : interrupt context id r pc m e = (.waiting f, t)) :
    e = .waiting f ∧ ∀ r' frame, t.renders[id]? = some r' → r'.status = .suspended frame →
    frame.state = pc := by
  cases e with
  | waiting g =>
    obtain ⟨ho, hframe⟩ := suspend_waits ht
    cases ho
    exact ⟨rfl, hframe⟩
  | limited => cases (suspend_waits ht).1
  | failed | exhausted | broken => cases ht

theorem steps_waits {resumed : Bool}
    (ht : steps reg context fuel id r pc resumed m = (.waiting f, t)) :
    WaitsAt id r.program f t := by
  induction fuel generalizing pc resumed m with
  | zero => cases ht
  | succ fuel ih =>
    unfold steps at ht
    cases hi : r.program.code[pc]? with
    | none =>
      rw [hi] at ht
      cases ht
    | some i =>
      simp only [hi] at ht
      split at ht
      · exact ih ht
      · next e m' hrun =>
        obtain ⟨rfl, hframe⟩ := interrupt_waits ht
        exact ⟨pc, i, hi, ⟨_, _, _, _, hrun⟩, hframe⟩

/-- A call that waits has met a pending value at the instruction where it stands. -/
theorem invoke_waits (hr : s.renders[id]? = some r)
    (ht : s.invoke reg context fuel id = (.waiting f, t)) :
    WaitsAt id r.program f t := by
  cases fuel with
  | zero => cases ht
  | succ fuel =>
    unfold invoke at ht
    simp only [hr] at ht
    split at ht
    · cases ht
    · cases ht
    · cases ht
    · exact steps_waits ht
    · exact steps_waits (r := { r with status := .ready }) ht

end Store

end Interlude
