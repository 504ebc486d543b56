import Interlude.Proofs.Render.Step
/-!
# What every run keeps

An order of stores that holds for all that instructions do by themselves, and for a change of status
where a call begins or ends, holds for whole runs (`runs`). In one such order output and log only
grow; in another, renders that have come to their end stay as they are.
-/

namespace Interlude

/-- An order of stores that is kept by all that instructions do to a store by themselves. -/
structure Store.Order (R : Store → Store → Prop) : Prop where
  refl : ∀ s, R s s
  trans : ∀ {s t u}, R s t → R t u → R s u
  heap : ∀ (s : Store) (heap : Heap), R s { s with heap }
  append : ∀ (s : Store) (sink : Sink) (text : String), R s (s.append sink text).2
  isLimited : ∀ (s : Store) (sink : Sink), R s (s.isLimited sink).2
  flush : ∀ (s : Store) (sink : Sink), R s (s.flush sink).2
  wrap : ∀ (s : Store) (stages : List Stage) (sink : Sink),
    R s { s with streams := (s.streams.wrap stages sink).2 }
  close : ∀ (s : Store) (stages : List (StageId × Stage × Sink)),
    R s { s with streams := (s.streams.closeAll stages).2 }
  newBuffer : ∀ s : Store, R s { s with streams := s.streams.newBuffer.2 }
  logged : ∀ (s : Store) (e : Log.Entry), R s (s.logged e)
  push : ∀ (s : Store) (r : Render), R s { s with renders := s.renders.push r }

theorem Store.Order.start {R : Store → Store → Prop} (h : Store.Order R) (context : Context)
    (p : Program) (params injected : List (String × Value)) (sink : Sink) (s : Store) :
    R s (p.start context params injected sink s).2 := by
  unfold Program.start
  split
  · exact h.heap s _
  · next heap _ => exact h.trans (h.heap s heap) (h.push { s with heap } _)

namespace Exec

/-- What a caller does once its callee has come back. -/
def comeBack (o : Outcome) (out : Out) (slot : Nat) (fs : List FilterCall)
    (st : CallState) : Exec Unit :=
  match o with
  | .done => do
    setCell slot .empty
    finishCall st out fs
  | .failed e => do
    setCell slot .empty
    fail e
  | .waiting id => throw (.waiting id)
  | .limited => throw .limited
  | .exhausted => throw .exhausted
  | .broken => throw .broken

theorem proceed_eq (invoke : RenderId → Store → Outcome × Store) (out : Out) (slot : Nat)
    (fs : List FilterCall) (st : CallState) :
    proceed invoke out slot fs st =
    (onStore (invoke st.callee) >>= fun o => comeBack o out slot fs st) := rfl

/-- The machine that a computation leaves. -/
def left {α : Type} : EStateM.Result Interrupt Machine α → Machine
  | .ok _ m => m
  | .error _ m => m

/-- A computation that goes forward in an order of stores. -/
structure Keeps {α : Type} (R : Store → Store → Prop) (x : Exec α) : Prop where
  order : Store.Order R
  store : ∀ (sur : Surroundings) (m : Machine), R m.store (left (x sur m)).store

theorem Keeps.bind {α β : Type} {R : Store → Store → Prop} {x : Exec α} {f : α → Exec β}
    (hx : Keeps R x) (hf : ∀ a, Keeps R (f a)) : Keeps R (x >>= f) := by
  refine ⟨hx.order, fun sur m => ?_⟩
  have h := hx.store sur m
  rw [bind_apply]
  cases hr : x sur m with
  | error e m' => rw [hr] at h; exact h
  | ok a m' => rw [hr] at h; exact hx.order.trans h ((hf a).store sur m')

end Exec

namespace Store.Order

open Exec (Keeps)

variable {R : Store → Store → Prop} {α : Type}

/-! ## What instructions are made of -/

theorem pure (h : Order R) (a : α) : Keeps R (Pure.pure a) := ⟨h, fun _ m => h.refl m.store⟩

theorem throw (h : Order R) (e : Interrupt) : Keeps R (throw e : Exec α) :=
    ⟨h, fun _ m => h.refl m.store⟩

theorem fail (h : Order R) (e : Failure) : Keeps R (Exec.fail e : Exec α) := h.throw (.failed e)

theorem eval (h : Order R) (act : Eval α) : Keeps R (Exec.eval act) := by
  refine ⟨h, fun sur m => ?_⟩
  rw [Exec.eval_apply]
  cases act (Exec.env sur m) ⟨m.cells, m.store.heap⟩ <;> exact h.heap _ _

theorem onStore (h : Order R) {f : Store → α × Store} (hf : ∀ s : Store, R s (f s).2) :
    Keeps R (Exec.onStore f) :=
  ⟨h, fun _ m => hf m.store⟩

theorem modified (h : Order R) {f : Machine → Machine} (hf : ∀ m, (f m).store = m.store) :
    Keeps R (modify f : Exec Unit) := by
  refine ⟨h, fun sur m => ?_⟩
  change R m.store (f m).store
  rw [hf]
  exact h.refl _

theorem cell (h : Order R) (i : Nat) : Keeps R (Exec.cell i) := ⟨h, fun _ m => h.refl m.store⟩

theorem setCell (h : Order R) (i : Nat) (c : Cell) : Keeps R (Exec.setCell i c) :=
    h.modified fun _ => rfl

theorem machine (h : Order R) : Keeps R (get : Exec Machine) := ⟨h, fun _ m => h.refl m.store⟩

theorem surroundings (h : Order R) : Keeps R (read : Exec Surroundings) :=
    ⟨h, fun _ m => h.refl m.store⟩

theorem ofExcept (h : Order R) (r : Except Failure α) : Keeps R (Exec.ofExcept r) := by
  cases r with
  | ok a => exact h.pure a
  | error e => exact h.fail e

theorem buffer (h : Order R) (i : Nat) : Keeps R (Exec.buffer i) := by
  refine (h.cell i).bind fun c => ?_
  cases c with
  | buffer id => exact h.pure id
  | _ => exact h.throw .broken

theorem target (h : Order R) (out : Out) : Keeps R (Exec.target out) := by
  cases out with
  | sink => exact h.surroundings.bind fun _ => h.pure _
  | cell slot =>
    refine (h.cell slot).bind fun c => ?_
    cases c with
    | wrap entry _ => exact h.pure entry
    | buffer id => exact h.pure _
    | _ => exact h.throw .broken

theorem onSink (h : Order R) {f : Store → Except Failure α × Store}
    (hf : ∀ s : Store, R s (f s).2) :
    Keeps R (Exec.onSink f) := by
  refine (h.onStore hf).bind fun r => ?_
  cases r with
  | ok a => exact h.pure a
  | error e => exact h.fail _

theorem write (h : Order R) (out : Out) (s : String) : Keeps R (Exec.write out s) :=
  (h.target out).bind fun sink => h.onSink fun st => h.append st sink s

theorem wrapped (h : Order R) (fs : List FilterCall) (args : List (List Value)) (kind : ContentKind)
    (sink : Sink) :
    Keeps R (Exec.wrap fs args kind sink) :=
  h.machine.bind fun _ => (h.ofExcept _).bind fun stages => h.onStore fun s => h.wrap s stages sink

theorem closed (h : Order R) (entry : Sink) (stages : Nat) : Keeps R (Exec.close entry stages) :=
  h.onSink fun s => h.close s _

theorem buffered (h : Order R) : Keeps R Exec.newBuffer := h.onStore fun s => h.newBuffer s

theorem bufferText (h : Order R) (id : BufferId) : Keeps R (Exec.bufferText id) :=
    h.machine.bind fun _ => h.pure _

theorem setLoop (h : Order R) (base : Nat) (a b c : Cell) : Keeps R (Exec.setLoop base a b c) :=
  (h.setCell _ _).bind fun _ => (h.setCell _ _).bind fun _ => h.setCell _ _

theorem clearMemo (h : Order R) (i : Instr) :
    Keeps R (modify fun m : Machine => { m with cells := i.clearMemo m.cells } : Exec Unit) :=
  h.modified fun _ => rfl

/-! ## Calls -/

theorem calleeSink (h : Order R) (kind : ContentKind) (fs : List FilterCall)
    (args : List (List Value)) (sink : Sink) :
    Keeps R (Exec.calleeSink kind fs args sink) := by
  unfold Exec.calleeSink
  split
  · exact h.pure _
  · split
    · exact (h.wrapped ..).bind fun _ => h.pure _
    · exact h.buffered.bind fun _ => h.pure _

theorem startCall (h : Order R) (out : Out) (site : CallSite) (fs : List FilterCall) :
    Keeps R (Exec.startCall out site fs) := by
  refine h.surroundings.bind fun sur => (h.eval _).bind fun d => ?_
  cases d with
  | none => exact h.pure _
  | some d =>
    refine (h.target out).bind fun sink => (h.calleeSink ..).bind fun place =>
      (h.onStore fun s => h.start ..).bind fun r => ?_
    cases r with
    | error e => exact h.fail e
    | ok id => exact h.pure _

theorem callState (h : Order R) (i : Instr) (out : Out) (slot : Nat) (site : CallSite)
    (fs : List FilterCall) :
    Keeps R (Exec.callState i out slot site fs) := by
  have hnew : Keeps R (Exec.startCall out site fs >>= Exec.register i slot) := by
    refine (h.startCall ..).bind fun started => (h.clearMemo i).bind fun _ => ?_
    cases started with
    | none => exact h.pure _
    | some st => exact (h.setCell ..).bind fun _ => h.pure _
  refine (h.cell slot).bind fun c => ?_
  cases c with
  | call st => exact h.pure _
  | _ => exact hnew

theorem finishCall (h : Order R) (st : CallState) (out : Out) (fs : List FilterCall) :
    Keeps R (Exec.finishCall st out fs) := by
  refine (h.target out).bind fun sink => ?_
  cases st.buffer with
  | none => exact h.closed ..
  | some id =>
    exact h.machine.bind fun _ => (h.bufferText id).bind fun _ => (h.eval _).bind fun s =>
      h.onSink fun st => h.append st sink s

theorem comeBack (h : Order R) (o : Outcome) (out : Out) (slot : Nat) (fs : List FilterCall)
    (st : CallState) :
    Keeps R (Exec.comeBack o out slot fs st) := by
  unfold Exec.comeBack
  cases o with
  | done => exact (h.setCell ..).bind fun _ => h.finishCall ..
  | failed e => exact (h.setCell ..).bind fun _ => h.fail e
  | waiting id => exact h.throw _
  | limited => exact h.throw _
  | exhausted => exact h.throw _
  | broken => exact h.throw _

theorem proceed (h : Order R) {invoke : RenderId → Store → Outcome × Store}
    (hinv : ∀ id s, R s (invoke id s).2) (out : Out) (slot : Nat) (fs : List FilterCall)
    (st : CallState) : Keeps R (Exec.proceed invoke out slot fs st) := by
  rw [Exec.proceed_eq]
  exact (h.onStore (hinv st.callee)).bind fun o => h.comeBack o ..

/-! ## Instructions -/

/-- Instructions keep to the order, if the calls they make do. -/
theorem instr (h : Order R) {invoke : RenderId → Store → Outcome × Store}
    (hinv : ∀ id s, R s (invoke id s).2) (pc : Nat) (i : Instr) :
    Keeps R (Exec.instr invoke pc i) := by
  unfold Exec.instr
  split
  · exact (h.write ..).bind fun _ => h.pure _
  · exact (h.eval _).bind fun _ => (h.write ..).bind fun _ => (h.clearMemo i).bind fun _ => h.pure _
  · refine h.surroundings.bind fun sur => (h.onStore fun s => h.isLimited s _).bind fun b => ?_
    cases b with
    | true => exact (h.throw _).bind fun _ => h.pure _
    | false => exact (h.pure _).bind fun _ => h.pure _
  · exact h.pure _
  · exact (h.eval _).bind fun _ => (h.clearMemo i).bind fun _ => h.pure _
  · exact (h.eval _).bind fun _ => (h.clearMemo i).bind fun _ => h.pure _
  · exact (h.eval _).bind fun _ => (h.setCell ..).bind fun _ =>
      (h.clearMemo i).bind fun _ => h.pure _
  · exact (h.eval _).bind fun _ => (h.setCell ..).bind fun _ => h.pure _
  · exact (h.eval _).bind fun _ => (h.setLoop ..).bind fun _ =>
      (h.clearMemo i).bind fun _ => h.pure _
  · exact (h.cell _).bind fun _ => (h.cell _).bind fun _ => h.pure _
  · exact (h.cell _).bind fun _ => (h.cell _).bind fun _ => (h.cell _).bind fun _ =>
      (h.setCell ..).bind fun _ => h.pure _
  · exact (h.eval _).bind fun _ => (h.setLoop ..).bind fun _ =>
      (h.clearMemo i).bind fun _ => h.pure _
  · exact (h.cell _).bind fun _ => (h.cell _).bind fun _ => h.pure _
  · exact (h.cell _).bind fun _ => (h.setCell ..).bind fun _ => h.pure _
  · exact h.buffered.bind fun _ => (h.setCell ..).bind fun _ => h.pure _
  · exact (h.buffer _).bind fun _ => (h.bufferText _).bind fun _ => (h.setCell ..).bind fun _ =>
      (h.setCell ..).bind fun _ => h.pure _
  · refine Keeps.bind ?_ fun _ => h.pure _
    refine (h.callState ..).bind fun st => ?_
    cases st with
    | none => exact h.pure _
    | some st => exact h.proceed hinv ..
  · exact (h.buffer _).bind fun _ => (h.bufferText _).bind fun _ => h.surroundings.bind fun _ =>
      (h.onStore fun s => h.logged s _).bind fun _ => (h.setCell ..).bind fun _ => h.pure _
  · exact (h.eval _).bind fun _ => (h.target _).bind fun _ => (h.wrapped ..).bind fun _ =>
        (h.setCell ..).bind fun _ =>
      (h.clearMemo i).bind fun _ => h.pure _
  · refine (h.cell _).bind fun c => ?_
    cases c with
    | wrap entry stages => exact (h.setCell ..).bind fun _ => (h.closed ..).bind fun _ => h.pure _
    | _ => exact h.throw _

end Store.Order

/-! ## Runs -/

/-- An order of stores for runs. While a render runs, the order holds apart from its own status, as
`Own` tells; all in all it holds for calls of renders that have something left to do. -/
structure Store.RunOrder (R : Store → Store → Prop)
    (Own : RenderId → Store → Store → Prop) : Prop where
  order : Store.Order R
  trans : ∀ {id s t u}, Own id s t → Own id t u → Own id s u
  own : ∀ {id s t}, R s t → Own id s t
  status : ∀ (id : RenderId) (s : Store) (status : Status), Own id s (s.setStatus id status)
  called : ∀ {id s t r}, s.renders[id]? = some r →
    (r.status = .ready ∨ ∃ f, r.status = .suspended f) → Own id s t → R s t

namespace Store.RunOrder

variable {R : Store → Store → Prop} {Own : RenderId → Store → Store → Prop} (h : RunOrder R Own)
  (context : Context)

include h

theorem suspend (id : RenderId) (r : Render) (pc : Nat) (m : Machine) (o : Outcome) :
    Own id m.store (Store.suspend context id r pc m o).2 := by
  unfold Store.suspend
  split
  · exact h.own (h.order.refl _)
  · split
    · exact h.status ..
    · next i _ x _ =>
      have hflush := h.trans
        (h.status id m.store (.suspended (SavedFrame.save pc m.cells x.site.slots m.maker)))
        (h.own (h.order.flush _ r.sink))
      simp only
      split
      · next e s hs =>
        rw [hs] at hflush
        exact h.trans hflush (h.status ..)
      · next s hs =>
        rw [hs] at hflush
        split
        · exact h.trans hflush (h.own (h.order.logged ..))
        · exact hflush

theorem interrupt (id : RenderId) (r : Render) (pc : Nat) (m : Machine) (e : Interrupt) :
    Own id m.store (Store.interrupt context id r pc m e).2 := by
  cases e with
  | failed e => exact h.status ..
  | waiting f => exact h.suspend ..
  | limited => exact h.suspend ..
  | exhausted => exact h.own (h.order.refl _)
  | broken => exact h.own (h.order.refl _)

theorem enter (r : Render) (s : Store) : R s (Store.enter context r s).2.store := by
  unfold Store.enter
  simp only
  split
  · split
    · split
      · exact h.order.logged s _
      · exact h.order.refl s
    · exact h.order.refl s
  · exact h.order.refl s

/-- Runs keep to the order, for any number of steps. -/
theorem runs (reg : Registry) (fuel : Nat) :
    (∀ (id : RenderId) (s : Store), R s (s.invoke reg context fuel id).2) ∧
      ∀ (id : RenderId) (r : Render) (pc : Nat) (resumed : Bool) (m : Machine),
        Own id m.store (Store.steps reg context fuel id r pc resumed m).2 := by
  induction fuel with
  | zero => exact ⟨fun _ s => h.order.refl s, fun _ _ _ _ m => h.own (h.order.refl m.store)⟩
  | succ fuel ih =>
    obtain ⟨hinv, hsteps⟩ := ih
    refine ⟨fun id s => ?_, fun id r pc resumed m => ?_⟩
    · unfold Store.invoke
      split
      · exact h.order.refl s
      · next r hr =>
        split
        · exact h.order.refl s
        · exact h.order.refl s
        · exact h.order.refl s
        · next hready =>
            exact h.called hr (.inl hready) (h.trans (h.own (h.enter context r s)) (hsteps ..))
        · next f hf =>
          refine h.called hr (.inr ⟨f, hf⟩) (h.trans (h.status id s .ready) ?_)
          exact h.trans (h.own (h.enter context r (s.setStatus id .ready))) (hsteps ..)
    · unfold Store.steps
      split
      · exact h.status ..
      · next i _ =>
        have hup : R m.store (if resumed then m else m.setUp i).store := by
          split
          · exact h.order.refl _
          · exact h.order.heap _ _
        have hrun := (h.order.instr hinv pc i).store { render := r, registry := reg, context }
          (if resumed then m else m.setUp i)
        simp only
        split
        · next next m' hm =>
          rw [hm] at hrun
          exact h.trans (h.own (h.order.trans hup hrun)) (hsteps ..)
        · next e m' hm =>
          rw [hm] at hrun
          exact h.trans (h.own (h.order.trans hup hrun)) (h.interrupt ..)

end Store.RunOrder

end Interlude
