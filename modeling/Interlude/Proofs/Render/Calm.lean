import Interlude.Proofs.Eval.Promise
import Interlude.Proofs.Output
import Interlude.Proofs.Resume.Call
import Interlude.Render.Run
/-!
# Renders of promised data

If all data is plain, or promised by futures that complete with plain values, so is all that renders
hold and pass on. Such a run waits for promised futures only (`runs_calm`). One that writes to a
buffered writer and is told to pause has put out more than was written when it began.
-/

namespace Interlude

/-! ## A buffered writer -/

/-- A sink on a writer that refuses nothing, with this limit; at least `base` characters were
written. -/
structure WriterSink.Drains (limit : Int) (base : Nat) (s : WriterSink) : Prop where
  sturdy : s.Sturdy
  limit : s.limit = limit
  written : base ≤ (String.join s.writer.writes.toList).length

/-- An outlet that is such a sink. -/
def Outlet.Drains (limit : Int) (base : Nat) (o : Outlet) : Prop :=
  o.gate = none ∧ ∃ w : WriterSink, o.base = .writer w ∧ w.Drains limit base

namespace WriterSink.Drains

variable {limit : Int} {base : Nat} {s : WriterSink}

theorem writeThrough (h : s.Drains limit base) : s.writeThrough.Drains limit base := by
  obtain ⟨hs, _, _, hl⟩ := writeThrough_sturdy h.sturdy
  refine ⟨hs, hl.trans h.limit, ?_⟩
  unfold WriterSink.writeThrough
  split
  · exact h.written
  · rw [h.sturdy.writer.write]
    simp only [Array.toList_push, String.join_append, String.length_append]
    exact Nat.le_trans h.written (Nat.le_add_right ..)

theorem append (h : s.Drains limit base) (text : String) : (s.append text).Drains limit base := by
  have hs : ({ s with buffered := s.buffered ++ text } : WriterSink).Drains limit base :=
    ⟨⟨h.sturdy.failed, h.sturdy.writer⟩, h.limit, h.written⟩
  unfold WriterSink.append
  rw [if_neg (by simp [h.sturdy.failed])]
  simp only
  split
  · exact hs.writeThrough
  · exact hs

theorem flush (h : s.Drains limit base) : s.flush.Drains limit base := by
  have hw := h.writeThrough
  unfold WriterSink.flush
  rw [if_neg (by simp [h.sturdy.failed])]
  simp only
  rw [if_neg (by simp [hw.sturdy.failed]), hw.sturdy.writer.flush]
  exact ⟨⟨hw.sturdy.failed, hw.sturdy.writer.writes, hw.sturdy.writer.flushes⟩,
    hw.limit, hw.written⟩

/-- What waits when a pause is asked for was put out since. -/
theorem limited (h : s.Drains limit base) (hl : s.isLimited = true) : base < s.output.length := by
  have hne : s.buffered.length ≠ 0 := by
    intro hzero
    have hempty : s.buffered = "" := by simpa using hzero
    simp [isLimited, hempty, Text.byteLength] at hl
    omega
  unfold output
  rw [String.length_append]
  have := h.written
  omega

end WriterSink.Drains

namespace Outlet.Drains

variable {limit : Int} {base : Nat} {o : Outlet}

theorem append (h : o.Drains limit base) (text : String) : (o.append text).2.Drains limit base := by
  obtain ⟨hg, w, hw, hd⟩ := h
  unfold Outlet.append
  rw [hw]
  exact ⟨hg, _, rfl, hd.append text⟩

theorem flush (h : o.Drains limit base) : o.flush.2.Drains limit base := by
  obtain ⟨hg, w, hw, hd⟩ := h
  unfold Outlet.flush
  rw [hw]
  exact ⟨hg, _, rfl, hd.flush⟩

theorem isLimited (h : o.Drains limit base) : o.isLimited.2 = o ∧
    (o.isLimited.1 = true → base < o.output.length) := by
  obtain ⟨hg, w, hw, hd⟩ := h
  unfold Outlet.isLimited Outlet.output
  rw [hw, hg]
  exact ⟨rfl, hd.limited⟩

end Outlet.Drains

namespace Streams

variable {limit : Int} {base : Nat} {s : Streams}

theorem append_drains (h : s.outlet.Drains limit base) (sink : Sink) (text : String) :
    (s.append sink text).2.outlet.Drains limit base := by
  induction sink generalizing s text with
  | root => exact h.append text
  | buffer id => exact h
  | through id stage next ih =>
    cases stage with
    | lineBreaks =>
      unfold Streams.append
      split
      · exact h
      · exact ih (s := s.setStage id _) h _
    | _ =>
      unfold Streams.append
      split
      · exact h
      · exact ih h _

theorem closeAll_drains (h : s.outlet.Drains limit base) (stages : List (StageId × Stage × Sink)) :
    (s.closeAll stages).2.outlet.Drains limit base := by
  induction stages generalizing s with
  | nil => exact h
  | cons x rest ih =>
    obtain ⟨id, stage, next⟩ := x
    have hfirst : (s.closeStage id stage next).2.outlet.Drains limit base := by
      unfold closeStage
      split
      · split
        · exact append_drains (s := s.setStage id {}) h next _
        · exact h
      · exact h
    exact ih hfirst

theorem wrap_drains (h : s.outlet.Drains limit base) (stages : List Stage) (out : Sink) :
    (s.wrap stages out).2.outlet.Drains limit base := by
  induction stages with
  | nil => exact h
  | cons stage rest ih => exact ih

theorem flush_drains (h : s.outlet.Drains limit base) (sink : Sink) :
    (s.flush sink).2.outlet.Drains limit base := by
  induction sink with
  | root => exact h.flush
  | buffer id => exact h
  | through id stage next ih => exact ih

theorem flush_output (h : s.outlet.Drains limit base) (sink : Sink) :
    (s.flush sink).2.outlet.output = s.outlet.output := by
  induction sink with
  | root =>
    obtain ⟨_, w, hw, hd⟩ := h
    have hsturdy : s.outlet.Sturdy := by
      unfold Outlet.Sturdy
      rw [hw]
      exact hd.sturdy
    exact (Outlet.flush_sturdy hsturdy).2.2
  | buffer id => rfl
  | through id stage next ih => exact ih

theorem isLimited_drains (h : s.outlet.Drains limit base) (sink : Sink) :
    (s.isLimited sink).2 = s ∧ ((s.isLimited sink).1 = true → base < s.outlet.output.length) := by
  induction sink with
  | root =>
    obtain ⟨hsame, hl⟩ := h.isLimited
    refine ⟨?_, hl⟩
    change { s with outlet := s.outlet.isLimited.2 } = s
    rw [hsame]
  | buffer id => exact ⟨rfl, fun hl => by cases hl⟩
  | through id stage next ih => exact ih

end Streams

/-! ## Calm stores -/

/-- A render of promised data; what it has saved is plain. -/
structure Render.Calm (n : Nat) (r : Render) : Prop where
  params : Promised n r.params
  injected : Promised n r.injected
  data : Promised n r.data
  frame : ∀ f, r.status = .suspended f → ∀ c ∈ f.cells, c.Plain

structure Store.Calm (n : Nat) (limit : Int) (base : Nat) (s : Store) : Prop where
  heap : s.heap.Plain n
  outlet : s.streams.outlet.Drains limit base
  renders : ∀ (id : RenderId) (r : Render), s.renders[id]? = some r → r.Calm n

structure Machine.Calm (n : Nat) (limit : Int) (base : Nat) (m : Machine) : Prop where
  cells : m.cells.Plain
  store : m.store.Calm n limit base

/-- What an interrupt tells of a calm store. -/
def Interrupt.Calm (n base : Nat) (s : Store) : Interrupt → Prop
  | .waiting id => id < n
  | .limited => base < s.output.length
  | _ => True

namespace Exec

/-- A computation on calm machines, with the values it comes to. -/
def Calmly (n : Nat) (limit : Int) (base : Nat) (sur : Surroundings) {α : Type} (x : Exec α)
    (Q : α → Prop) : Prop :=
  ∀ m, m.Calm n limit base → Meets sur m (fun a m' => m'.Calm n limit base ∧ Q a)
    (fun e m' => m'.Calm n limit base ∧ e.Calm n base m'.store) x

namespace Calmly

variable {n : Nat} {limit : Int} {base : Nat} {sur : Surroundings} {α β : Type}

theorem pure {a : α} {Q : α → Prop} (h : Q a) : Calmly n limit base sur (Pure.pure a) Q :=
    fun _ hm => ⟨hm, h⟩

theorem done (a : α) : Calmly n limit base sur (Pure.pure a) fun _ => True := pure trivial

theorem throw {e : Interrupt} {Q : α → Prop} (h : ∀ s, e.Calm n base s) :
    Calmly n limit base sur (throw e) Q :=
  fun m hm => ⟨hm, h m.store⟩

theorem fail {e : Failure} {Q : α → Prop} : Calmly n limit base sur (Exec.fail e) Q :=
    throw fun _ => trivial

theorem bind {x : Exec α} {f : α → Exec β} {P : α → Prop} {Q : β → Prop}
    (hx : Calmly n limit base sur x P) (hf : ∀ a, P a → Calmly n limit base sur (f a) Q) :
    Calmly n limit base sur (x >>= f) Q :=
  fun m hm => (hx m hm).bind fun a m' h => hf a h.2 m' h.1

theorem ofExcept (r : Except Failure α) : Calmly n limit base sur (Exec.ofExcept r) fun _ =>
    True := by
  cases r with
  | ok a => exact done a
  | error e => exact fail

theorem surroundings : Calmly n limit base sur (read : Exec Surroundings) (· = sur) :=
    fun _ hm => ⟨hm, rfl⟩

theorem machine : Calmly n limit base sur (get : Exec Machine) fun _ => True := fun _ hm =>
    ⟨hm, trivial⟩

theorem eval {act : Eval α} {Q : α → Prop} (h : ∀ maker, (Regime.plain n).Gives
    { params := sur.render.params, injected := sur.render.injected, context := sur.context,
      maker } act Q) :
    Calmly n limit base sur (Exec.eval act) Q := by
  intro m hm
  have hrun := h m.maker ⟨m.cells, m.store.heap⟩ ⟨hm.cells, hm.store.heap⟩
  unfold Meets
  rw [eval_apply]
  change (Regime.plain n).Ends Q (act (env sur m) ⟨m.cells, m.store.heap⟩) at hrun
  cases hr : act (env sur m) ⟨m.cells, m.store.heap⟩ with
  | ok a mem =>
    rw [hr] at hrun
    exact ⟨⟨hrun.1.1, hrun.1.2, hm.store.outlet, hm.store.renders⟩, hrun.2⟩
  | error e mem =>
    rw [hr] at hrun
    refine ⟨⟨hrun.1.1, hrun.1.2, hm.store.outlet, hm.store.renders⟩, ?_⟩
    cases e with
    | waiting id => exact hrun.2 id rfl
    | _ => trivial

theorem cell (i : Nat) : Calmly n limit base sur (Exec.cell i) Cell.Plain := fun _ hm =>
    ⟨hm, hm.cells i⟩

theorem setCell (i : Nat) {c : Cell} (hc : c.Plain := by trivial) :
    Calmly n limit base sur (Exec.setCell i c) fun _ => True :=
  fun _ hm => ⟨⟨hm.cells.write hc i, hm.store⟩, trivial⟩

theorem clearMemo (i : Instr) :
    Calmly n limit base sur (modify fun m : Machine => { m with cells := i.clearMemo m.cells })
      fun _ => True := by
  refine fun m hm => ⟨⟨?_, hm.store⟩, trivial⟩
  change (i.clearMemo m.cells).Plain
  unfold Instr.clearMemo
  split
  · exact hm.cells.clear _ _
  · exact hm.cells

/-- What concerns streams alone. -/
theorem onStreams {f : Streams → α × Streams}
    (h : ∀ s : Streams, s.outlet.Drains limit base → (f s).2.outlet.Drains limit base) :
    Calmly n limit base sur (Exec.onStore fun s =>
      ((f s.streams).1, { s with streams := (f s.streams).2 })) fun _ => True :=
  fun _ hm => ⟨⟨hm.cells, hm.store.heap, h _ hm.store.outlet, hm.store.renders⟩, trivial⟩

theorem onSink {f : Streams → Except Failure α × Streams}
    (h : ∀ s : Streams, s.outlet.Drains limit base → (f s).2.outlet.Drains limit base) :
    Calmly n limit base sur (Exec.onSink fun s =>
      ((f s.streams).1, { s with streams := (f s.streams).2 })) fun _ => True := by
  refine (onStreams h).bind fun r _ => ?_
  cases r with
  | ok a => exact done a
  | error e => exact fail

theorem buffer (i : Nat) : Calmly n limit base sur (Exec.buffer i) fun _ => True := by
  refine (cell i).bind fun c _ => ?_
  cases c with
  | buffer id => exact done id
  | _ => exact throw fun _ => trivial

theorem target (out : Out) : Calmly n limit base sur (Exec.target out) fun _ => True := by
  cases out with
  | sink => exact surroundings.bind fun _ _ => done _
  | cell slot =>
    refine (cell slot).bind fun c _ => ?_
    cases c with
    | wrap entry _ => exact done entry
    | buffer id => exact done _
    | _ => exact throw fun _ => trivial

theorem append (sink : Sink) (s : String) :
    Calmly n limit base sur (Exec.onSink (·.append sink s)) fun _ => True :=
  onSink (f := fun st => st.append sink s) fun _ h => Streams.append_drains h sink s

theorem write (out : Out) (s : String) : Calmly n limit base sur (Exec.write out s) fun _ => True :=
  (target out).bind fun sink _ => append sink s

theorem wrap (fs : List FilterCall) (args : List (List Value)) (kind : ContentKind) (sink : Sink) :
    Calmly n limit base sur (Exec.wrap fs args kind sink) fun _ => True :=
  machine.bind fun _ _ => (ofExcept _).bind fun stages _ =>
    onStreams (f := fun st => st.wrap stages sink) fun _ h => Streams.wrap_drains h stages sink

theorem close (entry : Sink) (stages : Nat) :
    Calmly n limit base sur (Exec.close entry stages) fun _ => True :=
  onSink (f := fun st => st.closeAll (entry.stages stages)) fun _ h => Streams.closeAll_drains h _

theorem newBuffer : Calmly n limit base sur Exec.newBuffer fun _ => True :=
  onStreams (f := fun st => st.newBuffer) fun _ h => h

theorem bufferText (id : BufferId) : Calmly n limit base sur (Exec.bufferText id) fun _ => True :=
  machine.bind fun _ _ => done _

theorem setLoop (first : Nat) {a b c : Cell} (ha : a.Plain := by trivial)
    (hb : b.Plain := by trivial) (hc : c.Plain := by trivial) :
    Calmly n limit base sur (Exec.setLoop first a b c) fun _ => True :=
  (setCell _ ha).bind fun _ _ => (setCell _ hb).bind fun _ _ => setCell _ hc

end Calmly

end Exec

/-! ## Starting renders -/

section

variable {n : Nat} {limit : Int} {base : Nat}

/-- A step of binding params has left a plain heap, and a value that `Q` tells if it came to one. -/
def Binding.Step.Ends (n : Nat) {α : Type} (Q : α → Prop) : EStateM.Result Failure Heap α → Prop
  | .ok a h => h.Plain n ∧ Q a
  | .error _ h => h.Plain n

open Binding.Step

theorem ParamDecl.absent_ends (d : ParamDecl) (template : String) {env : Env}
    (henv : env.Promised n) {h : Heap} (hh : h.Plain n) :
    Ends n Value.Plain (d.absent template env h) := by
  unfold absent
  split
  · exact hh
  split
  · exact ⟨hh, rfl⟩
  next c size _ =>
    have henv' : ({ env with maker := h.fresh } : Env).Promised n := ⟨henv.params, henv.injected⟩
    have hrun := (Regime.usual_reads henv').evaluates c []
      ⟨Cells.cleared size, { h with fresh := h.fresh + 1 }⟩ ⟨Cells.plain_cleared size, hh.clear,
        hh.futures, hh.thunks⟩
    unfold Regime.Ends at hrun
    simp only
    split
    · next hc => rw [hc] at hrun; exact ⟨hrun.1.2, hrun.2⟩
    · next hc => rw [hc] at hrun; exact hrun.1.2
    · next hc => rw [hc] at hrun; exact hrun.1.2

theorem Program.bindParams_ends (context : Context) (template : String) (ds : List ParamDecl)
    {params injected : List (String × Value)} (hp : Promised n params) (hi : Promised n injected)
    {h : Heap} (hh : h.Plain n) :
    Ends n (fun r => Promised n r.1 ∧ Promised n r.2)
      (bindParams context template params injected ds h) := by
  induction ds generalizing params injected h with
  | nil => exact ⟨hh, hp, hi⟩
  | cons d rest ih =>
    have henv : ({ params, injected, context } : Env).Promised n := ⟨hp, hi⟩
    have habsent := d.absent_ends template henv hh
    have hrest : ∀ f : Value → Binding.Step (List (String × Value) × List (String × Value)),
        (∀ v h', v.Plain → h'.Plain n →
          Ends n (fun r => Promised n r.1 ∧ Promised n r.2) (f v h')) →
        Ends n (fun r => Promised n r.1 ∧ Promised n r.2)
            ((d.absent template { params, injected, context } >>= f) h) := by
      intro f hf
      rw [bind_apply]
      cases hr : d.absent template { params, injected, context } h with
      | error e h' => rw [hr] at habsent; exact habsent
      | ok v h' => rw [hr] at habsent; exact hf v h' habsent.2 habsent.1
    unfold bindParams
    split
    · cases injected.lookup d.name with
      | some _ => exact ih hp hi hh
      | none => exact hrest _ fun v h' hv hh' => ih hp (hi.cons (hv.promised n)) hh'
    · cases params.lookup d.name with
      | some _ => exact ih hp hi hh
      | none => exact hrest _ fun v h' hv hh' => ih (hp.cons (hv.promised n)) hi hh'

theorem Program.start_calm (context : Context) (p : Program)
    {params injected : List (String × Value)} (hp : Promised n params) (hi : Promised n injected)
    (sink : Sink) {s : Store} (hs : s.Calm n limit base) :
    (p.start context params injected sink s).2.Calm n limit base := by
  have hends := bindParams_ends context p.name p.params hp hi hs.heap
  unfold Program.start
  cases hr : bindParams context p.name params injected p.params s.heap with
  | error e h => rw [hr] at hends; exact ⟨hends, hs.outlet, hs.renders⟩
  | ok r h =>
    rw [hr] at hends
    refine ⟨hends.1, hs.outlet, fun id r hid => ?_⟩
    simp only [Array.getElem?_push] at hid
    split at hid
    · cases hid
      exact ⟨hends.2.1, hends.2.2, hp, fun _ hf => (by cases hf)⟩
    · exact hs.renders id r hid

end

/-! ## Instructions -/

/-- What an outcome tells of a calm store. -/
def Outcome.Calm (n base : Nat) (s : Store) : Outcome → Prop
  | .waiting id => id < n
  | .limited => base < s.output.length
  | _ => True

/-- Calls of renders leave stores calm. -/
def InvokesCalmly (n : Nat) (limit : Int) (base : Nat)
    (invoke : RenderId → Store → Outcome × Store) : Prop :=
  ∀ id s, s.Calm n limit base → (invoke id s).2.Calm n limit base ∧
    (invoke id s).1.Calm n base (invoke id s).2

namespace Exec.Calmly

variable {n : Nat} {limit : Int} {base : Nat} {sur : Surroundings}

theorem checkLimit (sink : Sink) {α : Type} {x : Exec α} {Q : α → Prop}
    (hx : Calmly n limit base sur x Q) :
    Calmly n limit base sur (do
      if ← Exec.onStore (·.isLimited sink) then MonadExcept.throw .limited
      x) Q := by
  intro m hm
  obtain ⟨hsame, hl⟩ := Streams.isLimited_drains hm.store.outlet sink
  have hstore : (m.store.isLimited sink).2 = m.store := by
    change { m.store with streams := (m.store.streams.isLimited sink).2 } = m.store
    rw [hsame]
  have hread : Exec.onStore (·.isLimited sink) sur m = .ok (m.store.isLimited sink).1 m := by
    change EStateM.Result.ok (m.store.isLimited sink).1
      { m with store := (m.store.isLimited sink).2 } = _
    rw [hstore]
  unfold Meets
  rw [bind_apply, hread]
  change Meets sur m _ _ (do
    if (m.store.isLimited sink).1 = true then MonadExcept.throw .limited
    x)
  split
  next hyes =>
    exact Meets.bind (Q := fun _ _ => False) (Meets.throw ⟨hm, hl hyes⟩) fun _ _ h => h.elim
  next => exact hx m hm

theorem calleeSink (kind : ContentKind) (fs : List FilterCall) (args : List (List Value))
    (sink : Sink) :
    Calmly n limit base sur (Exec.calleeSink kind fs args sink) fun _ => True := by
  unfold Exec.calleeSink
  split
  · exact done _
  · split
    · exact (wrap _ _ _ _).bind fun _ _ => done _
    · exact newBuffer.bind fun _ _ => done _

theorem finishCall (st : CallState) (out : Out) (fs : List FilterCall) :
    Calmly n limit base sur (Exec.finishCall st out fs) fun _ => True := by
  refine (target out).bind fun sink _ => ?_
  split
  · exact close _ _
  · refine machine.bind fun m _ => (bufferText _).bind fun text _ =>
      bind (P := fun _ => True) (eval fun maker => ?_)
      fun s _ => append sink s
    exact (Regime.filtered_plain fs st.args (Value.plain_ofContent _ text)).bind fun v hv =>
      Regime.Gives.text hv

variable (hsur : sur.render.Calm n)

include hsur

theorem reads (maker : Identity) : (Regime.plain n).Reads
    { params := sur.render.params, injected := sur.render.injected, context := sur.context,
      maker } .usual :=
  Regime.usual_reads ⟨hsur.params, hsur.injected⟩

theorem startCall (out : Out) (site : CallSite) (fs : List FilterCall) :
    Calmly n limit base sur (Exec.startCall out site fs) fun _ => True := by
  refine surroundings.bind fun sur' hsame => ?_
  subst hsame
  refine (eval fun maker =>
    (reads hsur maker).dispatch ⟨hsur.params, hsur.injected⟩ _ hsur.data site fs).bind fun d hd =>
      ?_
  cases d with
  | none => exact done _
  | some d =>
    refine (target out).bind fun sink _ => (calleeSink _ _ _ _).bind fun place _ => ?_
    refine bind (P := fun _ => True) (fun m hm => ?_) fun r _ => ?_
    · exact ⟨⟨hm.cells, Program.start_calm _ _ (hd d rfl) hsur.injected _ hm.store⟩, trivial⟩
    · cases r with
      | error e => exact fail
      | ok id => exact done _

theorem callState (i : Instr) (out : Out) (slot : Nat) (site : CallSite) (fs : List FilterCall) :
    Calmly n limit base sur (Exec.callState i out slot site fs) fun _ => True := by
  have hnew : Calmly n limit base sur (Exec.startCall out site fs >>= register i slot) fun _ =>
      True := by
    refine (startCall hsur _ _ _).bind fun started _ => (clearMemo i).bind fun _ _ => ?_
    cases started with
    | none => exact done _
    | some st => exact (setCell slot).bind fun _ _ => done _
  refine (cell slot).bind fun c _ => ?_
  cases c with
  | call st => exact done _
  | _ => exact hnew

omit hsur in
theorem proceed {invoke : RenderId → Store → Outcome × Store}
    (h : InvokesCalmly n limit base invoke) (out : Out) (slot : Nat) (fs : List FilterCall)
    (st : CallState) :
    Calmly n limit base sur (Exec.proceed invoke out slot fs st) fun _ => True := by
  intro m hm
  obtain ⟨hs, ho⟩ := h st.callee m.store hm.store
  have hm' : Machine.Calm n limit base { m with store := (invoke st.callee m.store).2 } :=
    ⟨hm.cells, hs⟩
  change Meets sur { m with store := (invoke st.callee m.store).2 } _ _
    (comeBack (invoke st.callee m.store).1 out slot fs st)
  cases hout : (invoke st.callee m.store).1 with
  | done => exact ((setCell slot).bind fun _ _ => finishCall st out fs) _ hm'
  | failed e => exact ((setCell slot).bind fun _ _ => fail) _ hm'
  | waiting id => rw [hout] at ho; exact ⟨hm', ho⟩
  | limited => rw [hout] at ho; exact ⟨hm', ho⟩
  | exhausted => exact ⟨hm', trivial⟩
  | broken => exact ⟨hm', trivial⟩

/-- Instructions keep machines calm, if the calls they make do. -/
theorem instr {invoke : RenderId → Store → Outcome × Store} (h : InvokesCalmly n limit base invoke)
    (pc : Nat) (i : Instr) :
    Calmly n limit base sur (Exec.instr invoke pc i) fun _ => True := by
  have hreads := reads hsur
  unfold Exec.instr
  split
  · exact (write _ _).bind fun _ _ => done _
  · next out e fs _ =>
    exact (eval fun maker => ((hreads maker).evaluates e).printed fun _ _ c _ =>
        (hreads maker).evaluates c).bind fun _ _ => (write _ _).bind fun _ _ =>
      (clearMemo i).bind fun _ _ => done _
  · exact surroundings.bind fun sur' _ => checkLimit sur'.render.sink (done _)
  · exact done _
  · next e target _ =>
    exact (eval fun maker => ((hreads maker).evaluates e).bool []).bind fun _ _ =>
      (clearMemo i).bind fun _ _ => done _
  · next slot values target _ =>
    exact (eval fun maker =>
      Regime.Evaluates.matchesCase (fun c _ => (hreads maker).evaluates c) slot).bind fun _ _ =>
        (clearMemo i).bind fun _ _ => done _
  · next slot kind e _ =>
    exact (eval fun maker => ((hreads maker).evaluates e).cellOf kind).bind fun _ hc =>
        (setCell slot hc).bind fun _ _ =>
      (clearMemo i).bind fun _ _ => done _
  · next slot code _ =>
    exact (eval fun maker => Regime.make_plain ⟨hsur.params, hsur.injected⟩ code).bind fun _ _ =>
      (setCell slot).bind fun _ _ => done _
  · next first start stop step _ =>
    refine (eval fun maker => Regime.Evaluates.range (fun c _ => (hreads maker).evaluates c)
      (fun c _ => (hreads maker).evaluates c) fun c _ => (hreads maker).evaluates c).bind fun _ _ =>
      ?_
    exact (setLoop first).bind fun _ _ => (clearMemo i).bind fun _ _ => done _
  · exact (cell _).bind fun _ _ => (cell _).bind fun _ _ => done _
  · exact (cell _).bind fun _ _ => (cell _).bind fun _ _ => (cell _).bind fun _ _ =>
        (setCell _).bind fun _ _ =>
      done _
  · next first e target _ =>
    refine (eval fun maker => ((hreads maker).evaluates e).items).bind fun list hl => ?_
    exact (setLoop first (show (Cell.value list.1).Plain from hl)).bind fun _ _ =>
      (clearMemo i).bind fun _ _ => done _
  · exact (cell _).bind fun _ _ => (cell _).bind fun _ _ => done _
  · exact (cell _).bind fun _ _ => (setCell _).bind fun _ _ => done _
  · exact newBuffer.bind fun _ _ => (setCell _).bind fun _ _ => done _
  · exact (buffer _).bind fun _ _ => (bufferText _).bind fun text _ =>
      (setCell _ (show (Cell.value _).Plain from Value.plain_ofContent _ text)).bind fun _ _ =>
        (setCell _).bind fun _ _ => done _
  · refine bind (P := fun _ => True) ?_ fun _ _ => done _
    refine (callState hsur _ _ _ _ _).bind fun st _ => ?_
    cases st with
    | none => exact done _
    | some st => exact proceed h _ _ _ _
  · refine (buffer _).bind fun _ _ => (bufferText _).bind fun _ _ => surroundings.bind fun _ _ => ?_
    refine bind (P := fun _ => True) (fun m hm => ?_) fun _ _ => (setCell _).bind fun _ _ => done _
    exact ⟨⟨hm.cells, hm.store.heap, hm.store.outlet, hm.store.renders⟩, trivial⟩
  · next out slot kind fs _ =>
    exact (eval fun maker =>
        Regime.Evaluates.filterArgs (fun _ _ c _ => (hreads maker).evaluates c) []).bind fun _ _ =>
            (target _).bind fun _ _ =>
      (wrap _ _ _ _).bind fun _ _ => (setCell _).bind fun _ _ =>
        (clearMemo i).bind fun _ _ => done _
  · refine (cell _).bind fun c _ => ?_
    cases c with
    | wrap entry stages => exact (setCell _).bind fun _ _ => (close _ _).bind fun _ _ => done _
    | _ => exact throw fun _ => trivial

end Exec.Calmly

/-! ## Runs -/

theorem SavedFrame.restore_plain {f : SavedFrame} (hf : ∀ c ∈ f.cells, c.Plain) {cells : Cells}
    (hc : cells.Plain) (slots : List Nat) : (f.restore cells slots).Plain := by
  have hall : ∀ written : List (Nat × Cell), (∀ w ∈ written, w.2.Plain) → ∀ {cells : Cells},
      cells.Plain → (written.foldl (fun cs (w : Nat × Cell) => cs.write w.1 w.2) cells).Plain := by
    intro written hw
    induction written with
    | nil => exact fun h => h
    | cons w rest ih =>
      obtain ⟨hfirst, hrest⟩ := List.forall_mem_cons.1 hw
      exact fun h => ih hrest (h.write hfirst w.1)
  exact hall _ (fun w hw => hf w.2 (List.of_mem_zip hw).2) hc

/-- A call has left a calm store. -/
def Store.Calms (n : Nat) (limit : Int) (base : Nat) (result : Outcome × Store) : Prop :=
  result.2.Calm n limit base ∧ result.1.Calm n base result.2

namespace Store

variable {n : Nat} {limit : Int} {base : Nat} {s : Store} {m : Machine}

theorem Calm.setStatus (h : s.Calm n limit base) (id : RenderId) {status : Status}
    (hf : ∀ f, status = .suspended f → ∀ c ∈ f.cells, c.Plain) :
    (s.setStatus id status).Calm n limit base := by
  refine ⟨h.heap, h.outlet, fun j r hr => ?_⟩
  rw [setStatus_get] at hr
  split at hr
  · obtain ⟨r', hr', rfl⟩ := Option.map_eq_some_iff.1 hr
    exact { h.renders j r' hr' with frame := hf }
  · exact h.renders j r hr

theorem Calm.logged (h : s.Calm n limit base) (e : Log.Entry) : (s.logged e).Calm n limit base :=
    ⟨h.heap, h.outlet, h.renders⟩

theorem Calm.flush (h : s.Calm n limit base) (sink : Sink) :
    (s.flush sink).2.Calm n limit base ∧ (s.flush sink).2.output = s.output :=
  ⟨⟨h.heap, Streams.flush_drains h.outlet sink, h.renders⟩, Streams.flush_output h.outlet sink⟩

theorem Calm.failRender (h : s.Calm n limit base) (id : RenderId) (r : Render) (e : Failure) :
    Calms n limit base (s.failRender id r e) :=
  ⟨h.setStatus id fun _ hf => (by cases hf), trivial⟩

theorem suspend_calm (hm : m.Calm n limit base) (context : Context) (id : RenderId)
    (r : Render) (pc : Nat) {o : Outcome} (ho : o.Calm n base m.store) :
    Calms n limit base (suspend context id r pc m o) := by
  unfold suspend
  split
  · exact ⟨hm.store, trivial⟩
  split
  · exact hm.store.failRender ..
  next x _ =>
    have hframe : ∀ c ∈ (SavedFrame.save pc m.cells x.site.slots m.maker).cells, c.Plain := by
      intro c hc
      obtain ⟨j, _, rfl⟩ := List.mem_map.1 hc
      exact hm.cells j
    have hsaved : (m.store.setStatus id
        (.suspended (SavedFrame.save pc m.cells x.site.slots m.maker))).Calm n limit base :=
      hm.store.setStatus id fun f hf => by cases hf; exact hframe
    obtain ⟨hflushed, hout⟩ := hsaved.flush r.sink
    have ho' : o.Calm n base
        ((m.store.setStatus id (.suspended (SavedFrame.save pc m.cells x.site.slots m.maker))).flush
            r.sink).2 := by
      cases o with
      | limited => exact Nat.lt_of_lt_of_eq ho (congrArg String.length hout.symm)
      | _ => exact ho
    simp only
    generalize (m.store.setStatus id
      (.suspended (SavedFrame.save pc m.cells x.site.slots m.maker))).flush r.sink = result
      at hflushed ho'
    obtain ⟨flushed, s⟩ := result
    cases flushed with
    | error e => exact hflushed.failRender ..
    | ok _ =>
      simp only
      split
      · refine ⟨hflushed.logged _, ?_⟩
        cases o <;> exact ho'
      · exact ⟨hflushed, ho'⟩

theorem interrupt_calm (hm : m.Calm n limit base) (context : Context) (id : RenderId)
    (r : Render) (pc : Nat) {e : Interrupt} (he : e.Calm n base m.store) :
    Calms n limit base (interrupt context id r pc m e) := by
  cases e with
  | failed cause => exact hm.store.failRender ..
  | waiting f => exact suspend_calm hm context id r pc he
  | limited => exact suspend_calm hm context id r pc he
  | exhausted => exact ⟨hm.store, trivial⟩
  | broken => exact ⟨hm.store, trivial⟩

theorem enter_calm (context : Context) {r : Render} (hr : r.Calm n) (hs : s.Calm n limit base) :
    (enter context r s).2.Calm n limit base := by
  have hcleared := Cells.plain_cleared r.program.size
  unfold enter
  simp only
  split
  · next f hf =>
    split
    · refine ⟨SavedFrame.restore_plain (hr.frame f hf) hcleared _, ?_⟩
      simp only
      split
      · exact hs.logged _
      · exact hs
    · exact ⟨hcleared, hs⟩
  · exact ⟨hcleared, hs⟩

theorem setUp_calm (hm : m.Calm n limit base) (i : Instr) : (m.setUp i).Calm n limit base := by
  refine ⟨?_, ⟨hm.store.heap.clear, hm.store.heap.futures, hm.store.heap.thunks⟩, hm.store.outlet,
    hm.store.renders⟩
  change (i.clearScratch m.cells).Plain
  unfold Instr.clearScratch
  split
  · exact hm.cells.clear _ _
  · exact hm.cells

/-- One instruction of a calm render, and the rest of its steps. -/
theorem steps_calm {reg : Registry} (context : Context) {fuel : Nat}
    (hinvoke : InvokesCalmly n limit base (invoke reg context fuel))
    (hsteps : ∀ (id : RenderId) (r : Render) (pc : Nat) (resumed : Bool) (m : Machine), r.Calm n →
      m.Calm n limit base → Calms n limit base (steps reg context fuel id r pc resumed m))
    (id : RenderId) {r : Render} (hr : r.Calm n) (pc : Nat) (resumed : Bool)
    (hm : m.Calm n limit base) :
    Calms n limit base (steps reg context (fuel + 1) id r pc resumed m) := by
  unfold steps
  split
  · exact ⟨hm.store.setStatus id fun _ hf => (by cases hf), trivial⟩
  next i _ =>
    have hm' : (if resumed then m else m.setUp i).Calm n limit base := by
      split
      · exact hm
      · exact setUp_calm hm i
    have hinstr : Exec.Calmly n limit base { render := r, registry := reg, context } _ _ :=
      .instr hr hinvoke pc i
    have hrun := hinstr _ hm'
    unfold Exec.Meets at hrun
    simp only
    split
    · next hi => rw [hi] at hrun; exact hsteps id r _ false _ hr hrun.1
    · next hi => rw [hi] at hrun; exact interrupt_calm hrun.1 context id r pc hrun.2

/-- However a call of a render on a calm store ends, the store is calm. -/
theorem runs_calm (n : Nat) (limit : Int) (base : Nat) (reg : Registry) (context : Context)
    (fuel : Nat) :
    InvokesCalmly n limit base (invoke reg context fuel) ∧
      ∀ (id : RenderId) (r : Render) (pc : Nat) (resumed : Bool) (m : Machine), r.Calm n →
    m.Calm n limit base → Calms n limit base (steps reg context fuel id r pc resumed m) := by
  induction fuel with
  | zero => exact ⟨fun id s hs => ⟨hs, trivial⟩, fun id r pc resumed m _ hm => ⟨hm.store, trivial⟩⟩
  | succ fuel ih =>
    refine ⟨fun id s hs => ?_, fun id r pc resumed m hr hm =>
      steps_calm context ih.1 ih.2 id hr pc resumed hm⟩
    unfold invoke
    split
    · exact ⟨hs, trivial⟩
    next r hr =>
      have hcalm := hs.renders id r hr
      split
      · exact ⟨hs, trivial⟩
      · exact ⟨hs, trivial⟩
      · exact ⟨hs, trivial⟩
      · exact ih.2 id r _ false _ hcalm (enter_calm context hcalm hs)
      · refine ih.2 id _ _ true _ ⟨hcalm.params, hcalm.injected, hcalm.data, fun _ hf =>
          (by cases hf)⟩ ?_
        exact enter_calm context hcalm (hs.setStatus id fun _ hf => (by cases hf))

end Store

end Interlude
