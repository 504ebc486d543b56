import Interlude.Proofs.Direct.Follow
import Interlude.Proofs.Program.Confined
import Interlude.Proofs.Render.Reachable
/-!
# Confined instructions at work

What an instruction was confined to when it was compiled is what it keeps to when it runs: it goes
on with one of the places it names, and it leaves alone the cells below its mark, however it ends
(`instr_onward`, `instr_spares`).
-/

namespace Interlude

namespace Exec

/-! ## Where instructions go on -/

/-- Every result of a computation is as told. -/
def Returns {α : Type} (P : α → Prop) (x : Exec α) : Prop := ∀ sur m a m', x sur m = .ok a m' → P a

namespace Returns

variable {α β : Type} {P : β → Prop}

theorem pure {b : β} (h : P b) : Returns P (Pure.pure b) := by
  rintro sur m a m' ⟨⟩
  exact h

theorem throw (e : Interrupt) : Returns P (MonadExceptOf.throw e) := by
  rintro sur m a m' ⟨⟩

theorem bind {x : Exec α} {f : α → Exec β} (hf : ∀ a, Returns P (f a)) : Returns P (x >>= f) := by
  intro sur m b m' h
  rw [bind_apply] at h
  split at h
  · exact hf _ _ _ _ _ h
  · cases h

end Returns

/-- An instruction goes on with one of the places it names. -/
theorem instr_onward (invoke : RenderId → Store → Outcome × Store) (pc : Nat) (i : Instr) :
    Returns (· ∈ i.op.onward pc) (instr invoke pc i) := by
  have hnext : pc + 1 ∈ [pc + 1] := List.mem_singleton_self _
  have hboth {b : Prop} [Decidable b] (target : Nat) : (if b then pc + 1 else target) ∈
      [pc + 1, target] := by
    split <;> simp
  have hboth' {b : Prop} [Decidable b] (target : Nat) : (if b then target else pc + 1) ∈
      [pc + 1, target] := by
    split <;> simp
  obtain ⟨op, extent⟩ := i
  cases op with
  | text => exact .bind fun _ => .pure hnext
  | print => exact .bind fun _ => .bind fun _ => .bind fun _ => .pure hnext
  | checkLimit =>
    refine .bind fun _ => .bind fun limited => ?_
    cases limited with
    | true => exact .bind fun _ => .pure hnext
    | false => exact .pure hnext
  | jump => exact .pure (List.mem_singleton_self _)
  | jumpIfFalse _ target => exact .bind fun _ => .bind fun _ => .pure (hboth target)
  | caseMatch _ _ target => exact .bind fun _ => .bind fun _ => .pure (hboth target)
  | store => exact .bind fun _ => .bind fun _ => .bind fun _ => .pure hnext
  | storeThunk => exact .bind fun _ => .bind fun _ => .pure hnext
  | rangeInit => exact .bind fun _ => .bind fun _ => .bind fun _ => .pure hnext
  | rangeNext _ target => exact .bind fun _ => .bind fun _ => .pure (hboth' target)
  | rangeStep =>
    exact .bind fun _ => .bind fun _ => .bind fun _ => .bind fun _ =>
      .pure (List.mem_singleton_self _)
  | eachInit _ _ target => exact .bind fun _ => .bind fun _ => .bind fun _ => .pure (hboth' target)
  | eachNext _ target => exact .bind fun _ => .bind fun _ => .pure (hboth' target)
  | eachStep => exact .bind fun _ => .bind fun _ => .pure (List.mem_singleton_self _)
  | beginBuffer => exact .bind fun _ => .bind fun _ => .pure hnext
  | endBuffer => exact .bind fun _ => .bind fun _ => .bind fun _ => .bind fun _ => .pure hnext
  | call => exact .bind fun _ => .pure hnext
  | log =>
    exact .bind fun _ => .bind fun _ => .bind fun _ => .bind fun _ => .bind fun _ => .pure hnext
  | beginWrap =>
    exact .bind fun _ => .bind fun _ => .bind fun _ => .bind fun _ => .bind fun _ => .pure hnext
  | endWrap =>
    refine .bind fun c => ?_
    cases c with
    | wrap => exact .bind fun _ => .bind fun _ => .pure hnext
    | _ => exact .throw _

/-! ## What instructions leave alone -/

/-- However a computation ends, the cells below a mark are as they were. -/
def SparesAt {α : Type} (low : Nat) (sur : Surroundings) (m : Machine) (x : Exec α) : Prop :=
  Meets sur m (fun _ m' => m.cells.SameBelow low m'.cells) (fun _ m' =>
    m.cells.SameBelow low m'.cells) x

/-- A computation that leaves alone the cells below a mark. -/
def Spares {α : Type} (low : Nat) (x : Exec α) : Prop := ∀ sur m, SparesAt low sur m x

variable {α β : Type} {low : Nat} {sur : Surroundings} {m : Machine}

theorem SparesAt.bind {x : Exec α} {f : α → Exec β} (hx : SparesAt low sur m x)
    (hf : ∀ a, Spares low (f a)) :
    SparesAt low sur m (x >>= f) := by
  refine Meets.bind (Q := fun _ m' => m.cells.SameBelow low m'.cells) hx fun a m' h => ?_
  exact (hf a sur m').imp (fun _ _ h' => h.trans h') fun _ _ h' => h.trans h'

namespace Spares

theorem pure (a : α) : Spares low (Pure.pure a : Exec α) := fun _ m => .refl low m.cells

theorem throw (e : Interrupt) : Spares low (MonadExceptOf.throw e : Exec α) := fun _ m =>
    .refl low m.cells

theorem bind {x : Exec α} {f : α → Exec β} (hx : Spares low x) (hf : ∀ a, Spares low (f a)) :
    Spares low (x >>= f) :=
  fun sur m => (hx sur m).bind hf

theorem read : Spares low (MonadReaderOf.read : Exec Surroundings) := fun _ m => .refl low m.cells

theorem get : Spares low (MonadStateOf.get : Exec Machine) := fun _ m => .refl low m.cells

theorem onStore (f : Store → α × Store) : Spares low (onStore f) := fun _ m => .refl low m.cells

theorem cell (i : Nat) : Spares low (cell i) := .bind .get fun _ => .pure _

theorem setCell {i : Nat} (hi : low ≤ i) (c : Cell) : Spares low (setCell i c) :=
  fun _ m => (Cells.SameBelow.refl low m.cells).write hi c

theorem fail (e : Failure) : Spares low (fail e : Exec α) := .throw _

theorem ofExcept (r : Except Failure α) : Spares low (ofExcept r) := by
  cases r with
  | ok a => exact .pure a
  | error e => exact .fail e

theorem onSink (f : Store → Except Failure α × Store) : Spares low (onSink f) := by
  refine .bind (.onStore f) fun r => ?_
  cases r with
  | ok a => exact .pure a
  | error e => exact .fail _

theorem target (out : Out) : Spares low (target out) := by
  cases out with
  | sink => exact .bind .read fun _ => .pure _
  | cell slot =>
    refine .bind (.cell slot) fun c => ?_
    cases c with
    | wrap => exact .pure _
    | buffer => exact .pure _
    | _ => exact .throw _

theorem buffer (i : Nat) : Spares low (buffer i) := by
  refine .bind (.cell i) fun c => ?_
  cases c with
  | buffer => exact .pure _
  | _ => exact .throw _

theorem write (out : Out) (s : String) : Spares low (write out s) := .bind (.target out) fun _ =>
    .onSink _

theorem wrap (fs : List FilterCall) (args : List (List Value)) (kind : ContentKind) (sink : Sink) :
    Spares low (wrap fs args kind sink) :=
  .bind .get fun _ => .bind (.ofExcept _) fun _ => .onStore _

theorem bufferText (id : BufferId) : Spares low (bufferText id) := .bind .get fun _ => .pure _

theorem setLoop {base : Nat} (h : low ≤ base) (a b c : Cell) : Spares low (setLoop base a b c) :=
  .bind (.setCell h a) fun _ => .bind (.setCell (by omega) b) fun _ => .setCell (by omega) c

/-- The cells of an instruction lie behind the mark. -/
theorem clearMemo {i : Instr} (h : ∀ x, i.extent = some x → x.Behind low) :
    Spares low (modify fun m => { m with cells := i.clearMemo m.cells } : Exec Unit) := by
  intro sur m
  change m.cells.SameBelow low (i.clearMemo m.cells)
  unfold Instr.clearMemo
  split
  · next x hx =>
    refine ⟨Cells.size_clear .., fun j hj => ?_⟩
    rw [Cells.read_clear, if_neg]
    rintro ⟨hlow, hhigh⟩
    exact Nat.not_le.2 hj ((h x hx).own j (Nat.le_trans (h x hx).low_le hlow) hhigh)
  · exact .refl low m.cells

end Spares

/-! ## Calls -/

theorem calleeSink_spares (kind : ContentKind) (fs : List FilterCall) (args : List (List Value))
    (sink : Sink) :
    Spares low (calleeSink kind fs args sink) := by
  unfold calleeSink
  split
  · exact .pure _
  · split
    · exact .bind (.wrap fs args kind sink) fun _ => .pure _
    · exact .bind (.onStore _) fun _ => .pure _

/-- Filtering what a callee wrote into a buffer. -/
theorem evalFiltered_spares (fs : List FilterCall) (args : List (List Value)) (v : Value) :
    Spares low (eval do
      let w ← Eval.filtered fs args v
      Eval.text w) := by
  intro sur m
  have hact : Operand (fun _ => True) (fun _ _ _ => False) (fun _ => False)
      fun _ => Eval.filtered fs args v >>= Eval.text :=
    fun {_ _ _} hc _ => hc.bind (hc.filtered fs args v) fun w => hc.text w
  refine (eval_meets (fun _ => False) hact (fun _ _ _ h => h.elim) fun _ hf => hf.elim).imp ?_ ?_
  · exact fun _ m' he => ⟨he.memory.size, fun j _ => he.memory.rest j id⟩
  · exact fun e m' ⟨_, he⟩ => ⟨he.memory.size, fun j _ => he.memory.rest j id⟩

theorem finishCall_spares (st : CallState) (out : Out) (fs : List FilterCall) :
    Spares low (finishCall st out fs) := by
  refine .bind (.target out) fun sink => ?_
  cases st.buffer with
  | none => exact .onSink _
  | some b =>
    exact .bind .get fun _ => .bind (.bufferText b) fun _ =>
      .bind (evalFiltered_spares fs st.args _) fun _ => .onSink _

theorem proceed_spares (invoke : RenderId → Store → Outcome × Store) (out : Out) {slot : Nat}
    (hslot : low ≤ slot) (fs : List FilterCall) (st : CallState) :
    Spares low (proceed invoke out slot fs st) := by
  refine .bind (.onStore _) fun o => ?_
  cases o with
  | done => exact .bind (.setCell hslot _) fun _ => finishCall_spares st out fs
  | failed e => exact .bind (.setCell hslot _) fun _ => .fail e
  | waiting | limited | exhausted | broken => exact .throw _

theorem register_spares {i : Instr} (hi : ∀ x, i.extent = some x → x.Behind low) {slot : Nat}
    (hslot : low ≤ slot) (started : Option CallState) : Spares low (register i slot started) := by
  refine .bind (.clearMemo hi) fun _ => ?_
  cases started with
  | none => exact .pure _
  | some st => exact .bind (.setCell hslot _) fun _ => .pure _

/-! ## Instructions -/

section

variable {reg : Registry} {id : RenderId} {r : Render} {pc : Nat} {i : Instr}

/-- Evaluations keep their results in cells of the instruction. -/
theorem Running.eval_spares (h : Running reg id r pc i m)
    (hi : ∀ x, i.extent = some x → x.Behind low) (act : Strategy → Eval α) (valued : Nat → Prop)
    (hs : i.op.stops = true) (hv : ∀ j, valued j → r.program.types pc j = .value)
    (ha : ∀ keep, i.op.Touches (r.program.types pc · ≠ .free) keep →
      Operand (r.program.types pc · ≠ .free) keep valued act) :
    SparesAt low sur m (eval (act .usual)) := by
  have hsame {m' : Machine} (he : m.Evaluated (Instr.Own i) m') :
      m.cells.SameBelow low m'.cells := by
    refine ⟨he.memory.size, fun j hj => he.memory.rest j ?_⟩
    rintro ⟨x, hx, hlow, hhigh⟩
    exact Nat.not_le.2 hj ((hi x hx).own j (Nat.le_trans (hi x hx).low_le hlow) hhigh)
  exact (h.evaluates act valued hs hv ha).imp (fun _ _ he => hsame he) fun _ _ he => hsame he.2

theorem startCall_spares {context : Context} {out : Out} {slot : Nat} {site : CallSite}
    {fs : List FilterCall} {extent : Option Extent}
    (h : Running reg id r pc { op := .call out slot site fs, extent } m)
    (hi : ∀ x, extent = some x → x.Behind low) :
    SparesAt low ⟨r, reg, context⟩ m (startCall out site fs) := by
  obtain ⟨-, -, hargs, -⟩ := h.fits.flows
  refine Meets.bind (Q := fun sur m' => sur = ⟨r, reg, context⟩ ∧ m' = m) ⟨rfl, rfl⟩
    fun sur m₁ ⟨hsur, hm⟩ => ?_
  subst hsur hm
  refine SparesAt.bind (h.eval_spares hi (Eval.dispatch · reg r.data site fs) _ rfl ?_ fun _ =>
    Operand.dispatch)
    fun d => ?_
  · rintro j ⟨name, hm⟩
    exact hargs _ hm
  cases d with
  | none => exact .pure _
  | some d =>
    refine .bind (.target out) fun sink => .bind (calleeSink_spares _ fs d.args sink) fun place =>
      .bind (.onStore _) fun started => ?_
    cases started with
    | error e => exact .fail e
    | ok callee => exact .pure _

theorem call_spares {context : Context} (invoke : RenderId → Store → Outcome × Store)
    {out : Out} {slot : Nat} {site : CallSite} {fs : List FilterCall} {extent : Option Extent}
    (h : Running reg id r pc { op := .call out slot site fs, extent } m)
    (hi : ∀ x, extent = some x → x.Behind low) (hslot : low ≤ slot) :
    SparesAt low ⟨r, reg, context⟩ m
      (call invoke { op := .call out slot site fs, extent } out slot site fs) := by
  have hstate : SparesAt low ⟨r, reg, context⟩ m
      (callState { op := .call out slot site fs, extent } out slot site fs) := by
    unfold SparesAt Meets
    rw [callState_apply]
    cases m.cells.read slot with
    | call st => exact Spares.pure (some st) ⟨r, reg, context⟩ m
    | _ => exact (startCall_spares h hi).bind (register_spares hi hslot)
  refine SparesAt.bind hstate fun st => ?_
  cases st with
  | none => exact .pure _
  | some st => exact proceed_spares invoke out hslot fs st

/-- A confined instruction leaves alone the cells below its mark. -/
theorem instr_spares (context : Context) (invoke : RenderId → Store → Outcome × Store)
    {first last : Nat} (h : Running reg id r pc i m) (hi : i.Confined low first last pc) :
    SparesAt low ⟨r, reg, context⟩ m (instr invoke pc i) := by
  obtain ⟨op, extent⟩ := i
  obtain ⟨hwrites, -, hext⟩ := hi
  cases op with
  | text out s => exact (Spares.bind (.write out s) fun _ => .pure _) _ m
  | print out e fs =>
    refine SparesAt.bind
      (h.eval_spares hext (Eval.printed · e fs) (fun _ => False) rfl (fun _ h => h.elim)
      fun _ => Operand.printed) fun s => ?_
    exact .bind (.write out s) fun _ => .bind (.clearMemo hext) fun _ => .pure _
  | checkLimit =>
    refine (Spares.bind .read fun _ => .bind (.onStore _) fun limited => ?_) _ m
    cases limited with
    | true => exact .bind (.throw _) fun _ => .pure _
    | false => exact .pure _
  | jump target => exact Spares.pure target _ m
  | jumpIfFalse e target =>
    refine SparesAt.bind (h.eval_spares hext (e.bool · []) (fun _ => False) rfl (fun _ h => h.elim)
      fun _ => Operand.bool) fun b => ?_
    exact .bind (.clearMemo hext) fun _ => .pure _
  | caseMatch slot values target =>
    refine SparesAt.bind
      (h.eval_spares hext (Eval.matchesCase · slot values) (fun _ => False) rfl (fun _ h => h.elim)
      fun _ ht => Operand.matchesCase ⟨ht.1, ht.2⟩) fun b => ?_
    exact .bind (.clearMemo hext) fun _ => .pure _
  | store slot kind e =>
    refine SparesAt.bind
      (h.eval_spares hext (Eval.cellOf · kind e) (fun _ => False) rfl (fun _ h => h.elim)
      fun _ => Operand.cellOf) fun c => ?_
    exact .bind (.setCell (hwrites slot (List.mem_singleton_self _)) c) fun _ =>
      .bind (.clearMemo hext) fun _ => .pure _
  | storeThunk slot code =>
    refine SparesAt.bind (.refl low m.cells) fun t => ?_
    exact .bind (.setCell (hwrites slot (List.mem_singleton_self _)) _) fun _ => .pure _
  | rangeInit base start stop step =>
    refine SparesAt.bind
      (h.eval_spares hext (Eval.range · start stop step) (fun _ => False) rfl (fun _ h => h.elim)
      fun _ => Operand.range) fun bounds => ?_
    exact .bind (.setLoop (hwrites base (List.mem_cons_self ..)) _ _ _) fun _ =>
      .bind (.clearMemo hext) fun _ => .pure _
  | rangeNext base target =>
    exact (Spares.bind (.cell _) fun _ => .bind (.cell _) fun _ => .pure _) _ m
  | rangeStep base target =>
    exact (Spares.bind (.cell _) fun _ => .bind (.cell _) fun _ => .bind (.cell _) fun _ =>
      .bind (.setCell (hwrites base (List.mem_singleton_self _)) _) fun _ => .pure _) _ m
  | eachInit base e target =>
    refine SparesAt.bind
      (h.eval_spares hext (Eval.items · e) (fun _ => False) rfl (fun _ h => h.elim)
      fun _ => Operand.items) fun found => ?_
    exact .bind (.setLoop (hwrites base (List.mem_cons_self ..)) _ _ _) fun _ =>
      .bind (.clearMemo hext) fun _ => .pure _
  | eachNext base target =>
    exact (Spares.bind (.cell _) fun _ => .bind (.cell _) fun _ => .pure _) _ m
  | eachStep base target =>
    exact (Spares.bind (.cell _) fun _ =>
      .bind (.setCell (hwrites (base + 1) (List.mem_singleton_self _)) _) fun _ => .pure _) _ m
  | beginBuffer slot =>
    exact (Spares.bind (.onStore _) fun _ =>
      .bind (.setCell (hwrites slot (List.mem_singleton_self _)) _) fun _ => .pure _) _ m
  | endBuffer slot dst kind =>
    have hdst := hwrites dst (List.mem_cons_self ..)
    have hslot := hwrites slot (List.mem_cons_of_mem _ (List.mem_singleton_self _))
    exact (Spares.bind (.buffer slot) fun b => .bind (.bufferText b) fun _ =>
      .bind (.setCell hdst _) fun _ => .bind (.setCell hslot _) fun _ => .pure _) _ m
  | call out slot site fs =>
    exact SparesAt.bind (call_spares invoke h hext (hwrites slot (List.mem_singleton_self _)))
      fun _ => .pure _
  | log slot =>
    exact (Spares.bind (.buffer slot) fun b => .bind (.bufferText b) fun _ => .bind .read fun _ =>
      .bind (.onStore _) fun _ =>
        .bind (.setCell (hwrites slot (List.mem_singleton_self _)) _) fun _ => .pure _) _ m
  | beginWrap out slot kind fs =>
    refine SparesAt.bind
      (h.eval_spares hext (Eval.filterArgs · [] fs) (fun _ => False) rfl (fun _ h => h.elim)
      fun _ => Operand.filterArgs) fun args => ?_
    exact .bind (.target out) fun sink => .bind (.wrap fs args kind sink) fun _ =>
      .bind (.setCell (hwrites slot (List.mem_singleton_self _)) _) fun _ =>
        .bind (.clearMemo hext) fun _ => .pure _
  | endWrap slot =>
    refine (Spares.bind (.cell slot) fun c => ?_) _ m
    cases c with
    | wrap entry stages =>
      exact .bind (.setCell (hwrites slot (List.mem_singleton_self _)) _) fun _ =>
        .bind (.onSink _) fun _ => .pure _
    | _ => exact .throw _

end

end Exec

end Interlude
