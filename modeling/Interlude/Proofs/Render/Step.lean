import Interlude.Proofs.Render.Safe
/-!
# Instructions keep stores safe

One instruction, whatever it is, leaves the machine safe for the instruction it goes on with, and
finds cells of the form it expects. One that is stopped by a pending value or by its sink can be
suspended there. What holds of an end either way is told by `Exec.Meets`.
-/

namespace Interlude

namespace Exec

theorem bind_apply {α β : Type} (x : Exec α) (f : α → Exec β) (sur : Surroundings) (m : Machine) :
    (x >>= f) sur m =
      match x sur m with
      | .ok a m' => f a sur m'
      | .error e m' => .error e m' := by
  change EStateM.bind (x sur) (fun a => f a sur) m = _
  rw [EStateM.bind]
  cases x sur m <;> rfl

/-- However a computation ends, what it leaves is as told. -/
def Meets {α : Type} (sur : Surroundings) (m : Machine) (ok : α → Machine → Prop)
    (stop : Interrupt → Machine → Prop) (x : Exec α) : Prop :=
  match x sur m with
  | .ok a m' => ok a m'
  | .error e m' => stop e m'

namespace Meets

variable {α β : Type} {sur : Surroundings} {m : Machine} {ok : α → Machine → Prop}
  {stop : Interrupt → Machine → Prop}

theorem pure {a : α} (h : ok a m) : Meets sur m ok stop (pure a) := h

theorem throw {e : Interrupt} (h : stop e m) : Meets sur m ok stop (throw e) := h

theorem bind {x : Exec β} {f : β → Exec α} {Q : β → Machine → Prop} (hx : Meets sur m Q stop x)
    (hf : ∀ b m', Q b m' → Meets sur m' ok stop (f b)) : Meets sur m ok stop (x >>= f) := by
  unfold Meets at hx ⊢
  rw [bind_apply]
  cases hr : x sur m with
  | ok b m' =>
    rw [hr] at hx
    exact hf b m' hx
  | error e m' =>
    rw [hr] at hx
    exact hx

theorem imp {x : Exec α} {ok' : α → Machine → Prop} {stop' : Interrupt → Machine → Prop}
    (h : Meets sur m ok stop x) (hok : ∀ a m', ok a m' → ok' a m')
    (hstop : ∀ e m', stop e m' → stop' e m') : Meets sur m ok' stop' x := by
  unfold Meets at h ⊢
  cases hr : x sur m with
  | ok a m' => rw [hr] at h; exact hok a m' h
  | error e m' => rw [hr] at h; exact hstop e m' h

/-- Results of a certain form. -/
theorem result {x : Exec α} {P : α → Prop} (h : Meets sur m ok stop x)
    (hp : ∀ a m', x sur m = .ok a m' → P a) :
    Meets sur m (fun a m' => ok a m' ∧ P a) stop x := by
  unfold Meets at h ⊢
  cases hr : x sur m with
  | ok a m' => rw [hr] at h; exact ⟨h, hp a m' hr⟩
  | error e m' => rw [hr] at h; exact h

end Meets

end Exec

/-- A machine after an evaluation that kept results in its `own` cells. -/
structure Machine.Evaluated (own : Nat → Prop) (m m' : Machine) : Prop where
  maker : m'.maker = m.maker
  renders : m'.store.renders = m.store.renders
  streams : m'.store.streams = m.store.streams
  log : m'.store.log = m.store.log
  memory : Memory.Later own ⟨m.cells, m.store.heap⟩ ⟨m'.cells, m'.store.heap⟩

/-- An evaluation is stopped by a failure, a pending value, or reads without end. -/
def Interrupt.FromEval (fs : Futures) : Interrupt → Prop
  | .failed _ => True
  | .waiting p => fs.get p = .pending
  | .limited => False
  | .exhausted => fs.Endless
  | .broken => False

/-- What an instruction evaluates, by whatever strategy, as far as its cells are as told. -/
def Operand {α : Type} (see : Seeing) (keep : Keeping) (valued : Nat → Prop)
    (act : Strategy → Eval α) : Prop :=
  ∀ {R : (α : Type) → Eval α → Eval α → Prop} {s t : Strategy}, Congruence R see keep s t →
    (∀ i, valued i → see i → R Value (Eval.content i) (Eval.content i)) → R α (act s) (act t)

namespace Operand

variable {see : Seeing} {keep : Keeping} {valued : Nat → Prop}

theorem printed {e : Compiled} {fs : List FilterCall} (ht : touchPrint see keep e fs) :
    Operand see keep valued (Eval.printed · e fs) :=
  fun {_ _ _} h _ => h.printed ht

theorem bool {e : Compiled} (ht : e.Touches see keep []) : Operand see keep valued (e.bool · []) :=
  fun {_ _ _} h _ => h.bool ht

theorem matchesCase {slot : Nat} {cs : List Compiled} (ht : see slot ∧ touchAll see keep [] cs) :
    Operand see keep valued (Eval.matchesCase · slot cs) :=
  fun {_ _ _} h _ => h.matchesCase ht.1 ht.2

theorem cellOf {kind : SlotKind} {e : Compiled} (ht : e.Touches see keep []) :
    Operand see keep valued (Eval.cellOf · kind e) :=
  fun {_ _ _} h _ => h.cellOf kind ht

theorem range {start stop step : Option Compiled} (ht : touchOption see keep [0] start ∧
    touchOption see keep [1] stop ∧ touchOption see keep [2] step) :
    Operand see keep valued (Eval.range · start stop step) :=
  fun {_ _ _} h _ => h.range ht.1 ht.2.1 ht.2.2

theorem items {e : Compiled} (ht : e.Touches see keep [0]) :
    Operand see keep valued (Eval.items · e) :=
  fun {_ _ _} h _ => h.items ht

theorem filterArgs {p : List Nat} {fs : List FilterCall} (ht : touchFilters see keep p fs) :
    Operand see keep valued (Eval.filterArgs · p fs) :=
  fun {_ _ _} h _ => h.filterArgs ht

/-- A call finds the contents it hands over in cells. -/
theorem dispatch {reg : Registry} {data : List (String × Value)} {site : CallSite}
    {fs : List FilterCall} (ht : site.Touches see keep fs) :
    Operand see keep (fun slot => ∃ name, .content name slot ∈ site.args)
      (Eval.dispatch · reg data site fs) :=
  fun {_ _ _} h hv => h.dispatch reg data ht fun name slot hm => hv slot ⟨name, hm⟩

end Operand

namespace Exec

/-- The environment of a render's evaluations. -/
def env (sur : Surroundings) (m : Machine) : Env :=
  { params := sur.render.params, injected := sur.render.injected, context := sur.context,
    maker := m.maker }

theorem eval_apply {α : Type} (act : Eval α) (sur : Surroundings) (m : Machine) :
    eval act sur m =
      match act (env sur m) ⟨m.cells, m.store.heap⟩ with
      | .ok a mem => .ok a (after m mem)
      | .error stop mem => .error stop.interrupt (after m mem) := rfl

/-- What a local is stored as. -/
theorem eval_cellOf {s : Strategy} {kind : SlotKind} {e : Compiled} {sur : Surroundings}
    {m m' : Machine} {c : Cell} (h : eval (Eval.cellOf s kind e) sur m = .ok c m') :
    (∃ b, c = .bits b) ∨ (∃ t, c = .str t) ∨ ∃ v, c = .value v := by
  have hmap {α : Type} {f : α → Cell} {act : Eval α} (h : eval (f <$> act) sur m = .ok c m') : ∃ a,
      c = f a := by
    rw [map_eq_pure_bind, eval_apply, Eval.bind_apply] at h
    cases hact : act (env sur m) ⟨m.cells, m.store.heap⟩ with
    | error stop mem => rw [hact] at h; cases h
    | ok a mem =>
      rw [hact] at h
      cases h
      exact ⟨a, rfl⟩
  unfold Eval.cellOf at h
  split at h
  · obtain ⟨a, rfl⟩ := hmap h
    exact .inl ⟨_, rfl⟩
  · obtain ⟨a, rfl⟩ := hmap h
    exact .inl ⟨_, rfl⟩
  · obtain ⟨a, rfl⟩ := hmap h
    exact .inl ⟨_, rfl⟩
  · obtain ⟨a, rfl⟩ := hmap h
    exact .inr (.inl ⟨_, rfl⟩)
  · obtain ⟨a, rfl⟩ := hmap h
    exact .inr (.inr ⟨_, rfl⟩)

/-- Evaluating leaves alone all but the own cells. -/
theorem eval_meets {α : Type} {see : Seeing} {keep : Keeping} (own : Nat → Prop)
    {valued : Nat → Prop} {act : Strategy → Eval α} (ha : Operand see keep valued act)
    (hk : ∀ p i x, keep p i x → own i) {sur : Surroundings} {m : Machine}
    (hv : Eval.Valued valued m.cells) :
    Meets sur m (fun _ m' => m.Evaluated own m') (fun e m' => e.FromEval m'.store.heap.futures ∧
      m.Evaluated own m') (eval (act .usual)) := by
  have hcong : Congruence (Eval.Tame own valued (env sur m)) see keep .usual .usual :=
    (Eval.Tame.usual own valued (env sur m) hk).weaken (fun _ _ => trivial) fun _ _ _ h => h
  have htame := ha hcong (fun i hi _ => Eval.Tame.content hi) ⟨m.cells, m.store.heap⟩ hv
  unfold Meets
  rw [eval_apply]
  cases hr : act .usual (env sur m) ⟨m.cells, m.store.heap⟩ with
  | ok a mem =>
    rw [hr] at htame
    exact ⟨rfl, rfl, rfl, rfl, htame⟩
  | error e mem =>
    rw [hr] at htame
    refine ⟨?_, rfl, rfl, rfl, rfl, htame.2⟩
    cases e with
    | waiting p => exact (Futures.get_congr htame.2.heap.states p).trans htame.1
    | exhausted => exact Futures.Endless.congr htame.2.heap.states.symm htame.1
    | _ => exact htame.1

end Exec

/-! ## What instructions do -/

/-- A machine that an instruction of the render `id` has brought this far from `m₀`. -/
structure Machine.Reaches (reg : Registry) (id : RenderId) (r : Render) (m m₀ : Machine)
    (g : Shapes) : Prop where
  safe : m.Safe reg id r g
  later : m₀.store.Later (id + 1) m.store

/-- How an instruction may be stopped. One that will be run again stands where it began. -/
def Machine.Halts (reg : Registry) (id : RenderId) (r : Render) (pc : Nat) (i : Instr)
    (m₀ : Machine) :
    Interrupt → Machine → Prop
  | .broken, _ => False
  | .waiting p, m => i.extent.isSome = true ∧ m.Reaches reg id r m₀ (r.program.types pc) ∧
    m.store.heap.futures.get p = .pending
  | .limited, m => i.extent.isSome = true ∧ m.Reaches reg id r m₀ (r.program.types pc)
  | _, m => m.store.Safe reg ∧ m₀.store.Later (id + 1) m.store

namespace Machine.Reaches

variable {reg : Registry} {id : RenderId} {r : Render} {m₀ m : Machine} {g g' : Shapes}

theorem refl (h : m.Safe reg id r g) : m.Reaches reg id r m g := ⟨h, .refl _ _⟩

theorem within (h : m.Reaches reg id r m₀ g) (hg : g'.Within g) : m.Reaches reg id r m₀ g' :=
  ⟨⟨h.safe.store, h.safe.render, h.safe.cells.within hg⟩, h.later⟩

theorem evaluated (h : m.Reaches reg id r m₀ g) {own : Nat → Prop} {m' : Machine}
    (he : m.Evaluated own m') (hg : ∀ j, own j → g j = .free) : m'.Reaches reg id r m₀ g where
  safe :=
    { store := h.safe.store.of_heap he.renders he.memory.heap
      render := by rw [he.renders]; exact h.safe.render
      cells := by
        have hcells : (⟨m.cells, m.store.heap⟩ : Memory).cells.Fits r.program.size id
            m.store.renders.size m.store.heap.thunks.size g :=
          h.safe.cells
        rw [he.renders, he.memory.heap.size]
        exact hcells.later he.memory hg }
  later := h.later.trans (.of_heap he.renders he.memory.heap)

/-- Only cells are changed. -/
theorem withCells (h : m.Reaches reg id r m₀ g) {cells : Cells}
    (hc : cells.Fits r.program.size id m.store.renders.size m.store.heap.thunks.size g') :
    Machine.Reaches reg id r { m with cells } m₀ g' :=
  ⟨⟨h.safe.store, h.safe.render, hc⟩, h.later⟩

/-- Sinks and logs do not concern renders. -/
theorem withStreams (h : m.Reaches reg id r m₀ g) (streams : Streams) :
    Machine.Reaches reg id r { m with store := { m.store with streams } } m₀ g :=
  ⟨⟨h.safe.store.of_heap rfl (.refl _), h.safe.render, h.safe.cells⟩,
    h.later.trans (.of_heap rfl (.refl _))⟩

theorem withLog (h : m.Reaches reg id r m₀ g) (e : Log.Entry) :
    Machine.Reaches reg id r { m with store := m.store.logged e } m₀ g :=
  ⟨⟨h.safe.store.of_heap rfl (.refl _), h.safe.render, h.safe.cells⟩,
    h.later.trans (.of_heap rfl (.refl _))⟩

/-- Another store, in which the renders up to `id` are the same. -/
theorem withStore (h : m.Reaches reg id r m₀ g) {s : Store} (hs : s.Safe reg)
    (hl : m.store.Later (id + 1) s) :
    Machine.Reaches reg id r { m with store := s } m₀ g :=
  ⟨⟨hs, by rw [hl.below id (Nat.lt_succ_self id)]; exact h.safe.render,
    h.safe.cells.grow hl.size hl.thunks⟩, h.later.trans hl⟩

/-- The render that runs is one of the store. -/
theorem lt (h : m.Reaches reg id r m₀ g) : id < m.store.renders.size :=
  (Array.getElem?_eq_some_iff.1 h.safe.render).1

theorem failed (h : m.Reaches reg id r m₀ g) (pc : Nat) (i : Instr) (e : Failure) :
    Halts reg id r pc i m₀ (.failed e) m :=
  ⟨h.safe.store, h.later⟩

theorem fromEval (h : m.Reaches reg id r m₀ (r.program.types pc)) {i : Instr} {e : Interrupt}
    (he : e.FromEval m.store.heap.futures) (hi : i.extent.isSome = true) :
    Halts reg id r pc i m₀ e m := by
  cases e with
  | failed => exact ⟨h.safe.store, h.later⟩
  | waiting => exact ⟨hi, h, he⟩
  | limited => exact he.elim
  | exhausted => exact ⟨h.safe.store, h.later⟩
  | broken => exact he.elim

end Machine.Reaches

/-- The cells of a deferred value are as many as its code needs. -/
theorem ThunkCode.size_copied (code : ThunkCode) (outer : Cells) :
    (code.copies.foldl (fun cs (c : Nat × Nat) => cs.write c.2 (outer.read c.1))
      (Cells.cleared code.size)).size = code.size := by
  generalize hcs : Cells.cleared code.size = cs
  have hsize : cs.size = code.size := by rw [← hcs, Cells.size_cleared]
  clear hcs
  induction code.copies generalizing cs with
  | nil => exact hsize
  | cons c rest ih => exact ih _ ((Cells.size_write ..).trans hsize)

namespace Exec

/-- The state of a call that was started goes into its cell. -/
def register (i : Instr) (slot : Nat) (started : Option CallState) : Exec (Option CallState) := do
  modify fun m => { m with cells := i.clearMemo m.cells }
  match started with
  | none => return none
  | some st =>
    setCell slot (.call st)
    return some st

theorem callState_apply (i : Instr) (out : Out) (slot : Nat) (site : CallSite)
    (fs : List FilterCall) (sur : Surroundings) (m : Machine) :
    callState i out slot site fs sur m = (match m.cells.read slot with
      | .call st => pure (some st)
      | _ => startCall out site fs >>= register i slot : Exec (Option CallState)) sur m := rfl

open Machine

variable {reg : Registry} {id : RenderId} {r : Render} {pc : Nat} {i : Instr}
  {m₀ m : Machine} {g : Shapes}
  {sur : Surroundings}

theorem cell_meets (k : Nat) {stop : Interrupt → Machine → Prop} :
    Meets sur m (fun c m' => c = m.cells.read k ∧ m' = m) stop (cell k) := ⟨rfl, rfl⟩

theorem target_meets (h : m.Reaches reg id r m₀ g) {out : Out} (ho : out.Fits g)
    {stop : Interrupt → Machine → Prop} :
    Meets sur m (fun _ m' => m' = m) stop (target out) := by
  cases out with
  | sink =>
    change m = m
    rfl
  | cell slot =>
    have hshape := h.safe.cells.shape slot
    refine (cell_meets slot).bind fun c m' ⟨hc, hm⟩ => ?_
    rcases ho with ho | ho
    · rw [ho] at hshape
      obtain ⟨b, hb⟩ := hshape
      rw [hc, hb]
      exact Meets.pure hm
    · rw [ho] at hshape
      obtain ⟨entry, stages, hw⟩ := hshape
      rw [hc, hw]
      exact Meets.pure hm

theorem onSink_ok {α : Type} {f : Store → Except Failure α × Store} {a : α}
    (h : (f m.store).1 = .ok a) :
    onSink f sur m = .ok a { m with store := (f m.store).2 } := by
  have hrun : onStore f sur m = .ok (.ok a) { m with store := (f m.store).2 } := by rw [← h]; rfl
  rw [onSink, bind_apply, hrun]
  rfl

theorem onSink_error {α : Type} {f : Store → Except Failure α × Store} {e : Failure}
    (h : (f m.store).1 = .error e) :
    onSink f sur m = .error (.failed (Failure.sink e)) { m with store := (f m.store).2 } := by
  have hrun : onStore f sur m = .ok (.error e) { m with store := (f m.store).2 } := by rw [← h]; rfl
  rw [onSink, bind_apply, hrun]
  rfl

/-- An operation on sinks. -/
theorem onSink_meets {α : Type} (h : m.Reaches reg id r m₀ g)
    {f : Streams → Except Failure α × Streams} :
    Meets sur m (fun _ m' => m'.Reaches reg id r m₀ g) (Halts reg id r pc i m₀)
      (onSink fun s => ((f s.streams).1, { s with streams := (f s.streams).2 })) := by
  have hreach := h.withStreams (f m.store.streams).2
  unfold Meets
  cases hf : (f m.store.streams).1 with
  | ok a =>
    rw [onSink_ok hf]
    exact hreach
  | error e =>
    rw [onSink_error hf]
    exact Reaches.failed hreach pc i (Failure.sink e)

theorem write_meets (h : m.Reaches reg id r m₀ g) {out : Out} (ho : out.Fits g) (s : String) :
    Meets sur m (fun _ m' => m'.Reaches reg id r m₀ g) (Halts reg id r pc i m₀) (write out s) := by
  refine (target_meets h ho).bind fun sink m' hm => ?_
  subst hm
  exact onSink_meets (f := (·.append sink s)) h

theorem newBuffer_meets (h : m.Reaches reg id r m₀ g) {stop : Interrupt → Machine → Prop} :
    Meets sur m (fun _ m' => m'.Reaches reg id r m₀ g) stop newBuffer := h.withStreams _

theorem bufferText_meets (b : BufferId) {stop : Interrupt → Machine → Prop} :
    Meets sur m (fun _ m' => m' = m) stop (bufferText b) := rfl

theorem setCell_meets (h : m.Reaches reg id r m₀ g) {slot : Nat} {c : Cell} {s : Shape}
    (hslot : slot < r.program.size) (hs : c.Has s)
    (hc : c.Refers id m.store.renders.size m.store.heap.thunks.size)
    {stop : Interrupt → Machine → Prop} :
    Meets sur m (fun _ m' => m'.Reaches reg id r m₀ (g.set slot s)) stop (setCell slot c) :=
  h.withCells (h.safe.cells.write hs hc (.inl hslot))

/-- A cell is given up. -/
theorem emptyCell_meets (h : m.Reaches reg id r m₀ g) (slot : Nat)
    {stop : Interrupt → Machine → Prop} :
    Meets sur m (fun _ m' => m'.Reaches reg id r m₀ (g.set slot .free)) stop
      (setCell slot .empty) :=
  h.withCells (h.safe.cells.write trivial trivial (.inr fun _ => trivial))

/-- A cell is cleared that nothing is known of. -/
theorem freeCell_meets (h : m.Reaches reg id r m₀ g) {slot : Nat} (hs : g slot = .free)
    {stop : Interrupt → Machine → Prop} :
    Meets sur m (fun _ m' => m'.Reaches reg id r m₀ g) stop (setCell slot .empty) :=
  h.withCells (h.safe.cells.write_free hs trivial)

theorem buffer_meets (h : m.Reaches reg id r m₀ g) {slot : Nat} (hs : g slot = .buffer)
    {stop : Interrupt → Machine → Prop} : Meets sur m (fun _ m' => m' = m) stop (buffer slot) := by
  have hshape := h.safe.cells.shape slot
  rw [hs] at hshape
  obtain ⟨b, hb⟩ := hshape
  refine (cell_meets slot).bind fun c m' ⟨hc, hm⟩ => ?_
  rw [hc, hb]
  exact Meets.pure hm

/-- The results of expressions are cleared. -/
theorem clearMemo_meets (h : m.Reaches reg id r m₀ g)
    (hg : ∀ x, i.extent = some x → ∀ j, x.memo ≤ j → j < x.high → g j = .free)
    {stop : Interrupt → Machine → Prop} :
    Meets sur m (fun _ m' => m'.Reaches reg id r m₀ g) stop
      (modify fun m => { m with cells := i.clearMemo m.cells }) := by
  refine h.withCells ?_
  unfold Instr.clearMemo
  split
  · next x hi => exact h.safe.cells.clear (hg x hi)
  · exact h.safe.cells

/-- Stages are put before a sink. -/
theorem wrap_meets (h : m.Reaches reg id r m₀ g) (fs : List FilterCall) (args : List (List Value))
    (kind : ContentKind) (sink : Sink) :
    Meets sur m (fun _ m' => m'.Reaches reg id r m₀ g) (Halts reg id r pc i m₀)
      (wrap fs args kind sink) := by
  change Meets sur m _ _ (do
    let stages ← ofExcept (Filter.stages m.store.heap.futures (Eval.applied fs args) kind)
    onStore fun s => ((s.streams.wrap stages sink).1,
      { s with streams := (s.streams.wrap stages sink).2 }))
  cases Filter.stages m.store.heap.futures (Eval.applied fs args) kind with
  | error e => exact Reaches.failed h pc i e
  | ok stages => exact h.withStreams _

theorem close_meets (h : m.Reaches reg id r m₀ g) (entry : Sink) (stages : Nat) :
    Meets sur m (fun _ m' => m'.Reaches reg id r m₀ g) (Halts reg id r pc i m₀)
      (close entry stages) :=
  onSink_meets (f := (·.closeAll (entry.stages stages))) h

/-! ## Instructions without calls -/

/-- What is known of a program at one of its instructions, and of the machine that runs it. -/
structure Running (reg : Registry) (id : RenderId) (r : Render) (pc : Nat) (i : Instr)
    (m : Machine) : Prop where
  fits : i.Fits r.program.size r.program.code.size r.program.types pc
  safe : m.Safe reg id r (r.program.types pc)

/-- What an instruction comes to if it is not stopped. -/
def Advances (reg : Registry) (id : RenderId) (r : Render) (m₀ : Machine) (next : Nat)
    (m : Machine) : Prop :=
  next ≤ r.program.code.size ∧ m.Reaches reg id r m₀ (r.program.types next)

theorem Advances.of_goes {next : Nat} (h : m.Reaches reg id r m₀ g)
    (hg : Goes r.program.code.size r.program.types g next) : Advances reg id r m₀ next m :=
  ⟨hg.1, h.within hg.2⟩

/-- The cells in which an instruction keeps the results of its expressions. -/
def Instr.Own (i : Instr) (j : Nat) : Prop := ∃ x, i.extent = some x ∧ x.memo ≤ j ∧ j < x.high

namespace Running

variable (h : Running reg id r pc i m)

include h

theorem own_free {j : Nat} (hj : Instr.Own i j) : r.program.types pc j = .free := by
  obtain ⟨x, hx, hlow, hhigh⟩ := hj
  have hfit := (h.fits.extent x hx).1
  exact hfit.scratch j (Nat.le_trans hfit.low_le hlow) hhigh

/-- Evaluating what the instruction evaluates leaves its machine as it was but for its own cells. -/
theorem evaluates {α : Type} (act : Strategy → Eval α) (valued : Nat → Prop)
    (hs : i.op.stops = true) (hv : ∀ j, valued j → r.program.types pc j = .value)
    (ha : ∀ keep, i.op.Touches (r.program.types pc · ≠ .free) keep →
      Operand (r.program.types pc · ≠ .free) keep valued act) :
    Meets sur m (fun _ m' => m.Evaluated (Instr.Own i) m')
      (fun e m' => e.FromEval m'.store.heap.futures ∧ m.Evaluated (Instr.Own i) m')
      (eval (act .usual)) := by
  obtain ⟨x, hx⟩ := Option.isSome_iff_exists.1 (h.fits.stops hs)
  obtain ⟨table, ht⟩ := h.fits.touches
  have hvalued : Eval.Valued valued m.cells := by
    intro j hj
    have := h.safe.cells.shape j
    rw [hv j hj] at this
    exact this
  refine Exec.eval_meets (Instr.Own i) (ha _ (ht x hx)) ?_ hvalued
  rintro p j y ⟨hlow, hhigh, _⟩
  exact ⟨x, hx, hlow, hhigh⟩

/-- So the machine is as safe as it was. -/
theorem eval_meets {α : Type} (act : Strategy → Eval α) (valued : Nat → Prop)
    (hs : i.op.stops = true) (hv : ∀ j, valued j → r.program.types pc j = .value)
    (ha : ∀ keep, i.op.Touches (r.program.types pc · ≠ .free) keep →
      Operand (r.program.types pc · ≠ .free) keep valued act) :
    Meets sur m (fun _ m' => m'.Reaches reg id r m (r.program.types pc)) (Halts reg id r pc i m)
      (eval (act .usual)) := by
  refine (h.evaluates act valued hs hv ha).imp ?_ ?_
  · intro a m' he
    exact (Reaches.refl h.safe).evaluated he fun j hj => h.own_free hj
  · rintro e m' ⟨he, hm⟩
    exact ((Reaches.refl h.safe).evaluated hm fun j hj => h.own_free hj).fromEval he
      (h.fits.stops hs)

/-- Cells of the instruction are still free after it wrote outside of them. -/
theorem memo_free {g : Shapes} (hg : ∀ j, (∃ x, i.extent = some x ∧ x.low ≤ j ∧ j < x.high) →
    g j = r.program.types pc j) : ∀ x, i.extent = some x → ∀ j, x.memo ≤ j → j < x.high →
    g j = .free := by
  intro x hx j hlow hhigh
  have hfit := (h.fits.extent x hx).1
  rw [hg j ⟨x, hx, Nat.le_trans hfit.low_le hlow, hhigh⟩]
  exact h.own_free ⟨x, hx, hlow, hhigh⟩

end Running

section

variable {invoke : RenderId → Store → Outcome × Store} {extent : Option Extent}

theorem text_meets {out : Out} {s : String}
    (h : Running reg id r pc { op := .text out s, extent } m) :
    Meets sur m (Advances reg id r m) (Halts reg id r pc { op := .text out s, extent } m)
      (instr invoke pc { op := .text out s, extent }) := by
  obtain ⟨ho, hgo⟩ := h.fits.flows
  refine (write_meets (.refl h.safe) ho s).bind fun _ m' h' => ?_
  exact .of_goes h' hgo

theorem print_meets {out : Out} {e : Compiled} {fs : List FilterCall}
    (h : Running reg id r pc { op := .print out e fs, extent } m) :
    Meets sur m (Advances reg id r m) (Halts reg id r pc { op := .print out e fs, extent } m)
      (instr invoke pc { op := .print out e fs, extent }) := by
  obtain ⟨ho, hgo⟩ := h.fits.flows
  refine (h.eval_meets (Eval.printed · e fs) (fun _ => False) rfl (fun _ h => h.elim)
    fun _ => Operand.printed).bind fun s m' h' => ?_
  refine (write_meets h' ho s).bind fun _ m' h' => ?_
  refine (clearMemo_meets h' (h.memo_free fun _ _ => rfl)).bind fun _ m' h' => ?_
  exact .of_goes h' hgo

theorem checkLimit_meets (h : Running reg id r pc { op := .checkLimit, extent } m) :
    Meets sur m (Advances reg id r m) (Halts reg id r pc { op := .checkLimit, extent } m)
      (instr invoke pc { op := .checkLimit, extent }) := by
  have hreach := (Reaches.refl h.safe).withStreams (m.store.streams.isLimited sur.render.sink).2
  change Meets sur { m with
    store := { m.store with streams := (m.store.streams.isLimited sur.render.sink).2 } }
      _ _ (if (m.store.streams.isLimited sur.render.sink).1 then throw .limited else pure (pc + 1))
  split
  · exact ⟨h.fits.stops rfl, hreach⟩
  · exact Advances.of_goes hreach h.fits.flows

theorem jump_meets {target : Nat} (h : Running reg id r pc { op := .jump target, extent } m) :
    Meets sur m (Advances reg id r m) (Halts reg id r pc { op := .jump target, extent } m)
      (instr invoke pc { op := .jump target, extent }) :=
  Advances.of_goes (.refl h.safe) h.fits.flows

theorem jumpIfFalse_meets {e : Compiled} {target : Nat}
    (h : Running reg id r pc { op := .jumpIfFalse e target, extent } m) :
    Meets sur m (Advances reg id r m) (Halts reg id r pc { op := .jumpIfFalse e target, extent } m)
      (instr invoke pc { op := .jumpIfFalse e target, extent }) := by
  obtain ⟨hgo, hgo'⟩ := h.fits.flows
  refine (h.eval_meets (e.bool · []) (fun _ => False) rfl (fun _ h => h.elim)
    fun _ => Operand.bool).bind fun b m' h' => ?_
  refine (clearMemo_meets h' (h.memo_free fun _ _ => rfl)).bind fun _ m' h' => ?_
  cases b with
  | true => exact Advances.of_goes h' hgo'
  | false => exact Advances.of_goes h' hgo

theorem caseMatch_meets {slot : Nat} {values : List Compiled} {target : Nat}
    (h : Running reg id r pc { op := .caseMatch slot values target, extent } m) :
    Meets sur m (Advances reg id r m)
      (Halts reg id r pc { op := .caseMatch slot values target, extent } m)
          (instr invoke pc { op := .caseMatch slot values target, extent }) := by
  obtain ⟨hgo, hgo'⟩ := h.fits.flows
  refine (h.eval_meets (Eval.matchesCase · slot values) (fun _ => False) rfl (fun _ h => h.elim)
    fun _ ht => Operand.matchesCase ⟨ht.1, ht.2⟩).bind fun b m' h' => ?_
  refine (clearMemo_meets h' (h.memo_free fun _ _ => rfl)).bind fun _ m' h' => ?_
  cases b with
  | true => exact Advances.of_goes h' hgo'
  | false => exact Advances.of_goes h' hgo

theorem store_meets {slot : Nat} {kind : SlotKind} {e : Compiled}
    (h : Running reg id r pc { op := .store slot kind e, extent } m) :
    Meets sur m (Advances reg id r m) (Halts reg id r pc { op := .store slot kind e, extent } m)
      (instr invoke pc { op := .store slot kind e, extent }) := by
  obtain ⟨hslot, hgo⟩ := h.fits.flows
  refine ((h.eval_meets (Eval.cellOf · kind e) (fun _ => False) rfl (fun _ h => h.elim)
    fun _ => Operand.cellOf).result fun _ _ => eval_cellOf).bind fun c m' ⟨h', hc⟩ => ?_
  refine (setCell_meets (s := .any) h' hslot trivial ?_).bind fun _ m' h' => ?_
  · rcases hc with ⟨_, rfl⟩ | ⟨_, rfl⟩ | ⟨_, rfl⟩ <;> trivial
  refine (clearMemo_meets h' (h.memo_free ?_)).bind fun _ m' h' => ?_
  · rintro j ⟨x, hx, hlow, hhigh⟩
    have hapart : slot < x.low := (h.fits.extent x hx).2
    exact Shapes.set_of_ne _ (by omega) _
  · exact .of_goes h' hgo

/-- Making a deferred value. -/
theorem make_meets (h : m.Reaches reg id r m₀ g) {code : ThunkCode} {see : Seeing}
    (hc : code.Fits see) {stop : Interrupt → Machine → Prop} :
    Meets sur m (fun t m' => m'.Reaches reg id r m₀ g ∧ t < m'.store.heap.thunks.size) stop
      (eval (Thunk.make code)) := by
  have hheap : m.store.heap.Safe := h.safe.store.heap
  have hmore (t : Thunk) : m.store.heap.thunks.size ≤ (m.store.heap.thunks.push t).size := by simp
  refine ⟨h.withStore ⟨h.safe.store.programs, fun j r f hr hf => ?_, ?_⟩ ?_, ?_⟩
  · exact (h.safe.store.frames j r f hr hf).grow (Nat.le_refl _) (hmore _)
  · intro j t ht
    change (m.store.heap.thunks.push _)[j]? = some t at ht
    rw [Array.getElem?_push] at ht
    split at ht
    · cases ht
      refine ⟨hc.tidy, fun _ => ?_⟩
      have hsize := ThunkCode.size_copied code m.cells
      simp only [hsize]
      exact hc.within
    · exact hheap j t ht
  · exact ⟨fun _ _ => rfl, Nat.le_refl _, rfl, fun h => h, hmore _⟩
  · change m.store.heap.thunks.size < (m.store.heap.thunks.push _).size
    simp

theorem storeThunk_meets {slot : Nat} {code : ThunkCode}
    (h : Running reg id r pc { op := .storeThunk slot code, extent } m) :
    Meets sur m (Advances reg id r m) (Halts reg id r pc { op := .storeThunk slot code, extent } m)
      (instr invoke pc { op := .storeThunk slot code, extent }) := by
  obtain ⟨hslot, hcode, hgo⟩ := h.fits.flows
  refine (make_meets (.refl h.safe) hcode).bind fun t m' ⟨h', ht⟩ => ?_
  refine (setCell_meets (c := .thunk t) (s := .any) h' hslot trivial ht).bind fun _ m' h' => ?_
  exact .of_goes h' hgo

/-- The three cells of a loop are written. -/
theorem setLoop_meets (h : m.Reaches reg id r m₀ g) {base : Nat} (hb : base + 2 < r.program.size)
    {a b c : Cell} (ha : ∀ k n t, a.Refers k n t) (hb' : ∀ k n t, b.Refers k n t)
    (hc : ∀ k n t, c.Refers k n t) {stop : Interrupt → Machine → Prop} :
    Meets sur m (fun _ m' =>
      m'.Reaches reg id r m₀ (((g.set base .any).set (base + 1) .any).set (base + 2) .any)) stop
      (setLoop base a b c) := by
  refine (setCell_meets (s := .any) h (by omega) trivial (ha ..)).bind fun _ m' h' => ?_
  refine (setCell_meets (s := .any) h' (by omega) trivial (hb' ..)).bind fun _ m' h' => ?_
  exact setCell_meets (s := .any) h' hb trivial (hc ..)

theorem rangeInit_meets {base : Nat} {start stop step : Option Compiled}
    (h : Running reg id r pc { op := .rangeInit base start stop step, extent } m) :
    Meets sur m (Advances reg id r m)
      (Halts reg id r pc { op := .rangeInit base start stop step, extent } m)
          (instr invoke pc { op := .rangeInit base start stop step, extent }) := by
  obtain ⟨hbase, hgo⟩ := h.fits.flows
  refine (h.eval_meets (Eval.range · start stop step) (fun _ => False) rfl (fun _ h => h.elim)
    fun _ => Operand.range).bind fun bounds m' h' => ?_
  refine (setLoop_meets h' hbase (by intros; trivial) (by intros; trivial)
    (by intros; trivial)).bind
    fun _ m' h' => ?_
  refine (clearMemo_meets h' (h.memo_free ?_)).bind fun _ m' h' => ?_
  · rintro j ⟨x, hx, hlow, hhigh⟩
    have hapart : base + 2 < x.low := (h.fits.extent x hx).2
    rw [Shapes.set_of_ne _ (by omega), Shapes.set_of_ne _ (by omega), Shapes.set_of_ne _ (by omega)]
  · exact .of_goes h' hgo

theorem rangeNext_meets {base target : Nat}
    (h : Running reg id r pc { op := .rangeNext base target, extent } m) :
    Meets sur m (Advances reg id r m) (Halts reg id r pc { op := .rangeNext base target, extent } m)
      (instr invoke pc { op := .rangeNext base target, extent }) := by
  obtain ⟨-, hgo, hgo'⟩ := h.fits.flows
  refine (cell_meets (base + 1)).bind fun stop m' ⟨_, hm⟩ => ?_
  subst hm
  refine (cell_meets base).bind fun current m' ⟨_, hm⟩ => ?_
  subst hm
  refine Meets.pure ?_
  split
  · exact .of_goes (.refl h.safe) hgo
  · exact .of_goes (.refl h.safe) hgo'

theorem rangeStep_meets {base target : Nat}
    (h : Running reg id r pc { op := .rangeStep base target, extent } m) :
    Meets sur m (Advances reg id r m) (Halts reg id r pc { op := .rangeStep base target, extent } m)
      (instr invoke pc { op := .rangeStep base target, extent }) := by
  obtain ⟨⟨hb, -, -⟩, hgo⟩ := h.fits.flows
  refine (cell_meets base).bind fun current m' ⟨_, hm⟩ => ?_
  subst hm
  refine (cell_meets (base + 1)).bind fun stop m' ⟨_, hm⟩ => ?_
  subst hm
  refine (cell_meets (base + 2)).bind fun step m' ⟨_, hm⟩ => ?_
  subst hm
  refine (setCell_meets (s := .any) (.refl h.safe) (h.fits.bound base hb) trivial (by trivial)).bind
    fun _ m' h' => ?_
  exact .of_goes h' hgo

theorem eachInit_meets {base target : Nat} {e : Compiled}
    (h : Running reg id r pc { op := .eachInit base e target, extent } m) :
    Meets sur m (Advances reg id r m)
      (Halts reg id r pc { op := .eachInit base e target, extent } m)
          (instr invoke pc { op := .eachInit base e target, extent }) := by
  obtain ⟨hbase, hgo, hgo'⟩ := h.fits.flows
  refine (h.eval_meets (Eval.items · e) (fun _ => False) rfl (fun _ h => h.elim)
    fun _ => Operand.items).bind fun found m' h' => ?_
  refine (setLoop_meets h' hbase (by intros; trivial) (by intros; trivial)
    (by intros; trivial)).bind
    fun _ m' h' => ?_
  refine (clearMemo_meets h' (h.memo_free ?_)).bind fun _ m' h' => ?_
  · rintro j ⟨x, hx, hlow, hhigh⟩
    have hapart : base + 2 < x.low := (h.fits.extent x hx).2
    rw [Shapes.set_of_ne _ (by omega), Shapes.set_of_ne _ (by omega), Shapes.set_of_ne _ (by omega)]
  · change Advances reg id r m (if found.2 = 0 then target else pc + 1) m'
    split
    · exact .of_goes h' hgo
    · exact .of_goes h' hgo'

theorem eachNext_meets {base target : Nat}
    (h : Running reg id r pc { op := .eachNext base target, extent } m) :
    Meets sur m (Advances reg id r m) (Halts reg id r pc { op := .eachNext base target, extent } m)
      (instr invoke pc { op := .eachNext base target, extent }) := by
  obtain ⟨-, hgo, hgo'⟩ := h.fits.flows
  refine (cell_meets (base + 2)).bind fun length m' ⟨_, hm⟩ => ?_
  subst hm
  refine (cell_meets (base + 1)).bind fun index m' ⟨_, hm⟩ => ?_
  subst hm
  refine Meets.pure ?_
  split
  · exact .of_goes (.refl h.safe) hgo
  · exact .of_goes (.refl h.safe) hgo'

theorem eachStep_meets {base target : Nat}
    (h : Running reg id r pc { op := .eachStep base target, extent } m) :
    Meets sur m (Advances reg id r m) (Halts reg id r pc { op := .eachStep base target, extent } m)
      (instr invoke pc { op := .eachStep base target, extent }) := by
  obtain ⟨hb, hgo⟩ := h.fits.flows
  refine (cell_meets (base + 1)).bind fun index m' ⟨_, hm⟩ => ?_
  subst hm
  refine (setCell_meets (s := .any) (.refl h.safe) (h.fits.bound (base + 1) hb) trivial
    (by trivial)).bind fun _ m' h' => ?_
  exact .of_goes h' hgo

theorem beginBuffer_meets {slot : Nat}
    (h : Running reg id r pc { op := .beginBuffer slot, extent } m) :
    Meets sur m (Advances reg id r m) (Halts reg id r pc { op := .beginBuffer slot, extent } m)
      (instr invoke pc { op := .beginBuffer slot, extent }) := by
  obtain ⟨hslot, hgo⟩ := h.fits.flows
  refine (newBuffer_meets (.refl h.safe)).bind fun b m' h' => ?_
  refine (setCell_meets (s := .buffer) h' hslot ⟨_, rfl⟩ trivial).bind fun _ m' h' => ?_
  exact .of_goes h' hgo

theorem endBuffer_meets {slot dst : Nat} {kind : ContentKind}
    (h : Running reg id r pc { op := .endBuffer slot dst kind, extent } m) :
    Meets sur m (Advances reg id r m)
      (Halts reg id r pc { op := .endBuffer slot dst kind, extent } m)
          (instr invoke pc { op := .endBuffer slot dst kind, extent }) := by
  obtain ⟨hdst, -, hshape, hgo⟩ := h.fits.flows
  refine (buffer_meets (.refl h.safe) hshape).bind fun b m' hm => ?_
  subst hm
  refine (bufferText_meets b).bind fun t m' hm => ?_
  subst hm
  refine (setCell_meets (s := .value) (.refl h.safe) hdst ⟨_, rfl⟩ trivial).bind fun _ m' h' => ?_
  refine (emptyCell_meets h' slot).bind fun _ m' h' => ?_
  exact .of_goes h' hgo

theorem log_meets {slot : Nat} (h : Running reg id r pc { op := .log slot, extent } m) :
    Meets sur m (Advances reg id r m) (Halts reg id r pc { op := .log slot, extent } m)
      (instr invoke pc { op := .log slot, extent }) := by
  obtain ⟨hshape, hgo⟩ := h.fits.flows
  refine (buffer_meets (.refl h.safe) hshape).bind fun b m' hm => ?_
  subst hm
  refine (bufferText_meets b).bind fun t m' hm => ?_
  subst hm
  refine Meets.bind (Q := fun _ m => m = m') rfl fun _ m'' hm => ?_
  subst hm
  refine Meets.bind (Q := fun _ m => m.Reaches reg id r m'' (r.program.types pc))
    ((Reaches.refl h.safe).withLog _) fun _ m' h' => ?_
  refine (emptyCell_meets h' slot).bind fun _ m' h' => ?_
  exact .of_goes h' hgo

theorem beginWrap_meets {out : Out} {slot : Nat} {kind : ContentKind} {fs : List FilterCall}
    (h : Running reg id r pc { op := .beginWrap out slot kind fs, extent } m) :
    Meets sur m (Advances reg id r m)
      (Halts reg id r pc { op := .beginWrap out slot kind fs, extent } m)
          (instr invoke pc { op := .beginWrap out slot kind fs, extent }) := by
  obtain ⟨ho, hslot, hgo⟩ := h.fits.flows
  refine (h.eval_meets (Eval.filterArgs · [] fs) (fun _ => False) rfl (fun _ h => h.elim)
    fun _ => Operand.filterArgs).bind fun args m' h' => ?_
  refine (target_meets h' ho).bind fun sink m'' hm => ?_
  subst hm
  refine (wrap_meets h' fs args kind sink).bind fun entry m' h' => ?_
  refine (setCell_meets (s := .wrap) h' hslot ⟨_, _, rfl⟩ trivial).bind fun _ m' h' => ?_
  refine (clearMemo_meets h' (h.memo_free ?_)).bind fun _ m' h' => ?_
  · rintro j ⟨x, hx, hlow, hhigh⟩
    have hapart : slot < x.low := (h.fits.extent x hx).2
    exact Shapes.set_of_ne _ (by omega) _
  · exact .of_goes h' hgo

theorem endWrap_meets {slot : Nat} (h : Running reg id r pc { op := .endWrap slot, extent } m) :
    Meets sur m (Advances reg id r m) (Halts reg id r pc { op := .endWrap slot, extent } m)
      (instr invoke pc { op := .endWrap slot, extent }) := by
  obtain ⟨hshape, hgo⟩ := h.fits.flows
  have hcell := h.safe.cells.shape slot
  rw [hshape] at hcell
  obtain ⟨entry, stages, hw⟩ := hcell
  refine (cell_meets slot).bind fun c m' ⟨hc, hm⟩ => ?_
  subst hm
  rw [hc, hw]
  refine (emptyCell_meets (.refl h.safe) slot).bind fun _ m' h' => ?_
  refine (close_meets h' entry stages).bind fun _ m' h' => ?_
  exact .of_goes h' hgo

end

end Exec

end Interlude
