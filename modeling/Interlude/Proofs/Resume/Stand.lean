import Interlude.Proofs.Render.Run
import Interlude.Proofs.Resume.Call
import Interlude.Proofs.Resume.Course
/-!
# Stopped runs

A render that was stopped stands at an instruction, and so do all the renders it has called.
Meanwhile the second run is in the middle of the same instructions: what it has still to do is told
by its course. Nothing of that changes while the first run rests, however many futures are settled
(`Rests.settled`).
-/

namespace Interlude

namespace Store

/-! ## Stores at rest -/

/-- A store that differs only in where renders stand and in what was flushed. -/
structure Idle (s s' : Store) : Prop where
  heap : s'.heap = s.heap
  streams : ∀ t, s.streams.Alike t → s'.streams.Alike t
  streams' : ∀ t : Streams, t.Alike s.streams → t.Alike s'.streams
  messages : s'.messages = s.messages
  renders : s'.renders.map Render.started = s.renders.map Render.started

theorem Idle.refl (s : Store) : s.Idle s := ⟨rfl, fun _ h => h, fun _ h => h, rfl, rfl⟩

theorem Idle.trans {s s' s'' : Store} (h : s.Idle s') (h' : s'.Idle s'') : s.Idle s'' where
  heap := h'.heap.trans h.heap
  streams t ht := h'.streams t (h.streams t ht)
  streams' t ht := h'.streams' t (h.streams' t ht)
  messages := h'.messages.trans h.messages
  renders := h'.renders.trans h.renders

theorem started_setStatus (s : Store) (id : RenderId) (status : Status) :
    (s.setStatus id status).renders.map Render.started = s.renders.map Render.started := by
  refine Array.ext_getElem? fun j => ?_
  rw [Array.getElem?_map, Array.getElem?_map, setStatus_get]
  split
  · rw [Option.map_map]
    rfl
  · rfl

theorem Idle.setStatus (s : Store) (id : RenderId) (status : Status) :
    s.Idle (s.setStatus id status) :=
  ⟨rfl, fun _ h => h, fun _ h => h, rfl, started_setStatus s id status⟩

theorem Idle.flush (s : Store) (sink : Sink) : s.Idle (s.flush sink).2 :=
  ⟨rfl, fun _ h => (h.flush sink).2, fun _ h => (h.flush' sink).2, rfl, rfl⟩

/-- Only what templates log counts. -/
theorem Idle.logged (s : Store) {e : Log.Entry} (he : e.level ≠ .info) : s.Idle (s.logged e) := by
  refine ⟨rfl, fun _ h => h, fun _ h => h, ?_, rfl⟩
  simp [Store.messages, Store.logged, List.filter_append, he]

theorem Twin.idle {made : Array Thunk} {s s' t : Store} (h : s.Twin made t) (hi : s.Idle s') :
    s'.Twin made t where
  tidy := h.tidy
  ahead := by rw [hi.heap]; exact h.ahead
  fresh := by rw [hi.heap]; exact h.fresh
  first := by rw [hi.heap]; exact h.first
  second := h.second
  streams := hi.streams _ h.streams
  messages := hi.messages.trans h.messages
  renders := hi.renders.trans h.renders

theorem Twin.idle' {made : Array Thunk} {s t t' : Store} (h : s.Twin made t) (hi : t.Idle t') :
    s.Twin made t' where
  tidy := h.tidy
  ahead := by rw [hi.heap]; exact h.ahead
  fresh := by rw [hi.heap]; exact h.fresh
  first := h.first
  second := by rw [hi.heap]; exact h.second
  streams := hi.streams' _ h.streams
  messages := h.messages.trans hi.messages.symm
  renders := h.renders.trans hi.renders.symm

/-- A store in which a stopped run finds all it relies on, if the second run has the futures
`gs`. -/
structure Rests (gs : Array Future) (bound : RenderId) (s s' : Store) : Prop where
  above : ∀ j, bound ≤ j → s'.renders[j]? = s.renders[j]?
  twin : ∀ made t, t.heap.futures.states = gs → s.Twin made t → s'.Twin made t
  keeps : ∀ made table env cells, Thunk.AllTidy made →
    (⟨cells, s.heap⟩ : Memory).Keeps made table env →
    (⟨cells, s'.heap⟩ : Memory).Keeps made table env

theorem Idle.rests {s s' : Store} (h : s.Idle s') {bound : RenderId}
    (ha : ∀ j, bound ≤ j → s'.renders[j]? = s.renders[j]?) (gs : Array Future) :
    s.Rests gs bound s' :=
  ⟨ha, fun _ _ _ ht => ht.idle h, fun _ _ _ _ _ hk => by rw [h.heap]; exact hk⟩

/-- Futures are settled while a run rests. -/
theorem Rests.settled {s : Store} {fs : Futures} {gs : Array Future} (hb : s.heap.blurred = false)
    (ha : s.heap.futures.Ahead fs) (hg : ∀ hs : Futures, hs.states = gs → fs.Ahead hs)
    (bound : RenderId) :
    s.Rests gs bound { s with heap := { s.heap with futures := fs } } where
  above _ _ := rfl
  twin _ _ ht h :=
    { h with
      ahead := hg _ ht
      first := h.first.ahead ha h.tidy rfl hb }
  keeps _ _ _ _ ht hk := hk.ahead ht hb ha

end Store

theorem Machine.Primed.rests {made : Array Thunk} {sur : Surroundings} {pc : Nat} {i : Instr}
    {m k : Machine} {s : Store} {gs : Array Future} {bound : RenderId}
    (h : m.Primed made sur pc i k) (hs : m.store.Rests gs bound s)
    (hg : k.store.heap.futures.states = gs) :
    ({ m with store := s } : Machine).Primed made sur pc i k :=
  { h with
    store := hs.twin made k.store hg h.store
    keeps := hs.keeps _ _ _ _ h.store.tidy h.keeps }

/-! ## Frames -/

/-- The machine that a saved frame is restored to. -/
def SavedFrame.machine (f : SavedFrame) (p : Program) (s : Store) : Machine :=
  { cells := f.restore (Cells.cleared p.size)
      (((p.code[f.state]?.bind (·.extent)).map (·.site.slots)).getD [])
    store := s
    maker := f.maker }

theorem SavedFrame.size_machine (f : SavedFrame) (p : Program) (s : Store) :
    (f.machine p s).cells.size = p.size := by
  unfold SavedFrame.machine
  rw [SavedFrame.size_restore, Cells.size_cleared]

/-- The cells saved at an instruction are found again. -/
theorem SavedFrame.read_machine {p : Program} {pc : Nat} {i : Instr} {x : Extent} {mark : Nat}
    (m : Machine) (hi : p.code[pc]? = some i) (hx : i.extent = some x)
    (hslots : x.site.slots = List.range mark) (hmark : mark ≤ p.size) (s : Store) {j : Nat}
    (hj : j < mark) :
    ((SavedFrame.save pc m.cells x.site.slots m.maker).machine p s).cells.read j =
    m.cells.read j := by
  let f := SavedFrame.save pc m.cells x.site.slots m.maker
  have hcells : (f.machine p s).cells = f.restore (Cells.cleared p.size) x.site.slots := by
    simp only [f, SavedFrame.machine, SavedFrame.save, hi, hx, Option.bind_some, Option.map_some,
      Option.getD_some]
  have hlength : f.cells.length = mark := by simp [f, SavedFrame.save, hslots]
  have hsaved : f.cells[j]? = some (m.cells.read j) := by
    simp only [f, hslots, SavedFrame.getElem?_save, if_pos hj]
  rw [hcells, hslots, ← hlength,
    f.read_restore _ (by rw [Cells.size_cleared, hlength]; exact hmark), hsaved]
  rfl

namespace Store

variable {reg : Registry} {context : Context} {id : RenderId} {r : Render} {pc : Nat} {i : Instr}
  {m k : Machine}

theorem enter_suspended (context : Context) {f : SavedFrame} (hs : r.status = .suspended f)
    (hi : r.program.code[f.state]? = some i) (s : Store) :
    ∃ s', s.Idle s' ∧ s'.renders = s.renders ∧
    enter context r s = (f.state, f.machine r.program s') := by
  unfold enter SavedFrame.machine
  simp only [hs, hi, Option.bind_some]
  split
  · exact ⟨_, .logged s (by simp), rfl, rfl⟩
  · exact ⟨s, .refl s, rfl, rfl⟩

/-- Suspending a render saves its frame and changes nothing else that matters. -/
theorem suspend_idle (context : Context) (id : RenderId)
    (hi : r.program.code[pc]? = some i) {x : Extent} (hx : i.extent = some x)
    (hflush : (m.store.streams.flush r.sink).1 = .ok ()) (o : Outcome) :
    ∃ s', suspend context id r pc m o = (o, s') ∧ m.store.Idle s' ∧ s'.renders =
      (m.store.setStatus id
      (.suspended (SavedFrame.save pc m.cells x.site.slots m.maker))).renders := by
  let saved := m.store.setStatus id (.suspended (SavedFrame.save pc m.cells x.site.slots m.maker))
  have hidle : m.store.Idle (saved.flush r.sink).2 :=
    (Idle.setStatus ..).trans (.flush saved r.sink)
  have hflush : saved.flush r.sink = (.ok (), (saved.flush r.sink).2) := Prod.ext hflush rfl
  unfold suspend
  simp only [hi, hx]
  rw [hflush]
  simp only
  split
  · exact ⟨_, rfl, hidle.trans (.logged _ (by simp)), rfl⟩
  · exact ⟨_, rfl, hidle, rfl⟩

/-- What is suspended in the first run is found again. -/
theorem suspend_saves (context : Context) {made : Array Thunk} {t : Store}
    (ht : m.store.Twin made t) (hi : r.program.code[pc]? = some i) {x : Extent}
    (hx : i.extent = some x) (hr : m.store.renders[id]? = some { r with status := .ready })
    (o : Outcome) :
    ∃ s', suspend context id r pc m o = (o, s') ∧ m.store.Idle s' ∧
      (∀ j, id < j → s'.renders[j]? = m.store.renders[j]?) ∧
      s'.renders[id]? = some
      { r with status := .suspended (SavedFrame.save pc m.cells x.site.slots m.maker) } := by
  obtain ⟨s', hs', hidle, hrenders⟩ := suspend_idle context id hi hx (ht.streams.flush r.sink).1 o
  refine ⟨s', hs', hidle, fun j hj => ?_, ?_⟩
  · rw [hrenders, setStatus_get, if_neg (Nat.ne_of_lt hj)]
  · rw [hrenders, setStatus_get, if_pos rfl, hr]
    rfl

/-- What waits in the second run is suspended there. -/
theorem suspend_awaits (context : Context) (id : RenderId) {made : Array Thunk} {s : Store}
    (ht : s.Twin made k.store) (hi : r.program.code[pc]? = some i) (hext : i.extent.isSome = true)
    (o : Outcome) :
    ∃ t, suspend context id r pc k o = (o, t) ∧ s.Twin made t ∧ t.heap = k.store.heap := by
  obtain ⟨x, hx⟩ := Option.isSome_iff_exists.1 hext
  obtain ⟨t, h, hidle, _⟩ := suspend_idle context id hi hx (ht.streams.flush' r.sink).1 o
  exact ⟨t, h, ht.idle' hidle, hidle.heap⟩

/-- A render that is suspended tells what it was suspended for, or fails. -/
theorem suspend_result (context : Context) (id : RenderId) (r : Render) (pc : Nat) (m : Machine)
    (o : Outcome) :
    (suspend context id r pc m o).1 = o ∨ (suspend context id r pc m o).1 = .broken ∨
      ∃ e, (suspend context id r pc m o).1 = .failed e := by
  unfold suspend
  split
  · exact .inr (.inl rfl)
  · split
    · exact .inr (.inr ⟨_, rfl⟩)
    · simp only
      split
      · exact .inr (.inr ⟨_, rfl⟩)
      · split <;> exact .inl rfl

theorem interrupt_ne_done (context : Context) (id : RenderId) (r : Render) (pc : Nat) (m : Machine)
    (e : Interrupt) :
    (interrupt context id r pc m e).1 ≠ .done := by
  have hsuspend (o : Outcome) (ho : o ≠ .done) : (suspend context id r pc m o).1 ≠ .done := by
    rcases suspend_result context id r pc m o with h | h | ⟨e, h⟩ <;> rw [h]
    · exact ho
    · simp
    · simp
  cases e with
  | failed e => exact fun h => nomatch h
  | waiting p => exact hsuspend _ (by simp)
  | limited => exact hsuspend _ (by simp)
  | exhausted => exact fun h => nomatch h
  | broken => exact fun h => nomatch h

/-- What is restored from the frame that was saved at an instruction: all cells in use, and its
own. -/
structure Restored (g : Shapes) (x : Extent) (m m' : Machine) : Prop where
  maker : m'.maker = m.maker
  size : m'.cells.size = m.cells.size
  used : ∀ j, g j ≠ .free → m'.cells.read j = m.cells.read j
  own : ∀ j, x.low ≤ j → j < x.high → m'.cells.read j = m.cells.read j

theorem restored_save (hi : r.program.code[pc]? = some i) {x : Extent}
    (hx : i.extent = some x) {g : Shapes} (hfit : x.Fits r.program.size g)
    (hsize : m.cells.size = r.program.size) (s : Store) :
    Restored g x m ((SavedFrame.save pc m.cells x.site.slots m.maker).machine r.program s) := by
  obtain ⟨mark, hslots, hhigh, hmark, hbound⟩ := hfit.site
  have hread (j : Nat) (hj : j < mark) := SavedFrame.read_machine m hi hx hslots hmark s hj
  refine ⟨rfl, ?_, fun j hj => hread j (hbound j hj), fun j _ hj =>
    hread j (Nat.lt_of_lt_of_le hj hhigh)⟩
  rw [SavedFrame.size_machine, hsize]

end Store

theorem Machine.Level.restored {g : Shapes} {x : Extent} {m m' k : Machine} (h : m.Level g k)
    (hr : Store.Restored g x m m') : m'.Level g k :=
  ⟨hr.maker.trans h.maker, hr.size.trans h.size, fun j hj => (hr.used j hj).trans (h.cells j hj)⟩

/-- A restored machine is within its instruction as before. -/
theorem Machine.Primed.restored {reg : Registry} {id : RenderId} {made : Array Thunk}
    {sur : Surroundings} {pc : Nat} {i : Instr} {x : Extent} {m m' k : Machine}
    (h : m.Primed made sur pc i k) (hrun : Exec.Running reg id sur.render pc i m)
    (hx : i.extent = some x) (hb : m.store.heap.blurred = false)
    (hr : Store.Restored (sur.render.program.types pc) x m m') (hs : m'.store = m.store) :
    m'.Primed made sur pc i k where
  toLevel := h.toLevel.restored hr
  store := by rw [hs]; exact h.store
  state y hy j hlow hhigh := by
    rw [hx] at hy
    cases hy
    have hfit := (hrun.fits.extent x hx).1
    exact (hr.own j hlow (Nat.lt_of_lt_of_le hhigh hfit.memo_le)).trans (h.state x hx j hlow hhigh)
  keeps := by
    have henv : Exec.env sur m' = Exec.env sur m := by
      unfold Exec.env
      rw [hr.maker]
    have hmem : m'.memory = { m.memory with cells := m'.cells } := by
      unfold Machine.memory
      rw [hs]
    rw [henv, hmem]
    refine h.keeps.reframe h.store.tidy hb (fun j hj => ?_) (fun j p y hy =>
      Instr.touches_of_table hy) ?_ hr.used
      fun j hj => ?_
    · exact Classical.byContradiction fun hne => hj (hrun.own_free (Instr.table_own hne))
    · exact (h.paired hrun.safe).thunks
    · obtain ⟨y, hy, hlow, hhigh⟩ := Instr.table_own hj
      rw [hx] at hy
      cases hy
      exact hr.own j (Nat.le_trans (hrun.fits.extent x hx).1.low_le hlow) hhigh
  keeps' := by
    have henv : Exec.env sur m' = Exec.env sur m := by
      unfold Exec.env
      rw [hr.maker]
    rw [henv]
    exact h.keeps'

/-! ## Where a stopped run stands -/

/-- The cell of an instruction that calls is without a call. -/
def Instr.Uncalled (i : Instr) (cells : Cells) : Prop :=
  ∀ out slot site fs, i.op = .call out slot site fs → ∀ st, cells.read slot ≠ .call st

/-- A render of the first run that is ready or was stopped, and the course of the second run from
there on. The number tells how many calls the first run makes before it is where it stopped. -/
inductive Stands (reg : Registry) (context : Context) (gs : Array Future) (made : Array Thunk)
    (s : Store) :
    Nat → RenderId → Course → Prop where
  | ready {id : RenderId} {r : Render} {t : Store} : s.renders[id]? = some r → r.status = .ready →
      t.renders[id]? = some r → s.Twin made t → t.heap.futures.states = gs →
      Stands reg context gs made s 0 id fun n => t.invoke reg context n id
  | stopped {id : RenderId} {r : Render} {f : SavedFrame} {i : Instr} {k : Machine} :
      s.renders[id]? = some r → r.status = .suspended f → r.program.code[f.state]? = some i →
      (f.machine r.program s).Primed made ⟨{ r with status := .ready }, reg, context⟩ f.state i k →
      i.Uncalled k.cells → k.store.heap.futures.states = gs →
      Stands reg context gs made s 1 id fun n =>
        Store.steps reg context n id { r with status := .ready } f.state true k
  | calling {id : RenderId} {r : Render} {f : SavedFrame} {out : Out} {slot : Nat} {site : CallSite}
      {fs : List FilterCall} {extent : Option Extent} {st : CallState} {k : Machine} {depth : Nat}
      {y : Course} : s.renders[id]? = some r →
      r.status = .suspended f →
        r.program.code[f.state]? = some { op := .call out slot site fs, extent } →
      (f.machine r.program s).Level (r.program.types f.state) k →
        (f.machine r.program s).cells.read slot = .call st →
      id < st.callee → Stands reg context gs made s depth st.callee y →
      Stands reg context gs made s (depth + 2) id
        (y.caller reg context id { r with status := .ready } f.state out slot fs st k)

namespace Stands

variable {reg : Registry} {context : Context} {gs : Array Future} {made : Array Thunk}
  {s s' : Store} {depth : Nat}
  {id : RenderId} {x : Course}

theorem rests (h : Stands reg context gs made s depth id x) {bound : RenderId}
    (hs : s.Rests gs bound s') (hb : bound ≤ id) : Stands reg context gs made s' depth id x := by
  induction h with
  | ready hr hready ht htwin hgs =>
    exact .ready ((hs.above _ hb).trans hr) hready ht (hs.twin _ _ hgs htwin) hgs
  | stopped hr hstatus hi hp hnew hgs =>
    exact .stopped ((hs.above _ hb).trans hr) hstatus hi (hp.rests hs hgs) hnew hgs
  | calling hr hstatus hi hl hc hlt _ ih =>
    exact .calling ((hs.above _ hb).trans hr) hstatus hi ⟨hl.maker, hl.size, hl.cells⟩ hc hlt
      (ih (Nat.le_trans hb (Nat.le_of_lt hlt)))

theorem steady (h : Stands reg context gs made s depth id x) : x.Steady := by
  induction h with
  | ready => exact fun hf => Store.invoke_approximates reg context hf ..
  | stopped => exact fun hf => Store.steps_approximates reg context hf ..
  | calling _ _ _ _ _ _ _ ih => exact ih.caller

/-- The second run has put out what the first has, and goes on from there. -/
theorem shows (h : Stands reg context gs made s depth id x) : ∃ t, s.Twin made t ∧
    ∀ n, t.Grows (x n).2 := by
  induction h with
  | ready _ _ _ htwin _ => exact ⟨_, htwin, fun n => (Store.runs_grow reg context n).1 ..⟩
  | stopped _ _ _ hp _ _ => exact ⟨_, hp.store, fun n => (Store.runs_grow reg context n).2 ..⟩
  | calling _ _ _ _ _ _ _ ih =>
    obtain ⟨t, htwin, hgrow⟩ := ih
    exact ⟨t, htwin, fun n => (hgrow n).trans (Course.takeBack_grows ..)⟩

/-- No second run is at its end after one step. -/
theorem one_step (h : Stands reg context gs made s depth id x) : (x 1).1 ≠ .done := by
  induction h with
  | @ready id r t _ hready ht =>
    have hone : t.invoke reg context 1 id = (.exhausted, t) := by
      rw [Store.invoke]
      simp only [ht, hready, Store.enter]
      rfl
    simp [hone]
  | @stopped id r f i k _ _ hi =>
    simp only [Store.steps, hi]
    split
    · simp
    · exact Store.interrupt_ne_done context id _ f.state _ _
  | @calling id r f out slot site fs extent st k depth y _ _ _ _ _ _ _ ih =>
    unfold Course.caller Store.takeBack
    split
    · next u k' hback => exact (ih (Exec.comeBack_ok hback)).elim
    · exact Store.interrupt_ne_done context id _ f.state _ _

section

variable {r : Render} {pc : Nat} {m k : Machine}

theorem ready_self (h : r.status = .ready) : ({ r with status := .ready } : Render) = r := by
  cases r
  cases h
  rfl

/-- A render that is stopped within an instruction stands there. -/
theorem of_suspend {i : Instr} (hrun : Exec.Running reg id r pc i m) (hr : r.status = .ready)
    (hi : r.program.code[pc]? = some i) (hext : i.extent.isSome = true)
    (hp : m.Primed made ⟨r, reg, context⟩ pc i k) (hnew : i.Uncalled k.cells)
    (hgs : k.store.heap.futures.states = gs) (hb : m.store.heap.blurred = false) (o : Outcome) :
    ∃ s', Store.suspend context id r pc m o = (o, s') ∧ m.store.Idle s' ∧
      Stands reg context gs made s' 1 id fun n => Store.steps reg context n id r pc true k := by
  obtain ⟨x, hx⟩ := Option.isSome_iff_exists.1 hext
  obtain ⟨s', hs', hidle, habove, hself⟩ :=
    Store.suspend_saves context hp.store hi hx hrun.safe.render o
  refine ⟨s', hs', hidle, ?_⟩
  have hrest := Store.restored_save hi hx (hrun.fits.extent x hx).1 hrun.safe.cells.size m.store
  have hprimed := (hp.restored hrun hx hb hrest rfl).rests
    (hidle.rests (fun j hj => habove j hj) gs) hgs
  have hcourse := ready_self hr
  rw [← hcourse] at hprimed
  have hstands := Stands.stopped hself rfl hi hprimed hnew hgs
  have hsteps : (fun n => Store.steps reg context n id { r with status := .ready } pc true k) =
      fun n => Store.steps reg context n id r pc true k := by rw [hcourse]
  rw [← hsteps]
  exact hstands

/-- A render that is stopped because its callee was stands at its call. -/
theorem of_suspend_call {out : Out} {slot : Nat} {site : CallSite} {fs : List FilterCall}
    {extent : Option Extent} {st : CallState} {y : Course}
    (hrun : Exec.Running reg id r pc { op := .call out slot site fs, extent } m)
    (hr : r.status = .ready)
    (hi : r.program.code[pc]? = some { op := .call out slot site fs, extent })
    (hl : m.Level (r.program.types pc) k) (hc : m.cells.read slot = .call st) (hlt : id < st.callee)
    (hy : Stands reg context gs made m.store depth st.callee y) (o : Outcome) :
    ∃ s', Store.suspend context id r pc m o = (o, s') ∧ m.store.Idle s' ∧
      Stands reg context gs made s' (depth + 2) id
      (y.caller reg context id r pc out slot fs st k) := by
  obtain ⟨x, hx⟩ := Option.isSome_iff_exists.1 (hrun.fits.stops rfl)
  obtain ⟨hfit, hslot⟩ := hrun.fits.extent x hx
  obtain ⟨t, htwin, _⟩ := hy.shows
  obtain ⟨s', hs', hidle, habove, hself⟩ :=
    Store.suspend_saves context htwin hi hx hrun.safe.render o
  refine ⟨s', hs', hidle, ?_⟩
  have hrest := Store.restored_save hi hx hfit hrun.safe.cells.size s'
  have hheld := (hrest.own slot hslot.1 (Nat.lt_of_lt_of_le hslot.2 hfit.memo_le)).trans hc
  have hrests : m.store.Rests gs (id + 1) s' := hidle.rests (fun j hj => habove j hj) gs
  have hcallee := hy.rests hrests hlt
  have hstands := Stands.calling hself rfl hi (hl.restored hrest) hheld hlt hcallee
  have hcourse := ready_self hr
  have hcaller : y.caller reg context id { r with status := .ready } pc out slot fs st k =
      y.caller reg context id r pc out slot fs st k := by rw [hcourse]
  rw [← hcaller]
  exact hstands

end

end Stands

end Interlude
