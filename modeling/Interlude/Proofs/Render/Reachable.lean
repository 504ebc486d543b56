import Mathlib
import Interlude.Proofs.Render.Run
import Interlude.Render.Drive
/-!
# Reachable stores and the safety of the machine

A store is reachable if it comes about by starting, calling and giving up renders, by settling
futures, and by whatever becomes of the outlet in between. In every run from a reachable store,
every instruction that is run keeps to the cells of its frame and to the places of its program,
finds cells of the form it expects, and can be suspended if it is stopped
(`Store.Reachable.machine_safe`).
-/

namespace Interlude

namespace Store

/-- Stores that come about, with renders of a registry. -/
inductive Reachable (reg : Registry) (context : Context) : Store → Prop where
  | init (outlet : Outlet) (futures : Futures) (fresh : Identity) :
      Reachable reg context { heap := { futures, fresh }, streams := { outlet } }
  | start {s : Store} (name : String) (params injected : List (String × Datum)) :
      Reachable reg context s →
      Reachable reg context (reg.start context name params injected .root s).2
  | invoke {s : Store} (fuel : Nat) (id : RenderId) : Reachable reg context s →
      (s.invoke reg context fuel id).1 ≠ .exhausted →
      Reachable reg context (s.invoke reg context fuel id).2
  | settle {s : Store} (f : FutureId) (state : Future) : Reachable reg context s →
      Reachable reg context
      { s with heap := { s.heap with futures := (s.heap.futures.settle f state).2 } }
  | outlet {s : Store} (outlet : Outlet) : Reachable reg context s →
      Reachable reg context { s with streams := { s.streams with outlet } }
  | abandon {s : Store} (id : RenderId) : Reachable reg context s →
    Reachable reg context (s.abandon id)

variable {reg : Registry} {context : Context}

theorem Safe.start {s : Store} (hs : s.Safe reg) (name : String)
    (params injected : List (String × Datum)) (sink : Sink) :
    (reg.start context name params injected sink s).2.Safe reg := by
  unfold Registry.start
  simp only
  split
  · exact hs
  · next p params injected fresh hbox =>
    have hp : p ∈ reg.programs := by
      obtain ⟨q, n, hq, hbox⟩ := StateT.bind_ok hbox
      obtain ⟨ps, n', hps, hbox⟩ := StateT.bind_ok hbox
      obtain ⟨is, n'', his, hbox⟩ := StateT.bind_ok hbox
      cases hbox
      cases hfound : reg.template name with
      | error e => rw [hfound] at hq; cases hq
      | ok q' =>
        rw [hfound] at hq
        cases hq
        exact Registry.template_mem hfound
    have hfresh : Safe reg { s with heap := { s.heap with fresh } } :=
      hs.of_heap rfl ⟨rfl, fun h => h, rfl, fun _ t ht => ⟨t, ht, .refl t⟩⟩
    exact (Program.start_safe hp hfresh context params injected sink).safe

theorem Safe.abandonFrom {s : Store} (hs : s.Safe reg) (fuel : Nat) (id : RenderId) :
    (abandonFrom fuel s id).Safe reg := by
  induction fuel generalizing s id with
  | zero => exact hs
  | succ fuel ih =>
    have hall (below : List RenderId) : ∀ {s : Store}, s.Safe reg →
        (below.foldl (Store.abandonFrom fuel) s).Safe reg := by
      induction below with
      | nil => exact fun hs => hs
      | cons j rest ih' => exact fun hs => ih' (ih hs j)
    unfold Store.abandonFrom
    split
    · exact hs
    · split
      · exact hs
      · exact (hall _ hs).setStatus (fun _ _ _ hf => nomatch hf)

/-- Reachable stores are safe. -/
theorem Reachable.safe (hreg : ∀ p ∈ reg.programs, p.Valid) {s : Store}
    (h : Reachable reg context s) : s.Safe reg := by
  induction h with
  | init outlet futures fresh =>
    exact ⟨fun id r hr => by simp at hr, fun id r f hr => by simp at hr, fun id t ht => by
      simp at ht⟩
  | start name params injected _ ih => exact ih.start name params injected .root
  | @invoke s fuel id _ _ ih =>
    by_cases hid : id < s.renders.size
    · exact ((runs_safe hreg context fuel).1 id s ih hid).1
    · have hnone : s.renders[id]? = none := Array.getElem?_eq_none (Nat.le_of_not_lt hid)
      cases fuel with
      | zero => exact ih
      | succ fuel =>
        unfold Store.invoke
        rw [hnone]
        exact ih
  | settle f state _ ih => exact ⟨ih.programs, ih.frames, ih.heap⟩
  | outlet _ _ ih => exact ⟨ih.programs, ih.frames, ih.heap⟩
  | abandon id _ ih => exact ih.abandonFrom _ id

end Store

/-! ## The points of a run -/

/-- A render about to run an instruction, `resumed` if it goes on there after a stop. -/
structure Position where
  id : RenderId
  render : Render
  pc : Nat
  resumed : Bool
  machine : Machine

namespace Position

/-- The machine as an instruction finds it. -/
def found (q : Position) (i : Instr) : Machine := if q.resumed then q.machine else q.machine.setUp i

/-- Where a call of a render begins, unless that has come to its end. -/
def start? (context : Context) (s : Store) (id : RenderId) : Option Position :=
  s.renders[id]?.bind fun r =>
    match r.status with
    | .ready => some ⟨id, r, (Store.enter context r s).1, false, (Store.enter context r s).2⟩
    | .suspended _ =>
      let s := s.setStatus id .ready
      some ⟨id, { r with status := .ready }, (Store.enter context r s).1, true,
        (Store.enter context r s).2⟩
    | _ => none

/-- The positions that a run from a position comes to, those in callees included. -/
inductive Visits (reg : Registry) (context : Context) : Position → Position → Prop where
  | here (q : Position) : Visits reg context q q
  | next {q q' : Position} {i : Instr} {m : Machine} (fuel next : Nat) :
      q.render.program.code[q.pc]? = some i →
      Exec.instr (Store.invoke reg context fuel) q.pc i ⟨q.render, reg, context⟩ (q.found i) =
        .ok next m →
      Visits reg context ⟨q.id, q.render, next, false, m⟩ q' → Visits reg context q q'
  | call {q q' q'' : Position} {i : Instr} {m : Machine} (out : Out) (slot : Nat) (site : CallSite)
      (fs : List FilterCall) (st : CallState) : q.render.program.code[q.pc]? = some i →
      i.op = .call out slot site fs →
      Exec.callState i out slot site fs ⟨q.render, reg, context⟩ (q.found i) = .ok (some st) m →
      start? context m.store st.callee = some q' → Visits reg context q' q'' →
        Visits reg context q q''

end Position

/-! ## What is checked at every point -/

/-- The cell that output goes through. -/
def Out.cells : Out → List Nat
  | .sink => []
  | .cell slot => [slot]

/-- The cells an instruction reads and writes itself, apart from those of its expressions. -/
def Op.cells : Op → List Nat
  | text out _ => out.cells
  | print out _ _ => out.cells
  | checkLimit => []
  | jump _ => []
  | jumpIfFalse .. => []
  | caseMatch slot _ _ => [slot]
  | store slot _ _ => [slot]
  | storeThunk slot _ => [slot]
  | rangeInit base _ _ _ => [base, base + 1, base + 2]
  | rangeNext base _ => [base, base + 1]
  | rangeStep base _ => [base, base + 1, base + 2]
  | eachInit base _ _ => [base, base + 1, base + 2]
  | eachNext base _ => [base + 1, base + 2]
  | eachStep base _ => [base + 1]
  | beginBuffer slot => [slot]
  | endBuffer slot dst _ => [slot, dst]
  | call out slot _ _ => slot :: out.cells
  | log slot => [slot]
  | beginWrap out slot _ _ => slot :: out.cells
  | endWrap slot => [slot]

/-- The places an instruction may jump to. -/
def Op.targets : Op → List Nat
  | jump target => [target]
  | jumpIfFalse _ target => [target]
  | caseMatch _ _ target => [target]
  | rangeNext _ target => [target]
  | rangeStep _ target => [target]
  | eachInit _ _ target => [target]
  | eachNext _ target => [target]
  | eachStep _ target => [target]
  | _ => []

/-- The cell that output goes through holds a buffer or a wrapped sink. -/
def Out.Finds (cells : Cells) : Out → Prop
  | .sink => True
  | .cell slot =>
    (∃ id, cells.read slot = .buffer id) ∨ ∃ entry stages, cells.read slot = .wrap entry stages

/-- The cells whose form an instruction asks for are of that form. -/
def Op.Finds (cells : Cells) : Op → Prop
  | text out _ => out.Finds cells
  | print out _ _ => out.Finds cells
  | endBuffer slot _ _ => ∃ id, cells.read slot = .buffer id
  | call out _ site _ =>
    out.Finds cells ∧ ∀ name slot, .content name slot ∈ site.args → ∃ v, cells.read slot = .value v
  | log slot => ∃ id, cells.read slot = .buffer id
  | beginWrap out _ _ _ => out.Finds cells
  | endWrap slot => ∃ entry stages, cells.read slot = .wrap entry stages
  | _ => True

/-- All cells an instruction has to do with are among `size` cells; the expression of a deferred
value keeps to the cells of that value. -/
structure Instr.Inside (size : Nat) (i : Instr) : Prop where
  cells : ∀ j ∈ i.op.cells, j < size
  exprs : i.op.Touches (· < size) fun _ j _ => j < size
  deferred : ∀ slot code, i.op = .storeThunk slot code →
    (∀ c ∈ code.copies, c.1 < size ∧ c.2 < code.size) ∧
      code.code.Touches (· < code.size) (fun _ j _ => j < code.size) []
  extent : ∀ x, i.extent = some x → x.high ≤ size ∧ ∀ j ∈ x.site.slots, j < size

/-- What a render comes to if it is stopped so that it can go on. -/
def Interrupt.outcome? : Interrupt → Option Outcome
  | waiting f => some (.waiting f)
  | limited => some .limited
  | _ => none

/-- The machine does what it should at a position: the frame has as many cells as the program asks
for, the instruction keeps to them and to the places of the program, it finds what it asks for and
is never broken; and whenever a pending value or the sink stops it, it knows what to save, and the
render stops with just that, unless its sink cannot be flushed. -/
structure Position.Sound (reg : Registry) (context : Context) (q : Position)
    (i : Instr) : Prop where
  frame : (q.found i).cells.size = q.render.program.size
  inside : i.Inside q.render.program.size
  targets : ∀ target ∈ i.op.targets, target ≤ q.render.program.code.size
  finds : i.op.Finds (q.found i).cells
  deferred : ∀ (id : ThunkId) (t : Thunk), q.machine.store.heap.thunks[id]? = some t →
    t.result = none → t.code.Touches (· < t.cells.size) (fun _ j _ => j < t.cells.size) []
  notBroken : ∀ fuel m,
    Exec.instr (Store.invoke reg context fuel) q.pc i ⟨q.render, reg, context⟩ (q.found i) ≠
    .error .broken m
  stops : ∀ fuel e m o, e.outcome? = some o →
    Exec.instr (Store.invoke reg context fuel) q.pc i ⟨q.render, reg, context⟩ (q.found i) =
    .error e m →
    i.extent.isSome = true ∧ ((Store.interrupt context q.id q.render q.pc m e).1 = o ∨
      ∃ cause, (Store.interrupt context q.id q.render q.pc m e).1 =
        .failed ((Failure.sink cause).within q.render.program.name))

section

variable {size stop : Nat} {types : Nat → Shapes} {pc : Nat}

theorem Out.Fits.within {out : Out} (h : out.Fits (types pc))
    (hb : ∀ slot, types pc slot ≠ .free → slot < size) :
    ∀ j ∈ out.cells, j < size := by
  cases out with
  | sink => exact fun j hj => by cases hj
  | cell slot =>
    intro j hj
    rw [Out.cells, List.mem_singleton] at hj
    subst hj
    rcases h with h | h <;> exact hb j (by rw [h]; simp)

/-- What an instruction that fits evaluates touches cells in use and its own. -/
theorem Instr.Fits.exprs {i : Instr} (h : i.Fits size stop types pc) :
    i.op.Touches (· < size) fun _ j _ => j < size := by
  by_cases hs : i.op.stops = true
  · obtain ⟨x, hx⟩ := Option.isSome_iff_exists.1 (h.stops hs)
    obtain ⟨table, ht⟩ := h.touches
    obtain ⟨mark, _, hhigh, hmark, _⟩ := (h.extent x hx).1.site
    refine (ht x hx).mono h.bound ?_
    rintro p j y ⟨_, hj, _⟩
    exact Nat.lt_of_lt_of_le hj (Nat.le_trans hhigh hmark)
  · obtain ⟨op, extent⟩ := i
    cases op <;> simp_all [Op.stops, Op.Touches]

/-- The cells of an instruction that fits are in the frame. -/
theorem Instr.Fits.cells {i : Instr} (h : i.Fits size stop types pc) : ∀ j ∈ i.op.cells,
    j < size := by
  obtain ⟨op, extent⟩ := i
  have hflows := h.flows
  cases op <;> simp only [Op.Flows, Op.cells, List.mem_cons, List.not_mem_nil, or_false] at hflows ⊢
  case text => exact hflows.1.within h.bound
  case print => exact hflows.1.within h.bound
  case checkLimit => exact fun _ => False.elim
  case jump => exact fun _ => False.elim
  case jumpIfFalse => exact fun _ => False.elim
  case caseMatch =>
    rintro j rfl
    exact h.exprs.1
  case store =>
    rintro j rfl
    exact hflows.1
  case storeThunk =>
    rintro j rfl
    exact hflows.1
  case rangeInit => rintro j (rfl | rfl | rfl) <;> omega
  case rangeNext =>
    rintro j (rfl | rfl)
    · exact h.bound _ hflows.1.1
    · exact h.bound _ hflows.1.2
  case rangeStep =>
    rintro j (rfl | rfl | rfl)
    · exact h.bound _ hflows.1.1
    · exact h.bound _ hflows.1.2.1
    · exact h.bound _ hflows.1.2.2
  case eachInit => rintro j (rfl | rfl | rfl) <;> omega
  case eachNext =>
    rintro j (rfl | rfl)
    · exact h.bound _ hflows.1.1
    · exact h.bound _ hflows.1.2
  case eachStep =>
    rintro j rfl
    exact h.bound _ hflows.1
  case beginBuffer =>
    rintro j rfl
    exact hflows.1
  case endBuffer =>
    rintro j (rfl | rfl)
    · exact h.bound _ (by rw [hflows.2.2.1]; simp)
    · exact hflows.1
  case call =>
    rintro j (rfl | hj)
    · exact hflows.2.1
    · exact hflows.1.within h.bound j hj
  case log =>
    rintro j rfl
    exact h.bound _ (by rw [hflows.1]; simp)
  case beginWrap =>
    rintro j (rfl | hj)
    · exact hflows.2.1
    · exact hflows.1.within h.bound j hj
  case endWrap =>
    rintro j rfl
    exact h.bound _ (by rw [hflows.1]; simp)

theorem Instr.Fits.targets {i : Instr} (h : i.Fits size stop types pc) : ∀ target ∈ i.op.targets,
    target ≤ stop := by
  obtain ⟨op, extent⟩ := i
  have hflows := h.flows
  cases op <;> simp only [Op.Flows, Op.targets, List.mem_cons, List.not_mem_nil, or_false]
    at hflows ⊢
  case jump => rintro t rfl; exact hflows.1
  case jumpIfFalse => rintro t rfl; exact hflows.1.1
  case caseMatch => rintro t rfl; exact hflows.1.1
  case rangeNext => rintro t rfl; exact hflows.2.1.1
  case rangeStep => rintro t rfl; exact hflows.2.1
  case eachInit => rintro t rfl; exact hflows.2.1.1
  case eachNext => rintro t rfl; exact hflows.2.1.1
  case eachStep => rintro t rfl; exact hflows.2.1
  all_goals exact fun _ => False.elim

theorem Instr.Fits.inside {i : Instr} (h : i.Fits size stop types pc) : i.Inside size where
  cells := h.cells
  exprs := h.exprs
  deferred slot code hop := by
    have hflows := h.flows
    rw [hop] at hflows
    refine ⟨fun c hc => ?_, hflows.2.1.within⟩
    exact ⟨h.bound _ (hflows.2.1.copies c hc).1, (hflows.2.1.copies c hc).2⟩
  extent x hx := by
    obtain ⟨mark, hslots, hhigh, hmark, _⟩ := (h.extent x hx).1.site
    refine ⟨Nat.le_trans hhigh hmark, fun j hj => ?_⟩
    rw [hslots, List.mem_range] at hj
    exact Nat.lt_of_lt_of_le hj hmark

theorem Out.Fits.finds {out : Out} {g : Shapes} {cells : Cells} (h : out.Fits g)
    (hc : ∀ j, (cells.read j).Has (g j)) :
    out.Finds cells := by
  cases out with
  | sink => trivial
  | cell slot =>
    have hcell := hc slot
    rcases h with h | h
    · rw [h] at hcell
      exact .inl hcell
    · rw [h] at hcell
      exact .inr hcell

/-- Cells of the shapes that are known have the form an instruction asks for. -/
theorem Instr.Fits.finds {i : Instr} (h : i.Fits size stop types pc) {cells : Cells}
    (hc : ∀ j, (cells.read j).Has (types pc j)) : i.op.Finds cells := by
  obtain ⟨op, extent⟩ := i
  have hflows := h.flows
  have hcell {slot : Nat} {s : Shape} (hs : types pc slot = s) :
    (cells.read slot).Has s := by rw [← hs]; exact hc slot
  cases op <;> simp only [Op.Flows, Op.Finds] at hflows ⊢
  case text => exact hflows.1.finds hc
  case print => exact hflows.1.finds hc
  case endBuffer => exact hcell hflows.2.2.1
  case call => exact ⟨hflows.1.finds hc, fun name slot hm => hcell (hflows.2.2.1 _ hm)⟩
  case log => exact hcell hflows.1
  case beginWrap => exact hflows.1.finds hc
  case endWrap => exact hcell hflows.1

end

/-- A render that can be suspended is, unless its sink cannot be flushed. -/
theorem Store.suspend_outcome {context : Context} {id : RenderId} {r : Render} {pc : Nat}
    {m : Machine} {i : Instr} (hi : r.program.code[pc]? = some i) (hext : i.extent.isSome = true)
    (o : Outcome) :
    (suspend context id r pc m o).1 = o ∨
      ∃ cause, (suspend context id r pc m o).1 =
    .failed ((Failure.sink cause).within r.program.name) := by
  obtain ⟨x, hx⟩ := Option.isSome_iff_exists.1 hext
  unfold suspend
  simp only [hi, hx]
  split
  · next e s _ => exact .inr ⟨e, rfl⟩
  · refine .inl ?_
    split <;> rfl

namespace Position

variable {reg : Registry} {context : Context}

/-- A position of a run on a safe store. -/
structure Safe (reg : Registry) (q : Position) : Prop where
  program : q.render.program ∈ reg.programs
  machine : q.machine.Safe reg q.id q.render (q.render.program.types q.pc)

theorem Safe.running (hreg : ∀ p ∈ reg.programs, p.Valid) {q : Position}
    (h : q.Safe reg) {i : Instr} (hi : q.render.program.code[q.pc]? = some i) :
    Exec.Running reg q.id q.render q.pc i (q.found i) := by
  have hfits := (hreg _ h.program).types.fits q.pc i hi
  refine ⟨hfits, ?_⟩
  unfold found
  split
  · exact h.machine
  · exact Store.setUp_safe h.machine hfits

theorem Safe.sound (hreg : ∀ p ∈ reg.programs, p.Valid) {q : Position} (h : q.Safe reg) {i : Instr}
    (hi : q.render.program.code[q.pc]? = some i) : q.Sound reg context i := by
  have hrun := h.running hreg hi
  have hmeets (fuel : Nat) := Exec.instr_meets context (Store.runs_safe hreg context fuel).1 hrun
  refine ⟨hrun.safe.cells.size, hrun.fits.inside, hrun.fits.targets,
    hrun.fits.finds hrun.safe.cells.shape,
    fun id t ht hn => (h.machine.store.heap id t ht).within hn, ?_, ?_⟩
  · intro fuel m hbroken
    have := hmeets fuel
    unfold Exec.Meets at this
    rw [hbroken] at this
    exact this
  · intro fuel e m o ho hstop
    have := hmeets fuel
    unfold Exec.Meets at this
    rw [hstop] at this
    cases e with
    | waiting f =>
      cases ho
      exact ⟨this.1, Store.suspend_outcome hi this.1 _⟩
    | limited =>
      cases ho
      exact ⟨this.1, Store.suspend_outcome hi this.1 _⟩
    | _ => cases ho

/-- A call of a render begins at a safe position. -/
theorem start_safe (hreg : ∀ p ∈ reg.programs, p.Valid) {s : Store} (hs : s.Safe reg)
    {id : RenderId} {q : Position} (h : start? context s id = some q) : q.Safe reg := by
  unfold start? at h
  obtain ⟨r, hr, h⟩ := Option.bind_eq_some_iff.1 h
  have hp := hs.programs id r hr
  cases hstatus : r.status with
  | ready =>
    rw [hstatus] at h
    cases h
    refine ⟨hp, ?_⟩
    unfold Store.enter
    rw [hstatus]
    exact ⟨hs, by rw [hr, ← hstatus], .cleared (hreg _ hp).types.start⟩
  | suspended f =>
    rw [hstatus] at h
    cases h
    obtain ⟨hpc, hm, _⟩ := Store.enter_safe context hs (hreg _ hp) hr hstatus
    rw [← hpc] at hm
    exact ⟨hp, hm.store, hm.render, hm.cells⟩
  | _ =>
    rw [hstatus] at h
    cases h

theorem Visits.safe (hreg : ∀ p ∈ reg.programs, p.Valid) {q q' : Position}
    (hv : Visits reg context q q') (h : q.Safe reg) : q'.Safe reg := by
  induction hv with
  | here => exact h
  | next fuel next hi hrun _ ih =>
    have hmeets := Exec.instr_meets context (Store.runs_safe hreg context fuel).1
      (h.running hreg hi)
    unfold Exec.Meets at hmeets
    rw [hrun] at hmeets
    exact ih ⟨h.program, hmeets.2.safe⟩
  | @call q _ _ i m out slot site fs st hi hop hrun hstart _ ih =>
    obtain ⟨op, extent⟩ := i
    cases hop
    have hmeets := Exec.callState_meets context (h.running hreg hi)
    unfold Exec.Meets at hmeets
    rw [hrun] at hmeets
    exact ih (start_safe hreg hmeets.1.safe.store hstart)

end Position

/-- No call of a render in a reachable store is broken, and at every position it comes to, in the
render or in one that it calls, the machine does what it should. -/
theorem Store.Reachable.machine_safe {analyzer : Analyzer} {templates : List Template}
    {reg : Registry} (hbuild : Registry.build analyzer templates = .ok reg)
    {context : Context} {s : Store} (hs : Store.Reachable reg context s) {id : RenderId}
    (hid : id < s.renders.size) :
    (∀ fuel, (s.invoke reg context fuel id).1 ≠ .broken) ∧
      ∀ (q₀ q : Position) (i : Instr), Position.start? context s id = some q₀ →
    Position.Visits reg context q₀ q → q.render.program.code[q.pc]? = some i →
    q.Sound reg context i := by
  have hreg := Registry.build_valid hbuild
  have hsafe := hs.safe hreg
  refine ⟨fun fuel hb => ?_, ?_⟩
  · have hdue := ((Store.runs_safe hreg context fuel).1 id s hsafe hid).2.2
    rw [hb] at hdue
    exact hdue
  intro q₀ q i hstart hvisits hi
  exact (hvisits.safe hreg (Position.start_safe hreg hsafe hstart)).sound hreg hi

/-! ## A template that waits -/

namespace Sample

/-- A template that greets someone. -/
def greeting : Template :=
  { name := "greeting", kind := .text, source := "", delegate := none
    params := [{ name := "who", type := .any, required := true, injected := false,
                 default := none }]
    body := [.text "Hello ", .print (.param .any "who" false) []] }

/-- The registry of that template alone. -/
def greetings : Registry :=
  let who : Compiled :=
    { type := .any, maySuspend := true, root := .boxed (.memo 0 (.param "who" false)),
      start := 0, width := 1 }
  let params : List ParamDecl :=
    [{ name := "who", type := .any, required := true, injected := false, default := none }]
  { programs := [
      { name := "greeting", kind := .text, source := "", delegate := none, params, size := 1
        code := #[
          { op := .checkLimit, extent := some { site := ⟨[], ⟨[]⟩⟩ } },
          { op := .text .sink "Hello " },
          { op := .print .sink who [], extent := some { high := 1, site := ⟨[0], ⟨[.memo]⟩⟩ } }] }]
            }

/-- A render of it that was started, and not called yet, for someone who is not known yet. -/
def started : Store :=
  (greetings.start {} "greeting" [("who", .boxed (.future 0))] [] .root
    { heap := { futures := { states := #[.pending], reads := #[0] } },
      streams := { outlet := .collecting } }).2

/-- The render was called once. -/
def greeted : Store := (started.invoke greetings {} 8 0).2

theorem greetings_built : Registry.build .conservative [greeting] = .ok greetings := by cbv

theorem started_waits : (started.invoke greetings {} 8 0).1 = .waiting 0 := by decide +kernel

theorem greeted_reachable : Store.Reachable greetings {} greeted :=
  .invoke 8 0 (.start "greeting" _ _ (.init _ _ _)) (by rw [started_waits]; simp)

end Sample

/-- The machine is safe when the greeting is called again. -/
theorem Sample.greeted_safe : (∃ q, Position.start? {} Sample.greeted 0 = some q) ∧
    ∀ q i, Position.start? {} Sample.greeted 0 = some q → q.render.program.code[q.pc]? = some i →
      q.Sound Sample.greetings {} i := by
  have hsome : ∃ q, Position.start? {} Sample.greeted 0 = some q :=
    Option.isSome_iff_exists.1 (by decide +kernel)
  refine ⟨hsome, fun q i hq hi => ?_⟩
  exact (Store.Reachable.machine_safe Sample.greetings_built Sample.greeted_reachable (by cbv)).2 q
    q i hq (.here q) hi

end Interlude
