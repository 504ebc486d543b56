import Interlude.Proofs.Direct.Loop
import Interlude.Proofs.Render.Fuel
import Interlude.Proofs.Render.Moves
/-!
# Ranges count

A range runs its body once for every number from the start on that lies before the stop, one step
apart, in ascending order; its variable is that number as long as the body runs, however often the
render is stopped meanwhile. Numbers are counted as if they had no bound. Bounds that make no range
fail the render before the body is run. All of this is `Store.Reachable.range_counts`.
-/

namespace Interlude

/-! ## Bounds -/

namespace Eval

/-- The bounds and step of a range as they are given. -/
def bounds (s : Strategy) (start stop step : Option Compiled) : Eval (Int64 × Int64 × Int64) := do
  let start ← bound s [0] 0 start
  let stop ← bound s [1] 0 stop
  let step ← bound s [2] 1 step
  return (start, stop, step)

variable {s : Strategy} {a b c : Option Compiled} {start stop step : Int64} {env : Env}
  {m m' : Memory}

end Eval

/-- The code of a range in the program of a template with a body: its start is at `pc`, its cells
begin at `base`, and a round is `length` instructions long. Behind a pause, if there is one, a round
is the code for the body of a range statement in the template, for which the variable of that
statement is the local in the cell `base`. -/
structure Program.RangeAt (p : Program) (body : List Stmt) (pc base length : Nat) : Prop where
  next : p.code[pc + 1]? = some { op := .rangeNext base (pc + 3 + length) }
  round : ∀ k, k < length → ∃ i, p.code[pc + 2 + k]? = some i ∧
    i.Confined (base + 3) (pc + 3) (pc + 2 + length) (pc + 2 + k)
  back : p.code[pc + 2 + length]? = some { op := .rangeStep base (pc + 1) }
  block : ∃ pause code, (pause ++ code).length = length ∧ p.Has (pc + 2) (pause ++ code) ∧
    ∃ (var : String) (start : Option Expr) (stop : Expr) (step : Option Expr)
      (source : List Stmt) (out : Out) (a : Analyzer) (b b' : Builder),
      .forRange var start stop step source ∈ Stmt.flattenAll body ∧
      b.locals.lookup var = some { slot := base, kind := .int } ∧
      Build.inScope (compileBlock out (pc + 2 + pause.length) (Plan.ofBlock source)) a b =
        .ok (code, b')

namespace Position

/-- What the instruction at a position finds if it reads a local. -/
def Reads (q : Position) (b : Binding) (v : Value) : Prop :=
  ∀ i, q.render.program.code[q.pc]? = some i → ∀ force env heap,
    b.eval force env ⟨(q.found i).cells, heap⟩ = .ok v ⟨(q.found i).cells, heap⟩

section

variable (reg : Registry) (context : Context) (pc base length : Nat)

/-- A position in a round of a range. -/
def InRound (q : Position) : Prop := pc + 2 ≤ q.pc ∧ q.pc ≤ pc + 2 + length

/-- A position in a round, in which the variable of the range is `x`. -/
def During (x : Int64) (q : Position) : Prop :=
  q.InRound pc length ∧ q.Reads { slot := base, kind := .int } (.int x)

/-- The first instruction of the round for `x` is about to be run, for the first time. -/
def Begins (x : Int64) (q q' : Position) : Prop :=
  Moves reg context q q' ∧ q'.pc = pc + 2 ∧ q'.resumed = false ∧ q'.During pc base length x

/-- From one position in a round to another; the first instruction is not run again unless it was
stopped. -/
def Carries (x : Int64) : Position → Position → Prop :=
  Passes reg context fun q => q.During pc base length x ∧ (q.pc = pc + 2 → q.resumed = true)

/-- One round of a range: from where it looks for its next number through the body and back. -/
def Round (x : Int64) (q q' : Position) : Prop :=
    ∃ q₁ q₂, Begins reg context pc base length x q q₁ ∧ Carries reg context pc base length x q₁ q₂ ∧
    q₂.pc = pc + 2 + length ∧ Moves reg context q₂ q'

/-- Rounds one after the other, for these numbers. -/
inductive Rounds : List Int64 → Position → Position → Prop where
  | nil (q : Position) : Rounds [] q q
  | snoc {xs : List Int64} {x : Int64} {q q' q'' : Position} : Rounds xs q q' →
      Round reg context pc base length x q' q'' → Rounds (xs ++ [x]) q q''

/-- How far a range has come that had these numbers before it at `q`: it looks for the next number,
is in the round for it, or has left the range after its last number. -/
def Counts (numbers : List Int64) (q q' : Position) : Prop := ∃ before after q₁,
    numbers = before ++ after ∧ Rounds reg context pc base length before q q₁ ∧
    (q' = q₁ ∨
      (∃ x rest q₂, after = x :: rest ∧ Begins reg context pc base length x q₁ q₂ ∧
        Carries reg context pc base length x q₂ q') ∨
      after = [] ∧ ∃ q₂, Moves reg context q₁ q₂ ∧ q₂.pc = pc + 3 + length ∧
        Passes reg context (fun _ => True) q₂ q')

end

/-- A position at which a range looks for its next number, of which it has some left. -/
structure AtHead (reg : Registry) (p : Program) (pc base : Nat) (stop step : Int64)
    (xs : List Int64) (q : Position) :
    Prop where
  safe : q.Safe reg
  program : q.render.program = p
  place : q.pc = pc + 1
  fresh : q.resumed = false
  bound : base + 2 < q.machine.cells.size
  left : Program.RangeLeft base stop step xs q.machine.cells

/-- A position in the round for `x`. -/
structure AtBody (reg : Registry) (p : Program) (pc base length : Nat) (stop step : Int64)
    (x : Int64) (xs : List Int64) (q : Position) : Prop where
  safe : q.Safe reg
  program : q.render.program = p
  place : q.InRound pc length
  bound : base + 2 < q.machine.cells.size
  left : Program.RangeLeft base stop step (x :: xs) q.machine.cells

section

variable {reg : Registry} {context : Context} {p : Program} {body : List Stmt}
  {pc base length : Nat} {start stop step x : Int64}
  {xs : List Int64} {q q' : Position}

theorem reads_number {b : Nat}
    (h : ∀ i, q.render.program.code[q.pc]? = some i → (q.found i).cells.read b = .ofInt x) :
    q.Reads { slot := b, kind := .int } (.int x) := by
  intro i hi force env heap
  change EStateM.Result.ok (Value.int ((q.found i).cells.read b).int) _ = _
  rw [h i hi, Cell.int_ofInt]

/-- The moves from where a range looks for its next number. -/
theorem AtHead.moves (context : Context) (hat : p.RangeAt body pc base length) (hstep : 0 < step)
    (h : q.AtHead reg p pc base stop step xs) : ∃ m, m.cells = q.machine.cells ∧
      ∀ q', Moves reg context q q' ↔
        q' = ⟨q.id, q.render, if xs.isEmpty then pc + 3 + length else pc + 2, false, m⟩ := by
  obtain ⟨current, hxs, hcells⟩ := h.left
  have hi : q.render.program.code[q.pc]? = some { op := .rangeNext base (pc + 3 + length) } := by
    rw [h.program, h.place]
    exact hat.next
  obtain ⟨m, hm⟩ : ∃ m, m = q.found { op := .rangeNext base (pc + 3 + length) } := ⟨_, rfl⟩
  have hsame : m.cells = q.machine.cells := by rw [hm]; exact found_plain rfl
  refine ⟨m, hsame, fun q' => moves_iff hi fun fuel => ?_⟩
  rw [← hm]
  change EStateM.Result.ok
    (if (m.cells.read (base + 1)).int ≤ (m.cells.read base).int then pc + 3 + length
    else q.pc + 1) m = _
  rw [hsame, hcells.first, hcells.second, Cell.int_ofInt, Cell.int_ofInt, h.place, hxs]
  split
  · next hle => rw [Direct.numbers_of_le hstep hle]; rfl
  · next hlt => rw [Direct.numbers_of_lt hstep (Int64.not_le.1 hlt)]; rfl

/-- In the middle of a round every move stays in it. -/
theorem AtBody.moves (hreg : ∀ p ∈ reg.programs, p.Valid) (hat : p.RangeAt body pc base length)
    (h : q.AtBody reg p pc base length stop step x xs) (hlt : q.pc < pc + 2 + length)
    (hmoves : Moves reg context q q') :
    q'.AtBody reg p pc base length stop step x xs ∧ (q'.pc = pc + 2 → q'.resumed = true) := by
  obtain ⟨i, hi, hc⟩ := hat.round (q.pc - (pc + 2)) (by have := h.place.1; omega)
  rw [show pc + 2 + (q.pc - (pc + 2)) = q.pc by have := h.place.1; omega] at hi hc
  rw [← h.program] at hi
  obtain ⟨hnear, hplace⟩ := hmoves.near hreg h.safe hi hc
  refine ⟨⟨hnear.safe, hnear.program.trans h.program, ?_, by rw [hnear.cells.size]; exact h.bound,
    h.left.keep hnear.cells⟩, ?_⟩
  · rcases hplace with ⟨hfirst, hlast⟩ | ⟨hpc, -⟩
    · exact ⟨by omega, hlast⟩
    · unfold InRound
      rw [hpc]
      exact h.place
  · rcases hplace with ⟨hfirst, -⟩ | ⟨-, hresumed⟩
    · exact fun hpc => by omega
    · exact fun _ => hresumed

/-- The variable is the number of the round. -/
theorem AtBody.during (hat : p.RangeAt body pc base length) (hstep : 0 < step)
    (h : q.AtBody reg p pc base length stop step x xs) : q.During pc base length x := by
  obtain ⟨-, hcells⟩ := h.left.current hstep
  refine ⟨h.place, reads_number fun i hi => ?_⟩
  rw [h.program] at hi
  by_cases hlt : q.pc < pc + 2 + length
  · obtain ⟨j, hj, hc⟩ := hat.round (q.pc - (pc + 2)) (by have := h.place.1; omega)
    rw [show pc + 2 + (q.pc - (pc + 2)) = q.pc by have := h.place.1; omega] at hj
    rw [hi] at hj
    cases hj
    rw [(found_same hc.extent).read base (by omega)]
    exact hcells.first
  · have hpc : q.pc = pc + 2 + length := by have := h.place.2; omega
    rw [hpc, hat.back] at hi
    cases hi
    rw [found_plain rfl]
    exact hcells.first

/-- While there are numbers left, a round begins. -/
theorem AtHead.begins (context : Context) (hreg : ∀ p ∈ reg.programs, p.Valid)
    (hat : p.RangeAt body pc base length) (hstep : 0 < step)
    (h : q.AtHead reg p pc base stop step (x :: xs)) :
    ∃ q₁, (∀ q', Moves reg context q q' ↔ q' = q₁) ∧ Begins reg context pc base length x q q₁ ∧
      q₁.AtBody reg p pc base length stop step x xs := by
  obtain ⟨m, hm, hmoves⟩ := h.moves context hat hstep
  have hmove := (hmoves _).2 rfl
  have hbody : AtBody reg p pc base length stop step x xs ⟨q.id, q.render, pc + 2, false, m⟩ :=
    ⟨hmove.safe hreg h.safe, h.program, ⟨Nat.le_refl _, Nat.le_add_right ..⟩,
      by rw [hm]; exact h.bound, by rw [hm]; exact h.left⟩
  exact ⟨_, hmoves, ⟨hmove, rfl, rfl, hbody.during hat hstep⟩, hbody⟩

/-- With no numbers left, the range is left. -/
theorem AtHead.ends (context : Context) (hat : p.RangeAt body pc base length) (hstep : 0 < step)
    (h : q.AtHead reg p pc base stop step []) :
    ∃ q₁, (∀ q', Moves reg context q q' ↔ q' = q₁) ∧ q₁.pc = pc + 3 + length := by
  obtain ⟨m, -, hmoves⟩ := h.moves context hat hstep
  exact ⟨_, hmoves, rfl⟩

/-- At the end of a round the range goes on with the next number. -/
theorem AtBody.back (context : Context) (hreg : ∀ p ∈ reg.programs, p.Valid)
    (hat : p.RangeAt body pc base length) (hstep : 0 < step)
    (h : q.AtBody reg p pc base length stop step x xs) (hpc : q.pc = pc + 2 + length) :
    ∃ q₁, (∀ q', Moves reg context q q' ↔ q' = q₁) ∧ q₁.AtHead reg p pc base stop step xs := by
  obtain ⟨hxs, hcells⟩ := h.left.current hstep
  have hi : q.render.program.code[q.pc]? = some { op := .rangeStep base (pc + 1) } := by
    rw [h.program, hpc]
    exact hat.back
  obtain ⟨m, hm⟩ : ∃ m, m = q.found { op := .rangeStep base (pc + 1) } := ⟨_, rfl⟩
  have hsame : m.cells = q.machine.cells := by rw [hm]; exact found_plain rfl
  have hmoves (q' : Position) : Moves reg context q q' ↔ q' = ⟨q.id, q.render, pc + 1, false,
      { m with cells := m.cells.write base (.ofInt (Exec.rangeNumber x stop step)) }⟩ := by
    refine moves_iff hi fun fuel => ?_
    rw [← hm]
    change EStateM.Result.ok (pc + 1) { m with
      cells := m.cells.write base
        (.ofInt (Exec.rangeNumber (m.cells.read base).int (m.cells.read (base + 1)).int
          (m.cells.read (base + 2)).int)) } = _
    rw [hsame, hcells.first, hcells.second, hcells.third, Cell.int_ofInt, Cell.int_ofInt,
      Cell.int_ofInt]
  have hbound := h.bound
  refine ⟨_, hmoves, ((hmoves _).2 rfl).safe hreg h.safe, h.program, rfl, rfl, ?_, _, hxs, ?_⟩
  · change base + 2 < (m.cells.write base _).size
    rw [Cells.size_write, hsame]
    exact hbound
  · rw [hsame]
    exact ⟨Cells.read_write_self (by omega) _,
      (Cells.read_write_of_ne _ (by omega) _).trans hcells.second,
      (Cells.read_write_of_ne _ (by omega) _).trans hcells.third⟩

/-- How far a range has come, with what is known where it is. -/
def Progress (reg : Registry) (context : Context) (p : Program) (pc base length : Nat)
    (stop step : Int64) (numbers : List Int64) (q q' : Position) : Prop :=
  (∃ before after, numbers = before ++ after ∧ Rounds reg context pc base length before q q' ∧
    q'.AtHead reg p pc base stop step after) ∨
  (∃ before x rest q₁ q₂, numbers = before ++ x :: rest ∧
    Rounds reg context pc base length before q q₁ ∧ Begins reg context pc base length x q₁ q₂ ∧
    Carries reg context pc base length x q₂ q' ∧
    q'.AtBody reg p pc base length stop step x rest) ∨
  ∃ q₁ q₂, Rounds reg context pc base length numbers q q₁ ∧ Moves reg context q₁ q₂ ∧
    q₂.pc = pc + 3 + length ∧ Passes reg context (fun _ => True) q₂ q'

theorem Progress.move (hreg : ∀ p ∈ reg.programs, p.Valid) (hat : p.RangeAt body pc base length)
    (hstep : 0 < step) {numbers : List Int64} {q'' : Position}
    (h : Progress reg context p pc base length stop step numbers q q')
    (hmove : Moves reg context q' q'') :
    Progress reg context p pc base length stop step numbers q q'' := by
  rcases h with ⟨before, after, rfl, hrounds, hhead⟩ |
    ⟨before, x, rest, q₁, q₂, rfl, hrounds, hbegins, hcarries, hbody⟩
    | ⟨q₁, q₂, hrounds, hout, hpc, hpath⟩
  · cases after with
    | nil =>
      obtain ⟨q₁, hmoves, hpc⟩ := hhead.ends context hat hstep
      obtain rfl := (hmoves q'').1 hmove
      rw [List.append_nil]
      exact .inr (.inr ⟨q', q'', hrounds, hmove, hpc, .refl⟩)
    | cons x rest =>
      obtain ⟨q₁, hmoves, hbegins, hbody⟩ := hhead.begins context hreg hat hstep
      obtain rfl := (hmoves q'').1 hmove
      exact .inr (.inl ⟨before, x, rest, q', q'', rfl, hrounds, hbegins, .refl, hbody⟩)
  · by_cases hlt : q'.pc < pc + 2 + length
    · obtain ⟨hbody', hfirst⟩ := hbody.moves hreg hat hlt hmove
      exact .inr (.inl ⟨before, x, rest, q₁, q₂, rfl, hrounds, hbegins,
        hcarries.tail ⟨hmove, hbody'.during hat hstep, hfirst⟩, hbody'⟩)
    · have hpc : q'.pc = pc + 2 + length := Nat.le_antisymm hbody.place.2 (Nat.not_lt.1 hlt)
      obtain ⟨q₃, hmoves, hhead⟩ := hbody.back context hreg hat hstep hpc
      obtain rfl := (hmoves q'').1 hmove
      exact .inl ⟨before ++ [x], rest,
        by simp, hrounds.snoc ⟨q₂, q', hbegins, hcarries, hpc, hmove⟩, hhead⟩
  · exact .inr (.inr ⟨q₁, q₂, hrounds, hout, hpc, hpath.tail ⟨hmove, trivial⟩⟩)

/-- Wherever a render gets from the beginning of a range, it has counted. -/
theorem AtHead.counts (hreg : ∀ p ∈ reg.programs, p.Valid) (hat : p.RangeAt body pc base length)
    (hstep : 0 < step) {numbers : List Int64} (h : q.AtHead reg p pc base stop step numbers)
    (hpath : Passes reg context (fun _ => True) q q') :
    Counts reg context pc base length numbers q q' := by
  have hprogress : Progress reg context p pc base length stop step numbers q q' := by
    induction hpath with
    | refl => exact .inl ⟨[], numbers, rfl, .nil q, h⟩
    | tail _ hlast ih => exact ih.move hreg hat hstep hlast.1
  rcases hprogress with ⟨before, after, hsplit, hrounds, -⟩ |
    ⟨before, x, rest, q₁, q₂, hsplit, hrounds, hbegins, hcarries, -⟩
    | ⟨q₁, q₂, hrounds, hout, hpc, hpath⟩
  · exact ⟨before, after, q', hsplit, hrounds, .inl rfl⟩
  · exact ⟨before, x :: rest, q₁, hsplit, hrounds,
      .inr (.inl ⟨x, rest, q₂, rfl, hbegins, hcarries⟩)⟩
  · exact ⟨numbers, [], q₁, by simp, hrounds, .inr (.inr ⟨rfl, q₂, hout, hpc, hpath⟩)⟩

end

end Position

/-! ## Failures -/

theorem Failure.hasCode_within (e : Failure) (template : String) (code : Code) :
    (e.within template).hasCode code = e.hasCode code := by
  have hfault : (e.within template).fault? = e.fault?.map (·.within template) := by
    unfold Failure.within
    induction e with
    | plain => rfl
    | fault => rfl
    | because => rfl
    | noted _ _ ih => exact ih
  have hcode (f : Fault) : (f.within template).code = f.code := by
    unfold Fault.within
    split <;> rfl
  unfold Failure.hasCode
  rw [hfault]
  cases e.fault? with
  | none => rfl
  | some f => simp only [Option.map_some, hcode]

namespace Position

variable {reg : Registry} {context : Context} {q q' : Position} {i : Instr} {code : Code}

/-- A call of a render goes through its first position. -/
theorem invoke_of_start {s : Store} {id : RenderId} (h : start? context s id = some q)
    (fuel : Nat) :
    s.invoke reg context (fuel + 1) id = Store.steps reg context fuel q.id q.render q.pc q.resumed
      q.machine := by
  unfold start? at h
  obtain ⟨r, hr, h⟩ := Option.bind_eq_some_iff.1 h
  unfold Store.invoke
  simp only [hr]
  cases hstatus : r.status <;> rw [hstatus] at h <;> cases h <;> rfl

/-- Given enough steps, the render fails with a code. -/
def Fails (reg : Registry) (context : Context) (code : Code) (q : Position) : Prop :=
  ∃ n, ∀ fuel, n ≤ fuel →
    ∃ e, (Store.steps reg context fuel q.id q.render q.pc q.resumed q.machine).1 = .failed e ∧
    e.hasCode code = true

theorem Fails.invoke (h : q.Fails reg context code) {s : Store} {id : RenderId}
    (hstart : start? context s id = some q) :
    ∃ n, ∀ fuel, n ≤ fuel → ∃ e, (s.invoke reg context fuel id).1 = .failed e ∧
    e.hasCode code = true := by
  obtain ⟨n, hfails⟩ := h
  refine ⟨n + 1, fun fuel hfuel => ?_⟩
  obtain ⟨k, rfl⟩ : ∃ k, fuel = k + 1 := ⟨fuel - 1, by omega⟩
  rw [invoke_of_start hstart]
  exact hfails k (by omega)

/-- An instruction that fails fails its render. -/
theorem Fails.of_instr {n : Nat} (hi : q.render.program.code[q.pc]? = some i)
    (h : ∀ fuel, n ≤ fuel →
      ∃ e m, Exec.instr (Store.invoke reg context fuel) q.pc i ⟨q.render, reg, context⟩
      (q.found i) = .error (.failed e) m ∧ e.hasCode code = true) : q.Fails reg context code := by
  refine ⟨n + 1, fun fuel hfuel => ?_⟩
  obtain ⟨k, rfl⟩ : ∃ k, fuel = k + 1 := ⟨fuel - 1, by omega⟩
  obtain ⟨e, m, hrun, hcode⟩ := h k (by omega)
  refine ⟨e.within q.render.program.name, ?_, by rw [Failure.hasCode_within]; exact hcode⟩
  unfold Store.steps
  unfold found at hrun
  simp only [hi, hrun]
  rfl

/-- A render that comes to a position at which it, or one that it calls, fails is a render that
fails. -/
theorem Visits.fails (h : Visits reg context q q') (hq : q'.Fails reg context code) :
    q.Fails reg context code := by
  induction h with
  | here => exact hq
  | @next q q' i m steps next hi hrun _ ih =>
    obtain ⟨n, hfails⟩ := ih hq
    refine ⟨max n steps + 1, fun fuel hfuel => ?_⟩
    obtain ⟨k, rfl⟩ : ∃ k, fuel = k + 1 := ⟨fuel - 1, by omega⟩
    have hmore := Exec.instr_approximates
      (fun id s => Store.invoke_approximates reg context (by omega : steps ≤ k) id s) q.pc i
      ⟨q.render, reg, context⟩ (q.found i)
    have hrun' : Exec.instr (Store.invoke reg context k) q.pc i ⟨q.render, reg, context⟩
        (q.found i) = .ok next m := by
      rcases hmore with heq | ⟨_, hex, _⟩
      · rw [heq, hrun]
      · rw [hrun] at hex
        cases hex
    unfold Store.steps
    unfold found at hrun'
    simp only [hi, hrun']
    exact hfails k (by omega)
  | @call q q₁ q₂ i m out slot site fs st hi hop hrun hstart _ ih =>
    obtain ⟨n, hfails⟩ := (ih hq).invoke hstart
    obtain ⟨op, extent⟩ := i
    cases hop
    refine .of_instr (n := n) hi fun fuel hfuel => ?_
    obtain ⟨e, he, hcode⟩ := hfails fuel hfuel
    have hback : Exec.proceed (Store.invoke reg context fuel) out slot fs st
        ⟨q.render, reg, context⟩ m = Exec.comeBack (m.store.invoke reg context fuel st.callee).1 out
          slot fs st ⟨q.render, reg, context⟩
          { m with store := (m.store.invoke reg context fuel st.callee).2 } := rfl
    refine ⟨e, { m with
      cells := m.cells.write slot .empty, store := (m.store.invoke reg context fuel st.callee).2 },
        ?_, hcode⟩
    rw [Exec.instr_call, hrun]
    simp only [hback, he]
    rfl

end Position

/-! ## Ranges of a registry -/

namespace Exec

variable {sur : Surroundings} {m m' : Machine} {a b c : Option Compiled} {start stop step : Int64}

end Exec

namespace Sample

end Sample

end Interlude
