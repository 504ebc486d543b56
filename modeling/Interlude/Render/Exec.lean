import Interlude.Render.Operand
/-!
# Instructions at work

One instruction of a render: it evaluates its operands, then it may write output, change cells, and
tell which instruction is next. It can be interrupted by a failure, by a pending value, or by a sink
that asks for a pause. A call runs another render, given here as a function, so that this module
need not be recursive.
-/

namespace Interlude

/-- Why an instruction did not finish. -/
inductive Interrupt where
  | failed (cause : Failure)
  | waiting (id : FutureId)
  | limited
  | exhausted
  | broken

def Stop.interrupt : Stop → Interrupt
  | failed cause => .failed cause
  | waiting id => .waiting id
  | exhausted => .exhausted
  | broken => .broken

/-- What an instruction changes: the cells of its render, and the store. Its evaluations go by the
number `maker`. -/
structure Machine where
  cells : Cells
  store : Store
  maker : Identity := 0

/-- What an instruction reads: its render, and what the whole run has in common. -/
structure Surroundings where
  render : Render
  registry : Registry
  context : Context

abbrev Exec := ReaderT Surroundings (EStateM Interrupt Machine)

namespace Exec

def fail (cause : Failure) : Exec α := throw (.failed cause)

def ofExcept : Except Failure α → Exec α
  | .ok a => pure a
  | .error e => fail e

/-- The machine with the cells and the heap that an evaluation left. -/
def after (m : Machine) (mem : Memory) : Machine :=
  { m with cells := mem.cells, store := { m.store with heap := mem.heap } }

/-- Runs an evaluation on the render's cells. -/
def eval (act : Eval α) : Exec α := fun sur m =>
  let env : Env := { params := sur.render.params, injected := sur.render.injected,
                     context := sur.context,
                     maker := m.maker }
  match act env { cells := m.cells, heap := m.store.heap } with
  | .ok a mem => .ok a (after m mem)
  | .error stop mem => .error stop.interrupt (after m mem)

def onStore (f : Store → α × Store) : Exec α := modifyGet fun m =>
  let (a, store) := f m.store
  (a, { m with store })

def cell (i : Nat) : Exec Cell := return (← get).cells.read i

def setCell (i : Nat) (c : Cell) : Exec Unit := modify fun m =>
    { m with cells := m.cells.write i c }

/-- The buffer in a cell. -/
def buffer (i : Nat) : Exec BufferId := do
  match ← cell i with
  | .buffer id => pure id
  | _ => throw .broken

/-- The sink that output of an instruction goes to. -/
def target (out : Out) : Exec Sink := do
  match out with
  | .sink => return (← read).render.sink
  | .cell slot =>
    match ← cell slot with
    | .wrap entry _ => pure entry
    | .buffer id => pure (.buffer id)
    | _ => throw .broken

/-- Runs an operation on sinks; if it fails, the sink is to blame. -/
def onSink (f : Store → Except Failure α × Store) : Exec α := do
  match ← onStore f with
  | .ok a => pure a
  | .error e => fail (Failure.sink e)

def write (out : Out) (s : String) : Exec Unit := do
  let sink ← target out
  onSink (·.append sink s)

/-- Puts the stages of filters before a sink, for output of a kind. -/
def wrap (fs : List FilterCall) (args : List (List Value)) (kind : ContentKind) (sink : Sink) :
    Exec Sink := do
  let stages ← ofExcept (Filter.stages (← get).store.heap.futures (Eval.applied fs args) kind)
  onStore fun s =>
    let (entry, streams) := s.streams.wrap stages sink
    (entry, { s with streams })

/-- Closes the first stages of a sink. -/
def close (entry : Sink) (stages : Nat) : Exec Unit :=
  onSink fun s =>
    let (r, streams) := s.streams.closeAll (entry.stages stages)
    (r, { s with streams })

def newBuffer : Exec BufferId := onStore fun s =>
  let (id, streams) := s.streams.newBuffer
  (id, { s with streams })

def bufferText (id : BufferId) : Exec String := return (← get).store.streams.bufferText id

/-- Writes the three cells of a loop. -/
def setLoop (base : Nat) (first second third : Cell) : Exec Unit := do
  setCell base first
  setCell (base + 1) second
  setCell (base + 2) third

/-- The next number of a range; past the largest number it is the stop. -/
def rangeNumber (current stop step : Int64) : Int64 :=
  if Int64.maxValue - step < current then stop else current + step

/-! ## Calls -/

/-- Where the output of a callee goes: on as it is, through the stages of the filters, or into a
buffer if a filter has no stage. Tells the sink, the number of stages, and the buffer. -/
def calleeSink (kind : ContentKind) (filters : List FilterCall) (args : List (List Value))
    (sink : Sink) :
    Exec (Sink × Nat × Option BufferId) := do
  if filters.isEmpty then return (sink, 0, none)
  else if filters.all (·.filter.streams) then
    let entry ← wrap filters args kind sink
    return (entry, filters.length, none)
  else
    let id ← newBuffer
    return (.buffer id, 0, some id)

/-- Starts a call; none if it goes nowhere. -/
def startCall (out : Out) (site : CallSite) (filters : List FilterCall) :
    Exec (Option CallState) := do
  let sur ← read
  match ← eval (Eval.dispatch .usual sur.registry sur.render.data site filters) with
  | none => return none
  | some d =>
    let sink ← target out
    let (entry, stages, buffer) ← calleeSink d.program.kind filters d.args sink
    match ← onStore (d.program.start sur.context d.params sur.render.injected entry) with
    | .error e => fail e
    | .ok id => return some { callee := id, entry, stages, buffer, args := d.args }

/-- Ends a call: closes its stages, or filters what the callee put into the buffer. -/
def finishCall (st : CallState) (out : Out) (filters : List FilterCall) : Exec Unit := do
  let sink ← target out
  match st.buffer with
  | none => close st.entry st.stages
  | some id =>
    let kind := ((← get).store.renders[st.callee]?.map (·.program.kind)).getD .html
    let content := Value.ofContent kind (← bufferText id)
    let s ← eval do
      let v ← Eval.filtered filters st.args content
      Eval.text v
    onSink (·.append sink s)

/-- The call in a cell, or a new one. -/
def callState (i : Instr) (out : Out) (slot : Nat) (site : CallSite) (filters : List FilterCall) :
    Exec (Option CallState) := do
  match ← cell slot with
  | .call st => return some st
  | _ =>
    let started ← startCall out site filters
    modify fun m => { m with cells := i.clearMemo m.cells }
    match started with
    | none => return none
    | some st =>
      setCell slot (.call st)
      return some st

/-- Runs the callee of a call until it stops. The call stays in its cell until the callee is
through. -/
def proceed (invoke : RenderId → Store → Outcome × Store) (out : Out) (slot : Nat)
    (filters : List FilterCall) (st : CallState) : Exec Unit := do
  match ← onStore (invoke st.callee) with
  | .done =>
    setCell slot .empty
    finishCall st out filters
  | .failed e =>
    setCell slot .empty
    fail e
  | .waiting id => throw (.waiting id)
  | .limited => throw .limited
  | .exhausted => throw .exhausted
  | .broken => throw .broken

/-- Starts a call if it is not there yet, and runs it. -/
def call (invoke : RenderId → Store → Outcome × Store) (i : Instr) (out : Out) (slot : Nat)
    (site : CallSite) (filters : List FilterCall) : Exec Unit := do
  match ← callState i out slot site filters with
  | none => return
  | some st => proceed invoke out slot filters st

/-! ## Instructions -/

/-- Runs the instruction at `pc` and tells the number of the next. -/
def instr (invoke : RenderId → Store → Outcome × Store) (pc : Nat) (i : Instr) : Exec Nat := do
  let clearMemo : Exec Unit := modify fun m => { m with cells := i.clearMemo m.cells }
  match i.op with
  | .text out s =>
    write out s
    return pc + 1
  | .print out e filters =>
    let s ← eval (Eval.printed .usual e filters)
    write out s
    clearMemo
    return pc + 1
  | .checkLimit =>
    let sink := (← read).render.sink
    if ← onStore (·.isLimited sink) then throw .limited
    return pc + 1
  | .jump target => return target
  | .jumpIfFalse e target =>
    let b ← eval (e.bool .usual [])
    clearMemo
    return if b then pc + 1 else target
  | .caseMatch slot values target =>
    let found ← eval (Eval.matchesCase .usual slot values)
    clearMemo
    return if found then pc + 1 else target
  | .store slot kind e =>
    let c ← eval (Eval.cellOf .usual kind e)
    setCell slot c
    clearMemo
    return pc + 1
  | .storeThunk slot code =>
    let id ← eval (Thunk.make code)
    setCell slot (.thunk id)
    return pc + 1
  | .rangeInit base start stop step =>
    let (start, stop, step) ← eval (Eval.range .usual start stop step)
    setLoop base (.ofInt start) (.ofInt stop) (.ofInt step)
    clearMemo
    return pc + 1
  | .rangeNext base target =>
    return if (← cell (base + 1)).int ≤ (← cell base).int then target else pc + 1
  | .rangeStep base target =>
    let next := rangeNumber (← cell base).int (← cell (base + 1)).int (← cell (base + 2)).int
    setCell base (.ofInt next)
    return target
  | .eachInit base e target =>
    let (list, length) ← eval (Eval.items .usual e)
    setLoop base (.value list) (.ofInt 0) (.ofInt (Int64.ofNat length))
    clearMemo
    return if length = 0 then target else pc + 1
  | .eachNext base target =>
    return if (← cell (base + 2)).int ≤ (← cell (base + 1)).int then target else pc + 1
  | .eachStep base target =>
    let index := (← cell (base + 1)).int
    setCell (base + 1) (.ofInt (index + 1))
    return target
  | .beginBuffer slot =>
    let id ← newBuffer
    setCell slot (.buffer id)
    return pc + 1
  | .endBuffer slot dst kind =>
    let s ← bufferText (← buffer slot)
    setCell dst (.value (Value.ofContent kind s))
    setCell slot .empty
    return pc + 1
  | .call out slot site filters =>
    call invoke i out slot site filters
    return pc + 1
  | .log slot =>
    let s ← bufferText (← buffer slot)
    let template := (← read).render.program.name
    onStore fun st => ((),
      st.logged { level := .info, message := s, fields := [("template", .str template)] })
    setCell slot .empty
    return pc + 1
  | .beginWrap out slot kind filters =>
    let args ← eval (Eval.filterArgs .usual [] filters)
    let sink ← target out
    let entry ← wrap filters args kind sink
    setCell slot (.wrap entry filters.length)
    clearMemo
    return pc + 1
  | .endWrap slot =>
    match ← cell slot with
    | .wrap entry stages =>
      setCell slot .empty
      close entry stages
      return pc + 1
    | _ => throw .broken

end Exec

end Interlude
