import Interlude.Program.Basic
/-!
# Compiling templates

Blocks become lists of instructions that know where they will stand, so jumps are computed from the
lengths of what was compiled before. Before a render may take long (at its start, a branch, a loop
or a call) stands a check whether the sink asks for a pause.
-/

namespace Interlude

namespace Program

/-- The slots and locals in use. -/
structure Builder where
  slots : Slots := Slots.new
  locals : Locals := Locals.empty

/-- Compilation of a body. -/
abbrev Build := ReaderT Analyzer (StateT Builder (Except Failure))

namespace Build

/-- Runs an operation on slots. -/
def onSlots (f : Slots → Except Failure (α × Slots)) : Build α := do
  let b ← get
  let (a, slots) ← liftM (f b.slots)
  set { b with slots }
  return a

def alloc (name : String) (kind : SlotKind) : Build Nat := onSlots (·.alloc name kind)

def bind (name : String) (b : Binding) : Build Unit :=
  modify fun s => { s with locals := s.locals.bind name b }

/-- Compiles in a scope of its own. -/
def inScope (act : Build α) : Build α := do
  let outer := (← get).locals
  modify fun b => { slots := b.slots.enter, locals := b.locals.push }
  let a ← act
  modify fun b => { slots := b.slots.exit, locals := outer }
  return a

def expr (e : Expr) : Build Compiled := do
  let scope : Expr.Scope := { analyzer := ← read, locals := (← get).locals }
  onSlots (e.compile scope ·)

def exprs : List Expr → Build (List Compiled)
  | [] => pure []
  | e :: es => do
    let c ← expr e
    return c :: (← exprs es)

def optional : Option Expr → Build (Option Compiled)
  | none => pure none
  | some e => do
    let c ← expr e
    return some c

/-- The filters of directives. -/
def filters : List Directive → Build (List FilterCall)
  | [] => pure []
  | d :: ds => do
    let filter ← liftM (Filter.resolve d.name d.args.length)
    let args ← exprs d.args
    return { filter, args } :: (← filters ds)

/-- The slots in use now. -/
def site : Build SaveSite := do
  let taken := (← get).slots.taken
  return { slots := taken.map (·.index), layout := ⟨taken.map (·.kind)⟩ }

/-- A slot for the state of an instruction, if it has one. -/
def stateSlot : Option SlotKind → Build Nat
  | some kind => alloc "" kind
  | none => pure 0

/-- Compiles the parts of one instruction. Their memo cells, and a state cell if `state` asks for
one, live in a scope that closes with the instruction. -/
def step (state : Option SlotKind) (parts : Nat → Build α) : Build (α × Nat × Extent) := do
  modify fun b => { b with slots := b.slots.enter }
  let low := (← get).slots.mark
  let slot ← stateSlot state
  let memo := (← get).slots.mark
  let a ← parts slot
  let high := (← get).slots.mark
  let site ← site
  modify fun b => { b with slots := b.slots.exit }
  return (a, slot, { low, memo, high, site })

def checkLimit : Build Instr := do
  let site ← site
  return { op := .checkLimit, extent := some { site } }

/-- Whether a loop body may wait, so that the loop pauses on the way. -/
def loopCheck (source : List Stmt) : Build (List Instr) := do
  let b ← get
  if (← read).body b.locals.settled source then
    let check ← checkLimit
    return [check]
  else return []

/-- Compiles a block that may be missing in a scope of its own. -/
def orNothing (isMissing : Bool) (act : Build (List Instr)) : Build (List Instr) :=
  if isMissing then pure [] else inScope act

def callee : CallTarget → Build Callee
  | .template => return .template
  | .delegate variant allowEmpty => do
    let variant ← optional variant
    return .delegate variant allowEmpty

def passed : CallData → Build Passed
  | .none => return .none
  | .all => return .all
  | .expr e => do
    let e ← expr e
    return .record e

/-- A value as an argument. A param of the caller is passed on without being read. -/
def argument (name : String) : Expr → Build Argument
  | .param _ param false => return .forward name param
  | e => do
    let c ← expr e
    return .value name c

/-- Renders a body into a buffer and puts it as content into the cell `dst`. -/
def buffered (pc dst : Nat) (kind : ContentKind) (body : Out → Nat → Build (List Instr)) :
    Build (List Instr) :=
  inScope do
    let slot ← alloc "" .buffer
    let code ← body (.cell slot) (pc + 1)
    return { op := .beginBuffer slot } :: code ++ [{ op := .endBuffer slot dst kind }]

end Build

/-- The kind of slot for values of a type. -/
def slotKindOf (t : StaticType) : SlotKind :=
  if t.nullable then .value
  else
    match t.kind with
    | .int => .int
    | .float => .float
    | .bool => .bool
    | .string => .string
    | _ => .value

/-- A test, what runs when it holds, and whether more follows to jump over. -/
structure Segment where
  test : Instr
  body : List Instr
  jumps : Bool

/-- The instructions of tests in a row; after what ran the rest is jumped over. -/
def Segment.code (stop : Nat) (segments : List Segment) : List Instr :=
  segments.flatMap fun s => s.test :: s.body ++ (if s.jumps then [{ op := .jump stop }] else [])

def Segment.length (segments : List Segment) : Nat := (Segment.code 0 segments).length

open Build in
mutual

/-- The instructions of a block that stands at `pc`. -/
def compileBlock (out : Out) (pc : Nat) : List Plan → Build (List Instr)
  | [] => pure []
  | p :: rest => do
    let code ← compilePlan out pc p
    let later ← compileBlock out (pc + code.length) rest
    return code ++ later

def compilePlan (out : Out) (pc : Nat) : Plan → Build (List Instr)
  | .text s => return if s.isEmpty then [] else [{ op := .text out s }]
  | .print e ds => do
    let ((e, fs), _, x) ← step none fun _ => do
      let e ← expr e
      let fs ← filters ds
      return (e, fs)
    return [{ op := .print out e fs, extent := some x }]
  | .cond branches otherwise => do
    let check ← checkLimit
    let segments ← compileBranches out (!otherwise.isEmpty) (pc + 1) branches
    let here := pc + 1 + Segment.length segments
    let last ← orNothing otherwise.isEmpty (compileBlock out here otherwise)
    return check :: Segment.code (here + last.length) segments ++ last
  | .switch subject cases default => do
    let check ← checkLimit
    inScope do
      let slot ← onSlots fun s => .ok (s.synthetic "switch" .value)
      let (e, _, x) ← step none fun _ => expr subject
      let segments ← compileCases out slot (pc + 2) cases
      let here := pc + 2 + Segment.length segments
      let last ← compileDefault out here default
      let store : Instr := { op := .store slot .value e, extent := some x }
      return check :: store :: Segment.code (here + last.length) segments ++ last
  | .forRange var start stop stride source body => do
    let check ← checkLimit
    inScope do
      let base ← alloc var .int
      let _ ← onSlots (·.block "" .int 2)
      let ((start, stop, stride), _, x) ← step none fun _ => do
        let start ← optional start
        let stop ← expr stop
        let stride ← optional stride
        return (start, stop, stride)
      Build.bind var { slot := base, kind := .int }
      let head := pc + 2
      let pause ← loopCheck source
      let code ← inScope (compileBlock out (head + 1 + pause.length) body)
      let stopAt := head + 1 + pause.length + code.length + 1
      return check :: { op := .rangeInit base start stop stride, extent := some x }
        :: { op := .rangeNext base stopAt } :: pause ++ code ++ [{ op := .rangeStep base head }]
  | .forEach var list source body ifEmpty => do
    let check ← checkLimit
    inScope do
      let base ← alloc var .value
      let _ ← onSlots (·.block "" .int 2)
      let (e, _, x) ← step none fun _ => expr list
      Build.bind var { slot := base, kind := .value, loop := some (base + 1, base + 2) }
      let head := pc + 2
      let pause ← loopCheck source
      let code ← inScope (compileBlock out (head + 1 + pause.length) body)
      let emptyAt := head + 1 + pause.length + code.length + 1
      let last ← orNothing ifEmpty.isEmpty (compileBlock out emptyAt ifEmpty)
      return check :: { op := .eachInit base e emptyAt, extent := some x }
        :: { op := .eachNext base (emptyAt + last.length) } :: pause ++ code
        ++ { op := .eachStep base head } :: last
  | .eager name e => do
    let kind := slotKindOf e.type
    let slot ← alloc name kind
    let (c, _, x) ← step none fun _ => expr e
    Build.bind name { slot, kind }
    return [{ op := .store slot kind c, extent := some x }]
  | .deferred name e => do
    let slot ← alloc name .thunk
    let scope : Expr.Scope := { analyzer := ← read, locals := (← get).locals }
    let code ← liftM (ThunkCode.compile scope e)
    Build.bind name { slot, kind := .thunk }
    return [{ op := .storeThunk slot code }]
  | .content name kind body => do
    let slot ← alloc name .value
    let code ← buffered pc slot kind fun out pc => compileBlock out pc body
    Build.bind name { slot, kind := .value }
    return code
  | .stream kind body ds =>
    inScope do
      let slot ← alloc "" .sink
      let (fs, _, x) ← step none fun _ => filters ds
      let code ← compileBlock (.cell slot) (pc + 1) body
      return { op := .beginWrap out slot kind fs, extent := some x } :: code ++
        [{ op := .endWrap slot }]
  | .call callee target data params ds => do
    let check ← checkLimit
    inScope do
      let (slots, code) ← compileContents (pc + 1) params
      let ((site, fs), slot, x) ← step (some .renderer) fun _ => do
        let whom ← Build.callee target
        let passed ← Build.passed data
        let args ← compileArguments params slots
        let fs ← filters ds
        return ({ name := callee, callee := whom, passed, args : CallSite }, fs)
      return check :: code ++ [{ op := .call out slot site fs, extent := some x }]
  | .log body =>
    inScope do
      let slot ← alloc "" .buffer
      let code ← compileBlock (.cell slot) (pc + 1) body
      return { op := .beginBuffer slot } :: code ++ [{ op := .log slot }]

def compileBranches (out : Out) (more : Bool) (pc : Nat) : List (Expr × List Plan) →
    Build (List Segment)
  | [] => pure []
  | (c, body) :: rest => do
    let (e, _, x) ← step none fun _ => expr c
    let code ← inScope (compileBlock out (pc + 1) body)
    let jumps := !rest.isEmpty || more
    let next := pc + 1 + code.length + (if jumps then 1 else 0)
    let later ← compileBranches out more next rest
    return { test := { op := .jumpIfFalse e next, extent := some x }, body := code, jumps } :: later

def compileCases (out : Out) (slot pc : Nat) : List (List Expr × List Plan) → Build (List Segment)
  | [] => pure []
  | (values, body) :: rest => do
    let (vs, _, x) ← step none fun _ => exprs values
    let code ← inScope (compileBlock out (pc + 1) body)
    let next := pc + 1 + code.length + 1
    let later ← compileCases out slot next rest
    return { test := { op := .caseMatch slot vs next, extent := some x }, body := code,
             jumps := true } :: later

def compileDefault (out : Out) (pc : Nat) : Option (List Plan) → Build (List Instr)
  | none => pure []
  | some body => inScope (compileBlock out pc body)

/-- Renders the content params of a call, and tells the cell of each param; values have none. -/
def compileContents (pc : Nat) : List (CallParam (List Plan)) →
    Build (List (Option Nat) × List Instr)
  | [] => pure ([], [])
  | .value .. :: rest => do
    let (slots, code) ← compileContents pc rest
    return (none :: slots, code)
  | .content _ kind body :: rest => do
    let slot ← alloc "" .value
    let code ← buffered pc slot kind fun out pc => compileBlock out pc body
    let (slots, later) ← compileContents (pc + code.length) rest
    return (some slot :: slots, code ++ later)

/-- The arguments of a call. -/
def compileArguments : List (CallParam (List Plan)) → List (Option Nat) → Build (List Argument)
  | .content name _ _ :: rest, slot :: slots => do
    return .content name (slot.getD 0) :: (← compileArguments rest slots)
  | .value name e :: rest, _ :: slots => do
    let arg ← argument name e
    return arg :: (← compileArguments rest slots)
  | _, _ => pure []

end

/-- The code of a param's default, and the number of cells it needs. -/
def paramDefault (analyzer : Analyzer) : Option Expr → Except Failure (Option (Compiled × Nat))
  | none => .ok none
  | some e => do
    let (c, slots) ← e.compile { analyzer, locals := Locals.empty } Slots.new
    return some (c, slots.size)

/-- The params of a template. A name may be declared once, and once more as injected. -/
def compileParams (analyzer : Analyzer) : List String → List Param → Except Failure (List ParamDecl)
  | _, [] => .ok []
  | seen, p :: rest =>
    let key := if p.injected then "$ij." ++ p.name else p.name
    if seen.contains key then .error (Failure.duplicateSlot p.name)
    else do
      let default ← paramDefault analyzer p.default
      let later ← compileParams analyzer (key :: seen) rest
      return { name := p.name, type := p.type, required := p.required, injected := p.injected,
               default } :: later

/-- The instructions of a body. A pause is possible before the first of them. -/
def compileBody (body : List Plan) : Build (List Instr) := do
  let check ← Build.checkLimit
  let code ← compileBlock .sink 1 body
  return check :: code

/-- The program of a template. -/
def ofTemplate (analyzer : Analyzer) (t : Template) : Except Failure Program := do
  let params ← compileParams analyzer [] t.params
  let (code, b) ← (compileBody (Plan.ofBlock t.body) analyzer).run {}
  return { name := t.name, kind := t.kind, source := t.source, delegate := t.delegate, params,
           code := code.toArray, size := b.slots.size }

/-- Compiles a template; a failure names it. -/
def compile (analyzer : Analyzer) (t : Template) : Except Failure Program :=
  (ofTemplate analyzer t).mapError (·.within t.name)

end Program

end Interlude
