import Interlude.Proofs.Direct.Operand
import Interlude.Proofs.Output
/-!
# Plans run directly

A plan can be run as it stands, without slots, cells and jumps: locals are kept by name, a deferred
one as the evaluation that it stands for, and a loop runs its body once for every item
(`Direct.plan`). What is left of the machine are the numbers that evaluations go by, what the sinks
hold, and the messages that were logged.
-/

namespace Interlude

namespace Reading

/-- No local is known. -/
def none : Reading := { var := fun _ => pure .undefined, loop := fun _ => pure (0, 0) }

/-- A name stands for what an evaluation comes to, and for a loop at an index. -/
def bindLoop (r : Reading) (name : String) (x : Eval Value) (index length : Int64) : Reading :=
  { r with
    var := fun n => if n == name then x else r.var n
    loop := fun n => if n == name then pure (index, length) else r.loop n }

/-- A name stands for what an evaluation comes to. -/
def bind (r : Reading) (name : String) (x : Eval Value) : Reading := r.bindLoop name x 0 0

/-- The variable of a loop stands for the item at an index. -/
def bindItem (r : Reading) (name : String) (items : List Value) (index : Int64) : Reading :=
  r.bindLoop name (Eval.resolve (Value.itemAt items index)) index (Int64.ofNat items.length)

end Reading

namespace Direct

/-- What a run changes: the next number, what the sinks hold, and the messages so far. -/
structure World where
  fresh : Identity
  streams : Streams
  log : List Log.Entry

/-- What a run has in common: the templates, the futures, and what the host tells. -/
structure Setup where
  templates : Directory Template
  futures : Futures
  context : Context

/-- What a template was given: its params with defaults filled in, injected data, and the data as it
was given. -/
structure Scene where
  template : String
  params : List (String × Value)
  injected : List (String × Value)
  data : List (String × Value)

/-- A run: it changes the world and may stop. -/
abbrev Act := EStateM Stop World

namespace Act

def fail (cause : Failure) : Act α := throw (.failed cause)

def ofExcept : Except Failure α → Act α
  | .ok a => pure a
  | .error e => fail e

/-- Evaluates under the next number. -/
def eval (futures : Futures) (env : Env) (x : Eval α) : Act α := fun w =>
  let after := { w with fresh := w.fresh + 1 }
  match x { env with maker := w.fresh } { cells := #[], heap := { futures } } with
  | .ok a _ => .ok a after
  | .error e _ => .error e after

/-- Runs an operation on sinks; if it fails, the sink is to blame. -/
def onSink (f : Streams → Except Failure α × Streams) : Act α := fun w =>
  match f w.streams with
  | (.ok a, streams) => .ok a { w with streams }
  | (.error e, streams) => .error (.failed (Failure.sink e)) { w with streams }

def write (sink : Sink) (s : String) : Act Unit := onSink (·.append sink s)

/-- Puts the stages of filters before a sink, for output of a kind. -/
def wrap (futures : Futures) (chain : List (Filter × List Value)) (kind : ContentKind)
    (sink : Sink) : Act Sink := do
  let stages ← ofExcept (Filter.stages futures chain kind)
  modifyGet fun w =>
    let (entry, streams) := w.streams.wrap stages sink
    (entry, { w with streams })

/-- Closes the first stages of a sink. -/
def close (entry : Sink) (stages : Nat) : Act Unit := onSink (·.closeAll (entry.stages stages))

def newBuffer : Act BufferId := modifyGet fun w =>
  let (id, streams) := w.streams.newBuffer
  (id, { w with streams })

/-- Runs what writes into a buffer of its own. -/
def gather (body : Sink → Act Unit) : Act BufferId := do
  let id ← newBuffer
  body (.buffer id)
  return id

/-- Collects what a run writes. -/
def collect (body : Sink → Act Unit) : Act String := do
  let id ← gather body
  return (← get).streams.bufferText id

def log (e : Log.Entry) : Act Unit := modify fun w => { w with log := w.log ++ [e] }

/-- Runs the body of a template. A failure names the template, and a body that waits flushes the
sink first. -/
def within (template : String) (sink : Sink) (x : Act α) : Act α := fun w =>
  match x w with
  | .error (.failed cause) w => .error (.failed (cause.within template)) w
  | .error (.waiting id) w =>
    match w.streams.flush sink with
    | (.ok _, streams) => .error (.waiting id) { w with streams }
    | (.error e, streams) => .error (.failed ((Failure.sink e).within template)) { w with streams }
  | r => r

end Act

/-- The numbers of a range that is bounded and no overflow. -/
def numbers (start stop step : Int64) : List Int64 :=
  let count := (stop.toInt - start.toInt + step.toInt - 1) / step.toInt
  (List.range count.toNat).map fun k : Nat => Int64.ofInt (start.toInt + k * step.toInt)

/-- The indices of that many items. -/
def indices (length : Nat) : List Int64 :=
  (List.range (Int64.ofNat length).toInt.toNat).map Int64.ofNat

/-! ## Params -/

/-- The value of a param that was not given: its default, else undefined. -/
def absent (futures : Futures) (template : String) (p : Param) (env : Env) : Act Value :=
  if p.required then Act.fail (Failure.missingParam template p.name)
  else
    match p.default with
    | none => pure .undefined
    | some e => fun w =>
      match Act.eval futures env (e.eval .none []) w with
      | .ok v w => .ok v w
      | .error (.failed e) w => .error (.failed (e.within template)) w
      | .error _ w => .error (.failed ((ParamDecl.pendingDefault p.name).within template)) w

/-- Completes params and injected data with the values of declared params that were not given. -/
def bindParams (su : Setup) (template : String) (params injected : List (String × Value)) :
    List Param → Act (List (String × Value) × List (String × Value))
  | [] => pure (params, injected)
  | p :: rest =>
    match (if p.injected then injected else params).lookup p.name with
    | some _ => bindParams su template params injected rest
    | none => do
      let v ← absent su.futures template p { params, injected, context := su.context }
      if p.injected then bindParams su template params ((p.name, v) :: injected) rest
      else bindParams su template ((p.name, v) :: params) injected rest

/-! ## Statements -/

/-- What a call does: runs a template on params and injected data, writing to a sink. -/
abbrev Caller := Template → List (String × Value) → List (String × Value) → Sink → Act Unit

/-- Where the output of a callee goes: on as it is, through the stages of the filters, or into a
buffer if a filter has no stage. Tells the sink, the number of stages, and the buffer. -/
def placed (su : Setup) (h : Handover) (sink : Sink) : Act (Sink × Nat × Option BufferId) :=
  if h.chain.isEmpty then pure (sink, 0, none)
  else if h.chain.all (·.1.streams) then do
    let entry ← Act.wrap su.futures h.chain h.template.kind sink
    return (entry, h.chain.length, none)
  else do
    let id ← Act.newBuffer
    return (.buffer id, 0, some id)

/-- Ends a call: closes its stages, or filters what the callee put into the buffer. -/
def finished (su : Setup) (h : Handover) (sink : Sink) : Sink × Nat × Option BufferId → Act Unit
  | (entry, stages, none) => Act.close entry stages
  | (_, _, some id) => do
    let s := (← get).streams.bufferText id
    let v ← Act.ofExcept (Filter.applyAll su.futures h.chain (Value.ofContent h.template.kind s))
    Act.write sink (v.text su.futures)

/-- Runs the callee of a call between its filters, unless the call goes nowhere. -/
def carryOut (su : Setup) (call : Caller) (injected : List (String × Value)) (sink : Sink) :
    Option Handover → Act Unit
  | none => pure ()
  | some h => do
    let place ← placed su h sink
    call h.template h.params injected place.1
    finished su h sink place

section

variable (su : Setup) (call : Caller) (scene : Scene)

/-- The environment of evaluations. -/
def Scene.env (su : Setup) (scene : Scene) : Env :=
  { params := scene.params, injected := scene.injected, context := su.context }

/-- Evaluates in the environment of a scene. -/
def Scene.eval (x : Eval α) : Act α := Act.eval su.futures (scene.env su) x

/-- A deferred value: it is evaluated at every use, in the environment and under the number it was
made with. -/
def Scene.defer (x : Eval Value) : Act (Eval Value) := fun w =>
  let env := { scene.env su with maker := w.fresh }
  .ok (Eval.onCells #[] env x fun _ heap => heap) { w with fresh := w.fresh + 1 }

/-- Puts the stages of directives before a sink, and tells their number. -/
def opened (r : Reading) (sink : Sink) (kind : ContentKind) (ds : List Directive) :
    Act (Sink × Nat) := do
  let chain ← scene.eval su (chain r [] ds)
  let entry ← Act.wrap su.futures chain kind sink
  return (entry, chain.length)

mutual

/-- Runs a plan that writes to a sink, and tells the locals after it. -/
def plan (r : Reading) (sink : Sink) : Plan → Act Reading
  | .text s => do
    if !s.isEmpty then Act.write sink s
    return r
  | .print e ds => do
    let s ← scene.eval su (printed r e ds)
    Act.write sink s
    return r
  | .cond branches otherwise => do
    firstBranch r sink (block r sink otherwise) branches
    return r
  | .switch subject cases default => do
    let v ← scene.eval su (subject.eval r [])
    firstCase r sink v (optional r sink default) cases
    return r
  | .forRange var start stop step _ body => do
    let (start, stop, step) ← scene.eval su (range r start stop step)
    (numbers start stop step).forM fun i => block (r.bind var (pure (.int i))) sink body
    return r
  | .forEach var list _ body ifEmpty => do
    let xs ← scene.eval su (items r list)
    if xs.isEmpty then block (r.bindItem var xs 0) sink ifEmpty
    else (indices xs.length).forM fun i => block (r.bindItem var xs i) sink body
    return r
  | .eager name e => do
    let v ← scene.eval su (converted (Program.slotKindOf e.type) (e.eval r []))
    return r.bind name (pure v)
  | .deferred name e => do
    let x ← scene.defer su (e.eval r [])
    return r.bind name x
  | .content name kind body => do
    let s ← Act.collect fun sink => block r sink body
    return r.bind name (pure (Value.ofContent kind s))
  | .stream kind body ds => do
    let (entry, stages) ← opened su scene r sink kind ds
    block r entry body
    Act.close entry stages
    return r
  | .call callee target data params ds => do
    let contents ← contents r params
    let found ← scene.eval su
      (dispatch su.templates r scene.data callee target data params contents ds)
    carryOut su call scene.injected sink found
    return r
  | .log body => do
    let s ← Act.collect fun sink => block r sink body
    Act.log { level := .info, message := s, fields := [("template", .str scene.template)] }
    return r

/-- Runs a block; its locals end with it. -/
def block (r : Reading) (sink : Sink) : List Plan → Act Unit
  | [] => pure ()
  | p :: rest => do
    let r ← plan r sink p
    block r sink rest

def firstBranch (r : Reading) (sink : Sink) (otherwise : Act Unit) :
    List (Expr × List Plan) → Act Unit
  | [] => otherwise
  | (c, body) :: rest => do
    if ← scene.eval su (bool (c.eval r [])) then block r sink body
    else firstBranch r sink otherwise rest

def firstCase (r : Reading) (sink : Sink) (subject : Value) (otherwise : Act Unit) :
    List (List Expr × List Plan) → Act Unit
  | [] => otherwise
  | (values, body) :: rest => do
    if ← scene.eval su (anyEqual r subject [] values) then block r sink body
    else firstCase r sink subject otherwise rest

def optional (r : Reading) (sink : Sink) : Option (List Plan) → Act Unit
  | none => pure ()
  | some body => block r sink body

/-- Renders the content params of a call; values have no content. -/
def contents (r : Reading) : List (CallParam (List Plan)) → Act (List (Option Value))
  | [] => pure []
  | .value .. :: rest => do
    let later ← contents r rest
    return none :: later
  | .content _ kind body :: rest => do
    let s ← Act.collect fun sink => block r sink body
    let later ← contents r rest
    return some (Value.ofContent kind s) :: later

end

end

/-- Starts a template: its params are bound, then it is run. -/
def start (su : Setup) (run : Template → Scene → Sink → Act Unit) : Caller :=
    fun t params injected sink => do
  let (bound, inj) ← bindParams su t.name params injected t.params
  run t { template := t.name, params := bound, injected := inj, data := params } sink

/-- Runs the body of a template, with calls less than `depth` deep. -/
def run (su : Setup) : Nat → Template → Scene → Sink → Act Unit
  | 0, _, _, _ => throw .exhausted
  | depth + 1, t, scene, sink =>
    Act.within t.name sink
      (block su (start su (run su depth)) scene .none sink (Plan.ofBlock t.body))

/-- Renders a template. -/
def render (su : Setup) (depth : Nat) : Caller := start su (run su depth)

end Direct

end Interlude
