import Interlude.Term.Eval
/-!
# What evaluations visit

The reads of an evaluation, in order: the futures it asks for their values, the one it waits for,
the deferred values it evaluates, and the operands it passes over. A visit is told by the path of a
node from the root of its code, and by the deferred value whose code that is, if it is one's. A path
is a list of positions among operands, so a node below another has the other's path as its first
part.

Visits are told apart from evaluation, by the memory it starts in, and follow it step by step
(`Term.visits`).
-/

namespace Interlude

/-- What happens at a node. -/
inductive Visit.Kind where
  | resolved (id : FutureId)
  | awaited (id : FutureId)
  | forced (id : ThunkId)
  | skipped
deriving DecidableEq, Repr

/-- A node that is visited: of the code at hand, or of the deferred value `frame`. -/
structure Visit where
  kind : Visit.Kind
  path : List Nat := []
  frame : Option ThunkId := none
deriving DecidableEq, Repr

namespace Visit

/-- The node, whatever happens there. -/
def site (v : Visit) : Option ThunkId × List Nat := (v.frame, v.path)

/-- Whether a future is asked for its value. -/
def resolves (v : Visit) : Bool :=
  match v.kind with
  | .resolved _ => true
  | _ => false

/-- Whether something is read, be it there or not. -/
def reads (v : Visit) : Bool := v.kind != .skipped

/-- A visit to an operand, seen from the node whose operand number `i` it is. -/
def inOperand (i : Nat) (v : Visit) : Visit :=
  match v.frame with
  | none => { v with path := i :: v.path }
  | some _ => v

/-- A visit to the code of a deferred value, seen from outside. -/
def inThunk (id : ThunkId) (v : Visit) : Visit :=
  match v.frame with
  | none => { v with frame := some id }
  | some _ => v

end Visit

/-- What reading through at most `fuel` futures asks. -/
def Futures.asksFrom (fs : Futures) : Nat → Value → List Visit.Kind
  | fuel + 1, .future id =>
    match fs.get id with
    | .pending => [.awaited id]
    | .complete v => .resolved id :: fs.asksFrom fuel v
    | .failed _ => [.resolved id]
  | _, _ => []

/-- What reading through futures asks. -/
def Futures.asks (fs : Futures) (v : Value) : List Visit.Kind := fs.asksFrom (fs.states.size + 1) v

/-- The visits of an evaluation, by the environment and the memory it starts in. -/
abbrev Trace := Env → Memory → List Visit

namespace Trace

def silent : Trace := fun _ _ => []

/-- One evaluation after another: the second is not begun if the first stops. -/
def andThen {α : Type} (first : Trace) (x : Eval α) (next : α → Trace) : Trace := fun env m =>
  first env m ++
    match x env m with
    | .ok a m' => next a env m'
    | .error _ _ => []

/-- The visits to operand number `i`. -/
def operand (i : Nat) (tr : Trace) : Trace := fun env m => (tr env m).map (·.inOperand i)

/-- Operand number `i` is passed over. -/
def skip (i : Nat) : Trace := fun _ _ => [{ kind := .skipped, path := [i] }]

/-- One operand is evaluated and another passed over. -/
def instead (skipped i : Nat) (tr : Trace) : Trace := fun env m =>
    skip skipped env m ++ operand i tr env m

/-- A value is read through futures. -/
def read (v : Value) : Trace := fun _ m => (m.heap.futures.asks v).map fun k => { kind := k }

/-- A part that is there is read. -/
def part : Option Value → Trace
  | some v => read v
  | none => silent

/-- The field of a value is read. -/
def field (v : Value) (name : String) : Trace :=
  match v with
  | .record _ fields => part (Value.field? fields name)
  | .map _ entries => part (Value.entry? entries (.str name))
  | _ => silent

/-- The item of a value is read. -/
def item (v key : Value) : Trace :=
  match v with
  | .list _ items =>
    match Eval.listIndex key with
    | .ok i => read (Value.itemAt items i)
    | .error _ => silent
  | .map _ entries => part (Value.entry? entries key)
  | .record _ fields =>
    match key.toStr? with
    | .ok name => part (Value.field? fields name)
    | .error _ => silent
  | _ => silent

/-- Values are read one after the other and written as text. -/
def texts : List Value → Trace
  | [] => silent
  | v :: rest => (read v).andThen (Eval.resolve v >>= Eval.text) fun _ => texts rest

/-- A function is applied. Only one of them reads. -/
def call (f : Function) (args : List Value) : Trace :=
  match f, args with
  | .join, [.list _ items, _] => texts items
  | _, _ => silent

/-- The result of an operand is kept in a cell: the operand is left alone once there is one. -/
def kept (slot : Nat) (tr : Trace) : Trace := fun env m =>
  match (m.cells.read slot).value? with
  | some _ => []
  | none => operand 0 tr env m

end Trace

/-- The visits of reading a local. -/
def Binding.visits (forced : ThunkId → Trace) (b : Binding) : Trace := fun env m =>
  match b.loop with
  | some (index, _) =>
    match m.cells.read b.slot with
    | .value (.list _ items) => Trace.read (Value.itemAt items (m.cells.read index).int) env m
    | _ => []
  | none =>
    match b.kind, m.cells.read b.slot with
    | .thunk, .thunk id => { kind := .forced id } :: forced id env m
    | _, _ => []

section

variable (force : ThunkId → Eval Value) (forced : ThunkId → Trace)

/-- The visits of a term that stands at a place of its expression. Deferred values are evaluated by
`force`, and `forced` tells the visits of that. -/
def Term.visits : {f : Form} → (place : List Nat) → Term f → Trace
  | _, _, const _ _ | _, _, constInt _ | _, _, constFloat _ | _, _, constBool _ | _, _, constStr _
  | _, _, cellInt _ | _, _, cellFloat _ | _, _, cellBool _ | _, _, cellStr _ | _, _, isFirst _
  | _, _, isLast _ _ | _, _, nil | _, _, noEntries => .silent
  | _, _, param name injected => fun env m =>
    match (if injected then env.injected else env.params).lookup name with
    | some v => Trace.read v env m
    | none => []
  | _, _, .local b => b.visits forced
  | _, p, boxInt x | _, p, boxFloat x | _, p, boxBool x | _, p, boxStr x | _, p, unboxInt x
  | _, p, unboxFloat x | _, p, widen x | _, p, truthy x | _, p, textOfInt x | _, p, textOfFloat x
  | _, p, textOfBool x | _, p, text x | _, p, .not x | _, p, negInt x | _, p, negFloat x
  | _, p, neg x => .operand 0 (x.visits p)
  | _, p, arithInt _ x y | _, p, arithFloat _ x y | _, p, arith _ x y | _, p, concat x y
  | _, p, compareInt _ x y | _, p, compareFloat _ x y | _, p, compareStr _ x y | _, p, compare _ x y
  | _, p, cons x y =>
    (Trace.operand 0 (x.visits (0 :: p))).andThen (x.eval (.keeping force) (0 :: p)) fun _ =>
      .operand 1 (y.visits (1 :: p))
  | _, p, both x y =>
    (Trace.operand 0 (x.visits (0 :: p))).andThen (x.eval (.keeping force) (0 :: p)) fun a : Bool =>
      if a then .operand 1 (y.visits (1 :: p)) else .skip 1
  | _, p, either x y =>
    (Trace.operand 0 (x.visits (0 :: p))).andThen (x.eval (.keeping force) (0 :: p)) fun a : Bool =>
      if a then .skip 1 else .operand 1 (y.visits (1 :: p))
  | _, p, coalesce x y =>
    (Trace.operand 0 (x.visits (0 :: p))).andThen (x.eval (.keeping force) (0 :: p))
        fun a : Value =>
      if a.isNullish then .operand 1 (y.visits (1 :: p)) else .skip 1
  | _, p, cond c x y =>
    (Trace.operand 0 (c.visits (0 :: p))).andThen (c.eval (.keeping force) (0 :: p)) fun b : Bool =>
      if b then .instead 2 1 (x.visits (1 :: p)) else .instead 1 2 (y.visits (2 :: p))
  | _, p, field x name _ =>
    (Trace.operand 0 (x.visits p)).andThen (x.eval (.keeping force) p) fun v => .field v name
  | _, p, item x key _ =>
    (Trace.operand 0 (x.visits (0 :: p))).andThen (x.eval (.keeping force) (0 :: p))
        fun v : Value =>
      if v.isNullish then .skip 1
      else (Trace.operand 1 (key.visits (1 :: p))).andThen (key.eval (.keeping force) (1 :: p))
        fun k => .item v k
  | _, p, list x | _, p, map x | _, p, record _ x => .operand 0 (x.visits (0 :: p))
  | _, p, call f args =>
    (Trace.operand 0 (args.visits (0 :: p))).andThen (args.eval (.keeping force) (0 :: p)) fun vs =>
      .call f vs
  | _, p, memo slot x => .kept slot (x.visits p)
  | _, p, entry key x rest =>
    (Trace.operand 0 (key.visits (0 :: p))).andThen (key.eval (.keeping force) (0 :: p))
        fun k : Value =>
      (Trace.operand 1 (x.visits (1 :: p))).andThen (x.eval (.keeping force) (1 :: p)) fun _ =>
        match MapKey.ofValue? k with
        | none => .silent
        | some _ => .operand 2 (rest.visits (2 :: p))

/-- The visits of evaluating a deferred value, if it has not been. -/
def Thunk.visits (id : ThunkId) : Trace := fun _ m =>
  match m.heap.thunks[id]? with
  | none => []
  | some t =>
    match t.result with
    | some _ => []
    | none =>
      (t.code.root.toBoxed.visits force forced [] t.env { m with cells := t.cells }).map
        (·.inThunk id)

end

/-- The visits of evaluating one of the first `count` deferred values. -/
def Thunk.visitsBelow : (count : Nat) → ThunkId → Trace
  | 0, _ => .silent
  | count + 1, id =>
    if id = count then visits (forceBelow count) (visitsBelow count) id else visitsBelow count id

/-- The visits of evaluating an expression for its boxed result. -/
def Compiled.visits (c : Compiled) (place : List Nat) : Trace :=
  c.root.toBoxed.visits Thunk.force (fun id => Thunk.visitsBelow (id + 1) id) place

end Interlude
