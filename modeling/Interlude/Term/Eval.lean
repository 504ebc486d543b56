import Interlude.Term.Operator
import Interlude.Text.Search
import Interlude.Value.Text
import Interlude.Term.Lower
import Interlude.Frame.Cell
import Interlude.Context
/-!
# Evaluation

Terms run against cells and a heap of pending and deferred values. An evaluation ends with a
result, with a failure, or at a pending value; in every case the cells keep what was computed, so
running the same term again goes on where it stopped.
-/

namespace Interlude

/-- What a term of each form computes. -/
abbrev Form.carrier : Form → Type
  | boxed => Value
  | int => Int64
  | float => Float
  | bool => Bool
  | str => String
  | values => List Value
  | entries => List (Value × Value)

/-- What an evaluation only reads; `maker` is the number it goes by. -/
structure Env where
  params : List (String × Value)
  injected : List (String × Value)
  context : Context
  maker : Identity := 0

/-- A deferred value: evaluated once to the end, at its first use, on cells of its own and in the
environment it was made in. -/
structure Thunk where
  code : Compiled
  cells : Cells
  env : Env
  result : Option Value := none

/-- The pending and deferred values of a render, and the next fresh identity. It is `blurred` once
the text was taken of a value that holds a future: such a text tells how far the future was. -/
structure Heap where
  futures : Futures := {}
  fresh : Identity := 0
  thunks : Array Thunk := #[]
  blurred : Bool := false
deriving Inhabited

/-- What an evaluation may change. -/
structure Memory where
  cells : Cells
  heap : Heap

/-- Why an evaluation ended without a result. One that is `exhausted` reads through futures without
end; one that is `broken` met a cell of a form its code does not expect. -/
inductive Stop where
  | failed (cause : Failure)
  | waiting (id : FutureId)
  | exhausted
  | broken

/-- Evaluations: they read an environment, change memory and may stop. -/
abbrev Eval := ReaderT Env (EStateM Stop Memory)

namespace Eval

def fail (cause : Failure) : Eval α := throw (.failed cause)

def ofExcept : Except Failure α → Eval α
  | .ok a => pure a
  | .error e => fail e

def cell (i : Nat) : Eval Cell := return (← get).cells.read i

def setCell (i : Nat) (c : Cell) : Eval Unit :=
  modify fun m => { m with cells := m.cells.write i c }

/-- The origin of what is made at a place. -/
def origin (place : List Nat) : Eval Origin := return ⟨(← read).maker, place⟩

/-- Reads through futures; stops at one that is pending. -/
def resolve (v : Value) : Eval Value := do
  match v with
  | .future id =>
    let read ← modifyGet fun m =>
      let (read, fs) := m.heap.futures.resolve (.future id)
      (read, { m with heap := { m.heap with futures := fs } })
    match read with
    | .value v => pure v
    | .waiting id => throw (.waiting id)
    | .failed cause => fail (Failure.futureFailed cause)
    | .endless => throw .exhausted
  | v => pure v

/-- Notes that the text of a value is taken. -/
def blur (v : Value) : Eval Unit :=
  modify fun m => { m with heap := { m.heap with blurred := m.heap.blurred || v.holdsFuture } }

/-- The text of a value. -/
def text (v : Value) : Eval String := do
  blur v
  return v.text (← get).heap.futures

def newList (place : List Nat) (items : List Value) : Eval Value :=
    return .list (← origin place) items

/-- Runs an evaluation on other cells and in another environment, gives the cells back however it
ends, and restores the own. -/
def onCells (cells : Cells) (env : Env) (act : Eval α) (keep : Cells → Heap → Heap) :
    Eval α := fun _ m =>
  match act env { m with cells := cells } with
  | .ok a inner => .ok a { cells := m.cells, heap := keep inner.cells inner.heap }
  | .error e inner => .error e { cells := m.cells, heap := keep inner.cells inner.heap }

/-- Runs an evaluation; a failure inside is reported as `change` says. -/
def mapFailure (change : Failure → Failure) (act : Eval α) : Eval α := fun env m =>
  match act env m with
  | .error (.failed cause) m => .error (.failed (change cause)) m
  | r => r

/-- The value in a cell; if there is none yet, runs `act` and puts its result there. -/
def kept (slot : Nat) (act : Eval Value) : Eval Value := do
  match (← cell slot).value? with
  | some v => return v
  | none =>
    let v ← act
    setCell slot (.value v)
    return v

/-- Concatenates if either value is text, adds numbers otherwise. -/
def add (a b : Value) : Eval Value :=
  if a.stringLike?.isSome || b.stringLike?.isSome then do
    let x ← text a
    let y ← text b
    return .str (x ++ y)
  else ofExcept (Arith.add.values a b)

def arith (op : Arith) (a b : Value) : Eval Value :=
  match op with
  | .add => add a b
  | op => ofExcept (op.values a b)

/-! ## Access -/

def nullDereference (what : String) : Failure :=
  .fault (Failure.data .nullDereference ("cannot read " ++ what ++ " of null"))

/-- A part that is there, read through futures; an absent one is undefined. -/
def part (v : Option Value) : Eval Value :=
  match v with
  | some v => resolve v
  | none => pure .undefined

/-- The field of a record or the entry of a map. -/
def field (v : Value) (name : String) (nullSafe : Bool) : Eval Value :=
  match v with
  | .record _ fields => part (Value.field? fields name)
  | .map _ entries => part (Value.entry? entries (.str name))
  | v =>
    if v.isNullish then
      if nullSafe then pure .null else fail (nullDereference ("field " ++ Text.quote name))
    else fail ((Failure.cast Kind.record.name v.kind.name).mapFault (·.detail "field" name))

/-- The index a key stands for: an integer, or a number that is one. -/
def listIndex : Value → Except Failure Int64
  | .int i => .ok i
  | .float f =>
    if f == (if f < 0 then f.ceil else f.floor) && -9223372036854775808.0 ≤ f && f <
        9223372036854775808.0 then
      .ok f.toInt64
    else .error (Failure.cast Kind.int.name Kind.float.name)
  | k => .error (Failure.cast Kind.int.name k.kind.name)

/-- The item of a list, map or record that is not null. -/
def item (v key : Value) : Eval Value :=
  match v with
  | .list _ items => do
    let i ← ofExcept (listIndex key)
    resolve (Value.itemAt items i)
  | .map _ entries => part (Value.entry? entries key)
  | .record _ fields => do
    let name ← ofExcept key.toStr?
    part (Value.field? fields name)
  | v => fail (Failure.cast "list or map" v.kind.name)

/-! ## Functions -/

/-- Reads each item through futures and writes it as text. -/
def texts : List Value → Eval (List String)
  | [] => pure []
  | v :: rest => do
    let item ← resolve v
    let s ← text item
    return s :: (← texts rest)

/-- Rounds to a number of decimal places; no places or fewer give an integer. -/
def round (f : Float) (digits : Int64) : Value :=
  if digits ≤ 0 then
    let scale := if digits == Int64.minValue then 0.0 else Number.powerOfTen (-digits.toInt).toNat
    .int (Number.roundHalfUp (f / scale) * scale).toInt64
  else
    let scale := Number.powerOfTen digits.toInt.toNat
    .float (Number.roundHalfUp (f * scale) / scale)

def concat : List Value → Except Failure (List Value)
  | [] => .ok []
  | .list _ items :: rest => return items ++ (← concat rest)
  | v :: _ => .error (Failure.cast Kind.list.name v.kind.name)

/-- The smaller or greater of two numbers; two integers stay integers. -/
def extreme (ints : Int64 → Int64 → Int64) (floats : Float → Float → Float) (a b : Value) :
    Except Failure Value :=
  match a, b with
  | .int x, .int y => .ok (.int (ints x y))
  | a, b => do
    let (x, y) ← Arith.numbers a b
    return .float (floats x y)

/-- A number cut to an integer; an integer stays as it is. -/
def integral (cut : Float → Float) : Value → Except Failure Value
  | .int i => .ok (.int i)
  | v => return .int (cut (← v.toFloat?)).toInt64

/-- Applies a function to as many arguments as it accepts. -/
def apply (place : List Nat) (f : Function) (args : List Value) : Eval Value :=
  match f, args with
  | .length, [.list _ items] => pure (.int (Int64.ofNat items.length))
  | .length, [.map _ entries] => pure (.int (Int64.ofNat entries.length))
  | .length, [v] => fail (Failure.cast Kind.list.name v.kind.name)
  | .keys, [.map _ entries] => newList place (entries.map (·.1))
  | .keys, [.record _ fields] => newList place (fields.map fun f => .str f.1)
  | .keys, [v] => fail (Failure.cast Kind.map.name v.kind.name)
  | .round, [.int i] => pure (.int i)
  | .round, [v] => do
    let x ← ofExcept v.toFloat?
    return round x 0
  | .round, [v, d] => do
    let x ← ofExcept v.toFloat?
    let digits ← ofExcept d.toInt64?
    return round x digits
  | .floor, [v] => ofExcept (integral Float.floor v)
  | .ceil, [v] => ofExcept (integral Float.ceil v)
  | .min, [a, b] => ofExcept (extreme min Number.least a b)
  | .max, [a, b] => ofExcept (extreme max Number.greatest a b)
  | .isNonnull, [v] => pure (.bool (!v.isNullish))
  | .checkNotNull, [v] =>
    if v.isNullish then fail (.fault (Failure.data .nullDereference "checkNotNull received null"))
      else pure v
  | .concatLists, args => do
    let items ← ofExcept (concat args)
    newList place items
  | .join, [.list _ items, sep] => do
    let sep ← text sep
    let parts ← texts items
    return .str (Text.join sep parts)
  | .join, v :: _ => fail (Failure.cast Kind.list.name v.kind.name)
  | .strContains, [a, b] => do
    let s ← text a
    let pat ← text b
    return .bool (Text.index? s pat).isSome
  | .strIndexOf, [a, b] => do
    let s ← text a
    let pat ← text b
    match Text.index? s pat with
    | some i => return .int (Int64.ofNat i)
    | none => return .int (-1)
  | .strSub, [a, start] => do
    let s ← text a
    let start ← ofExcept start.toInt64?
    return .str (Text.sub s start.toInt s.length)
  | .strSub, [a, start, stop] => do
    let s ← text a
    let start ← ofExcept start.toInt64?
    let stop ← ofExcept stop.toInt64?
    return .str (Text.sub s start.toInt stop.toInt)
  | .strLen, [a] => return .int (Int64.ofNat (← text a).length)
  | .css, [a] => do
    let name ← text a
    return .str ((← read).context.renameClass name)
  | .css, [a, b] => do
    let base ← text a
    let name ← text b
    return .str (base ++ "-" ++ (← read).context.renameClass name)
  | .xid, [a] => do
    let name ← text a
    return .str ((← read).context.renameId name)
  | _, _ => pure .undefined

/-- Applies a function; a failure inside names it. -/
def call (place : List Nat) (f : Function) (args : List Value) : Eval Value :=
  mapFailure (fun cause => cause.atFault.mapFault (·.detail "function" f.name)) (apply place f args)

end Eval

/-- The value deferred in a cell. -/
def Cell.deferred (force : ThunkId → Eval Value) : Cell → Eval Value
  | thunk id => force id
  | _ => pure .undefined

/-- Reads a local. `force` evaluates a deferred value. -/
def Binding.eval (force : ThunkId → Eval Value) (b : Binding) : Eval Value := do
  let c ← Eval.cell b.slot
  match b.loop with
  | some (index, _) =>
    match c with
    | .value (.list _ items) => Eval.resolve (Value.itemAt items (← Eval.cell index).int)
    | _ => pure .undefined
  | none =>
    match b.kind with
    | .int => return .int c.int
    | .float => return .float c.float
    | .bool => return .bool c.bool
    | .string => return .str c.text
    | .thunk => c.deferred force
    | _ => return c.value?.getD .undefined

/-- How an evaluation gets at deferred values, and what it does with a result that has a cell to be
kept in. -/
structure Strategy where
  force : ThunkId → Eval Value
  memo : (slot : Nat) → Eval Value → Eval Value

/-- Keeps results in their cells. -/
def Strategy.keeping (force : ThunkId → Eval Value) : Strategy := { force, memo := Eval.kept }

namespace Term

/-- Runs a term that stands at a place of its expression. -/
def eval (s : Strategy) : {f : Form} → (place : List Nat) → Term f → Eval f.carrier
  | _, _, const v _ => pure v
  | _, _, constInt i => pure i
  | _, _, constFloat f => pure f
  | _, _, constBool b => pure b
  | _, _, constStr s => pure s
  | _, _, param name injected => do
    let env ← read
    match (if injected then env.injected else env.params).lookup name with
    | some v => Eval.resolve v
    | none => pure Value.undefined
  | _, _, .local b => b.eval s.force
  | _, _, cellInt slot => return (← Eval.cell slot).int
  | _, _, cellFloat slot => return (← Eval.cell slot).float
  | _, _, cellBool slot => return (← Eval.cell slot).bool
  | _, _, cellStr slot => return (← Eval.cell slot).text
  | _, _, isFirst index => return (← Eval.cell index).int == 0
  | _, _, isLast index length => return (← Eval.cell index).int == (← Eval.cell length).int - 1
  | _, p, boxInt x => return Value.int (← x.eval s p)
  | _, p, boxFloat x => return Value.float (← x.eval s p)
  | _, p, boxBool x => return Value.bool (← x.eval s p)
  | _, p, boxStr x => return Value.str (← x.eval s p)
  | _, p, unboxInt x => do
    let v ← x.eval s p
    Eval.ofExcept (Value.toInt64? v)
  | _, p, unboxFloat x => do
    let v ← x.eval s p
    Eval.ofExcept (Value.toFloat? v)
  | _, p, widen x => do
    let i : Int64 ← x.eval s p
    return i.toFloat
  | _, p, truthy x => do
    let v : Value ← x.eval s p
    return v.truthy
  | _, p, textOfInt x => do
    let i : Int64 ← x.eval s p
    return toString i.toInt
  | _, p, textOfFloat x => do
    let f : Float ← x.eval s p
    return Number.text f
  | _, p, textOfBool x => do
    let b : Bool ← x.eval s p
    return (if b then "true" else "false")
  | _, p, text x => do
    let v ← x.eval s p
    Eval.text v
  | _, p, .not x => do
    let b : Bool ← x.eval s p
    return !b
  | _, p, negInt x => do
    let i : Int64 ← x.eval s p
    return -i
  | _, p, negFloat x => do
    let f : Float ← x.eval s p
    return -f
  | _, p, neg x => do
    let v : Value ← x.eval s p
    Eval.ofExcept v.neg
  | _, p, arithInt op x y => do
    let a ← x.eval s (0 :: p)
    let b ← y.eval s (1 :: p)
    Eval.ofExcept (op.ints a b)
  | _, p, arithFloat op x y => do
    let a ← x.eval s (0 :: p)
    let b ← y.eval s (1 :: p)
    return op.floats a b
  | _, p, arith op x y => do
    let a ← x.eval s (0 :: p)
    let b ← y.eval s (1 :: p)
    Eval.arith op a b
  | _, p, concat x y => do
    let a : String ← x.eval s (0 :: p)
    let b : String ← y.eval s (1 :: p)
    return a ++ b
  | _, p, both x y => do
    let a : Bool ← x.eval s (0 :: p)
    if a then y.eval s (1 :: p) else return false
  | _, p, either x y => do
    let a : Bool ← x.eval s (0 :: p)
    if a then return true else y.eval s (1 :: p)
  | _, p, coalesce x y => do
    let a : Value ← x.eval s (0 :: p)
    if a.isNullish then y.eval s (1 :: p) else return a
  | _, p, compareInt op x y => do
    let a ← x.eval s (0 :: p)
    let b ← y.eval s (1 :: p)
    return op.ints a b
  | _, p, compareFloat op x y => do
    let a ← x.eval s (0 :: p)
    let b ← y.eval s (1 :: p)
    return op.floats a b
  | _, p, compareStr op x y => do
    let a ← x.eval s (0 :: p)
    let b ← y.eval s (1 :: p)
    return op.texts a b
  | _, p, compare op x y => do
    let a ← x.eval s (0 :: p)
    let b ← y.eval s (1 :: p)
    Eval.ofExcept (op.values a b)
  | _, p, cond c x y => do
    let b : Bool ← c.eval s (0 :: p)
    if b then x.eval s (1 :: p) else y.eval s (2 :: p)
  | _, p, field x name nullSafe => do
    let v ← x.eval s p
    Eval.field v name nullSafe
  | _, p, item x key nullSafe => do
    let v : Value ← x.eval s (0 :: p)
    if v.isNullish then
      if nullSafe then return Value.null else Eval.fail (Eval.nullDereference "item")
    else
      let k ← key.eval s (1 :: p)
      Eval.item v k
  | _, p, list items => do
    let vs ← items.eval s (0 :: p)
    Eval.newList p vs
  | _, p, map entries => do
    let es : List (Value × Value) ← entries.eval s (0 :: p)
    let merged := es.foldl (fun acc (k, v) => (Value.setEntry? acc k v).getD acc) []
    return Value.map (← Eval.origin p) merged
  | _, p, record names values => do
    let vs : List Value ← values.eval s (0 :: p)
    return Value.recordOf (← Eval.origin p) (names.zip vs)
  | _, p, call f args => do
    let vs ← args.eval s (0 :: p)
    Eval.call p f vs
  | _, p, memo slot x => s.memo slot (x.eval s p)
  | _, _, nil => pure []
  | _, p, cons x rest => do
    let v : Value ← x.eval s (0 :: p)
    let vs : List Value ← rest.eval s (1 :: p)
    return v :: vs
  | _, _, noEntries => pure []
  | _, p, entry key x rest => do
    let k : Value ← key.eval s (0 :: p)
    let v : Value ← x.eval s (1 :: p)
    match MapKey.ofValue? k with
    | none => Eval.fail (Failure.cast "primitive map key" k.kind.name)
    | some _ =>
      let es : List (Value × Value) ← rest.eval s (2 :: p)
      return (k, v) :: es

end Term

/-! ## Deferred values -/

namespace Thunk

/-- The value of a deferred value. One that stops keeps its cells for the next attempt. -/
def evaluate (s : Strategy) (id : ThunkId) : Eval Value := do
  match (← get).heap.thunks[id]? with
  | none => pure .undefined
  | some t =>
    match t.result with
    | some v => pure v
    | none =>
      let v ← Eval.onCells t.cells t.env (t.code.root.toBoxed.eval s []) fun cells heap =>
        { heap with thunks := heap.thunks.modify id fun t => { t with cells := cells } }
      modify fun m => { m with heap := { m.heap with
        thunks := m.heap.thunks.modify id fun t => { t with cells := #[], result := some v } } }
      return v

/-- Evaluates one of the first `count` deferred values. Each only refers to ones made before it. -/
def forceBelow : (count : Nat) → ThunkId → Eval Value
  | 0, _ => pure .undefined
  | count + 1, id =>
    if id = count then evaluate (.keeping (forceBelow count)) id else forceBelow count id

/-- Evaluates a deferred value at its first use. -/
def force (id : ThunkId) : Eval Value := forceBelow (id + 1) id

/-- Makes a deferred value, copying the cells it captures. -/
def make (code : ThunkCode) : Eval ThunkId := fun env m =>
  let own := code.copies.foldl (fun cs (outer, inner) => cs.write inner (m.cells.read outer))
    (Cells.cleared code.size)
  let thunk : Thunk :=
    { code := code.code, cells := own, env := { env with maker := m.heap.fresh } }
  .ok m.heap.thunks.size
    { m with heap := { m.heap with thunks := m.heap.thunks.push thunk, fresh := m.heap.fresh + 1 } }

end Thunk

/-- The way instructions evaluate. -/
def Strategy.usual : Strategy := .keeping Thunk.force

namespace Compiled

variable (s : Strategy) (c : Compiled) (place : List Nat)

/-- The boxed result. -/
def value : Eval Value := c.root.toBoxed.eval s place

/-- The result as an integer. -/
def int : Eval Int64 := c.root.toInt.eval s place

/-- The result as a number. -/
def float : Eval Float := c.root.toFloat.eval s place

/-- The result as a condition. -/
def bool : Eval Bool := c.root.toBool.eval s place

/-- The result as text. -/
def str : Eval String := c.root.toStr.eval s place

/-- Clears the memo cells, so that the next evaluation starts over. -/
def clearMemo (c : Compiled) (cells : Cells) : Cells := cells.clear c.start (c.start + c.width)

end Compiled

end Interlude
