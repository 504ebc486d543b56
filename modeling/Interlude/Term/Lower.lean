import Interlude.Term.Basic
import Interlude.Suspension
/-!
# Compiling expressions

Chooses for every expression the form it computes in: operators on operands of known primitive
types work without boxes. An expression that may suspend gets memo cells: one for each part that
may suspend, and one for each part directly below such a part. A term that keeps its result in a
memo cell is boxed.
-/

namespace Interlude

/-- The local variables of the scopes in force, innermost scope first. -/
structure Locals where
  scopes : List (List (String × Binding))
deriving Inhabited

namespace Locals

/-- One scope without variables. -/
def empty : Locals := ⟨[[]]⟩

def lookup (ls : Locals) (name : String) : Option Binding :=
  ls.scopes.findSome? (·.lookup name)

def push (ls : Locals) : Locals := ⟨[] :: ls.scopes⟩

/-- Binds a name in the innermost scope. -/
def bind (ls : Locals) (name : String) (b : Binding) : Locals :=
  match ls.scopes with
  | [] => ⟨[[(name, b)]]⟩
  | scope :: outer => ⟨((name, b) :: scope) :: outer⟩

/-- Whether a local holds a value that is known: unboxed slots are written only then, while a
deferred value or the items of a list may still be pending. -/
def settled (ls : Locals) (name : String) : Bool :=
  match ls.lookup name with
  | some b => b.loop.isNone && b.kind.isSettled
  | none => false

end Locals

namespace StaticType

def isInt (t : StaticType) : Bool := !t.nullable && t.kind == .int
def isFloat (t : StaticType) : Bool := !t.nullable && t.kind == .float
def isNum (t : StaticType) : Bool := t.isInt || t.isFloat
def isStr (t : StaticType) : Bool := !t.nullable && t.kind == .string

end StaticType

namespace Expr

/-- The type by which operators choose the form of an operand. The functions on loops have the
type of their result whatever is declared. -/
def operandType : Expr → StaticType
  | call t name _ =>
    if name == "isFirst" || name == "isLast" then .bool
    else if name == "index" then .int
    else t
  | e => e.type

/-- How an expression is named in a message. -/
def describe : Expr → String
  | var _ name => "$" ++ name
  | param _ name _ => "$" ++ name
  | call _ name es => name ++ "(" ++ describeAll es ++ ")"
  | lit .. => "*ast.Literal"
  | unary .. => "*ast.Unary"
  | binary .. => "*ast.Binary"
  | cond .. => "*ast.Ternary"
  | field .. => "*ast.FieldAccess"
  | item .. => "*ast.ItemAccess"
  | list .. => "*ast.ListLit"
  | map .. => "*ast.MapLit"
  | record .. => "*ast.RecordLit"
where
  describeAll : List Expr → String
    | [] => ""
    | [e] => e.describe
    | e :: es => e.describe ++ ", " ++ describeAll es

end Expr

namespace Lowered

def ofLiteral : (v : Value) → v.holdsFuture = false → Lowered
  | .int i, _ => .int (.constInt i)
  | .float f, _ => .float (.constFloat f)
  | .bool b, _ => .bool (.constBool b)
  | .str s, _ => .str (.constStr s)
  | v, plain => .boxed (.const v plain)

/-- Reads a local in the form its slot has. -/
def ofBinding (b : Binding) : Lowered :=
  if b.loop.isSome then .boxed (.local b)
  else
    match b.kind with
    | .int => .int (.cellInt b.slot)
    | .float => .float (.cellFloat b.slot)
    | .bool => .bool (.cellBool b.slot)
    | .string => .str (.cellStr b.slot)
    | _ => .boxed (.local b)

def unary (op : UnaryOp) (t : StaticType) (x : Lowered) : Lowered :=
  match op with
  | .not => .bool (.not x.toBool)
  | .neg =>
    if t.isInt then .int (.negInt x.toInt)
    else if t.isFloat then .float (.negFloat x.toFloat)
    else .boxed (.neg x.toBoxed)

/-- Arithmetic that is done on integers if both operands are, and on numbers if both are. -/
def arith (op : Arith) (t u : StaticType) (x y : Lowered) : Lowered :=
  let ints := t.isInt && u.isInt
  let numbers := t.isNum && u.isNum
  match op with
  | .div =>
    if numbers then .float (.arithFloat .div x.toFloat y.toFloat)
      else .boxed (.arith .div x.toBoxed y.toBoxed)
  | .mod =>
    if ints then .int (.arithInt .mod x.toInt y.toInt) else .boxed (.arith .mod x.toBoxed y.toBoxed)
  | op =>
    if ints then .int (.arithInt op x.toInt y.toInt)
    else if numbers then .float (.arithFloat op x.toFloat y.toFloat)
    else if op == .add && (t.isStr || u.isStr) then .str (.concat x.toStr y.toStr)
    else .boxed (.arith op x.toBoxed y.toBoxed)

def comparison (op : Comparison) (t u : StaticType) (x y : Lowered) : Lowered :=
  if t.isInt && u.isInt then .bool (.compareInt op x.toInt y.toInt)
  else if t.isNum && u.isNum then .bool (.compareFloat op x.toFloat y.toFloat)
  else if t.isStr && u.isStr then .bool (.compareStr op x.toStr y.toStr)
  else .bool (.compare op x.toBoxed y.toBoxed)

def binary (op : BinaryOp) (t u : StaticType) (x y : Lowered) : Lowered :=
  match op with
  | .add => arith .add t u x y
  | .sub => arith .sub t u x y
  | .mul => arith .mul t u x y
  | .div => arith .div t u x y
  | .mod => arith .mod t u x y
  | .eq => comparison .eq t u x y
  | .notEq => comparison .notEq t u x y
  | .less => comparison .less t u x y
  | .lessEq => comparison .lessEq t u x y
  | .greater => comparison .greater t u x y
  | .greaterEq => comparison .greaterEq t u x y
  | .and => .bool (.both x.toBool y.toBool)
  | .or => .bool (.either x.toBool y.toBool)
  | .coalesce => .boxed (.coalesce x.toBoxed y.toBoxed)

/-- Branches that are both integers or both texts stay unboxed. -/
def cond (c x y : Lowered) : Lowered :=
  match x, y with
  | .int x, .int y => .int (.cond c.toBool x y)
  | .str x, .str y => .str (.cond c.toBool x y)
  | x, y => .boxed (.cond c.toBool x.toBoxed y.toBoxed)

end Lowered

namespace Expr

/-- What compiling an expression consults. -/
structure Scope where
  analyzer : Analyzer
  locals : Locals

def Scope.may (s : Scope) (e : Expr) : Bool := s.analyzer.expr s.locals.settled e

mutual

/-- The number of memo cells of an expression; `under` says that the expression around it may
suspend. -/
def countMemo (s : Scope) (under : Bool) (e : Expr) : Nat :=
  if s.may e then
    1 + match e with
      | lit .. => 0
      | param .. => 0
      | var .. => 0
      | unary _ _ x => x.countMemo s true
      | binary _ _ x y => x.countMemo s true + y.countMemo s true
      | cond _ c a b => c.countMemo s true + a.countMemo s true + b.countMemo s true
      | field _ x _ _ => x.countMemo s true
      | item _ x k _ => x.countMemo s true + k.countMemo s true
      | list _ es => countMemoAll s es
      | map _ es => countMemoEntries s es
      | record _ fs => countMemoFields s fs
      | call _ _ es => countMemoAll s es
  else if under then 1
  else 0

def countMemoAll (s : Scope) : List Expr → Nat
  | [] => 0
  | e :: es => e.countMemo s true + countMemoAll s es

def countMemoEntries (s : Scope) : List (Expr × Expr) → Nat
  | [] => 0
  | (k, v) :: es => k.countMemo s true + v.countMemo s true + countMemoEntries s es

def countMemoFields (s : Scope) : List (String × Expr) → Nat
  | [] => 0
  | (_, e) :: fs => e.countMemo s true + countMemoFields s fs

end

/-- Compilation hands out memo cells in order. -/
abbrev Lowering := StateT Nat (Except Failure)

/-- The next memo cell. -/
def nextMemo : Lowering Nat := fun n => .ok (n, n + 1)

def badArgument (message : String) : Failure := .fault (Failure.compile .invalidArgument message)

def unknownVariable (name : String) : Failure :=
  .fault (Failure.compile .unknownVariable ("unknown variable $" ++ name))

/-- The term of a function on a loop: it reads the loop's index and length and never the item. -/
def loopHelper (s : Scope) (name : String) (args : List Expr) : Except Failure Lowered :=
  match args with
  | [.var _ v] =>
    match (s.locals.lookup v).bind (·.loop) with
    | some (index, length) =>
      if name == "isFirst" then .ok (.bool (.isFirst index))
      else if name == "isLast" then .ok (.bool (.isLast index length))
      else .ok (.int (.cellInt index))
    | none => .error (badArgument (name ++ "() argument $" ++ v ++ " is not a for-each variable"))
  | [e] => .error (badArgument (name ++ "() argument " ++ e.describe ++ " is not a loop variable"))
  | _ => .error (badArgument (name ++ "() takes one loop variable"))

/-- The function of that name, if it takes that many arguments. -/
def function (name : String) (count : Nat) : Except Failure Function :=
  match Function.ofName? name with
  | none => .error (.fault (Failure.compile .unknownFunction ("unknown function " ++ name ++ "()")))
  | some f =>
    if f.accepts count then .ok f
    else .error (badArgument (name ++ "() called with " ++ toString count ++ " arguments"))

/-- Pairs the keys and values of a map's entries. -/
def pairEntries : List (Term .boxed) → List (Term .boxed) → Term .entries
  | k :: ks, v :: vs => .entry k v (pairEntries ks vs)
  | _, _ => .noEntries

def valueList (xs : List (Term .boxed)) : Term .values := xs.foldr .cons .nil

/-- Gives a term a memo cell, if it needs one. -/
def keepIf (needed : Bool) (act : Lowering Lowered) : Lowering Lowered := do
  let x ← act
  if needed then
    let slot ← nextMemo
    return .boxed (.memo slot x.toBoxed)
  else return x

mutual

/-- The term of an expression. -/
def lower (s : Scope) (under : Bool) (e : Expr) : Lowering Lowered :=
  let may := s.may e
  keepIf (may || under) <| match e with
    | lit _ v plain => pure (Lowered.ofLiteral v plain)
    | param _ name injected => pure (.boxed (.param name injected))
    | var _ name =>
      match s.locals.lookup name with
      | some b => pure (Lowered.ofBinding b)
      | none => throw (unknownVariable name)
    | unary _ op x => do
      let c ← x.lower s may
      return Lowered.unary op x.operandType c
    | binary _ op x y => do
      let a ← x.lower s may
      let b ← y.lower s may
      return Lowered.binary op x.operandType y.operandType a b
    | cond _ c x y => do
      let c ← c.lower s may
      let a ← x.lower s may
      let b ← y.lower s may
      return Lowered.cond c a b
    | field _ x name nullSafe => do
      let c ← x.lower s may
      return .boxed (.field c.toBoxed name nullSafe)
    | item _ x key nullSafe => do
      let c ← x.lower s may
      let k ← key.lower s may
      return .boxed (.item c.toBoxed k.toBoxed nullSafe)
    | list _ es => do
      let xs ← lowerAll s may es
      return .boxed (.list (valueList xs))
    | map _ es => do
      let ks ← lowerKeys s may es
      let vs ← lowerValues s may es
      return .boxed (.map (pairEntries ks vs))
    | record _ fs => do
      let xs ← lowerFields s may fs
      return .boxed (.record (fs.map (·.1)) (valueList xs))
    | call _ name es =>
      if isLoopHelper name then liftM (loopHelper s name es)
      else do
        let f ← liftM (function name es.length)
        let xs ← lowerAll s may es
        return .boxed (.call f (valueList xs))

def lowerAll (s : Scope) (under : Bool) : List Expr → Lowering (List (Term .boxed))
  | [] => pure []
  | e :: es => do
    let x ← e.lower s under
    return x.toBoxed :: (← lowerAll s under es)

def lowerKeys (s : Scope) (under : Bool) : List (Expr × Expr) → Lowering (List (Term .boxed))
  | [] => pure []
  | (k, _) :: es => do
    let x ← k.lower s under
    return x.toBoxed :: (← lowerKeys s under es)

def lowerValues (s : Scope) (under : Bool) : List (Expr × Expr) → Lowering (List (Term .boxed))
  | [] => pure []
  | (_, v) :: es => do
    let x ← v.lower s under
    return x.toBoxed :: (← lowerValues s under es)

def lowerFields (s : Scope) (under : Bool) : List (String × Expr) → Lowering (List (Term .boxed))
  | [] => pure []
  | (_, e) :: fs => do
    let x ← e.lower s under
    return x.toBoxed :: (← lowerFields s under fs)

end

/-- Compiles an expression, taking its memo cells from `slots`. -/
def compile (s : Scope) (slots : Slots) (e : Expr) : Except Failure (Compiled × Slots) := do
  let width := e.countMemo s false
  let (start, slots) := if width = 0 then (0, slots) else slots.anonymous .memo width
  let (root, _) ← (e.lower s false).run start
  return ({ type := e.type, maySuspend := s.may e, root, start, width }, slots)

end Expr

/-- A deferred expression: its term runs on cells of its own, into which the cells of the variables
it reads are copied from the places `copies` tells. -/
structure ThunkCode where
  code : Compiled
  copies : List (Nat × Nat)
  size : Nat
  captured : List String

namespace ThunkCode

/-- Takes a place for every captured variable; a loop variable takes its list, index and length. -/
def capture (outer : Locals) :
    List String → Slots → Locals → List (Nat × Nat) →
    Except Failure (Slots × Locals × List (Nat × Nat))
  | [], slots, inner, copies => .ok (slots, inner, copies)
  | name :: rest, slots, inner, copies =>
    match outer.lookup name with
    | none => .error (Expr.unknownVariable name)
    | some b =>
      match b.loop with
      | some (index, length) => do
        let (base, slots) ← slots.block name .value 3
        let inner := inner.bind name { slot := base, kind := .value,
                                       loop := some (base + 1, base + 2) }
        capture outer rest slots inner
          (copies ++ [(b.slot, base), (index, base + 1), (length, base + 2)])
      | none => do
        let (slot, slots) ← slots.alloc name b.kind
        capture outer rest slots (inner.bind name { slot, kind := b.kind })
          (copies ++ [(b.slot, slot)])

/-- Compiles an expression for later. -/
def compile (s : Expr.Scope) (e : Expr) : Except Failure ThunkCode := do
  let (slots, inner, copies) ← capture s.locals e.vars Slots.new Locals.empty []
  let (code, slots) ← e.compile { s with locals := inner } slots
  return { code, copies, size := slots.size, captured := e.vars }

end ThunkCode

end Interlude
