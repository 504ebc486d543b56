import Interlude.Template.Expr
import Interlude.Frame.Slot
/-!
# Terms

Compiled expressions. Every term has a form that says what it computes: a boxed value, or an
integer, number, boolean or text without a box. Changes of form are written out, so a term is well
formed by its type. `memo` marks the results that are kept in a cell while the expression
waits.
-/

namespace Interlude

/-- What a term computes. -/
inductive Form where
  | boxed
  | int
  | float
  | bool
  | str
  | values
  | entries
deriving DecidableEq, Repr, Inhabited

/-- Where a local variable lives. For a for-each variable the slot holds the list and `loop` tells
the slots of index and length. -/
structure Binding where
  slot : Nat
  kind : SlotKind
  loop : Option (Nat × Nat) := none
deriving DecidableEq, Repr, Inhabited

/-- The functions of templates, apart from those on loops. -/
inductive Function where
  | length
  | keys
  | round
  | floor
  | ceil
  | min
  | max
  | isNonnull
  | checkNotNull
  | concatLists
  | join
  | strContains
  | strIndexOf
  | strSub
  | strLen
  | css
  | xid
deriving DecidableEq, Repr, Inhabited

namespace Function

def name : Function → String
  | length => "length"
  | keys => "keys"
  | round => "round"
  | floor => "floor"
  | ceil => "ceil"
  | min => "min"
  | max => "max"
  | isNonnull => "isNonnull"
  | checkNotNull => "checkNotNull"
  | concatLists => "concatLists"
  | join => "join"
  | strContains => "strContains"
  | strIndexOf => "strIndexOf"
  | strSub => "strSub"
  | strLen => "strLen"
  | css => "css"
  | xid => "xid"

def all : List Function :=
  [length, keys, round, floor, ceil, min, max, isNonnull, checkNotNull, concatLists,
    join, strContains, strIndexOf, strSub, strLen, css, xid]

def ofName? (s : String) : Option Function := all.find? (·.name == s)

/-- Whether a function takes that many arguments. -/
def accepts : Function → Nat → Bool
  | round, n => n == 1 || n == 2
  | min, n => n == 2
  | max, n => n == 2
  | concatLists, n => 1 ≤ n
  | join, n => n == 2
  | strContains, n => n == 2
  | strIndexOf, n => n == 2
  | strSub, n => n == 2 || n == 3
  | css, n => n == 1 || n == 2
  | _, n => n == 1

end Function

/-- The arithmetic operators. -/
inductive Arith where
  | add
  | sub
  | mul
  | div
  | mod
deriving DecidableEq, Repr, Inhabited

/-- The comparison operators. -/
inductive Comparison where
  | eq
  | notEq
  | less
  | lessEq
  | greater
  | greaterEq
deriving DecidableEq, Repr, Inhabited

/-- Terms of each form. -/
inductive Term : Form → Type where
  | const (v : Value) (plain : v.holdsFuture = false) : Term .boxed
  | constInt (i : Int64) : Term .int
  | constFloat (f : Float) : Term .float
  | constBool (b : Bool) : Term .bool
  | constStr (s : String) : Term .str
  | param (name : String) (injected : Bool) : Term .boxed
  | local (b : Binding) : Term .boxed
  | cellInt (slot : Nat) : Term .int
  | cellFloat (slot : Nat) : Term .float
  | cellBool (slot : Nat) : Term .bool
  | cellStr (slot : Nat) : Term .str
  | isFirst (index : Nat) : Term .bool
  | isLast (index length : Nat) : Term .bool
  | boxInt (x : Term .int) : Term .boxed
  | boxFloat (x : Term .float) : Term .boxed
  | boxBool (x : Term .bool) : Term .boxed
  | boxStr (x : Term .str) : Term .boxed
  | unboxInt (x : Term .boxed) : Term .int
  | unboxFloat (x : Term .boxed) : Term .float
  | widen (x : Term .int) : Term .float
  | truthy (x : Term .boxed) : Term .bool
  | textOfInt (x : Term .int) : Term .str
  | textOfFloat (x : Term .float) : Term .str
  | textOfBool (x : Term .bool) : Term .str
  | text (x : Term .boxed) : Term .str
  | not (x : Term .bool) : Term .bool
  | negInt (x : Term .int) : Term .int
  | negFloat (x : Term .float) : Term .float
  | neg (x : Term .boxed) : Term .boxed
  | arithInt (op : Arith) (x y : Term .int) : Term .int
  | arithFloat (op : Arith) (x y : Term .float) : Term .float
  | arith (op : Arith) (x y : Term .boxed) : Term .boxed
  | concat (x y : Term .str) : Term .str
  | both (x y : Term .bool) : Term .bool
  | either (x y : Term .bool) : Term .bool
  | coalesce (x y : Term .boxed) : Term .boxed
  | compareInt (op : Comparison) (x y : Term .int) : Term .bool
  | compareFloat (op : Comparison) (x y : Term .float) : Term .bool
  | compareStr (op : Comparison) (x y : Term .str) : Term .bool
  | compare (op : Comparison) (x y : Term .boxed) : Term .bool
  | cond {f : Form} (c : Term .bool) (x y : Term f) : Term f
  | field (x : Term .boxed) (name : String) (nullSafe : Bool) : Term .boxed
  | item (x key : Term .boxed) (nullSafe : Bool) : Term .boxed
  | list (items : Term .values) : Term .boxed
  | map (entries : Term .entries) : Term .boxed
  | record (names : List String) (values : Term .values) : Term .boxed
  | call (f : Function) (args : Term .values) : Term .boxed
  | memo (slot : Nat) (x : Term .boxed) : Term .boxed
  | nil : Term .values
  | cons (x : Term .boxed) (rest : Term .values) : Term .values
  | noEntries : Term .entries
  | entry (key value : Term .boxed) (rest : Term .entries) : Term .entries

/-- A term for one value, in the form that suits it best. -/
inductive Lowered where
  | boxed (x : Term .boxed)
  | int (x : Term .int)
  | float (x : Term .float)
  | bool (x : Term .bool)
  | str (x : Term .str)

namespace Lowered

/-- Whether the term computes without a box. -/
def isUnboxed : Lowered → Bool
  | boxed _ => false
  | _ => true

def toBoxed : Lowered → Term .boxed
  | boxed x => x
  | int x => .boxInt x
  | float x => .boxFloat x
  | bool x => .boxBool x
  | str x => .boxStr x

/-- The term as an integer; other values are refused when it runs. -/
def toInt : Lowered → Term .int
  | int x => x
  | x => .unboxInt x.toBoxed

/-- The term as a number; integers widen. -/
def toFloat : Lowered → Term .float
  | float x => x
  | int x => .widen x
  | x => .unboxFloat x.toBoxed

/-- The term as a condition. -/
def toBool : Lowered → Term .bool
  | bool x => x
  | x => .truthy x.toBoxed

/-- The term as text. -/
def toStr : Lowered → Term .str
  | str x => x
  | int x => .textOfInt x
  | float x => .textOfFloat x
  | bool x => .textOfBool x
  | boxed x => .text x

end Lowered

/-- A compiled expression with its memo cells, `width` of them from `start` on. -/
structure Compiled where
  type : StaticType
  maySuspend : Bool
  root : Lowered
  start : Nat
  width : Nat

end Interlude
