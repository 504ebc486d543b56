import Interlude.StaticType
/-!
# Expressions

The expressions of templates, each with its static type.
-/

namespace Interlude

inductive UnaryOp where
  | neg
  | not
deriving DecidableEq, Repr, Inhabited

def UnaryOp.symbol : UnaryOp → String
  | neg => "-"
  | not => "not"

inductive BinaryOp where
  | add
  | sub
  | mul
  | div
  | mod
  | less
  | lessEq
  | greater
  | greaterEq
  | eq
  | notEq
  | and
  | or
  | coalesce
deriving DecidableEq, Repr, Inhabited

namespace BinaryOp

def symbol : BinaryOp → String
  | add => "+"
  | sub => "-"
  | mul => "*"
  | div => "/"
  | mod => "%"
  | less => "<"
  | lessEq => "<="
  | greater => ">"
  | greaterEq => ">="
  | eq => "=="
  | notEq => "!="
  | and => "and"
  | or => "or"
  | coalesce => "??"

def all : List BinaryOp :=
  [add, sub, mul, div, mod, less, lessEq, greater, greaterEq, eq, notEq, and, or, coalesce]

def ofSymbol? (s : String) : Option BinaryOp := all.find? (·.symbol == s)

end BinaryOp

/-- An expression. A literal holds no future; `cond` evaluates only the branch taken; a null-safe
access of null is null. -/
inductive Expr where
  | lit (t : StaticType) (v : Value) (plain : v.holdsFuture = false := by rfl)
  | param (t : StaticType) (name : String) (injected : Bool)
  | var (t : StaticType) (name : String)
  | unary (t : StaticType) (op : UnaryOp) (x : Expr)
  | binary (t : StaticType) (op : BinaryOp) (x y : Expr)
  | cond (t : StaticType) (c a b : Expr)
  | field (t : StaticType) (x : Expr) (name : String) (nullSafe : Bool)
  | item (t : StaticType) (x key : Expr) (nullSafe : Bool)
  | list (t : StaticType) (items : List Expr)
  | map (t : StaticType) (entries : List (Expr × Expr))
  | record (t : StaticType) (fields : List (String × Expr))
  | call (t : StaticType) (name : String) (args : List Expr)
deriving Inhabited

namespace Expr

def type : Expr → StaticType
  | lit t .. => t
  | param t .. => t
  | var t .. => t
  | unary t .. => t
  | binary t .. => t
  | cond t .. => t
  | field t .. => t
  | item t .. => t
  | list t .. => t
  | map t .. => t
  | record t .. => t
  | call t .. => t

/-- The expression with another static type. -/
def withType (e : Expr) (t : StaticType) : Expr :=
  match e with
  | lit _ v plain => lit t v plain
  | param _ n i => param t n i
  | var _ n => var t n
  | unary _ op x => unary t op x
  | binary _ op x y => binary t op x y
  | cond _ c a b => cond t c a b
  | field _ x n s => field t x n s
  | item _ x k s => item t x k s
  | list _ es => list t es
  | map _ es => map t es
  | record _ fs => record t fs
  | call _ n es => call t n es

/-- The direct subexpressions in the order of evaluation. -/
def children : Expr → List Expr
  | lit .. => []
  | param .. => []
  | var .. => []
  | unary _ _ x => [x]
  | binary _ _ x y => [x, y]
  | cond _ c a b => [c, a, b]
  | field _ x _ _ => [x]
  | item _ x k _ => [x, k]
  | list _ es => es
  | map _ es => es.flatMap fun (k, v) => [k, v]
  | record _ fs => fs.map (·.2)
  | call _ _ es => es

mutual

/-- The local variables an expression reads, in order, with repetitions. -/
def reads : Expr → List String
  | lit .. => []
  | param .. => []
  | var _ n => [n]
  | unary _ _ x => x.reads
  | binary _ _ x y => x.reads ++ y.reads
  | cond _ c a b => c.reads ++ a.reads ++ b.reads
  | field _ x _ _ => x.reads
  | item _ x k _ => x.reads ++ k.reads
  | list _ es => readsAll es
  | map _ es => readsEntries es
  | record _ fs => readsFields fs
  | call _ _ es => readsAll es

def readsAll : List Expr → List String
  | [] => []
  | e :: es => e.reads ++ readsAll es

def readsEntries : List (Expr × Expr) → List String
  | [] => []
  | (k, v) :: es => k.reads ++ v.reads ++ readsEntries es

def readsFields : List (String × Expr) → List String
  | [] => []
  | (_, e) :: fs => e.reads ++ readsFields fs

end

/-- The distinct local variables an expression reads, in the order of first occurrence. -/
def vars (e : Expr) : List String := e.reads.eraseDups

end Expr

end Interlude
