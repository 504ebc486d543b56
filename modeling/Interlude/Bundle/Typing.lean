import Interlude.Template.Expr
/-!
# Types of expressions

The static type that an expression gets from those of its parts.
-/

namespace Interlude.Typing

/-- The type of a literal. -/
def ofValue (v : Value) : StaticType :=
  match v.kind with
  | .null | .undefined => .null
  | .bool => .bool
  | .int => .int
  | .float => .float
  | .string => .string
  | .list => .listOf .any
  | .record => .of .record
  | .map => .mapOf .any .any
  | .sanitized | .pending => .any

/-- The type all expressions share, or `any`. -/
def common : List Expr → StaticType
  | [] => .any
  | e :: es => if es.all (·.type == e.type) then e.type else .any

def isInt (t : StaticType) : Bool := !t.nullable && t.kind == .int
def isNum (t : StaticType) : Bool := !t.nullable && (t.kind == .int || t.kind == .float)
def isStr (t : StaticType) : Bool := !t.nullable && t.kind == .string

/-- The result of arithmetic that keeps integers. -/
def arithmetic (l r : StaticType) : StaticType :=
  if isInt l && isInt r then .int
  else if isNum l && isNum r then .float
  else .any

def binary (op : BinaryOp) (l r : StaticType) : StaticType :=
  match op with
  | .and | .or | .eq | .notEq | .less | .lessEq | .greater | .greaterEq => .bool
  | .coalesce => if l.withNullable false == r then r else .any
  | .add =>
    match arithmetic l r with
    | .mk .any _ _ => if isStr l || isStr r then .string else .any
    | t => t
  | .sub | .mul => arithmetic l r
  | .div => if isNum l && isNum r then .float else .any
  | .mod => if isInt l && isInt r then .int else .any

def negation (t : StaticType) : StaticType := if t.isNumeric then t else .any

/-- An item may be missing, so its type admits null. -/
def item (t : StaticType) : StaticType :=
  let elem := match t.kind, t.elems with
    | .list, [e] => e.orNull
    | .map, [_, v] => v.orNull
    | _, _ => .any
  if elem.kind == .any then .any else elem

/-- The type of the variable of a loop over a list. -/
def element (t : StaticType) : StaticType :=
  match t.kind, t.elems with
  | .list, [e] => e
  | _, _ => .any

def function (name : String) (args : List Expr) : StaticType :=
  match name with
  | "length" | "strLen" | "strIndexOf" | "floor" | "ceil" | "index" => .int
  | "isNonnull" | "strContains" | "isFirst" | "isLast" => .bool
  | "join" | "strSub" | "css" | "xid" => .string
  | "keys" | "concatLists" => .listOf .any
  | "checkNotNull" =>
    match args with
    | [x] => x.type.withNullable false
    | _ => .any
  | "round" =>
    match args with
    | [_] => .int
    | _ => .any
  | _ => .any

end Interlude.Typing
