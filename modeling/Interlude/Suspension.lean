import Interlude.Template.Basic
/-!
# What may suspend

Decides which expressions and bodies can meet a pending value. The answers only trade speed for
the precision of checkpoints: an expression judged safe that does meet a pending value still stops
there, and starts over when it goes on.
-/

namespace Interlude

/-- The functions that read the state of a loop and not its variable. -/
def isLoopHelper (name : String) : Bool :=
  name == "isFirst" || name == "isLast" || name == "index"

namespace Expr

mutual

/-- Whether evaluation can meet a pending value: it reads caller data or a local that is not
`settled`. -/
def maySuspend (settled : String → Bool) : Expr → Bool
  | lit .. => false
  | param .. => true
  | var _ name => !settled name
  | unary _ _ x => x.maySuspend settled
  | binary _ _ x y => x.maySuspend settled || y.maySuspend settled
  | cond _ c a b => c.maySuspend settled || a.maySuspend settled || b.maySuspend settled
  | field .. => true
  | item .. => true
  | list _ es => maySuspendAll settled es
  | map _ es => maySuspendEntries settled es
  | record _ fs => maySuspendFields settled fs
  | call _ name es => !isLoopHelper name && maySuspendAll settled es

def maySuspendAll (settled : String → Bool) : List Expr → Bool
  | [] => false
  | e :: es => e.maySuspend settled || maySuspendAll settled es

def maySuspendEntries (settled : String → Bool) : List (Expr × Expr) → Bool
  | [] => false
  | (k, v) :: es => k.maySuspend settled || v.maySuspend settled || maySuspendEntries settled es

def maySuspendFields (settled : String → Bool) : List (String × Expr) → Bool
  | [] => false
  | (_, e) :: fs => e.maySuspend settled || maySuspendFields settled fs

end

end Expr

namespace Stmt

/-- The name a statement binds, for its block or for its body. -/
def binds? : Stmt → Option String
  | letValue name _ => some name
  | letContent name .. => some name
  | forEach var .. => some var
  | forRange var .. => some var
  | _ => none

/-- Whether running a body can wait. A name bound again anywhere inside may be lazy there, so it
is not settled, and a call or a loop over a list may always wait. -/
def maySuspend (settled : String → Bool) (body : List Stmt) : Bool :=
  let inner := flattenAll body
  let bound := inner.filterMap binds?
  let settled name := !bound.contains name && settled name
  inner.any fun s =>
    match s with
    | call .. => true
    | forEach .. => true
    | s => s.exprs.any (Expr.maySuspend settled)

end Stmt

/-- Who decides what may suspend. `never` suits templates rendered with fully known data only. -/
inductive Analyzer where
  | conservative
  | never
deriving DecidableEq, Repr, Inhabited

namespace Analyzer

/-- Whether evaluating `e` may wait, where `settled` tells the locals with known values. -/
def expr (a : Analyzer) (settled : String → Bool) (e : Expr) : Bool :=
  match a with
  | conservative => e.maySuspend settled
  | never => false

/-- Whether running `body` may wait. -/
def body (a : Analyzer) (settled : String → Bool) (body : List Stmt) : Bool :=
  match a with
  | conservative => Stmt.maySuspend settled body
  | never => false

end Analyzer

end Interlude
