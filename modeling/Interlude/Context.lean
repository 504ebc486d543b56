import Interlude.Text.Space
/-!
# The context of a render

What a caller fixes for a whole render: renamings of class names and identifiers, the active
packages of delegates, and whether suspensions are traced.
-/

namespace Interlude

structure Context where
  css : List (String × String) := []
  xid : List (String × String) := []
  /-- The packages that are active besides the one without a name. -/
  active : String → Bool := fun _ => false
  debug : Bool := false
deriving Inhabited

namespace Context

/-- The package without a name is always active. -/
def isActive (c : Context) (package : String) : Bool :=
  package.isEmpty || c.active package

/-- Renames a class. A name without a renaming of its own is renamed between its dashes, part by
part. -/
def renameClass (c : Context) (name : String) : String :=
  match c.css.lookup name with
  | some renamed => renamed
  | none => Text.join "-" ((Text.split '-' name).map fun part => (c.css.lookup part).getD part)

/-- Renames an identifier. -/
def renameId (c : Context) (name : String) : String :=
  (c.xid.lookup name).getD name

end Context

end Interlude
