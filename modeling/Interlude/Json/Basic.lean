/-!
# JSON documents

A document keeps the text of its numbers and the order of its members, so that readers can decide
what a number means.
-/

namespace Interlude

/-- A JSON document. -/
inductive Json where
  | null
  | bool (b : Bool)
  | num (text : String)
  | str (s : String)
  | arr (items : List Json)
  | obj (members : List (String × Json))
deriving Inhabited, Repr

namespace Json

/-- The member of this name; of two, the later. -/
def get? (j : Json) (key : String) : Option Json :=
  match j with
  | .obj members => members.reverse.lookup key
  | _ => none

def int (i : Int) : Json := .num (toString i)
def nat (n : Nat) : Json := .num (toString n)

/-- A document of named members, without those that are absent. -/
def ofPresent (members : List (String × Option Json)) : Json :=
  .obj (members.filterMap fun (k, v) => v.map (k, ·))

/-! ## Loose access

Each of these reads a document as what is asked for, and gives the empty value of that kind for
anything else. -/

/-- The member of this name, null if there is none. -/
def member (j : Json) (key : String) : Json := (j.get? key).getD .null

def text : Json → String
  | .str s => s
  | _ => ""

def flag : Json → Bool
  | .bool b => b
  | _ => false

/-- The integer of a number without point and exponent. -/
def integer : Json → Int
  | .num t => t.toInt?.getD 0
  | _ => 0

def natural (j : Json) : Nat := j.integer.toNat

def items : Json → List Json
  | .arr items => items
  | _ => []

def members : Json → List (String × Json)
  | .obj members => members
  | _ => []

/-- The item at an index, null if there is none. -/
def item (j : Json) (i : Nat) : Json := j.items[i]?.getD .null

def texts (j : Json) : List String := j.items.map text

def textAt (j : Json) (key : String) : String := (j.member key).text
def flagAt (j : Json) (key : String) : Bool := (j.member key).flag
def integerAt (j : Json) (key : String) : Int := (j.member key).integer
def naturalAt (j : Json) (key : String) : Nat := (j.member key).natural
def itemsAt (j : Json) (key : String) : List Json := (j.member key).items
def textsAt (j : Json) (key : String) : List String := (j.member key).texts

/-- The texts of an object's members. -/
def textMembers (j : Json) : List (String × String) := j.members.map fun (k, v) => (k, v.text)

/-- A list of texts. -/
def ofTexts (xs : List String) : Json := .arr (xs.map .str)

/-- Adds members to an object. -/
def extend (j : Json) (more : List (String × Json)) : Json :=
  match j with
  | .obj members => .obj (members ++ more)
  | other => other

end Json

end Interlude
