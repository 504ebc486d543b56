import Interlude.Yaml.Cursor
import Interlude.Yaml.Token
/-!
# Nodes of a document

A document is a tree of scalars, sequences and mappings. An alias holds the node it repeats; one
that stands inside the very node it names holds nothing.
-/

namespace Interlude.Yaml

/-- A node with the place of its first character. -/
inductive Node where
  | scalar (mark : Mark) (tag : String) (style : ScalarStyle) (value : String)
  | sequence (mark : Mark) (items : List Node)
  | mapping (mark : Mark) (pairs : List (Node × Node))
  | reference (mark : Mark) (name : String) (target : Option Node)
deriving Inhabited

namespace Node

def mark : Node → Mark
  | scalar m .. => m
  | sequence m .. => m
  | mapping m .. => m
  | reference m .. => m

/-- The line, counted from one. -/
def line (n : Node) : Nat := n.mark.line + 1

/-- The column, counted from one. -/
def column (n : Node) : Nat := n.mark.column + 1

/-- The text of a scalar; other nodes have none, an alias has its name. -/
def value : Node → String
  | scalar _ _ _ v => v
  | reference _ name _ => name
  | _ => ""

def isScalar : Node → Bool
  | scalar .. => true
  | _ => false

/-- The value of a mapping's first entry with this key. -/
def get? (n : Node) (key : String) : Option Node :=
  match n with
  | mapping _ pairs => (pairs.find? (·.1.value == key)).map (·.2)
  | _ => none

/-- The mapping without the entries of this key. -/
def erase (n : Node) (key : String) : Node :=
  match n with
  | mapping m pairs => .mapping m (pairs.filter (·.1.value != key))
  | other => other

mutual

/-- The nesting depth of a node; what an alias repeats does not count. -/
def depth : Node → Nat
  | scalar .. => 1
  | sequence _ items => 1 + depthItems items
  | mapping _ pairs => 1 + depthPairs pairs
  | reference .. => 1

def depthItems : List Node → Nat
  | [] => 0
  | n :: rest => max n.depth (depthItems rest)

def depthPairs : List (Node × Node) → Nat
  | [] => 0
  | (k, v) :: rest => max (max k.depth v.depth) (depthPairs rest)

end

end Node

end Interlude.Yaml
