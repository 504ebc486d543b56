import Interlude.Json.Basic
import Interlude.Value.Box
/-!
# Data of JSON documents

What a number of a document means is up to the reader.
-/

namespace Interlude.Datum

mutual

/-- The datum of a document; `number` gives that of a number's text. -/
def ofJson (number : String → Datum) : Json → Datum
  | .null => .null
  | .bool b => .bool b
  | .num t => number t
  | .str s => .str s
  | .arr items => .list (ofItems number items)
  | .obj members => .named (ofMembers number members)

def ofItems (number : String → Datum) : List Json → List Datum
  | [] => []
  | j :: rest => ofJson number j :: ofItems number rest

def ofMembers (number : String → Datum) : List (String × Json) → List (String × Datum)
  | [] => []
  | (k, j) :: rest => (k, ofJson number j) :: ofMembers number rest

end

/-- Sets the datum of a name. -/
def assign (data : List (String × Datum)) (name : String) (d : Datum) : List (String × Datum) :=
  if data.any (·.1 == name) then data.map fun e => if e.1 == name then (name, d) else e
  else data ++ [(name, d)]

end Interlude.Datum
