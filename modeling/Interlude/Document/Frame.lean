import Interlude.Document.Value
import Interlude.Frame.Slot
import Interlude.Frame.Cell
import Interlude.Value.Coerce
/-!
# Frames as documents

Slots, kinds and cells.
-/

namespace Interlude.Document

/-- The kind of a letter. -/
def readKind (j : Json) : SlotKind :=
  match j.text.toList with
  | c :: _ => SlotKind.ofLetter c
  | [] => .other (Char.ofNat 0)

def readLayout (j : Json) : Layout := ⟨j.text.toList.map SlotKind.ofLetter⟩

def ofSlot (s : Slot) : Json :=
  .obj [("index", .nat s.index), ("kind", .str (String.singleton s.kind.letter)),
    ("name", .str s.name)]

/-- What a cell holds, read in every way. -/
def ofCell (c : Cell) : Json :=
  .obj [("int", .int c.int.toInt), ("float", .str (Number.signedText c.float)),
    ("bool", .bool c.bool), ("str", .str c.text), ("empty", .bool c.isEmpty)]

/-- The cell of a kind for any value, converted to the kind. -/
def convertedCell (fs : Futures) (kind : SlotKind) (v : Value) : Cell :=
  match kind with
  | .int => .ofInt (v.toInt64?.toOption.getD 0)
  | .float => .ofFloat (v.toFloat?.toOption.getD 0.0)
  | .bool => .ofBool v.truthy
  | .string => .str (v.text fs)
  | _ => .value v

/-- The cell of a kind for a value, unboxed if the value is of that kind. -/
def unboxedCell (kind : SlotKind) (v : Value) : Cell :=
  match kind, v with
  | .int, .int i => .ofInt i
  | .float, .float f => .ofFloat f
  | .bool, .bool b => .ofBool b
  | .string, .str s => .str s
  | _, v => .value v

end Interlude.Document
