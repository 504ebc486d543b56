import Interlude.Value.Basic
import Interlude.Number.Arith
import Interlude.Output.Sink
/-!
# Cells

The run-time contents of slots. Unboxed numbers and booleans share one form, sixty-four bits, and
are told apart only by how they are read; reading bits from a cell of another form gives zero.
-/

namespace Interlude

/-- Names a deferred value. -/
abbrev ThunkId := Nat

/-- Names a render. -/
abbrev RenderId := Nat

/-- A call in progress: its callee, the sink the callee's output enters with the number of stages
of the call's own, the buffer that collects it if there is one, and the arguments of directives. -/
structure CallState where
  callee : RenderId
  entry : Sink
  stages : Nat
  buffer : Option BufferId
  args : List (List Value)

/-- The content of a slot. -/
inductive Cell where
  | bits (b : UInt64)
  | str (s : String)
  | value (v : Value)
  | thunk (id : ThunkId)
  | buffer (id : BufferId)
  | wrap (entry : Sink) (stages : Nat)
  | call (state : CallState)

namespace Cell

/-- The cleared cell. -/
def empty : Cell := bits 0

instance : Inhabited Cell := ⟨empty⟩

def ofInt (i : Int64) : Cell := bits i.toUInt64
def ofFloat (f : Float) : Cell := bits (Number.bitsOf f)
def ofBool (b : Bool) : Cell := bits (if b then 1 else 0)

/-- The bits of a cell, zero for a cell of another form. -/
def raw : Cell → UInt64
  | bits b => b
  | _ => 0

def int (c : Cell) : Int64 := c.raw.toInt64
def float (c : Cell) : Float := Float.ofBits c.raw
def bool (c : Cell) : Bool := c.raw != 0

/-- The text of a cell that holds unboxed text. -/
def text : Cell → String
  | str s => s
  | _ => ""

def value? : Cell → Option Value
  | value v => some v
  | _ => none

/-- Whether the cell refers to nothing. -/
def isEmpty : Cell → Bool
  | bits _ => true
  | _ => false

end Cell

/-- The cells of a render or of a deferred value. -/
abbrev Cells := Array Cell

namespace Cells

/-- That many cleared cells. -/
def cleared (n : Nat) : Cells := Array.replicate n Cell.empty

def read (cs : Cells) (i : Nat) : Cell := cs.getD i Cell.empty

/-- Writes a cell; a write outside changes nothing. -/
def write (cs : Cells) (i : Nat) (c : Cell) : Cells := cs.setIfInBounds i c

/-- Clears the cells from `low` up to, not including, `high`. -/
def clear (cs : Cells) (low high : Nat) : Cells :=
  (List.range' low (high - low)).foldl (fun cs i => cs.write i Cell.empty) cs

end Cells

/-- What a render keeps while it is suspended: the instruction to go on with, the cells in use
there, and the number its evaluations go by. -/
structure SavedFrame where
  state : Nat
  cells : List Cell
  maker : Identity := 0

namespace SavedFrame

/-- Takes the cells of the given slots. -/
def save (state : Nat) (cells : Cells) (slots : List Nat) (maker : Identity := 0) : SavedFrame :=
  ⟨state, slots.map cells.read, maker⟩

/-- Writes the cells back to the given slots. -/
def restore (f : SavedFrame) (cells : Cells) (slots : List Nat) : Cells :=
  (slots.zip f.cells).foldl (fun cs (i, c) => cs.write i c) cells

end SavedFrame

end Interlude
