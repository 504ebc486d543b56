import Interlude.Number.Format
import Interlude.Future
/-!
# The text of a value

How a value is written into output. A list or map writes its parts; a future writes what it holds,
or a mark while it is pending.
-/

namespace Interlude.Value

mutual

/-- The text of a value, following at most `fuel` futures. -/
def write (fs : Futures) (fuel : Nat) (v : Value) : String :=
  match v with
  | .null => "null"
  | .undefined => "undefined"
  | .bool b => if b then "true" else "false"
  | .int i => toString i.toInt
  | .float f => Number.text f
  | .str s => s
  | .content _ s => s
  | .list _ items => "[" ++ String.intercalate ", " (writeItems fs fuel items) ++ "]"
  | .map _ entries => "\x7b" ++ String.intercalate ", " (writeEntries fs fuel entries) ++ "\x7d"
  | .record _ fields => "\x7b" ++ String.intercalate ", " (writeFields fs fuel fields) ++ "\x7d"
  | .future id =>
    match fs.get id with
    | .pending => "<pending>"
    | .failed cause => "<failed: " ++ cause.text ++ ">"
    | .complete inner =>
      match fuel with
      | 0 => "<pending>"
      | fuel + 1 => write fs fuel inner
termination_by (fuel, sizeOf v)

def writeItems (fs : Futures) (fuel : Nat) (items : List Value) : List String :=
  match items with
  | [] => []
  | v :: rest => write fs fuel v :: writeItems fs fuel rest
termination_by (fuel, sizeOf items)

def writeEntries (fs : Futures) (fuel : Nat) (entries : List (Value × Value)) : List String :=
  match entries with
  | [] => []
  | (k, v) :: rest => (write fs fuel k ++ ": " ++ write fs fuel v) :: writeEntries fs fuel rest
termination_by (fuel, sizeOf entries)

def writeFields (fs : Futures) (fuel : Nat) (fields : List (String × Value)) : List String :=
  match fields with
  | [] => []
  | (name, v) :: rest => (name ++ ": " ++ write fs fuel v) :: writeFields fs fuel rest
termination_by (fuel, sizeOf fields)

end

/-- The text of a value. -/
def text (fs : Futures) (v : Value) : String :=
  v.write fs (fs.states.size + 1)

end Interlude.Value
