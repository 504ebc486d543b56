import Interlude.Output.Outlet
import Interlude.Filter
/-!
# Streams

What sinks hold: the outlet, the buffers, and the state of stages. Text put into a sink passes its
stages in order. A stage that writes line breaks withholds a carriage return until it knows whether
a line feed follows; closing it lets go what it withheld.
-/

namespace Interlude

/-- The state of a stage. -/
structure StageState where
  closed : Bool := false
  heldReturn : Bool := false
deriving Inhabited

structure Streams where
  outlet : Outlet
  buffers : Array String := #[]
  stages : Array StageState := #[]

namespace Streams

def newBuffer (s : Streams) : BufferId × Streams :=
  (s.buffers.size, { s with buffers := s.buffers.push "" })

def bufferText (s : Streams) (id : BufferId) : String := s.buffers[id]?.getD ""

def setStage (s : Streams) (id : StageId) (st : StageState) : Streams :=
  { s with stages := s.stages.setIfInBounds id st }

/-- Puts text into a sink. -/
def append (s : Streams) : Sink → String → Except Failure Unit × Streams
  | .root, text =>
    let (r, o) := s.outlet.append text
    (r, { s with outlet := o })
  | .buffer id, text => (.ok (), { s with buffers := s.buffers.modify id (· ++ text) })
  | .through id .lineBreaks next, text =>
    if text.isEmpty then (.ok (), s)
    else
      let held := (s.stages[id]?.getD {}).heldReturn
      let text := if held then "\r" ++ text else text
      let holds := text.toList.getLast? == some '\r'
      let text := if holds then String.ofList text.toList.dropLast else text
      append (s.setStage id ⟨false, holds⟩) next (Text.lineBreaks text)
  | .through id stage next, text =>
    if (s.stages[id]?.getD {}).closed then
      (.error (.fault (.new .internal .internal "append to closed directive sink")), s)
    else append s next (stage.change text)

/-- Whether a sink asks for a pause. -/
def isLimited (s : Streams) : Sink → Bool × Streams
  | .root =>
    let (limited, o) := s.outlet.isLimited
    (limited, { s with outlet := o })
  | .buffer _ => (false, s)
  | .through _ _ next => isLimited s next

def flush (s : Streams) : Sink → Except Failure Unit × Streams
  | .root =>
    let (r, o) := s.outlet.flush
    (r, { s with outlet := o })
  | .buffer _ => (.ok (), s)
  | .through _ _ next => flush s next

/-- Puts stages before a sink; the first stage is the first that text passes. -/
def wrap (s : Streams) : List Stage → Sink → Sink × Streams
  | [], out => (out, s)
  | stage :: rest, out =>
    let (next, s) := wrap s rest out
    (.through s.stages.size stage next, { s with stages := s.stages.push {} })

/-- Closes one stage. -/
def closeStage (s : Streams) (id : StageId) (stage : Stage) (next : Sink) :
    Except Failure Unit × Streams :=
  match stage with
  | .lineBreaks =>
    if (s.stages[id]?.getD {}).heldReturn then (s.setStage id {}).append next "<br>"
      else (.ok (), s)
  | _ => (.ok (), s.setStage id ⟨true, false⟩)

/-- Closes stages in order, all of them; the first failure counts. -/
def closeAll (s : Streams) : List (StageId × Stage × Sink) → Except Failure Unit × Streams
  | [] => (.ok (), s)
  | (id, stage, next) :: rest =>
    let (first, s) := s.closeStage id stage next
    let (later, s) := closeAll s rest
    (match first with
     | .error e => .error e
     | .ok _ => later, s)

end Streams

end Interlude
