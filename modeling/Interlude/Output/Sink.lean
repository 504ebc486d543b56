/-!
# Sinks

Where the output of a render goes: to the outlet of the whole render, into a buffer, or through
stages that change it on the way. A sink is only an address; what it holds is in the store of the
render.
-/

namespace Interlude

/-- A change of output on its way. -/
inductive Stage where
  | unchanged
  | escapeHtml
  | lineBreaks
  | upper
  | lower
  | escapeUri
deriving DecidableEq, Repr, Inhabited

/-- Names a buffer. -/
abbrev BufferId := Nat

/-- Names the state of a stage. -/
abbrev StageId := Nat

/-- An address for output. -/
inductive Sink where
  | root
  | buffer (id : BufferId)
  | through (id : StageId) (stage : Stage) (next : Sink)
deriving DecidableEq, Repr, Inhabited

/-- The first `n` stages output passes, in order. -/
def Sink.stages : Nat → Sink → List (StageId × Stage × Sink)
  | n + 1, through id stage next => (id, stage, next) :: next.stages n
  | _, _ => []

end Interlude
