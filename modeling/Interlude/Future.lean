import Interlude.Failure
import Interlude.Value.Basic
/-!
# Futures

Pending values and the store that holds them. A future is settled at most once, with a value or a
failure; a template reads through futures, and stops at one that is not settled yet.
-/

namespace Interlude

/-- The state of a pending value. -/
inductive Future where
  | pending
  | complete (v : Value)
  | failed (cause : Failure)
deriving Inhabited

namespace Future

def isReady : Future → Bool
  | pending => false
  | _ => true

end Future

/-- The futures of a run, with how often each was asked for its value. -/
structure Futures where
  states : Array Future := #[]
  reads : Array Nat := #[]
deriving Inhabited

namespace Futures

/-- The state of a future; one that was never made is pending for ever. -/
def get (fs : Futures) (id : FutureId) : Future :=
  fs.states[id]?.getD .pending

/-- Makes a future in the given state. -/
def push (fs : Futures) (state : Future) : FutureId × Futures :=
  (fs.states.size, { states := fs.states.push state, reads := fs.reads.push 0 })

/-- Settles a pending future; a settled one stays as it is. -/
def settle (fs : Futures) (id : FutureId) (state : Future) : Bool × Futures :=
  match fs.get id with
  | .pending => (true, { fs with states := fs.states.setIfInBounds id state })
  | _ => (false, fs)

/-- Counts one more request for the value of a future. -/
def countRead (fs : Futures) (id : FutureId) : Futures :=
  { fs with reads := fs.reads.modify id (· + 1) }

/-- How often a future was asked for its value. -/
def readsOf (fs : Futures) (id : FutureId) : Nat :=
  fs.reads[id]?.getD 0

end Futures

/-- What reading through futures leads to. Reading is endless if a future holds itself, directly or
through others. -/
inductive Read where
  | value (v : Value)
  | waiting (id : FutureId)
  | failed (cause : Failure)
  | endless

/-- Reads through at most `fuel` futures. A chain of distinct futures is never longer than their
number. -/
def Futures.resolveFrom (fs : Futures) : Nat → Value → Read × Futures
  | 0, .future _ => (.endless, fs)
  | fuel + 1, .future id =>
    match fs.get id with
    | .pending => (.waiting id, fs)
    | .complete v => (fs.countRead id).resolveFrom fuel v
    | .failed cause => (.failed cause, fs.countRead id)
  | _, v => (.value v, fs)

/-- The value a chain of futures leads to, counting a request for each settled one. -/
def Futures.resolve (fs : Futures) (v : Value) : Read × Futures :=
  fs.resolveFrom (fs.states.size + 1) v

end Interlude
