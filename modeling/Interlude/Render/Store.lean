import Interlude.Registry
import Interlude.Output.Stream
import Interlude.Term.Eval
import Interlude.Log
/-!
# Renders and their store

A render is one invocation of a template, with its params bound. All renders of a run share a store:
pending and deferred values, sinks, and what was logged. Between two calls a render is a value like
any other; it holds a frame exactly while it is suspended.
-/

namespace Interlude

/-- How a call of a render ended. A call that is `exhausted` ran out of steps; one that is `broken`
met a cell of a form its code does not expect, which compiled code never does. -/
inductive Outcome where
  | done
  | limited
  | waiting (id : FutureId)
  | failed (cause : Failure)
  | exhausted
  | broken
deriving DecidableEq

/-- The text of an outcome in traces. -/
def Outcome.text (fs : Futures) : Outcome → String
  | done => "done"
  | limited => "limited"
  | waiting id => "detach(" ++ (Value.future id).text fs ++ ")"
  | failed _ => "done"
  | exhausted => "exhausted"
  | broken => "broken"

/-- Why a render that is at its end did not succeed. One that could go on has not. -/
def Outcome.failure? : Outcome → Option Failure
  | done => none
  | failed e => some e
  | _ => some (.plain "render did not finish")

/-- Where a render stands between two calls. -/
inductive Status where
  | ready
  | suspended (frame : SavedFrame)
  | done
  | failed (cause : Failure)
  | abandoned

namespace Status

def frame? : Status → Option SavedFrame
  | suspended frame => some frame
  | _ => none

/-- Whether a render has nothing left to do. -/
def isFinal : Status → Bool
  | done => true
  | failed _ => true
  | _ => false

end Status

/-- A render: the template, its params with defaults filled in, the data it was given as it was
given, and where its output goes. In params and data the first binding of a name counts. -/
structure Render where
  program : Program
  params : List (String × Value)
  injected : List (String × Value)
  data : List (String × Value)
  sink : Sink
  status : Status := .ready

/-- What the renders of a run share. -/
structure Store where
  heap : Heap := {}
  streams : Streams
  renders : Array Render := #[]
  log : Array Log.Entry := #[]

namespace Store

def setStatus (s : Store) (id : RenderId) (status : Status) : Store :=
  { s with renders := s.renders.modify id fun r => { r with status } }

def logged (s : Store) (e : Log.Entry) : Store := { s with log := s.log.push e }

/-- Puts text into a sink. -/
def append (s : Store) (sink : Sink) (text : String) : Except Failure Unit × Store :=
  let (r, streams) := s.streams.append sink text
  (r, { s with streams })

/-- Flushes a sink. -/
def flush (s : Store) (sink : Sink) : Except Failure Unit × Store :=
  let (r, streams) := s.streams.flush sink
  (r, { s with streams })

/-- Whether a sink asks for a pause. -/
def isLimited (s : Store) (sink : Sink) : Bool × Store :=
  let (r, streams) := s.streams.isLimited sink
  (r, { s with streams })

end Store

/-! ## Binding params -/

/-- Steps that change the heap and may fail. -/
abbrev Binding.Step := EStateM Failure Heap

namespace ParamDecl

def pendingDefault (name : String) : Failure :=
  .fault ((Failure.data .invalidArgument
    ("default value of " ++ name ++ " depends on a pending value")).detail "param" name)

/-- The value of a param that was not given: its default, else undefined. -/
def absent (d : ParamDecl) (template : String) (env : Env) : Binding.Step Value := fun heap =>
  if d.required then .error (Failure.missingParam template d.name) heap
  else
    match d.default with
    | none => .ok .undefined heap
    | some (code, size) =>
      let heap' := { heap with fresh := heap.fresh + 1 }
      match code.value .usual [] { env with maker := heap.fresh } { cells := Cells.cleared size,
                                                                    heap := heap' } with
      | .ok v m => .ok v m.heap
      | .error (.failed e) m => .error (e.within template) m.heap
      | .error _ m => .error ((pendingDefault d.name).within template) m.heap

end ParamDecl

namespace Program

/-- Completes params and injected data with the values of declared params that were not given. -/
def bindParams (context : Context) (template : String) (params injected : List (String × Value)) :
    List ParamDecl → Binding.Step (List (String × Value) × List (String × Value))
  | [] => pure (params, injected)
  | d :: rest =>
    match (if d.injected then injected else params).lookup d.name with
    | some _ => bindParams context template params injected rest
    | none => do
      let v ← d.absent template { params, injected, context }
      if d.injected then bindParams context template params ((d.name, v) :: injected) rest
      else bindParams context template ((d.name, v) :: params) injected rest

/-- Starts a render of a program. -/
def start (context : Context) (p : Program) (params injected : List (String × Value)) (sink : Sink)
    (s : Store) : Except Failure RenderId × Store :=
  match bindParams context p.name params injected p.params s.heap with
  | .error e heap => (.error e, { s with heap })
  | .ok (bound, inj) heap =>
    let render : Render := { program := p, params := bound, injected := inj, data := params, sink }
    (.ok s.renders.size, { s with heap, renders := s.renders.push render })

end Program

end Interlude
