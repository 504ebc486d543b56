import Interlude.Render.Run
/-!
# Blocking renders

Drives a render to its end: waits for the values it stops at and flushes its sink when that asks for
a pause. What waiting means is up to the host, which may also end the whole undertaking.
-/

namespace Interlude

/-- What surrounds a blocking render. It is asked in rounds, one after each call of the render, and
may answer otherwise in every one: `wait` gives the futures as they are after waiting for one of
them, or the reason why waiting ended; `ended` is the reason why the render has to stop, if there is
one. -/
structure Host where
  waitable : FutureId → Bool := fun _ => true
  wait : (round : Nat) → FutureId → Futures → Except Failure Futures
  ended : (round : Nat) → Option Failure := fun _ => none

/-- The failure of an undertaking that was called off. -/
def canceled : Failure := .plain "context canceled"

/-- A host in which some futures complete once they are waited for, unless it was called off. -/
def Host.timed (late : List (FutureId × Value)) (isCanceled : Bool) : Host :=
  { wait := fun _ id futures =>
      if isCanceled then .error canceled
      else .ok (match late.lookup id with
        | some v => (futures.settle id (.complete v)).2
        | none => futures)
    ended := fun _ => if isCanceled then some canceled else none }

namespace Store

def unwaitable : Failure :=
  .fault (Failure.data .invalidArgument "render detached on a value that cannot be waited on")

def stillLimited : Failure :=
  .fault (.new .io .sinkFailed "sink still over its soft limit after flushing")

/-- What is done between two calls of a render that writes to the outlet: nothing to go on for, or
the store to go on with. -/
def between (host : Host) (round : Nat) (id : RenderId) (s : Store) : Outcome →
    Except (Outcome × Store) Store
  | .done =>
    match s.flush .root with
    | (.ok _, s) => .error (.done, s)
    | (.error e, s) => .error (.failed e, s)
  | .limited =>
    match s.flush .root with
    | (.error e, s) => .error (.failed (Failure.sink e), s.abandon id)
    | (.ok _, s) =>
      match s.isLimited .root with
      | (true, s) => .error (.failed stillLimited, s.abandon id)
      | (false, s) => .ok s
  | .waiting f =>
    if host.waitable f then
      match host.wait round f s.heap.futures with
      | .ok futures => .ok { s with heap := { s.heap with futures } }
      | .error e => .error (.failed e, s.abandon id)
    else .error (.failed unwaitable, s.abandon id)
  | outcome => .error (outcome, s)

/-- Calls a render until it ends, for at most `fuel` steps. The first call is followed by this
round. -/
def driveFrom (registry : Registry) (context : Context) (host : Host) (round : Nat) :
    Nat → RenderId → Store → Outcome × Store
  | 0, _, s => (.exhausted, s)
  | fuel + 1, id, s =>
    let (outcome, s) := s.invoke registry context fuel id
    match s.between host round id outcome with
    | .error ending => ending
    | .ok s =>
      match host.ended round with
      | some e => (.failed e, s.abandon id)
      | none => driveFrom registry context host (round + 1) fuel id s

/-- Calls a render until it ends, for at most `fuel` steps. -/
def drive (registry : Registry) (context : Context) (host : Host) (fuel : Nat) (id : RenderId)
    (s : Store) :
    Outcome × Store :=
  s.driveFrom registry context host 0 fuel id

end Store

namespace Registry

/-- Starts a render of a basic template with data from outside. -/
def start (r : Registry) (context : Context) (name : String)
    (params injected : List (String × Datum)) (sink : Sink) (s : Store) :
    Except Failure RenderId × Store :=
  let boxed : Boxing (Program × List (String × Value) × List (String × Value)) := do
    let p ← liftM (r.template name)
    let params ← Datum.boxParams params
    let injected ← Datum.boxParams injected
    return (p, params, injected)
  match boxed s.heap.fresh with
  | .error e => (.error e, s)
  | .ok ((p, params, injected), fresh) =>
    p.start context params injected sink { s with heap := { s.heap with fresh } }

/-- Starts or goes on with a render: with none, one is started. Gives back the render to go on with,
unless none could be started. -/
def resume (r : Registry) (context : Context) (fuel : Nat) (state : Option RenderId) (name : String)
    (params injected : List (String × Datum)) (s : Store) : Option RenderId × Outcome × Store :=
  match state with
  | some id => (some id, s.invoke r context fuel id)
  | none =>
    match r.start context name params injected .root s with
    | (.error e, s) => (none, .failed e, s)
    | (.ok id, s) => (some id, s.invoke r context fuel id)

/-- Renders a template to the outlet of the store, to the end. -/
def render (r : Registry) (context : Context) (host : Host) (fuel : Nat) (name : String)
    (params injected : List (String × Datum)) (s : Store) : Outcome × Store :=
  match r.start context name params injected .root s with
  | (.error e, s) => (.failed e, s)
  | (.ok id, s) => s.drive r context host fuel id

/-- Renders with a holder's registry; without one no template is there. -/
def renderWith (r : Option Registry) (context : Context) (host : Host) (fuel : Nat) (name : String)
    (params injected : List (String × Datum)) (s : Store) : Outcome × Store :=
  match r with
  | some r => r.render context host fuel name params injected s
  | none => (.failed (Failure.templateNotFound name), s)

end Registry

/-- More steps than any render takes. -/
def stepLimit : Nat := Nat.pow 2 62

end Interlude
