import Interlude.Failure
import Interlude.Text.Utf8
/-!
# Outlets

The end of all output of a render: a buffer, a function, or a writer behind a buffer of its own. An
outlet may ask for a pause; the render heeds it only between two steps, so more may still arrive.
-/

namespace Interlude

/-- A device that takes whole texts. `refuses` tells the failure of its n-th write or flush, if it
fails; writes and flushes are counted apart, from one. `refused` is the text of the last write that
failed, of which the device may have kept a part. `pushed` tells whether a flush had anything to
push out. -/
structure Writer where
  writes : Array String := #[]
  attempts : Nat := 0
  flushes : Nat := 0
  refused : String := ""
  pushed : Bool := false
  refuses : Nat → Option Failure := fun _ => none
  refusesFlush : Nat → Option Failure := fun _ => none

namespace Writer

def write (w : Writer) (s : String) : Except Failure Unit × Writer :=
  let w := { w with attempts := w.attempts + 1 }
  match w.refuses w.attempts with
  | some e => (.error e, { w with refused := s })
  | none => (.ok (), { w with writes := w.writes.push s })

def flush (w : Writer) : Except Failure Unit × Writer :=
  let w := { w with flushes := w.flushes + 1 }
  match w.refusesFlush w.flushes with
  | some e => (.error e, w)
  | none => (.ok (), { w with pushed := w.pushed || !w.writes.isEmpty })

end Writer

/-- A writer behind a buffer. With a positive limit nothing is written before a flush, and the limit
is reached once that many bytes wait; without one, enough bytes are written on their own. The first
failure stays. -/
structure WriterSink where
  limit : Int
  buffered : String := ""
  failed : Option Failure := none
  writer : Writer := {}

namespace WriterSink

/-- The size at which a sink without a limit writes on its own. -/
def chunkSize : Nat := 4096

/-- Writes what waits, if anything does. -/
def writeThrough (s : WriterSink) : WriterSink :=
  if s.buffered.isEmpty then s
  else
    match s.writer.write s.buffered with
    | (.ok _, w) => { s with buffered := "", writer := w }
    | (.error e, w) => { s with buffered := "", writer := w, failed := some e }

/-- How the last step ended. -/
def outcome (s : WriterSink) : Except Failure Unit :=
  match s.failed with
  | some e => .error e
  | none => .ok ()

def append (s : WriterSink) (text : String) : WriterSink :=
  if s.failed.isSome then s
  else
    let s := { s with buffered := s.buffered ++ text }
    if s.limit ≤ 0 && chunkSize ≤ Text.byteLength s.buffered then s.writeThrough else s

def isLimited (s : WriterSink) : Bool :=
  0 < s.limit && s.limit ≤ Text.byteLength s.buffered

/-- Writes what waits and flushes the writer. -/
def flush (s : WriterSink) : WriterSink :=
  if s.failed.isSome then s
  else
    let s := s.writeThrough
    if s.failed.isSome then s
    else
      match s.writer.flush with
      | (.ok _, w) => { s with writer := w }
      | (.error e, w) => { s with writer := w, failed := some e }

end WriterSink

/-- Where an outlet puts text. -/
inductive Outlet.Base where
  | buffer (text : String)
  | writer (s : WriterSink)
  | direct (w : Writer)

/-- An outlet. `gate` is a request for a pause from outside; it may depend on how often it was asked
and on the bytes in the buffer. -/
structure Outlet where
  base : Outlet.Base
  gate : Option (Nat → Nat → Bool) := none
  asked : Nat := 0

namespace Outlet

/-- An outlet that collects everything. -/
def collecting : Outlet := { base := .buffer "" }

def append (o : Outlet) (s : String) : Except Failure Unit × Outlet :=
  match o.base with
  | .buffer text => (.ok (), { o with base := .buffer (text ++ s) })
  | .writer w =>
    let w := w.append s
    (w.outcome, { o with base := .writer w })
  | .direct w =>
    let (r, w) := w.write s
    (r, { o with base := .direct w })

/-- The bytes an outlet holds back or has collected. -/
def held (o : Outlet) : Nat :=
  match o.base with
  | .buffer text => Text.byteLength text
  | .writer w => Text.byteLength w.buffered
  | .direct _ => 0

/-- Whether the outlet asks for a pause. -/
def isLimited (o : Outlet) : Bool × Outlet :=
  let own := match o.base with
    | .writer w => w.isLimited
    | _ => false
  match o.gate with
  | none => (own, o)
  | some gate => (gate o.asked o.held || own, { o with asked := o.asked + 1 })

def flush (o : Outlet) : Except Failure Unit × Outlet :=
  match o.base with
  | .writer w =>
    let w := w.flush
    (w.outcome, { o with base := .writer w })
  | _ => (.ok (), o)

/-- What has been written out, piece by piece. -/
def writes (o : Outlet) : List String :=
  match o.base with
  | .buffer _ => []
  | .writer w => w.writer.writes.toList
  | .direct w => w.writes.toList

/-- Whether something written has been pushed out by a flush. -/
def isPushed (o : Outlet) : Bool :=
  match o.base with
  | .writer w => w.writer.pushed
  | _ => false

end Outlet

end Interlude
