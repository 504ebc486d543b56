import Interlude.Registry
/-!
# Publishing registries

A holder publishes one registry at a time and tells watchers what changed. A watcher keeps what it
was told until it is read; one that has too much waiting misses what comes then.
-/

namespace Interlude

/-- What happened to a name when a registry took the place of another. -/
inductive Change where
  | added
  | updated
  | removed
deriving DecidableEq, Repr, Inhabited

def Change.name : Change → String
  | added => "added"
  | updated => "updated"
  | removed => "removed"

/-- A change of one name. -/
structure Event where
  change : Change
  name : String
deriving DecidableEq, Repr, Inhabited

/-- The names of a registry; none without one. -/
def Registry.namesOf (r : Option Registry) : List String := (r.map names).getD []

/-- The events for the names of a new registry, and those names from before that are not among them.
A name that comes up is struck off the names from before. -/
def Registry.arrive (before : List String) : List String → List Event × List String
  | [] => ([], before)
  | n :: rest =>
    if before.contains n then
      let (events, gone) := arrive (before.erase n) rest
      (⟨.updated, n⟩ :: events, gone)
    else
      let (events, gone) := arrive before rest
      (⟨.added, n⟩ :: events, gone)

/-- What changes between two registries: the names of the new one, then those that are gone. -/
def Registry.changes (old new : Option Registry) : List Event :=
  let (events, gone) := arrive (namesOf old) (namesOf new)
  events ++ ((namesOf old).filter gone.contains).map (⟨.removed, ·⟩)

/-- The events a watcher has not read yet, oldest first. A closed watcher gets no more. -/
structure Watcher where
  waiting : List Event := []
  closed : Bool := false
deriving Inhabited

namespace Watcher

/-- The number of events that may wait. -/
def capacity : Nat := 100

/-- Tells a watcher of an event. -/
def tell (w : Watcher) (e : Event) : Watcher :=
  if w.closed || capacity ≤ w.waiting.length then w else { w with waiting := w.waiting ++ [e] }

end Watcher

/-- Names a watcher. -/
abbrev WatcherId := Nat

/-- The published registry and all watchers there ever were. -/
structure Holder where
  current : Option Registry := none
  watchers : Array Watcher := #[]

namespace Holder

/-- Publishes a registry, or none, and tells the watchers. -/
def swap (h : Holder) (r : Option Registry) : Holder :=
  let events := Registry.changes h.current r
  { current := r, watchers := h.watchers.map fun w => events.foldl Watcher.tell w }

def watch (h : Holder) : WatcherId × Holder :=
  (h.watchers.size, { h with watchers := h.watchers.push {} })

/-- Closes a watcher. What waits there can still be read. -/
def unwatch (h : Holder) (id : WatcherId) : Holder :=
  { h with watchers := h.watchers.modify id fun w => { w with closed := true } }

/-- Reads all that waits at a watcher. -/
def drain (h : Holder) (id : WatcherId) : List Event × Holder :=
  let w := h.watchers[id]?.getD {}
  (w.waiting, { h with watchers := h.watchers.modify id fun w => { w with waiting := [] } })

end Holder

end Interlude
