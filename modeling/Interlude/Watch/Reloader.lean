import Interlude.Registry.Holder
import Interlude.Watch.Scope
/-!
# Edits, events and reloading

What is done to files, and what a watcher of directories is told of it. Events that come close
together are handed on as one batch, with the last event of each path, in order of paths. For a
batch a holder is brought up to date with the bundles on disk: all of them are loaded and compiled,
and if anything is wrong, the registry that is published stays.
-/

namespace Interlude.Watch

/-- What happened to a file. -/
inductive FileChange where
  | created
  | modified
  | deleted
  | renamed
deriving DecidableEq, Repr, Inhabited

structure FileEvent where
  change : FileChange
  path : String
deriving DecidableEq, Repr, Inhabited

/-- The last event of each path, in order of paths. -/
def batch (events : List FileEvent) : List FileEvent :=
  let last := events.foldl (fun kept e => kept.filter (·.path != e.path) ++ [e]) []
  last.mergeSort fun a b => a.path ≤ b.path

/-- Something done to a file. -/
inductive Edit where
  | write (path text : String)
  | remove (path : String)
  | rename (source target : String)
deriving DecidableEq, Repr, Inhabited

namespace Edit

def apply (files : FileTree) : Edit → FileTree
  | write path text => files.place path text
  | remove path => files.remove path
  | rename source target => files.rename source target

/-- The event of a path, as a watcher of its directory names it. -/
def eventAt (watched : List String) (change : FileChange) (path : String) : List FileEvent :=
  let dir := Path.dir path
  if watched.contains dir then [⟨change, dir ++ "/" ++ Path.base path⟩] else []

/-- What the watcher of directories is told of an edit of files. -/
def events (watched : List String) (files : FileTree) : Edit → List FileEvent
  | write path _ => eventAt watched (if files.hasPath path then .modified else .created) path
  | remove path => if files.hasPath path then eventAt watched .deleted path else []
  | rename source target =>
    if files.hasPath source then eventAt watched .renamed source ++ eventAt watched .created target
      else []

/-- Edits that lead from some files to others: what is new or different is written, what is gone is
removed. -/
def between (before after : FileTree) : List Edit :=
  let text (t : FileTree) (path : String) : Option String := (t.read path).toOption
  let written := (after.filesBelow "").filterMap fun path =>
    (text after path).bind fun t => if text before path == some t then none else some (write path t)
  let gone := (before.filesBelow "").filter fun path => (text after path).isNone
  written ++ gone.map remove

end Edit

/-- Makes edits one after another; gives the files after them and the events that count. -/
def run (watched : List String) (files : FileTree) : List Edit → FileTree × List FileEvent
  | [] => (files, [])
  | e :: rest =>
    let (after, more) := run watched (e.apply files) rest
    (after, (e.events watched files).filter (accepts ·.path) ++ more)

end Interlude.Watch

/-! ## Reloading -/

namespace Interlude

/-- The paths to load from, the holder to publish in, and what was wrong with the last reload. -/
structure Reloader where
  paths : List String
  holder : Holder := {}
  failure : Option Failure := none
  fresh : Identity := 0

namespace Reloader

/-- The registry of the bundles at some paths. -/
def compile (files : FileTree) (paths : List String) : Boxing Registry := do
  let templates ← Bundle.loadAll files paths
  liftM (Registry.build .conservative templates)

/-- How the last reload went. -/
def outcome (r : Reloader) : Except Failure Unit :=
  match r.failure with
  | some e => .error e
  | none => .ok ()

/-- Loads and compiles all bundles and publishes the result. -/
def reload (r : Reloader) (files : FileTree) : Reloader :=
  match compile files r.paths r.fresh with
  | .ok (registry, fresh) =>
    { r with holder := r.holder.swap (some registry), failure := none, fresh }
  | .error e => { r with failure := some e }

/-- Reloads once for a batch of events; without any there is nothing to do. -/
def handle (r : Reloader) (files : FileTree) (events : List Watch.FileEvent) :
    Except Failure Unit × Reloader :=
  if events.isEmpty then (.ok (), r)
  else
    let r := r.reload files
    (r.outcome, r)

end Reloader

end Interlude
