import Interlude.File.Path
import Interlude.Failure
/-!
# Files

A tree of directories and files, seen from a working directory at its root. Paths are followed part
by part, so every part before the last has to be a directory that is there. What lies outside the
tree is not there.
-/

namespace Interlude

/-- A file with its text, or a directory with its entries by name. -/
inductive FileTree where
  | file (text : String)
  | directory (entries : List (String × FileTree))
deriving Inhabited

/-- Why a path leads nowhere, or not to what was asked for. -/
inductive Missing where
  | absent
  | notDirectory
  | isDirectory
deriving DecidableEq, Repr, Inhabited

namespace Missing

def text : Missing → String
  | absent => "no such file or directory"
  | notDirectory => "not a directory"
  | isDirectory => "is a directory"

/-- The failure of an operation on a path. -/
def failure (m : Missing) (operation path : String) : Failure :=
  .plain (operation ++ " " ++ path ++ ": " ++ m.text)

end Missing

namespace FileTree

def empty : FileTree := directory []

def entries : FileTree → List (String × FileTree)
  | file _ => []
  | directory es => es

/-- Sets an entry among entries sorted by name. -/
def setEntry (name : String) (t : FileTree) : List (String × FileTree) → List (String × FileTree)
  | [] => [(name, t)]
  | e :: rest =>
    if e.1 == name then (name, t) :: rest
    else if name < e.1 then (name, t) :: e :: rest
    else e :: setEntry name t rest

/-- What stands under names, each a directory's entry. -/
def get? (t : FileTree) : List String → Option FileTree
  | [] => some t
  | name :: rest =>
    match t.entries.lookup name with
    | some child => child.get? rest
    | none => none

/-- Puts something under names, making the directories on the way. -/
def put (new : FileTree) : List String → FileTree → FileTree
  | [], _ => new
  | name :: rest, t =>
    directory (setEntry name (put new rest ((t.entries.lookup name).getD empty)) t.entries)

/-- Takes away what stands under names. -/
def erase : List String → FileTree → FileTree
  | [], t => t
  | [name], t => directory (t.entries.filter (·.1 != name))
  | name :: rest, t =>
    match t.entries.lookup name with
    | some child => directory (setEntry name (erase rest child) t.entries)
    | none => t

/-- Follows the parts of a path; the last need not be there. -/
def follow (t : FileTree) (done : List String) : List String → Except Missing (List String)
  | [] => .ok done
  | part :: rest =>
    match t.get? done with
    | none => .error .absent
    | some (file _) => .error .notDirectory
    | some (directory _) =>
      if part == "" || part == "." then follow t done rest
      else if part == ".." then
        if done.isEmpty then .error .absent else follow t done.dropLast rest
      else follow t (done ++ [part]) rest

/-- The names a path leads to. -/
def locate (t : FileTree) (path : String) : Except Missing (List String) :=
  if path.isEmpty || path.startsWith "/" then .error .absent else t.follow [] (Text.split '/' path)

/-- What a path leads to. -/
def find (t : FileTree) (path : String) : Except Missing FileTree := do
  let names ← t.locate path
  match t.get? names with
  | some node => .ok node
  | none => .error .absent

def hasPath (t : FileTree) (path : String) : Bool := (t.find path).toOption.isSome

/-- The text of a file. -/
def read (t : FileTree) (path : String) : Except Failure String :=
  match t.find path with
  | .ok (file text) => .ok text
  | .ok (directory _) => .error (Missing.isDirectory.failure "read" path)
  | .error m => .error (m.failure "open" path)

/-- Writes a file into a directory that is there. -/
def write (t : FileTree) (path text : String) : Except Failure FileTree :=
  let target : Except Missing (List String) := do
    let names ← t.locate path
    match t.get? names.dropLast, t.get? names with
    | some (directory _), some (directory _) => throw .isDirectory
    | some (directory _), _ => return names
    | some (file _), _ => throw .notDirectory
    | none, _ => throw .absent
  match target with
  | .ok names => .ok (put (file text) names t)
  | .error m => .error (m.failure "open" path)

/-- Writes a file, making the directories on the way. -/
def place (t : FileTree) (path text : String) : FileTree := put (file text) (Path.cleanParts path) t

def remove (t : FileTree) (path : String) : FileTree := erase (Path.cleanParts path) t

/-- Moves what is at one path to another. -/
def rename (t : FileTree) (source target : String) : FileTree :=
  match t.get? (Path.cleanParts source) with
  | some node => put node (Path.cleanParts target) (t.remove source)
  | none => t

/-- The tree of files given by path and text. -/
def ofFiles (files : List (String × String)) : FileTree :=
  files.foldl (fun t f => t.place f.1 f.2) empty

mutual

/-- All files at and below a path, in order of names. -/
def filesBelow (path : String) : FileTree → List String
  | file _ => [path]
  | directory es => filesOf path es

def filesOf (path : String) : List (String × FileTree) → List String
  | [] => []
  | (name, t) :: rest => filesBelow (Path.join path name) t ++ filesOf path rest

end

end FileTree

end Interlude
