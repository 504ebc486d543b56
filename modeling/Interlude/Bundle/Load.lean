import Interlude.Bundle.Statement
import Interlude.Failure.Collector
import Interlude.File.Tree
/-!
# Loading bundles

Bundles from files. A path is a bundle file or a directory with bundle files in it; what is wrong
with several paths is told together.
-/

namespace Interlude.Bundle

/-- Whether a path has the extension of a bundle. -/
def isBundle (path : String) : Bool :=
  [".yaml", ".yml"].contains (Text.lowerAscii (Path.extension path))

def notFound (message path : String) (cause : Failure) : Failure :=
  .because ((Fault.new .io .fileNotFound message).detail "path" path) cause

/-- The templates of one bundle file. -/
def loadFile (t : FileTree) (path : String) : Decoding (List Template) :=
  match t.find path with
  | .error m => throw (notFound ("cannot open bundle " ++ path) path (m.failure "stat" path))
  | .ok _ =>
    match t.read path with
    | .error e => throw (notFound ("cannot read bundle " ++ path) path e)
    | .ok text => parse text path

/-- Loads all paths; a path that fails does not keep the others from being looked at. -/
def collect (load : String → Decoding (List Template)) :
    Collector → List Template → List String → Decoding (List Template)
  | issues, found, [] =>
    match issues.failure? with
    | some e => throw e
    | none => return found
  | issues, found, path :: rest => do
    let here ← tryCatchThe Failure (Except.ok <$> load path) fun e => return Except.error e
    match here with
    | .ok ts => collect load issues (found ++ ts) rest
    | .error e => collect load (issues.add (Issue.ofFailure path e)) found rest

/-- The bundle files of a directory in order of their paths. -/
def filesIn (t : FileTree) (path : String) : List String :=
  match t.find path with
  | .ok dir => ((dir.filesBelow path).filter isBundle).mergeSort (· ≤ ·)
  | .error _ => []

/-- The templates of a bundle file, or of all bundle files in a directory. -/
def load (t : FileTree) (path : String) : Decoding (List Template) :=
  match t.find path with
  | .ok (.directory _) => collect (loadFile t) {} [] (filesIn t path)
  | _ => loadFile t path

/-- The templates of several paths. -/
def loadAll (t : FileTree) (paths : List String) : Decoding (List Template) :=
  collect (load t) {} [] paths

end Interlude.Bundle
