import Interlude.Bundle.Load
import Interlude.Text.Search
/-!
# What is watched

A directory is watched with all directories below it, except for those whose name starts with a dot
and what is below them. A single file is watched through its directory. Of what changes in a watched
directory only bundles count, and of them neither hidden ones nor those of a repository's own data.
-/

namespace Interlude.Watch

/-- Whether a path is not hidden by its own name. -/
def isVisible (path : String) : Bool := !Path.isHidden (Path.base path)

/-- Whether a path lies outside the data of a repository. -/
def isOutsideGit (path : String) : Bool :=
  !path.startsWith ".git/" && (Text.index? path "/.git/").isNone

/-- Whether a change of a path counts. -/
def accepts (path : String) : Bool := Bundle.isBundle path && isVisible path && isOutsideGit path

mutual

/-- The directories at and below a path. A directory with a dot in front of its name is passed over,
unless its path is `root` itself. -/
def directoriesFrom (root path name : String) : FileTree → List String
  | .file _ => []
  | .directory entries =>
    if path != root && Path.isHidden name then [] else path :: directoriesIn root path entries

def directoriesIn (root path : String) : List (String × FileTree) → List String
  | [] => []
  | (name, t) :: rest =>
    directoriesFrom root (Path.join path name) name t ++ directoriesIn root path rest

end

/-- The directories that are watched for a directory. -/
def recursive (files : FileTree) (root : String) : List String :=
  let path := Path.clean root
  match files.find path with
  | .ok dir => directoriesFrom root path (Path.base path) dir
  | .error _ => []

/-- The directories that are watched for a path; what is not there is not watched. -/
def directories (files : FileTree) (path : String) : List String :=
  match files.find path with
  | .ok (.directory _) => recursive files path
  | .ok (.file _) => [Path.dir path]
  | .error _ => []

end Interlude.Watch
