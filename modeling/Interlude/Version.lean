import Interlude.Text.Utf8
import Interlude.Text.Space
import Interlude.Time.Instant
/-!
# Versions

What a build tells about itself. The version `dev` and versions that start with `dev-` are
development builds.
-/

namespace Interlude

/-- A build. `unknown` stands for a commit nobody recorded. -/
structure Build where
  version : String := "dev"
  commit : String := "unknown"
  built : Instant := Instant.zero
  compiler : String := ""
  platform : String := ""
  dirty : Bool := false

namespace Build

def isRelease (b : Build) : Bool := b.version != "dev" && !b.version.startsWith "dev-"

/-- The length of a short commit in bytes. -/
def shortCommit : Nat := 7

/-- The version in one line, with a short commit if there is one. -/
def short (b : Build) : String :=
  if Text.byteLength b.commit < shortCommit || b.commit == "unknown" then b.version
  else
    let commit := Text.takeBytes shortCommit b.commit
    if b.version == "dev" then "dev-" ++ commit else b.version ++ " (" ++ commit ++ ")"

/-- The build, a line for each thing known about it. -/
def text (b : Build) : String :=
  let commit := if b.commit == "unknown" then []
    else ["Commit: " ++ b.commit ++ (if b.dirty then " (dirty)" else "")]
  let built := if b.built.isZero then [] else ["Built: " ++ b.built.text]
  Text.join "\n" (["Version: " ++ b.version] ++ commit ++ built
    ++ ["Go: " ++ b.compiler, "Platform: " ++ b.platform])

end Build

end Interlude
