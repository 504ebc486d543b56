import Interlude.Text.Space
/-!
# Paths

The text of a path and its parts. Cleaning is lexical: it drops empty parts and `.`, and lets `..`
take away the part before it.
-/

namespace Interlude.Path

/-- Adds a part to the reversed parts of a cleaned path. -/
def cleanStep (rooted : Bool) (done : List String) (part : String) : List String :=
  if part == "" || part == "." then done
  else if part == ".." then
    match done with
    | [] => if rooted then [] else [".."]
    | last :: before => if last == ".." then ".." :: done else before
  else part :: done

/-- The parts of a cleaned path. -/
def cleanParts (path : String) : List String :=
  let parts := Text.split '/' path
  (parts.foldl (cleanStep (path.startsWith "/")) []).reverse

/-- The text of a path's parts. -/
def ofParts (rooted : Bool) (parts : List String) : String :=
  if rooted then "/" ++ Text.join "/" parts
  else if parts.isEmpty then "." else Text.join "/" parts

/-- The shortest path that means the same. -/
def clean (path : String) : String := ofParts (path.startsWith "/") (cleanParts path)

/-- The path of an entry of a directory, cleaned. -/
def join (dir name : String) : String :=
  if dir.isEmpty then clean name else clean (dir ++ "/" ++ name)

/-- The last part of a path. -/
def base (path : String) : String :=
  if path.isEmpty then "."
  else
    match (Text.split '/' path).filter (!·.isEmpty) with
    | [] => "/"
    | parts => parts.getLast?.getD ""

/-- All but the last part of a path, cleaned. -/
def dir (path : String) : String :=
  match (Text.split '/' path).reverse with
  | [] => "."
  | _ :: before =>
    let lead := Text.join "/" before.reverse
    if before.isEmpty then "." else clean (lead ++ "/")

/-- What follows the last point of the last part, with the point. -/
def extension (path : String) : String :=
  let last := ((Text.split '/' path).getLast?.getD "").toList
  match last.reverse.dropWhile (· != '.') with
  | [] => ""
  | _ :: _ => "." ++ String.ofList (last.reverse.takeWhile (· != '.')).reverse

def isHidden (name : String) : Bool := name.startsWith "."

end Interlude.Path
