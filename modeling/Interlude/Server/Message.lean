import Interlude.Json.Basic
import Interlude.Text.Quoted
import Interlude.Url
/-!
# Requests and responses
-/

namespace Interlude

/-- A request. `host` is the host it was sent to. -/
structure Request where
  method : String := "GET"
  target : String := "/"
  host : String := ""
  headers : List (String × String) := []
  body : String := ""
deriving Repr, Inhabited

namespace Request

/-- The path and the query of the target. A target that begins with a slash names no host. -/
def location (r : Request) : Url :=
  if r.target.startsWith "/" then
    match Text.cut? '?' r.target with
    | some (path, query) => { path, query }
    | none => { path := r.target }
  else (Url.readBase r.target).getD {}

/-- The value of a header, whose name may be written in any case; empty if there is none. -/
def header (r : Request) (name : String) : String :=
  ((r.headers.find? fun h => Text.lowerAscii h.1 == Text.lowerAscii name).map (·.2)).getD ""

/-- Whether a header lists a word, in any case. -/
def lists (r : Request) (name word : String) : Bool :=
  (Text.split ',' (r.header name)).any fun t =>
    Text.lowerAscii (Text.trim t) == Text.lowerAscii word

end Request

/-- What a response carries. -/
inductive Payload where
  | text (s : String)
  | json (j : Json)
deriving Inhabited

/-- A response. `flushed` tells whether parts of it were sent before it was complete. -/
structure Response where
  status : Nat
  headers : List (String × String) := []
  payload : Payload := .text ""
  flushed : Bool := false
deriving Inhabited

namespace Response

/-- Forbids a browser to guess another type of content. -/
def noGuess : String × String := ("X-Content-Type-Options", "nosniff")

/-- A line of text. -/
def message (status : Nat) (line : String) : Response :=
  { status, headers := [("Content-Type", "text/plain; charset=utf-8"), noGuess],
    payload := .text (line ++ "\n") }

def json (status : Nat) (j : Json) : Response :=
  { status, headers := [("Content-Type", "application/json")], payload := .json j }

/-- The value of a header. -/
def header? (r : Response) (name : String) : Option String := r.headers.lookup name

end Response

end Interlude
