import Interlude.File.Path
import Interlude.Server.Message
import Interlude.Text.Quoted
/-!
# Routes

Where a request goes. A path is first cleaned; one that was not clean is answered with the clean
one. The segments of a path are decoded one by one, so that a slash within a segment stays in it. A
route has a list of methods, and whoever may read may also ask for the headers alone.
-/

namespace Interlude

/-- What the server has to offer. -/
inductive Route where
  | health
  | templates
  | render (template : String)
  | renderSocket (template : String)
  | reloads
deriving DecidableEq, Repr

namespace Route

def methods : Route → List String
  | render _ => ["GET", "HEAD", "POST"]
  | _ => ["GET", "HEAD"]

/-- Whether a segment can stand for a name. -/
def isName (segment : String) : Bool := segment != "" && segment != "/"

/-- The route of a path's decoded segments. -/
def ofSegments? : List String → Option Route
  | ["health"] => some health
  | ["templates"] => some templates
  | ["ws"] => some reloads
  | ["render", name] => if isName name then some (render name) else none
  | ["ws", "render", name] => if isName name then some (renderSocket name) else none
  | _ => none

/-- A path without empty and dotted segments. A slash at the end stays. -/
def cleanPath (path : String) : String :=
  let path := if path.startsWith "/" then path else "/" ++ path
  let cleaned := Path.clean path
  if path.endsWith "/" && cleaned != "/" then cleaned ++ "/" else cleaned

/-- The segments of an encoded path. One that cannot be decoded stays as it is. -/
def segments (path : String) : List String :=
  (Text.split '/' path).tail.map fun s => (Url.decode? .segment s).getD s

end Route

/-- Where a request goes. -/
inductive Routing where
  | found (route : Route)
  | moved (location : String)
  | notAllowed (methods : List String)
  | unknown
  | malformed
deriving DecidableEq, Repr

namespace Routing

/-- Decides about a method and a location. A tunnel's path is taken as it is. -/
def decide (method : String) (location : Url) : Routing :=
  if location.path == "*" then .malformed
  else
    let path := Url.written .path location.path
    let cleaned := if method == "CONNECT" then path else Route.cleanPath path
    if cleaned != path then
      .moved (Url.encode .path cleaned ++
        (if location.query.isEmpty then "" else "?" ++ location.query))
    else
      match Route.ofSegments? (Route.segments path) with
      | none => .unknown
      | some route =>
        if route.methods.contains method then .found route else .notAllowed route.methods

/-- The response to a request that leads to no route. -/
def response (method : String) : Routing → Response
  | .found _ => { status := 200 }
  | .moved location =>
    let reads := method == "GET" || method == "HEAD"
    { status := 301
      headers := ("Location", location) ::
      (if reads then [("Content-Type", "text/html; charset=utf-8")] else [])
      payload := .text (if method == "GET" then
        "<a href=\"" ++ Text.escapeHtml location ++ "\">Moved Permanently</a>.\n\n" else "") }
  | .notAllowed methods =>
    let plain := Response.message 405 "Method Not Allowed"
    { plain with headers := ("Allow", Text.join ", " methods) :: plain.headers }
  | .unknown => Response.message 404 "404 page not found"
  | .malformed => { status := 400 }

end Routing

end Interlude
