import Interlude.Document.Config
import Interlude.Json.Reader
import Interlude.Server
/-!
# Exchanges with a server as documents
-/

namespace Interlude.Document

/-- The server of a document that gives its host, soft limit and context; all else is as usual. -/
def readServer (j : Json) : Server :=
  let host := j.textAt "host"
  { config := { readConfig (j.member "context") with
      host := if host.isEmpty then "localhost" else host
      port := 8080
      softLimit := Int64.ofInt (j.integerAt "softLimit") } }

/-- The request of a document, sent to a host. -/
def readRequest (host : String) (j : Json) : Request :=
  let method := j.textAt "method"
  { method := if method.isEmpty then "GET" else method
    target := j.textAt "target"
    host
    headers := (j.member "headers").textMembers
    body := j.textAt "body" }

/-- The target of a location: a fragment is not sent. `none` if it is no location of that host. -/
def readTarget? (host location : String) : Option String := do
  let u ← Url.read? ("http://" ++ host ++ location)
  let path := if u.path.isEmpty then "/" else u.path
  if u.hostName == host then
    return path ++ (if u.query.isEmpty && !u.forceQuery then "" else "?" ++ u.query)
  else none

/-- The headers that documents show. -/
def shownHeaders : List String :=
  ["Content-Type", "X-Content-Type-Options", "Access-Control-Allow-Origin",
    "Access-Control-Allow-Methods", "Access-Control-Allow-Headers", "Allow"]

/-- A document without what differs from one moment to another. -/
def withoutMoment : Json → Json
  | .obj members => .obj (members.filter fun m => m.1 != "timestamp" && m.1 != "version")
  | other => other

/-- A response; `wording` goes over the text of a failure. -/
def ofResponse (wording : String → String) (r : Response) : Json :=
  let headers := r.headers.filter fun h => shownHeaders.contains h.1 && !h.2.isEmpty
  let reword (m : String × Json) : String × Json :=
    match m with
    | ("error", .str text) => ("error", .str (wording text))
    | other => other
  let payload := match r.payload with
    | .text s => ("body", .str s)
    | .json (.obj members) => ("json", withoutMoment (.obj (members.map reword)))
    | .json j => ("json", j)
  .obj [("status", .nat r.status), ("headers", .obj (headers.map fun (k, v) => (k, .str v))),
    ("flushed", .bool r.flushed), payload]

/-- The status of a response, and its document if that has members. -/
def ofStatus (r : Response) : Json :=
  let found := match r.payload with
    | .json j => some j
    | .text s => Json.read? s
  let json := match found with
    | some (.obj members) => some (withoutMoment (.obj members))
    | _ => none
  Json.ofPresent [("status", some (.nat r.status)), ("json", json)]

def ofRefusal (status : Nat) : Json := .obj [("refused", .nat status)]

/-- The number of clients. -/
def ofClients (s : Server) : Json := .obj [("clients", .nat s.hub.count)]

/-- What became of a request for a socket. -/
def ofSocket (s : Server) : Server.Socket → Json
  | .refused r => ofRefusal r.status
  | .render messages status reason =>
    .obj [("messages", .ofTexts messages), ("code", .nat status), ("reason", .str reason)]
  | .client _ => ofClients s

/-- What each client was told, nothing for one that is gone. -/
def ofNotices (s : Server) (told : List (ClientId × Notice)) : Json :=
  let one (id : ClientId) : Json :=
    if s.hub.clients.contains id then
      .arr ((told.filter (·.1 == id)).map fun (_, n) =>
        .arr [n.message.member "type", n.message.member "target",
          .bool (n.message.get? "timestamp").isSome])
    else .null
  .obj [("events", .arr ((List.range s.hub.mailboxes.length).map one))]

end Interlude.Document
