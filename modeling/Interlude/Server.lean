import Interlude.Config
import Interlude.Document.Template
import Interlude.Registry.Holder
import Interlude.Render.Drive
import Interlude.Server.Bindings
import Interlude.Server.Handshake
import Interlude.Server.Hub
import Interlude.Server.Route
import Interlude.Version
/-!
# The server

Answers requests from the registry that is published: renders as responses that are sent piece by
piece, the same renders as messages of a socket, a list of templates, and its own health. Clients
with a socket of their own are told when the registry changes.
-/

namespace Interlude

/-- What clients are told: a change of the registry, and when it was. -/
structure Notice where
  event : Event
  time : Instant
deriving DecidableEq, Repr, Inhabited

/-- The message of a notice. -/
def Notice.message (n : Notice) : Json :=
  .obj [("type", .str ("template_" ++ n.event.change.name)), ("target", .str n.event.name),
    ("timestamp", .str n.time.preciseText)]

/-- A server. It watches its holder, and `fresh` is an identity that no value in the registry
has. -/
structure Server where
  config : Config
  holder : Holder := { watchers := #[{}] }
  watcher : WatcherId := 0
  hub : Hub Notice := {}
  fresh : Identity := 0
  build : Build := {}

namespace Server

/-- The hosts whose pages may call the server. -/
def originHosts (s : Server) : List String :=
  [s.config.host, "localhost", "127.0.0.1"].map (Config.joinPort · (toString s.config.port.toInt))

def isAllowedOrigin (s : Server) (origin : String) : Bool :=
  s.originHosts.any fun h => origin == "http://" ++ h || origin == "https://" ++ h

/-! ## Failures -/

def noTemplates : Failure := .fault (.new .internal .internal "no templates loaded")

/-- Whether a failure lies in what was asked for. -/
def isRefusal (e : Failure) : Bool := e.isCategory .argument || e.hasCode .missingParam

/-- The status of a response to a request that failed. -/
def failureStatus (e : Failure) : Nat :=
  if e.hasCode .templateNotFound then 404 else if isRefusal e then 400 else 500

def failureResponse (e : Failure) : Response :=
  .json (failureStatus e) (Json.ofPresent [("error", some (.str e.text)),
    ("code", e.fault?.map fun f => .str f.code.name)])

/-! ## Answers -/

def health (s : Server) (now : Instant) : Response :=
  .json 200 (.obj [("status", .str (if s.holder.current.isSome then "healthy" else "degraded")),
    ("timestamp", .str now.preciseText), ("version", .str s.build.short),
    ("templates", .nat (Registry.namesOf s.holder.current).length), ("clients", .nat s.hub.count)])

def templates (s : Server) : Response :=
  match s.holder.current with
  | none => failureResponse noTemplates
  | some registry => .json 200 (.arr (Document.summaries registry))

/-- The type of a template's output. -/
def contentType (kind : ContentKind) : String :=
  let name := match kind with
    | .html => "html"
    | .css => "css"
    | .js => "javascript"
    | _ => "plain"
  "text/" ++ name ++ "; charset=utf-8"

/-- Renders a template, and gives what has been written and how it ended. -/
def stream (s : Server) (template : String) (data : Bindings) : Option Failure × Outlet :=
  let store : Store := {
    heap := { fresh := s.fresh }
    streams := { outlet := { base := .writer { limit := s.config.softLimit.toInt } } } }
  let (outcome, store) :=
    Registry.renderWith s.holder.current s.config.context (Host.timed [] false) stepLimit
    template data.params data.injected store
  (outcome.failure?, store.streams.outlet)

/-- A render as a response. Once something has been written it is too late to tell of a failure. -/
def render (s : Server) (template : String) (r : Request) : Response :=
  match s.holder.current, Bindings.ofRequest r with
  | none, _ => failureResponse noTemplates
  | some _, .error e => failureResponse e
  | some registry, .ok data =>
    let (failure, outlet) := s.stream template data
    match outlet.writes, failure with
    | [], some e => failureResponse e
    | [], none => { status := 200 }
    | writes, _ =>
      let kind := ((registry.find? template).map (·.kind)).getD .html
      { status := 200
        headers := [("Content-Type", contentType kind), Response.noGuess]
        payload := .text (String.join writes)
        flushed := outlet.isPushed }

/-- The answer of a route over a connection that cannot become a socket. -/
def answerRoute (s : Server) (now : Instant) (r : Request) : Route → Response
  | .health => s.health now
  | .templates => s.templates
  | .render template => s.render template r
  | .renderSocket _ | .reloads =>
    (Handshake.refusal? s.originHosts r).getD (Response.message 501 "Not Implemented")

/-- The headers that let pages of an allowed origin read a response. -/
def sharing (s : Server) (r : Request) : List (String × String) :=
  let origin := r.header "Origin"
  if s.isAllowedOrigin origin then
    [("Access-Control-Allow-Origin", origin),
      ("Access-Control-Allow-Methods", "GET, POST, OPTIONS"),
      ("Access-Control-Allow-Headers", "Content-Type")]
  else []

/-- The answer to a request. -/
def answer (s : Server) (now : Instant) (r : Request) : Response :=
  let response :=
    if r.method == "OPTIONS" then { status := 204 }
    else
      match Routing.decide r.method r.location with
      | .found route => s.answerRoute now r route
      | other => other.response r.method
  { response with headers := s.sharing r ++ response.headers }

/-! ## Sockets -/

/-- The largest reason a socket can be closed with, in bytes. -/
def reasonLimit : Nat := 120

/-- The status a socket is closed with after a render. -/
def closeStatus : Option Failure → Nat
  | none => 1000
  | some e =>
    if e.root == canceled then 1001
    else if isRefusal e || e.hasCode .templateNotFound then 1008
    else 1011

def closeReason : Option Failure → String
  | none => "done"
  | some e => Text.takeBytes reasonLimit e.text

/-- What becomes of a request for a socket. -/
inductive Socket where
  | refused (response : Response)
  | render (messages : List String) (status : Nat) (reason : String)
  | client (id : ClientId)

/-- Answers a request for a socket. -/
def accept (s : Server) (now : Instant) (r : Request) : Socket × Server :=
  let refuse : Socket × Server := (.refused (s.answer now r), s)
  match Routing.decide r.method r.location with
  | .found (.renderSocket template) =>
    match Handshake.refusal? s.originHosts r with
    | some _ => refuse
    | none =>
      let (failure, outlet) := s.stream template (Bindings.ofQuery r.location.query)
      (.render outlet.writes (closeStatus failure) (closeReason failure), s)
  | .found .reloads =>
    match Handshake.refusal? s.originHosts r with
    | some _ => refuse
    | none =>
      let (id, hub) := s.hub.register
      (.client id, { s with hub })
  | _ => refuse

/-- How often a client lets itself be sent elsewhere. -/
def moveLimit : Nat := 10

/-- The request that is answered in the end by someone who goes where a response sends him. -/
def settled (s : Server) (now : Instant) : Nat → Request → Request
  | 0, r => r
  | moves + 1, r =>
    match (s.answer now r).header? "Location" with
    | some target => settled s now moves { r with target }
    | none => r

/-! ## Changes -/

/-- Publishes a registry. The clients are told of each change, and take what they are told at
once. -/
def publish (s : Server) (now : Instant) (registry : Option Registry) :
    List (ClientId × Notice) × Server :=
  let (events, holder) := (s.holder.swap registry).drain s.watcher
  let (told, hub) := events.foldl (fun (told, hub) e =>
    let (more, hub) := (hub.broadcast ⟨e, now⟩).carryAll
    (told ++ more, hub)) ([], s.hub)
  (told, { s with holder, hub })

/-- A client has left. -/
def leave (s : Server) (id : ClientId) : Server := { s with hub := s.hub.unregister id }

/-- Lets all clients go. Nobody can connect after that. -/
def shutdown (s : Server) : Server := { s with hub := s.hub.shutdown }

end Server

end Interlude
