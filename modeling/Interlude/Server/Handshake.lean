import Interlude.Server.Message
import Interlude.Text.Case
/-!
# Turning a request into a socket

A request asks for a socket with its headers. It is refused if they do not say so in the right
words, and if it comes from a page of a host that is not known.
-/

namespace Interlude.Handshake

/-- The version of the protocol. -/
def version : String := "13"

/-- Whether a text is sixteen bytes in base 64. -/
def isKey (s : String) : Bool :=
  let cs := s.toList
  cs.length == 24 && cs.drop 22 == ['=', '='] && (cs.take 22).all fun c =>
    c.isAlphanum || c == '+' || c == '/'

/-- What is wrong with the headers of a request for a socket: a status and a message. -/
def violation? (r : Request) : Option (Nat × String) :=
  let rule (text : String) : String := "WebSocket protocol violation: " ++ text
  let key := Text.trim (r.header "Sec-WebSocket-Key")
  if !r.lists "Connection" "Upgrade" then
    some (426, rule ("Connection header " ++ Text.quote (r.header "Connection") ++
      " does not contain Upgrade"))
  else if !r.lists "Upgrade" "websocket" then
    some (426, rule ("Upgrade header " ++ Text.quote (r.header "Upgrade") ++
      " does not contain websocket"))
  else if r.method != "GET" then
    some (405, rule ("handshake request method is not GET but " ++ Text.quote r.method))
  else if r.header "Sec-WebSocket-Version" != version then
    some (400, "unsupported WebSocket protocol version (only " ++ version ++ " is supported): "
      ++ Text.quote (r.header "Sec-WebSocket-Version"))
  else if key.isEmpty then some (400, rule "missing Sec-WebSocket-Key")
  else if !isKey key then
    some (400, rule ("invalid Sec-WebSocket-Key " ++ Text.quote key ++
      ", must be a 16 byte base64 encoded string"))
  else none

/-- What is wrong with the origin of a request: it has to be the host the request was sent to or one
of the known hosts. A request without an origin comes from no page. -/
def foreignOrigin? (known : List String) (r : Request) : Option String :=
  let origin := r.header "Origin"
  if origin.isEmpty then none
  else
    match Url.read? origin with
    | none => some ("failed to parse Origin header " ++ Text.quote origin)
    | some u =>
      if (r.host :: known).any fun h => Text.lowerEach h == Text.lowerEach u.hostName then none
      else if u.host.isEmpty then some
        ("request Origin " ++ Text.quote origin ++ " is not a valid URL with a host")
      else some ("request Origin " ++ Text.quote origin ++ " is not authorized for Host " ++
        Text.quote r.host)

/-- The response that refuses a socket, if there is a reason to. -/
def refusal? (known : List String) (r : Request) : Option Response :=
  match violation? r with
  | some (status, text) => some (Response.message status text)
  | none => (foreignOrigin? known r).map (Response.message 403)

/-- A request for a socket. -/
def request (target host : String) (headers : List (String × String)) : Request :=
  { target, host
    headers := headers ++ [("Connection", "Upgrade"), ("Upgrade", "websocket"),
      ("Sec-WebSocket-Version", version), ("Sec-WebSocket-Key", "AAAAAAAAAAAAAAAAAAAAAA==")] }

end Interlude.Handshake
