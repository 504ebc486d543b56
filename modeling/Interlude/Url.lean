import Interlude.Text.Quoted
import Interlude.Text.Space
import Interlude.Text.Search
import Interlude.Number.Read
/-!
# URLs

Reading and writing URLs, and the parts of a query. A path or fragment that is already encoded in a
valid way is kept as it was written.
-/

namespace Interlude

/-- A URL in its parts. `user`, `host`, `path` and `fragment` are as written; `omitHost` tells a
scheme followed by a path without a host. -/
structure Url where
  scheme : String := ""
  rest : Option String := none
  user : Option String := none
  host : String := ""
  path : String := ""
  omitHost : Bool := false
  forceQuery : Bool := false
  query : String := ""
  fragment : String := ""
deriving DecidableEq, Repr, Inhabited

namespace Url

/-- The part of a URL in which a character stands. -/
inductive Part where
  | path
  | segment
  | user
  | host
  | zone
  | query
  | fragment
deriving DecidableEq, Repr

def memberOf (n : Nat) (chars : String) : Bool := chars.toList.any (·.toNat == n)

/-- Whether a byte has to be encoded in a part. -/
def mustEncode (part : Part) (n : Nat) : Bool :=
  if Text.isUnreserved n then false
  else if (part == .host || part == .zone) && memberOf n "!$&'()*+,;=:[]<>\"" then false
  else if memberOf n "$&+,/:;=?@" then
    match part with
    | .path => n == '?'.toNat
    | .segment => memberOf n "/;,?"
    | .user => memberOf n "@/?:"
    | .query => true
    | .fragment => false
    | .host => true
    | .zone => true
  else if part == .fragment && memberOf n "!()*" then false
  else true

/-- Encodes bytes for a part. In a query a space is a plus sign. -/
def encodeBytes (part : Part) (bs : List Nat) : String :=
  String.join (bs.map fun n =>
    if part == .query && n == 0x20 then "+"
    else if mustEncode part n then Text.percentByte n
    else String.singleton (Char.ofNat n))

/-- Encodes a text for a part. -/
def encode (part : Part) (s : String) : String := encodeBytes part (Text.bytes s)

/-- Whether a text is a valid encoding for a part. -/
def isEncoded (part : Part) (s : String) : Bool :=
  (Text.bytes s).all fun n => memberOf n "!$&'()*+,;=:@[]%" || !mustEncode part n

/-- Whether a byte may not be written with a percent sign in a part. In a host only the percent sign
and what is not ASCII may; in a zone also what could stand there as it is, and a space. -/
def refusesEncoded (part : Part) (n : Nat) : Bool :=
  match part with
  | .host => n < 0x80 && n != 0x25
  | .zone => n != 0x25 && n != 0x20 && mustEncode .host n
  | _ => false

/-- Decodes percent signs; `none` if one is not followed by two digits. In a query a plus sign is a
space. -/
def decodeBytes (part : Part) : List Nat → Option (List Nat)
  | [] => some []
  | n :: rest =>
    if n = 0x25 then
      match rest with
      | a :: b :: rest =>
        match Number.hexValue? (Char.ofNat a), Number.hexValue? (Char.ofNat b) with
        | some x, some y =>
          if refusesEncoded part (16 * x + y) then none
          else (decodeBytes part rest).map ((16 * x + y) :: ·)
        | _, _ => none
      | _ => none
    else if (part == .host || part == .zone) && n < 0x80 && mustEncode part n then none
    else (decodeBytes part rest).map ((if part == .query && n == 0x2B then 0x20 else n) :: ·)

/-- Decodes a text of a part. -/
def decode? (part : Part) (s : String) : Option String :=
  (decodeBytes part (Text.bytes s)).map Text.ofBytes

/-- A scheme and what follows it. `none` if the text begins with a colon. -/
def splitScheme (cs : List Char) : Option (String × List Char) :=
  let lead := cs.takeWhile fun c => c.isAlphanum || c == '+' || c == '-' || c == '.'
  match cs.drop lead.length with
  | ':' :: rest =>
    match lead with
    | [] => none
    | c :: _ =>
      if c.isAlpha then some (String.ofList (lead.map Char.toLower), rest) else some ("", cs)
  | _ => some ("", cs)

/-- Whether text after a host is a colon and digits, or nothing. -/
def isPort : List Char → Bool
  | [] => true
  | ':' :: digits => digits.all Char.isDigit
  | _ => false

/-- Cuts at the last colon, which goes with the second part. -/
def splitPort (cs : List Char) : List Char × List Char :=
  let tail := cs.reverse.takeWhile (· != ':')
  if tail.length = cs.length then (cs, [])
  else (cs.take (cs.length - tail.length - 1), cs.drop (cs.length - tail.length - 1))

/-- Whether a host with its port is well formed. -/
def hostOk (host : String) : Bool :=
  let cs := host.toList
  if cs.head? == some '[' then
    let tail := cs.reverse.takeWhile (· != ']')
    tail.length != cs.length && isPort tail.reverse
  else isPort (splitPort cs).2

/-- Decodes a host. In brackets, what follows the first encoded percent sign is the zone of an
address. -/
def decodeHost? (host : String) : Option (List Nat) :=
  let decoded (part : Part) (cs : List Char) : Option (List Nat) :=
    decodeBytes part (Text.bytes (String.ofList cs))
  let cs := host.toList
  let inner := cs.take (cs.length - (cs.reverse.takeWhile (· != ']')).length - 1)
  match cs.head? == some '[', Text.index? (String.ofList inner) "%25" with
  | true, some i => do
    let address ← decoded .host (inner.take i)
    let zone ← decoded .zone (inner.drop i)
    let rest ← decoded .host (cs.drop inner.length)
    return address ++ zone ++ rest
  | _, _ => decoded .host cs

def userOk (user : String) : Bool :=
  user.toList.all fun c => c.isAlphanum || memberOf c.toNat "-._:~!$&'()*+,;=%@"

/-- Reads user and host. -/
def readAuthority (s : String) : Option (Option String × String) :=
  let cs := s.toList
  let tail := cs.reverse.takeWhile (· != '@')
  let host := String.ofList tail.reverse
  if !hostOk host then none
  else
    match decodeHost? host with
    | none => none
    | some _ =>
      if tail.length = cs.length then some (none, host)
      else
        let user := String.ofList (cs.take (cs.length - tail.length - 1))
        if userOk user && (decode? .user user).isSome then some (some user, host) else none

/-- Reads a URL without its fragment. -/
def readBase (s : String) : Option Url :=
  if s.toList.any fun c => c.toNat < 0x20 || c.toNat == 0x7F then none
  else if s == "*" then some { path := "*" }
  else do
    let (scheme, rest) ← splitScheme s.toList
    let (body, query, forced) :=
      match Text.cut? '?' (String.ofList rest) with
      | none => (String.ofList rest, "", false)
      | some (body, query) => (body, query, query.isEmpty)
    let url : Url := { scheme, query, forceQuery := forced }
    let slash := body.toList.head? == some '/'
    if !slash && !scheme.isEmpty then return { url with rest := some body }
    else if !slash && ((Text.split '/' body).head?.getD "").contains ':' then none
    else
      let hosted := body.startsWith "//" && (!scheme.isEmpty || !body.startsWith "///")
      let (authority, path) :=
        if hosted then
          let cs := body.toList.drop 2
          (String.ofList (cs.takeWhile (· != '/')), String.ofList (cs.dropWhile (· != '/')))
        else ("", body)
      let (user, host) ← if hosted then readAuthority authority else some (none, "")
      let _ ← decode? .path path
      return { url with user, host, path, omitHost := !hosted && !scheme.isEmpty && slash }

/-- Reads a URL. -/
def read? (s : String) : Option Url :=
  match Text.cut? '#' s with
  | none => readBase s
  | some (base, fragment) => do
    let url ← readBase base
    let _ ← decode? .fragment fragment
    return { url with fragment }

/-- The bytes that a part stands for. -/
def meant (part : Part) (s : String) : List Nat :=
    (decodeBytes part (Text.bytes s)).getD (Text.bytes s)

/-- A part as it is written: as it was given if that is a valid encoding, else encoded anew. -/
def written (part : Part) (s : String) : String :=
  if isEncoded part s then s else encodeBytes part (meant part s)

/-- The bytes of the host. -/
def hostBytes (u : Url) : List Nat := (decodeHost? u.host).getD []

/-- The host that is meant. -/
def hostName (u : Url) : String := Text.ofBytes u.hostBytes

/-- User and password, encoded anew. -/
def userText (user : String) : String :=
  let again (s : String) : String := encodeBytes .user (meant .user s)
  match Text.cut? ':' user with
  | some (name, password) => again name ++ ":" ++ again password
  | none => again user

/-- The URL as text. -/
def text (u : Url) : String :=
  let lead := if u.scheme.isEmpty then "" else u.scheme ++ ":"
  let path := if u.path == "*" || u.path == encode .path "*" then "*" else written .path u.path
  let body :=
    match u.rest with
    | some rest => rest
    | none =>
      let authority :=
        if u.scheme.isEmpty && u.host.isEmpty && u.user.isNone then ""
        else if u.omitHost && u.host.isEmpty && u.user.isNone then ""
        else
          (if !u.host.isEmpty || !u.path.isEmpty || u.user.isSome then "//" else "")
            ++ (match u.user with | some user => userText user ++ "@" | none => "") ++
            encodeBytes .host u.hostBytes
      let slash := if !path.isEmpty && !path.startsWith "/" && !u.host.isEmpty then "/" else ""
      let dot :=
        if lead.isEmpty && authority.isEmpty && ((Text.split '/' path).head?.getD "").contains
          ':' then "./" else ""
      authority ++ slash ++ dot ++ path
  let query := if u.forceQuery || !u.query.isEmpty then "?" ++ u.query else ""
  let fragment := if u.fragment.isEmpty then "" else "#" ++ written .fragment u.fragment
  lead ++ body ++ query ++ fragment

/-- One `key=value` of a query; `none` if it holds a semicolon or is not validly encoded. -/
def readPair (s : String) : Option (String × String) :=
  if s.contains ';' then none
  else
    let (key, value) := (Text.cut? '=' s).getD (s, "")
    match decode? .query key, decode? .query value with
    | some k, some v => some (k, v)
    | _, _ => none

/-- The keys and values of a query in order; a malformed pair is left out. -/
def queryPairs (query : String) : List (String × String) :=
  ((Text.split '&' query).filter (!·.isEmpty)).filterMap readPair

/-- A key and a value of a query as bytes. A key may stand alone. -/
abbrev Pair := List Nat × Option (List Nat)

/-- Reads a key and its value. `none` if one of them is not validly encoded. -/
def readBytes? (s : String) : Option Pair := do
  match Text.cut? '=' s with
  | some (key, value) =>
    return (← decodeBytes .query (Text.bytes key), some (← decodeBytes .query (Text.bytes value)))
  | none => return (← decodeBytes .query (Text.bytes s), none)

/-- The keys and values of a query, which semicolons separate, too. `none` if one is not validly
encoded. -/
def pairs? (query : String) : Option (List Pair) :=
  let parts := Text.split '&'
    (String.ofList (query.toList.map fun c => if c == ';' then '&' else c))
  (parts.filter (!·.isEmpty)).mapM readBytes?

/-- A query of keys and values. -/
def queryText (pairs : List Pair) : String :=
  Text.join "&" (pairs.map fun (key, value?) =>
    encodeBytes .query key ++ (match value? with
      | some value => "=" ++ encodeBytes .query value
      | none => ""))

end Url

end Interlude
