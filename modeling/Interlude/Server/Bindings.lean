import Interlude.Json.Reader
import Interlude.Server.Message
import Interlude.Text.Utf8
import Interlude.Value.Json
/-!
# Data in requests

The query of a request binds names to texts, and a name that comes several times to the list of its
texts; names with a mark are injected data. The body of a `POST` is a document that binds names to
any values, and counts more than the query.
-/

namespace Interlude

/-- Data for a render. -/
structure Bindings where
  params : List (String × Datum) := []
  injected : List (String × Datum) := []
deriving Inhabited

namespace Bindings

/-- Marks the names of injected data in a query. -/
def injectedMark : String := "ij."

/-- The largest body that is read, in bytes. -/
def bodyLimit : Nat := Nat.pow 2 20

/-- The bindings of a query. -/
def ofQuery (query : String) : Bindings :=
  let pairs := Url.queryPairs query
  let names := (pairs.map (·.1)).eraseDups
  let bound := names.map fun name =>
    match (pairs.filter (·.1 == name)).map (·.2) with
    | [v] => (name, Datum.str v)
    | vs => (name, .list (vs.map .str))
  let (injected, params) := bound.partition (·.1.startsWith injectedMark)
  { params, injected := injected.map fun (name, d) =>
      (String.ofList (name.toList.drop injectedMark.length), d) }

/-- A number of a body: an integer if it is one of sixty-four bits, else the nearest floating
one. -/
def number (t : String) : Datum :=
  match Number.readInt64? t with
  | some i => .int i
  | none =>
    let (negative, digits) := match t.toList with
      | '-' :: rest => (true, rest)
      | rest => (false, rest)
    let f := (Number.readUnsigned digits).getD 0.0
    .float (if negative then -f else f)

/-- A key of a body as it is compared: in small letters, the long s being an s. -/
def foldKey (key : String) : String :=
    Text.lowerAscii (key.map fun c => if c = Char.ofNat 0x17F then 's' else c)

/-- Adds what a member of a body binds. A member with an unknown name binds nothing, and one that is
null takes back what one of its name has bound before it; `none` for one of another kind. -/
def addMember (b : Bindings) (key : String) (j : Json) : Option Bindings :=
  let bind (data : List (String × Datum)) : Option (List (String × Datum)) :=
    match j with
    | .null => some []
    | .obj members =>
      some ((Datum.ofMembers number members).foldl (fun data (k, d) => Datum.assign data k d) data)
    | _ => none
  match foldKey key with
  | "params" => (bind b.params).map ({ b with params := · })
  | "injected" => (bind b.injected).map ({ b with injected := · })
  | _ => some b

/-- The bindings of a body's document. What follows the document is not looked at. -/
def ofBody? (body : String) : Option Bindings :=
  match Json.readFirst (Text.takeBytes bodyLimit body) with
  | some (.null, _) => some {}
  | some (.obj members, _) => members.foldlM (fun b (key, j) => b.addMember key j) {}
  | _ => none

/-- Lets other bindings count more. -/
def override (b stronger : Bindings) : Bindings :=
  let merge (base stronger : List (String × Datum)) : List (String × Datum) :=
    stronger.foldl (fun data (k, d) => Datum.assign data k d) base
  { params := merge b.params stronger.params, injected := merge b.injected stronger.injected }

/-- The failure of a body that binds nothing. -/
def invalidBody : Failure :=
    .fault (Failure.argument .invalidArgument "invalid JSON body: not as expected")

/-- The bindings of a request. -/
def ofRequest (r : Request) : Except Failure Bindings :=
  let query := ofQuery r.location.query
  if r.method != "POST" then .ok query
  else
    match ofBody? r.body with
    | none => .error invalidBody
    | some stronger => .ok (query.override stronger)

end Bindings

end Interlude
