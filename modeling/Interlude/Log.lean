import Interlude.Value.Box
import Interlude.Value.Text
import Interlude.Json.Writer
import Interlude.Text.Space
/-!
# Logging

A log is a sequence of entries: a level, a message and named fields. A logger decides by its level
which entries it keeps and writes each as one line, either of `name=value` pairs or as a JSON
document.
-/

namespace Interlude

namespace Log

/-- How urgent an entry is, and the least urgency a logger keeps. -/
inductive Level where
  | debug
  | info
  | warn
  | error
  | fatal
deriving DecidableEq, Repr, Inhabited

namespace Level

def name : Level → String
  | debug => "DEBUG"
  | info => "INFO"
  | warn => "WARN"
  | error => "ERROR"
  | fatal => "FATAL"

def rank : Level → Nat
  | debug => 0
  | info => 1
  | warn => 2
  | error => 3
  | fatal => 4

/-- Reads a level's name in any case; no name means `info`. -/
def read (s : String) : Except Failure Level :=
  match Text.lowerAscii (Text.trim s) with
  | "debug" => .ok debug
  | "" | "info" => .ok info
  | "warn" | "warning" => .ok warn
  | "error" => .ok error
  | "fatal" => .ok fatal
  | _ => .error (.plain ("unknown log level " ++ Text.quote s))

/-- The level shown in lines; nothing stands above errors there. -/
def shown : Level → Level
  | fatal => error
  | l => l

end Level

/-- A named detail of an entry. -/
abbrev Field := String × Datum

/-- Something that was logged. -/
structure Entry where
  level : Level
  message : String
  error : Option String := none
  fields : List Field := []

/-- The entry for a failure somebody has to know of. Bad templates and settings are only a
warning. -/
def Entry.ofFailure (e : Failure) : Entry :=
  match e.fault? with
  | none => { level := .error, message := "Unhandled error occurred", error := some e.text }
  | some f =>
    let mild := f.category == .compile || f.category == .config
    { level := if mild then .warn else .error
      message := if mild then "Template error occurred" else "Render error occurred"
      error := some e.atFault.text
      fields := [("type", .str f.category.name), ("code", .str f.code.name),
        ("template", .str f.template)] }

inductive Format where
  | pairs
  | json
deriving DecidableEq, Repr, Inhabited

/-- Lines are JSON documents if the format's name is `json`, pairs otherwise. -/
def Format.ofName (s : String) : Format := if s == "json" then .json else .pairs

/-- The fields of alternating names and values. What is no name is left out together with its value,
and so is a last name without a value. -/
def fieldsOf : List Datum → List Field
  | .str name :: value :: rest => (name, value) :: fieldsOf rest
  | _ :: _ :: rest => fieldsOf rest
  | _ => []

/-- Members sorted by name; of two with one name the later counts. -/
def sortedMembers (members : List (String × α)) : List (String × α) :=
  let latest := members.foldr (fun m acc => if acc.any (·.1 == m.1) then acc else m :: acc) []
  latest.mergeSort fun a b => a.1 ≤ b.1

mutual

/-- The text of a field's value inside pairs. -/
def datumText (fs : Futures) : Datum → String
  | .null => "<nil>"
  | .bool b => if b then "true" else "false"
  | .int i => toString i.toInt
  | .unsigned n => toString n
  | .float f => Number.plainText f
  | .str s => s
  | .list items => "[" ++ String.intercalate " " (itemTexts fs items) ++ "]"
  | .named members =>
    "map[" ++ String.intercalate " " ((sortedMembers (memberTexts fs members)).map fun m =>
      m.1 ++ ":" ++ m.2) ++ "]"
  | .keyed members => "map[" ++ String.intercalate " " (entryTexts fs members) ++ "]"
  | .foreign typeName => typeName
  | .boxed v => v.text fs

def itemTexts (fs : Futures) : List Datum → List String
  | [] => []
  | d :: rest => datumText fs d :: itemTexts fs rest

def memberTexts (fs : Futures) : List (String × Datum) → List (String × String)
  | [] => []
  | (name, d) :: rest => (name, datumText fs d) :: memberTexts fs rest

def entryTexts (fs : Futures) : List (Datum × Datum) → List String
  | [] => []
  | (k, d) :: rest => (datumText fs k ++ ":" ++ datumText fs d) :: entryTexts fs rest

end

/-- Boxed values keep what they hold to themselves, text and content apart. -/
def valueJson : Value → Json
  | .bool b => .bool b
  | .int i => .int i.toInt
  | .float f => .num (Number.signedText f)
  | .str s => .str s
  | .content kind s => .obj [("ContentKind", .str kind.name), ("Content", .str s)]
  | _ => .obj []

mutual

/-- The document of a field's value; a number without digits has none. -/
def datumJson : Datum → Except Failure Json
  | .null => .ok .null
  | .bool b => .ok (.bool b)
  | .int i => .ok (.int i.toInt)
  | .unsigned n => .ok (.nat n)
  | .float f =>
    if f.isNaN || f.isInf then .error (.plain ("json: unsupported value: " ++ Number.plainText f))
    else .ok (.num (Number.signedText f))
  | .str s => .ok (.str s)
  | .list items => return .arr (← itemsJson items)
  | .named members => return .obj (sortedMembers (← membersJson members))
  | .keyed _ => .ok (.obj [])
  | .foreign _ => .ok (.obj [])
  | .boxed v => .ok (valueJson v)

def itemsJson : List Datum → Except Failure (List Json)
  | [] => .ok []
  | d :: rest => do
    let j ← datumJson d
    return j :: (← itemsJson rest)

def membersJson : List (String × Datum) → Except Failure (List (String × Json))
  | [] => .ok []
  | (name, d) :: rest => do
    let j ← datumJson d
    return (name, j) :: (← membersJson rest)

end

/-- Whether a character inside pairs asks for quotes. -/
def asksQuotes (c : Char) : Bool :=
  if c.toNat < 0x80 then c.toNat ≤ 0x20 || c == '=' || c == '"'
  else c == Char.ofNat 0xFFFD || Text.isSpace c || !Text.isPrintable c

/-- A name or text inside pairs, between quotes if it has to be. -/
def pairText (s : String) : String :=
  if s.isEmpty || s.toList.any asksQuotes then Text.quote s else s

/-- The value of a field inside pairs; numbers and booleans never need quotes. -/
def pairValue (fs : Futures) (d : Datum) : String :=
  match d with
  | .bool _ | .int _ | .unsigned _ | .float _ => datumText fs d
  | d => pairText (datumText fs d)

/-- The value of a field inside a JSON line. -/
def jsonValue (d : Datum) : String :=
  match d with
  | .str s => Json.writeString .logged s
  | d =>
    match datumJson d with
    | .ok j => j.compact .plain
    | .error e => Json.writeString .logged ("!ERROR:" ++ e.text)

/-- Where entries go. -/
structure Logger where
  level : Level := .info
  format : Format := .pairs
  component : String := ""
  fields : List Field := []

namespace Logger

/-- A logger that adds fields to all entries; a field of the same name is replaced. -/
def addFields (l : Logger) (more : List Field) : Logger :=
  { l with fields := more.foldl (fun acc f =>
      if acc.any (·.1 == f.1) then acc.map (fun g => if g.1 == f.1 then f else g)
        else acc ++ [f]) l.fields }

/-- Whether an entry is kept. Fatal entries always are. -/
def keeps (l : Logger) (level : Level) : Bool := level == .fatal || l.level.rank ≤ level.rank

/-- The fields of a line: component, error, the logger's own, and the entry's. One with neither name
nor value is left out. -/
def lineFields (l : Logger) (e : Entry) : List Field :=
  let component := if l.component.isEmpty then [] else [("component", Datum.str l.component)]
  let error := (e.error.map fun text => ("error", Datum.str text)).toList
  (component ++ error ++ l.fields ++ e.fields).filter fun (name, d) =>
    match d with
    | .null => !name.isEmpty
    | _ => true

/-- The line of an entry, without its time. -/
def line (fs : Futures) (l : Logger) (e : Entry) : String :=
  let fields := l.lineFields e
  match l.format with
  | .pairs =>
    let pairs := fields.map fun (name, d) => pairText name ++ "=" ++ pairValue fs d
    String.intercalate " " (["level=" ++ e.level.shown.name, "msg=" ++ pairText e.message] ++ pairs)
  | .json =>
    let members := [("level", .str e.level.shown.name), ("msg", .str e.message)] ++ fields
    "\x7b" ++ String.intercalate "," (members.map fun (name, d) =>
      Json.writeString .logged name ++ ":" ++ jsonValue d) ++ "\x7d"

/-- The line of an entry that is kept. -/
def line? (fs : Futures) (l : Logger) (e : Entry) : Option String :=
  if l.keeps e.level then some (l.line fs e) else none

end Logger

end Log

end Interlude
