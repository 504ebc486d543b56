import Interlude.Config.Settings
import Interlude.Context
import Interlude.File.Tree
import Interlude.Log
import Interlude.Number.Literal
/-!
# Configuration

What a user can fix for all commands: where bundles are, how renders flush, which delegate packages
are active, renamings, the address of the server, and logging. A configuration is read from settings
leniently: a value of another kind is taken for what it says if that is clear. It is then checked,
and what is wrong with it is an error or only a warning.
-/

namespace Interlude

/-- A configuration. Renamings that were never mentioned are absent. -/
structure Config where
  paths : List String := []
  softLimit : Int64 := 0
  debug : Bool := false
  active : List String := []
  css : Option (List (String × String)) := none
  xid : Option (List (String × String)) := none
  host : String := ""
  port : Int64 := 0
  level : String := ""
  format : String := ""

namespace Config

def defaultSoftLimit : Int64 := 4096

/-- What holds where nothing else is said. -/
def defaults : Layer := [
  ("bundle", .named [("paths", .list [.str "."])]),
  ("render", .named [("soft_limit", .int defaultSoftLimit), ("debug_info", .bool false)]),
  ("server", .named [("host", .str "localhost"), ("port", .int 8080)]),
  ("log", .named [("level", .str "info"), ("format", .str "text")])]

/-! ## Lenient reading

Each reader gives nothing for a value that cannot be taken for what is asked. Null is no value: it
leaves the empty one. -/

def asInt? : Datum → Option Int64
  | .null => some 0
  | .int i => some i
  | .unsigned n => some (Int64.ofNat n)
  | .float f => some f.toInt64
  | .bool b => some (if b then 1 else 0)
  | .str s => if s.isEmpty then some 0 else (Number.readLiteral s).toOption
  | _ => none

def asFlag? : Datum → Option Bool
  | .null => some false
  | .bool b => some b
  | .int i => some (i != 0)
  | .unsigned n => some (n != 0)
  | .float f => some (f != 0.0)
  | .str s => if s.isEmpty then some false else Number.readFlag? s
  | _ => none

def asText? : Datum → Option String
  | .null => some ""
  | .str s => some s
  | .bool b => some (if b then "1" else "0")
  | .int i => some (toString i.toInt)
  | .unsigned n => some (toString n)
  | .float f => some (Number.positionalText f)
  | _ => none

/-- Texts: a list of them, one text with commas, or a single value. -/
def asTexts? : Datum → Option (List String)
  | .null => some []
  | .str s => some (if s.isEmpty then [] else Text.split ',' s)
  | .list items => items.mapM asText?
  | .named [] => some []
  | d => (asText? d).map fun t => [t]

/-- Adds named texts to those of an earlier mapping. -/
def addTexts (found : List (String × String)) : List (String × Datum) →
    Option (List (String × String))
  | [] => some found
  | (k, d) :: rest => do
    let t ← asText? d
    addTexts (found.filter (·.1 != k) ++ [(k, t)]) rest

/-- Named texts: a mapping, or a list of mappings taken together. A value of no kind of its own,
such as a date, has none. -/
def asRenaming? : Datum → Option (Option (List (String × String)))
  | .null => some none
  | .named members => some <$> addTexts [] members
  | .foreign _ => some (some [])
  | .list [] => some (some [])
  | .list items => items.foldlM (fun found item =>
      match item with
      | .null => some found
      | .foreign _ => some (some (found.getD []))
      | .named members => some <$> addTexts (found.getD []) members
      | _ => none) none
  | _ => none

/-- A section of settings; a value of no kind of its own has none in it. -/
def section? (layer : Layer) (name : String) : Option Layer :=
  match layer.lookup name with
  | none => some []
  | some .null => some []
  | some (.foreign _) => some []
  | some (.named members) => some members
  | some _ => none

/-- Reads a whole configuration, sections and all. -/
def decode? (layer : Layer) : Option Config := do
  let bundle ← section? layer "bundle"
  let render ← section? layer "render"
  let delegates ← section? layer "delegates"
  let names ← section? layer "renaming"
  let server ← section? layer "server"
  let log ← section? layer "log"
  let field (l : Layer) (key : String) : Datum := (l.lookup key).getD .null
  return {
    paths := ← asTexts? (field bundle "paths")
    softLimit := ← asInt? (field render "soft_limit")
    debug := ← asFlag? (field render "debug_info")
    active := ← asTexts? (field delegates "active")
    css := ← asRenaming? (field names "css")
    xid := ← asRenaming? (field names "xid")
    host := ← asText? (field server "host")
    port := ← asInt? (field server "port")
    level := ← asText? (field log "level")
    format := ← asText? (field log "format") }

/-! ## Lists

A list setting may come as a list, or as one text with commas or blanks between its items. -/

/-- The words of a text. -/
def words (s : String) : List String :=
  let spaced := String.ofList (s.toList.map fun c => if Text.isSpace c then ' ' else c)
  (Text.split ' ' spaced).filter (!·.isEmpty)

/-- The text of an item of a list. -/
def itemText : Datum → String
  | .null => ""
  | .bool b => if b then "true" else "false"
  | d => (asText? d).getD ""

/-- The texts of a list setting. -/
def listTexts : Datum → List String
  | .list items => items.map itemText
  | .str s => words s
  | .named _ => []
  | .foreign _ => []
  | d => [itemText d]

/-- The items between commas, trimmed, without empty ones. -/
def splitItems (texts : List String) : List String :=
  ((texts.flatMap (Text.split ',')).map Text.trim).filter (!·.isEmpty)

/-- A list setting, if it has a value. -/
def listSetting? (s : Settings) (name : String) : Option (List String) :=
  (s.get? name).map fun d => splitItems (listTexts d)

/-! ## Checking -/

/-- Something to say about a configuration, with hints on what to do. -/
structure Remark where
  field : String
  message : String
  hints : List String := []
deriving DecidableEq, Repr, Inhabited

def Remark.text (r : Remark) : String := "validation error in " ++ r.field ++ ": " ++ r.message

/-- A fault in the settings, under the name of the setting if there is one. -/
def fault (field message : String) : Fault :=
  let lead := "invalid configuration: "
  if field.isEmpty then .new .config .configInvalid (lead ++ message)
  else (Fault.new .config .configInvalid (lead ++ field ++ ": " ++ message)).detail "field" field

/-- What a check found. -/
structure Report where
  errors : List Remark := []
  warnings : List Remark := []
deriving DecidableEq, Repr, Inhabited

namespace Report

def add (a b : Report) : Report := ⟨a.errors ++ b.errors, a.warnings ++ b.warnings⟩

def error (r : Remark) : Report := { errors := [r] }
def warning (r : Remark) : Report := { warnings := [r] }

def all (rs : List Report) : Report := rs.foldl add {}

/-- The remarks under a title, each with its hints. -/
def listing (title : String) (rs : List Remark) : String :=
  if rs.isEmpty then ""
  else title ++ ":\n" ++ String.join (rs.map fun r =>
    "  " ++ r.field ++ ": " ++ r.message ++ "\n"
      ++ String.join (r.hints.map fun h => "    hint: " ++ h ++ "\n"))

def text (r : Report) : String := listing "errors" r.errors ++ listing "warnings" r.warnings

/-- The first error stands for all. -/
def failure? (r : Report) : Option Failure :=
  match r.errors with
  | [] => none
  | [e] => some (.fault (fault e.field e.message))
  | e :: rest => some (.fault ((fault e.field e.message).detail "more" (toString rest.length)))

end Report

def checkPaths (c : Config) (files : FileTree) : Report :=
  if c.paths.isEmpty then
    .error ⟨"bundle.paths", "no bundle paths specified",
      ["Add a directory holding *.yaml bundles, e.g. './templates'"]⟩
  else
    Report.all ((c.paths.filter (!files.hasPath ·)).map fun p =>
      .warning { field := "bundle.paths",
                 message := "bundle path " ++ Text.quote p ++ " does not exist" })

def checkRender (c : Config) : Report :=
  if c.softLimit < 0 then
    .error ⟨"render.soft_limit", "soft limit " ++ toString c.softLimit.toInt ++ " is negative",
      ["Use 0 to never yield for flushing",
        "Use " ++ toString defaultSoftLimit.toInt ++ " for the default"]⟩
  else {}

/-- The texts that stood earlier in the list already. -/
def repeated (seen : List String) : List String → List String
  | [] => []
  | t :: rest => if seen.contains t then t :: repeated seen rest else repeated (t :: seen) rest

def checkDelegates (c : Config) : Report :=
  Report.all ((repeated [] c.active).map fun p =>
    .warning { field := "delegates.active",
               message := "delegate package " ++ Text.quote p ++ " listed twice" })

/-- Whether a text has one of the given characters. -/
def hasAny (chars text : String) : Bool := text.toList.any chars.toList.contains

def checkRenaming (field : String) (renamed : Option (List (String × String))) : Report :=
  let sorted := (renamed.getD []).mergeSort fun a b => a.1 ≤ b.1
  Report.all ((sorted.filter fun r => r.2.isEmpty || hasAny " \t\n\"'<>" r.2).map fun r =>
    .error { field, message := Text.quote r.1 ++ " renames to invalid name " ++ Text.quote r.2 })

def checkPort (c : Config) : Report :=
  if c.port < 0 || 65535 < c.port then
    .error ⟨"server.port", "port " ++ toString c.port.toInt ++ " is not in valid range 0-65535",
      ["Common development ports: 3000, 8080, 8000",
        "Port 0 allows system to assign an available port"]⟩
  else if 0 < c.port && c.port < 1024 then
    .warning { field := "server.port", message := "port below 1024 requires elevated privileges" }
  else {}

def checkHost (c : Config) : Report :=
  if hasAny ";&|$\x60()<>\"'\\ " c.host then
    .error ⟨"server.host", "invalid host " ++ Text.quote c.host,
      ["Use 'localhost' for local development", "Use '0.0.0.0' to bind to all interfaces"]⟩
  else {}

def checkLog (c : Config) : Report :=
  let level : Report := match Log.Level.read c.level with
    | .ok _ => {}
    | .error e => .error ⟨"log.level", e.text, ["Use one of debug, info, warn, error"]⟩
  let format : Report := if ["", "text", "json"].contains c.format then {}
    else .error ⟨"log.format", "unknown log format " ++ Text.quote c.format,
      ["Use 'text' or 'json'"]⟩
  level.add format

/-- Checks a configuration, section by section, against the files that are there. -/
def check (c : Config) (files : FileTree) : Report :=
  Report.all [c.checkPaths files, c.checkRender, c.checkDelegates,
    checkRenaming "renaming.css" c.css, checkRenaming "renaming.xid" c.xid, c.checkPort,
    c.checkHost, c.checkLog]

/-! ## Use -/

/-- The configuration of settings, if it has no errors. -/
def load (s : Settings) (files : FileTree) : Except Failure Config :=
  match decode? s.merged with
  | none => .error (.fault (fault "" "decoding failed"))
  | some c =>
    let c := { c with
      paths := (listSetting? s "bundle.paths").getD c.paths
      active := (listSetting? s "delegates.active").getD c.active }
    match (c.check files).failure? with
    | some e => .error e
    | none => .ok c

/-- A host and a port; a host with colons stands in brackets. -/
def joinPort (host port : String) : String :=
  (if host.toList.contains ':' then "[" ++ host ++ "]" else host) ++ ":" ++ port

/-- The address of the server. -/
def address (c : Config) : String := joinPort c.host (toString c.port.toInt)

/-- The level of the logger. -/
def logLevel (c : Config) : Except Failure Log.Level :=
  match Log.Level.read c.level with
  | .ok level => .ok level
  | .error e => .error (.fault (fault "log.level" e.text))

/-- The context of renders. -/
def context (c : Config) : Context :=
  { css := c.css.getD [], xid := c.xid.getD [], active := c.active.contains, debug := c.debug }

end Config

end Interlude
