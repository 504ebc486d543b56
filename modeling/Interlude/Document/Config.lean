import Interlude.Config
import Interlude.Document.Value
/-!
# Configurations as documents
-/

namespace Interlude.Document

/-- The renaming of a document, if there is one. -/
def readRenaming? : Json → Option (List (String × String))
  | .obj members => some (members.map fun (k, v) => (k, v.text))
  | _ => none

def readConfig (j : Json) : Config :=
  { paths := j.textsAt "paths", softLimit := Int64.ofInt (j.integerAt "softLimit"),
    active := j.textsAt "active"
    css := readRenaming? (j.member "css"), xid := readRenaming? (j.member "xid"),
      host := j.textAt "host"
    port := Int64.ofInt (j.integerAt "port"), level := j.textAt "level",
      format := j.textAt "format" }

def ofRenaming : Option (List (String × String)) → Json
  | none => .null
  | some names => .obj (names.map fun (k, v) => (k, .str v))

/-- A configuration, with whether each of some packages is active. -/
def ofConfig (c : Config) (packages : List String) : Json :=
  .obj [("paths", .ofTexts c.paths), ("softLimit", .int c.softLimit.toInt),
    ("debug", .bool c.debug), ("active", .ofTexts c.active), ("css", ofRenaming c.css),
    ("xid", ofRenaming c.xid), ("host", .str c.host),
    ("port", .int c.port.toInt), ("level", .str c.level), ("format", .str c.format),
    ("isActive", .obj (packages.map fun p => (p, .bool (c.context.isActive p))))]

def ofRemarks (rs : List Config.Remark) : Json :=
  .arr (rs.map fun r =>
    .obj [("field", .str r.field), ("message", .str r.message), ("suggestions", .ofTexts r.hints),
      ("text", .str r.text)])

/-- What a check found, apart from the failure it leads to. -/
def ofReport (r : Config.Report) : List (String × Json) :=
  [("errors", ofRemarks r.errors), ("warnings", ofRemarks r.warnings), ("text", .str r.text),
    ("hasErrors", .bool !r.errors.isEmpty), ("hasWarnings", .bool !r.warnings.isEmpty)]

/-- Settings of dotted names, set one after another. -/
def readOverrides (j : Json) : Reading Layer := do
  let data ← readMembers j.members
  return (data.mergeSort fun a b => a.1 ≤ b.1).foldl
    (fun layer (k, d) => Layer.put (Layer.folded d) (Layer.pathOf k) layer) []

end Interlude.Document
