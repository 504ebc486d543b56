import Interlude.Document.Value
import Interlude.Render.Drive
/-!
# Renders as documents

The context of a render, what a saved frame shows, what was logged, and how a session's futures pass
into a render and out of it.
-/

namespace Interlude.Document

/-- The context of a document. -/
def readContext (j : Json) : Context :=
  { css := (j.member "css").textMembers, xid := (j.member "xid").textMembers,
    active := (j.textsAt "active").contains,
    debug := j.flagAt "debug" }

/-- Hands the session's futures to a store. -/
def enterStore (s : Store) : Reading Store := do
  let session ← get
  return { s with heap := { s.heap with futures := session.futures, fresh := session.fresh } }

/-- Takes the futures of a store back. -/
def leaveStore (s : Store) : Reading Unit :=
  modify fun session => { session with futures := s.heap.futures, fresh := s.heap.fresh }

/-- The frame a suspended render has saved. -/
def ofFrame? (s : Store) (id : RenderId) : Option Json := do
  let r ← s.renders[id]?
  let f ← r.status.frame?
  let x ← r.program.code[f.state]?.bind (·.extent)
  return .obj [("state", .nat f.state), ("layout", .str x.site.layout.signature),
    ("cells", .nat f.cells.length)]

/-- The fields of an entry as texts. -/
def ofLogFields (fs : Futures) (e : Log.Entry) : Json :=
  .ofTexts (e.fields.flatMap fun (k, d) => [k, Log.datumText fs d])

def ofEntry (fs : Futures) (e : Log.Entry) : Json :=
  .obj [("level", .str (Text.lowerAscii e.level.name)), ("msg", .str e.message),
    ("fields", ofLogFields fs e)]

end Interlude.Document
