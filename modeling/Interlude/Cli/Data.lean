import Interlude.Cli.Flag
import Interlude.File.Tree
import Interlude.Render.Drive
import Interlude.Value.Json
import Interlude.Yaml.Node.Datum
/-!
# Data for a render

Params and injected data as a command line gives them: a file of params, assignments `name=value`
whose values are documents, and params that arrive only after a while.
-/

namespace Interlude.Cli

/-- The flags that describe data. -/
structure DataFlags where
  file : String := ""
  params : List String := []
  injected : List String := []
  deferred : List String := []
deriving DecidableEq, Repr, Inhabited

def DataFlags.ofGiven (g : Given) : DataFlags :=
  ⟨g.last "params", g.all "param", g.all "ij", g.all "defer"⟩

/-- The data of a render. A deferred param has a value too, which is not there at first. -/
structure Inputs where
  params : List (String × Datum) := []
  injected : List (String × Datum) := []
  deferred : List (String × Value) := []
deriving Inhabited

/-- Adds an assignment. An empty document is the text itself, unless it is written as null. -/
def addAssignment (data : List (String × Datum)) (a : String) :
    Except Failure (List (String × Datum)) :=
  match Text.cut? '=' a with
  | none | some ("", _) =>
    .error (.plain ("invalid assignment " ++ Text.quote a ++ ", want name=value"))
  | some (name, raw) =>
    match Yaml.value raw with
    | .error e => .error (.plain ("invalid value for " ++ name ++ ": " ++ e))
    | .ok .null =>
      .ok (Datum.assign data name (if raw == "null" || raw == "~" then .null else .str raw))
    | .ok d => .ok (Datum.assign data name d)

/-- The params of a file. -/
def readParams (files : FileTree) (path : String) : Except Failure (List (String × Datum)) :=
  if path.isEmpty then .ok []
  else
    match files.read path with
    | .error e => .error (e.under ("failed to read params file " ++ path))
    | .ok text =>
      match Yaml.fields text with
      | .error e => .error (.plain ("invalid YAML in params file " ++ path ++ ": " ++ e))
      | .ok data => .ok data

/-- Defers a param by a flag `name=duration`. -/
def addDeferral (inputs : Inputs) (flag : String) : Boxing Inputs := do
  let invalid (text : String) : Failure := .plain ("invalid --defer " ++ Text.quote flag ++ text)
  let some (name, raw) := Text.cut? '=' flag | throw (invalid ", want name=duration")
  if let .error e := Duration.read raw then throw (invalid (": " ++ e.text raw))
  match inputs.params.lookup name with
  | none => throw (.plain ("cannot defer " ++ Text.quote name ++ ": no such param"))
  | some d =>
    let v ← tryCatchThe Failure d.box fun e => throw (e.under ("cannot defer " ++ Text.quote name))
    let others := inputs.deferred.filter (·.1 != name)
    return { inputs with params := Datum.assign inputs.params name (.boxed v),
                         deferred := others ++ [(name, v)] }

/-- The data that flags describe. -/
def DataFlags.inputs (f : DataFlags) (files : FileTree) : Boxing Inputs := do
  let params ← liftM (readParams files f.file)
  let params ← liftM (f.params.foldlM addAssignment params)
  let injected ← liftM (f.injected.foldlM addAssignment [])
  f.deferred.foldlM addDeferral { params, injected }

/-- Puts a pending future in the place of each deferred param. -/
def Inputs.late (inputs : Inputs) (s : Store) :
    List (String × Datum) × List (FutureId × Value) × Store :=
  inputs.deferred.foldl (fun (params, waits, s) (name, v) =>
    let (id, futures) := s.heap.futures.push .pending
    (Datum.assign params name (.boxed (.future id)), waits ++ [(id, v)],
      { s with heap := { s.heap with futures } }))
    (inputs.params, [], s)

end Interlude.Cli
