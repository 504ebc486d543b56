import Interlude.Cli.Data
import Interlude.Cli.Help
import Interlude.Cli.Listing
import Interlude.Config
import Interlude.Json.Reader
import Interlude.Value.Json
import Interlude.Version
import Interlude.Watch.Reloader
/-!
# Running commands

What a command line does to the world: the text it prints, the files it writes, and how it fails.
-/

namespace Interlude.Cli

/-- What a command finds: the files of its working directory, whether it was called off before it
began, and the build of the program. -/
structure World where
  files : FileTree := .empty
  canceled : Bool := false
  build : Build := {}

/-- What a command leaves behind. -/
structure Result where
  output : String := ""
  files : FileTree
  failure : Option Failure := none

/-! ## Settings -/

/-- The extensions a configuration file may have. -/
def configTypes : List String :=
  ["json", "toml", "yaml", "yml", "properties", "props", "prop", "hcl", "tfvars", "dotenv",
    "env", "ini"]

def isFile (files : FileTree) (path : String) : Bool :=
  match files.find path with
  | .ok (.file _) => true
  | _ => false

/-- The configuration file that is taken if none is named. -/
def defaultConfig? (files : FileTree) : Option String :=
  let base := "." ++ programName
  (configTypes.map (base ++ "." ++ ·) ++ [base]).find? (isFile files)

/-- A number of a configuration file in JSON, which is always floating. -/
def jsonNumber (t : String) : Datum := .float ((Number.read? t).getD 0.0)

/-- The fields of a configuration file's text. -/
def configFields (type text : String) : Except String (List (String × Datum)) :=
  match type with
  | "yaml" | "yml" => Yaml.fields text
  | "json" =>
    match Json.read? text with
    | some (.obj members) => .ok (Datum.ofMembers jsonNumber members)
    | some .null => .ok []
    | _ => .error "invalid document"
  | _ => .error "unreadable format"

/-- The layer of a configuration file. -/
def readLayer (files : FileTree) (path type : String) : Except Failure Layer := do
  let text ← files.read path
  match configFields type text with
  | .ok fields => return Layer.ofFields fields
  | .error e => throw (.plain ("While parsing config: " ++ e))

/-- The layer of the configuration file that is named, or else of the one that is there. -/
def configLayer (files : FileTree) (named : String) : Except Failure Layer :=
  let layer : Except Failure Layer :=
    if named.isEmpty then
      match defaultConfig? files with
      | some path => readLayer files path "yaml"
      | none => .ok []
    else
      let type := String.ofList ((Path.extension named).toList.drop 1)
      if configTypes.contains type then readLayer files named type
      else .error (.plain ("Unsupported Config Type " ++ Text.quote type))
  layer.mapError (·.under "failed to read configuration")

/-- The settings that flags give. -/
def flagLayer (g : Given) : Layer :=
  let set (name : String) (d : Option Datum) (layer : Layer) : Layer :=
    match d with
    | some d => Layer.put d (Layer.pathOf name) layer
    | none => layer
  let port := (g.last? "port").bind fun v => (Number.readLiteral v).toOption
  set "log.level" ((g.last? "log-level").map .str) []
    |> set "bundle.paths" ((g.last? "bundle").map fun _ => .list ((g.fields "bundle").map .str))
    |> set "server.port" (port.map .int)
    |> set "server.host" ((g.last? "host").map .str)

/-- The configuration of a command. -/
def loadConfig (files : FileTree) (g : Given) : Except Failure Config := do
  let file ← configLayer files (g.last "config")
  let config ← Config.load { overrides := flagLayer g, file, defaults := Config.defaults } files
  let _ ← config.logLevel
  return config

/-! ## Renders -/

/-- Renders a template with the published registry. What was written before a failure counts. -/
def renderText (config : Config) (r : Reloader) (inputs : Inputs) (name : String)
    (isCanceled : Bool) :
    Option Failure × String :=
  let s : Store := {
    heap := { fresh := r.fresh }
    streams := { outlet := { base := .writer { limit := config.softLimit.toInt } } } }
  let (params, late, s) := inputs.late s
  let (outcome, s) := Registry.renderWith r.holder.current config.context
    (Host.timed late isCanceled) stepLimit name
    params inputs.injected s
  (outcome.failure?, String.join s.streams.outlet.writes)

/-- The inputs of a render, and a reloader that has loaded the bundles. -/
def prepare (files : FileTree) (config : Config) (g : Given) : Except Failure (Inputs × Reloader) :=
    do
  let (inputs, fresh) ← ((DataFlags.ofGiven g).inputs files).run 0
  let reloader : Reloader := { paths := config.paths, fresh }
  return (inputs, reloader.reload files)

/-- The `render` command. -/
def runRender (w : World) (config : Config) (g : Given) : Except Failure Result := do
  let (inputs, reloader) ← prepare w.files config g
  reloader.outcome
  let name := g.args.headD ""
  let output := g.last "output"
  if output.isEmpty then
    let (failure, text) := renderText config reloader inputs name w.canceled
    return { output := text, files := w.files, failure }
  else
    let made ← (w.files.write output "").mapError (·.under "failed to create output file")
    let (failure, text) := renderText config reloader inputs name w.canceled
    let files := (made.write output text).toOption.getD made
    return { files, failure }

/-! ## Watching -/

/-- A `watch` command at work. -/
structure Watching where
  config : Config
  inputs : Inputs
  target : String
  output : String
  canceled : Bool
  reloader : Reloader
  watched : List String := []

namespace Watching

/-- Renders the target again, if there is one: to the output, or to the file that is named. The file
is replaced only by a whole render. -/
def rerender (w : Watching) (files : FileTree) : String × FileTree :=
  if w.target.isEmpty || w.reloader.holder.current.isNone then ("", files)
  else
    let (failure, text) := renderText w.config w.reloader w.inputs w.target w.canceled
    if w.output.isEmpty then (text, files)
    else
      match failure with
      | some _ => ("", files)
      | none => ("", (files.write w.output text).toOption.getD files)

/-- Loads the bundles, renders for the first time, and begins to watch. -/
def start (world : World) (config : Config) (g : Given) :
    Except Failure (Watching × String × FileTree) := do
  let (inputs, reloader) ← prepare world.files config g
  let w : Watching :=
    { config, inputs, reloader, target := g.last "render", output := g.last "output",
      canceled := world.canceled }
  let (text, files) := w.rerender world.files
  return ({ w with watched := config.paths.flatMap (Watch.directories files) }, text, files)

/-- Goes on after edits: if a change counts, everything is loaded anew, and if that succeeds the
target is rendered again. -/
def edit (w : Watching) (files : FileTree) (edits : List Watch.Edit) :
    Watching × String × FileTree :=
  let (files, events) := Watch.run w.watched files edits
  let events := Watch.batch events
  match w.reloader.handle files events with
  | (.error _, reloader) => ({ w with reloader }, "", files)
  | (.ok _, reloader) =>
    let w := { w with reloader }
    if events.isEmpty then (w, "", files)
    else
      let (text, files) := w.rerender files
      (w, text, files)

end Watching

/-- The `watch` command with nothing that changes. -/
def runWatch (w : World) (config : Config) (g : Given) : Except Failure Result := do
  let (_, output, files) ← Watching.start w config g
  return { output, files }

/-! ## Other commands -/

/-- The `list` command. -/
def runList (w : World) (config : Config) (g : Given) : Except Failure Result := do
  let reloader := Reloader.reload { paths := config.paths } w.files
  reloader.outcome
  let registry := reloader.holder.current.getD {}
  return { output := listing (ListingFormat.ofName (g.last "format")) registry, files := w.files }

/-- The `serve` command up to where it listens, which nothing here can do. -/
def runServe (w : World) (config : Config) (g : Given) : Except Failure Result := do
  let reloader := Reloader.reload { paths := config.paths } w.files
  if !g.isOn "watch" true then reloader.outcome
  return {
    output := "Serving templates at http://" ++ config.address ++ "\n"
    files := w.files
    failure := some (.plain ("listening on " ++ config.address ++ ": no network")) }

/-- A build as a document. -/
def buildFields (b : Build) : List (String × Json) := [
  ("version", .str b.version), ("git_commit", .str b.commit),
  ("build_time", .str b.built.preciseText),
  ("go_version", .str b.compiler), ("platform", .str b.platform), ("dirty", .bool b.dirty)]

/-- The `version` command. A time needs no quotes in a YAML document. -/
def versionText (b : Build) (g : Given) : String :=
  match Text.lowerAscii (g.last "format") with
  | "json" => (Json.obj (buildFields b)).indented .embedded 0 ++ "\n"
  | "yaml" =>
    (Yaml.Block.fields ((buildFields b).map fun (k, j) =>
      (k, if k == "build_time" then .plain j.text else .ofJson j))).write
  | _ =>
    if g.isOn "short" false then b.short ++ "\n"
    else programName ++ "\n" ++ b.text ++ "\nBuild type: " ++
      (if b.isRelease then "release" else "development") ++ "\n"

/-- What `help` prints for a topic. -/
def topicText (words : List String) : String :=
  match findVerb words with
  | .ok (v, _) => helpText v
  | .error _ =>
    "Unknown help topic [" ++ Text.join " " (words.map fun t => "\x60" ++ t ++ "\x60") ++ "]\n" ++
      usageText .root

/-! ## The command line -/

/-- Runs a command whose words have been read. -/
def runVerb (w : World) (v : Verb) (g : Given) : Except Failure Result :=
  match v with
  | .root => .ok { output := helpText v, files := w.files }
  | .completion => .ok { output := helpText v, files := w.files }
  | .help => .ok { output := topicText g.args, files := w.files }
  | .version => .ok { output := versionText w.build g, files := w.files }
  | .render => do runRender w (← loadConfig w.files g) g
  | .list => do runList w (← loadConfig w.files g) g
  | .watch => do runWatch w (← loadConfig w.files g) g
  | .serve => do runServe w (← loadConfig w.files g) g

/-- The command of a command line with its flags and arguments; without a command to run, help. -/
def readLine (words : List String) : Except Failure (Verb × Given) := do
  let (v, words) ← findVerb words
  let g ← readFlags v.flags words
  if !g.isOn "help" false && v.isRunnable then v.checkArgs g.args
  return (v, g)

/-- Runs a command line. -/
def run (w : World) (words : List String) : Result :=
  let result : Except Failure Result := do
    let (v, g) ← readLine words
    if g.isOn "help" false then return { output := helpText v, files := w.files }
    runVerb w v g
  match result with
  | .ok r => r
  | .error e => { files := w.files, failure := some e }

end Interlude.Cli
