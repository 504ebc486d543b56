import Interlude.Cli.Command
/-!
# Help

What the command line says about itself: a description of each command, how it is called, and its
flags in two columns.
-/

namespace Interlude.Cli

namespace Verb

/-- A command in one line. -/
def short : Verb → String
  | root => "Render suspendable streaming templates"
  | render => "Render a template"
  | list => "List compiled templates"
  | watch => "Recompile bundles whenever they change"
  | serve => "Serve templates over HTTP and WebSocket"
  | version => "Show version information"
  | help => "Help about any command"
  | completion => "Generate the autocompletion script for the specified shell"

/-- A command with examples. -/
def long : Verb → String
  | root => "sojourn compiles YAML template bundles and renders them as streams that
can pause on late data or a full output buffer and resume where they left off.

Quick Start:
  sojourn list                              List the templates in ./
  sojourn render page -p title=Hello        Render a template to stdout
  sojourn render page --defer items=500ms   Deliver a param late
  sojourn watch --render page -o page.html  Re-render on every bundle change
  sojourn serve                             Serve templates over HTTP"
  | render => "Render a template from the configured bundles to stdout or a file.

Param values are parsed as YAML, so numbers, booleans and lists keep their
types. Deferred params arrive after a delay; the render streams everything
it can before them and resumes when they complete.

Examples:
  sojourn render shop.page -p title=Shop -p 'items=[a, b]'
  sojourn render shop.page --params data.yaml --ij user=ann
  sojourn render shop.page --params data.yaml --defer items=2s
  sojourn render shop.page -b ./templates -o page.html"
  | list => "List every template in the configured bundles with its kind, delegate
and params. Delegate implementations are listed under their delegate name.

Examples:
  sojourn list                  # Table of templates
  sojourn list -f json          # JSON, for scripts
  sojourn list -b ./site -f yaml"
  | watch => "Watch the configured bundles and recompile them on every change. A
bundle that fails to compile is reported and the last good templates stay in
use. With --render, the named template is re-rendered after every successful
reload.

Examples:
  sojourn watch                              # Report compile errors as you edit
  sojourn watch --render page -o page.html   # Keep page.html up to date"
  | serve => "Serve the configured bundles over HTTP. Renders stream to the client as
they flush, and /ws/render/\x7bname\x7d sends each flush as a WebSocket message.
With --watch, bundles are recompiled on change and connected /ws clients are
told which templates changed.

Endpoints:
  GET  /health              Server and registry status
  GET  /templates           Compiled templates and their params
  GET  /render/\x7bname\x7d       Render with query params (ij.name for injected)
  POST /render/\x7bname\x7d       Render with a JSON body \x7b\"params\": ..., \"injected\": ...\x7d
  GET  /ws/render/\x7bname\x7d    Render over a WebSocket
  GET  /ws                  Reload notifications

Examples:
  sojourn serve                       # Serve on localhost:8080
  sojourn serve -p 3000 --host 0.0.0.0
  sojourn serve --watch=false"
  | version => "Display the sojourn version, git commit, build time, Go version and
target platform.

Examples:
  sojourn version             # Full version info
  sojourn version --short     # Version only
  sojourn version -f json     # Output as JSON"
  | help => "Help provides help for any command in the application.
Simply type sojourn help [path to command] for full details."
  | completion => "Generate the autocompletion script for sojourn for the specified shell.
See each sub-command's help for details on how to use the generated script."

/-- How a command is called, without its flags. -/
def usePath (v : Verb) : String :=
  match v with
  | render => v.path ++ " <template>"
  | help => v.path ++ " [command]"
  | v => v.path

end Verb

/-- What stands for the value of a flag. -/
def FlagKind.placeholder : FlagKind → String
  | .text => " string"
  | .many => " stringArray"
  | .list => " strings"
  | .int => " int"
  | .duration => " duration"
  | .switch => ""
  | .choice _ => " string"

/-- The left column of a flag. -/
def Flag.lead (f : Flag) : String :=
  let names := match f.letter with
    | some c => "  -" ++ String.singleton c ++ ", --" ++ f.name
    | none => "      --" ++ f.name
  names ++ f.kind.placeholder

/-- What a flag is for, with its value if it is not given. -/
def Flag.description (f : Flag) : String :=
  if f.initial.isEmpty then f.usage
  else
    let value := match f.kind with
      | .text | .choice _ => Text.quote f.initial
      | _ => f.initial
    f.usage ++ " (default " ++ value ++ ")"

/-- Flags by name, one a line, in two columns. -/
def flagTable (flags : List Flag) : String :=
  let sorted := flags.mergeSort fun a b => a.name ≤ b.name
  let width := (sorted.map fun f => f.lead.length).foldl max 0
  Text.join "\n" (sorted.map fun f =>
    f.lead ++ "".pushn ' ' (width - f.lead.length + 3) ++ f.description)

/-- The shells that completion is there for. -/
def shells : List String := ["bash", "fish", "powershell", "zsh"]

/-- The commands below a command with their descriptions, by name. -/
def Verb.below (v : Verb) : List (String × String) :=
  match v with
  | .root => (Verb.subcommands.mergeSort fun a b => a.name ≤ b.name).map fun c => (c.name, c.short)
  | .completion => shells.map fun s => (s, "Generate the autocompletion script for " ++ s)
  | _ => []

/-- Commands with their descriptions, one a line. -/
def commandTable (commands : List (String × String)) : String :=
  String.join (commands.map fun (name, short) =>
    "\n  " ++ name ++ "".pushn ' ' (12 - name.length) ++ short)

/-- How a command is used. -/
def usageText (v : Verb) : String :=
  let calls := if v.isRunnable then "\n  " ++ v.usePath ++ " [flags]"
    else "\n  " ++ v.path ++ " [command]"
  let names := if v.aliases.isEmpty then ""
    else "\n\nAliases:\n  " ++ Text.join ", " (v.name :: v.aliases)
  let commands := if v.isRunnable then "" else "\n\nAvailable Commands:" ++ commandTable v.below
  let flags := if v = .root then Verb.sharedFlags ++ [v.helpFlag] else v.ownFlags ++ [v.helpFlag]
  let shared := if v = .root then "" else "\n\nGlobal Flags:\n" ++ flagTable Verb.sharedFlags
  let more := if v.isRunnable then ""
    else "\n\nUse \"" ++ v.path ++ " [command] --help\" for more information about a command."
  "Usage:" ++ calls ++ names ++ commands ++ "\n\nFlags:\n" ++ flagTable flags ++
    shared ++ more ++ "\n"

/-- The help of a command. -/
def helpText (v : Verb) : String := v.long ++ "\n\n" ++ usageText v

end Interlude.Cli
