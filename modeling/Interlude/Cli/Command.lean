import Interlude.Cli.Flag
import Interlude.Text.Case
/-!
# Commands

The commands of the command line: their names, flags, arguments and descriptions, and how the words
of a command line lead to one of them.
-/

namespace Interlude.Cli

def programName : String := "sojourn"

/-- The commands; `root` is the program itself. -/
inductive Verb where
  | root
  | render
  | list
  | watch
  | serve
  | version
  | help
  | completion
deriving DecidableEq, Repr, Inhabited

namespace Verb

def name : Verb → String
  | root => programName
  | render => "render"
  | list => "list"
  | watch => "watch"
  | serve => "serve"
  | version => "version"
  | help => "help"
  | completion => "completion"

def aliases : Verb → List String
  | render => ["r"]
  | list => ["ls"]
  | watch => ["w"]
  | _ => []

/-- The commands below the root, in the order in which they are suggested. -/
def subcommands : List Verb := [render, list, watch, serve, version, help, completion]

def isCalled (v : Verb) (word : String) : Bool := v.name == word || v.aliases.contains word

/-- Whether a command does something itself. One that does not only leads to others. -/
def isRunnable : Verb → Bool
  | root => false
  | completion => false
  | _ => true

/-- The names of a command from the root down. -/
def path (v : Verb) : String := if v = root then programName else programName ++ " " ++ v.name

/-! ## Flags -/

def sharedFlags : List Flag := [
  { name := "bundle", letter := some 'b', kind := .list, usage := "bundle files or directories" },
  { name := "config",
    usage := "config file (default is .sojourn.yml, can also use SOJOURN_CONFIG_FILE env var)" },
  { name := "log-level", letter := some 'l', usage := "log level (debug, info, warn, error)" }]

def dataFlags : List Flag := [
  { name := "params", usage := "YAML file of template params" },
  { name := "param", letter := some 'p', kind := .many,
    usage := "Template param as name=value (value is YAML)" },
  { name := "ij", kind := .many, usage := "Injected param as name=value (value is YAML)" },
  { name := "defer", kind := .many, usage := "Deliver a param late, as name=duration" }]

def formatFlag (allowed : List String) : Flag :=
  { name := "format", letter := some 'f', kind := .choice allowed, initial := allowed.headD ""
    usage := "Output format (" ++ Text.join "|" allowed ++ ")" }

/-- The flags of a command besides those that all share. -/
def ownFlags : Verb → List Flag
  | render => dataFlags ++ [
      { name := "output", letter := some 'o', usage := "Write output to a file instead of stdout" }]
  | list => [formatFlag ["table", "json", "yaml"]]
  | watch => dataFlags ++ [
      { name := "debounce", kind := .duration, usage := "Delay that groups rapid changes",
        initial := "300ms" },
      { name := "render", usage := "Template to re-render after each reload" },
      { name := "output", letter := some 'o',
        usage := "File to write --render output to (default stdout)" }]
  | serve => [
      { name := "port", letter := some 'p', kind := .int, usage := "Port to serve on",
        initial := "8080" },
      { name := "host", usage := "Host to bind to", initial := "localhost" },
      { name := "watch", letter := some 'w', kind := .switch,
        usage := "Recompile bundles when they change"
        initial := "true" }]
  | version => [
      formatFlag ["text", "json", "yaml"],
      { name := "short", kind := .switch, usage := "Show short version only" }]
  | _ => []

def helpFlag (v : Verb) : Flag :=
  { name := "help", letter := some 'h', kind := .switch, usage := "help for " ++ v.name }

def flags (v : Verb) : List Flag := v.ownFlags ++ [v.helpFlag] ++ sharedFlags

/-! ## Arguments -/

/-- Checks the arguments of a command: a render needs one, other commands take none. -/
def checkArgs (v : Verb) (args : List String) : Except Failure Unit :=
  match v, args with
  | .help, _ => .ok ()
  | .render, [_] => .ok ()
  | .render, args => .error (.plain ("accepts 1 arg(s), received " ++ toString args.length))
  | _, [] => .ok ()
  | v, word :: _ =>
    .error (.plain ("unknown command " ++ Text.quote word ++ " for " ++ Text.quote v.path))

end Verb

/-! ## Finding the command -/

/-- Whether a word is a flag whose value is the next word, as far as that can be told before the
command is known. -/
def takesNext (word : String) : Bool :=
  !word.toList.contains '=' &&
    (word.startsWith "--" || (word.startsWith "-" && Text.byteLength word == 2))

/-- The words that are neither flags nor values of flags. -/
def plainWords : List String → List String
  | [] => []
  | word :: rest =>
    if word == "--" then []
    else if takesNext word then
      match rest with
      | _ :: next :: more => plainWords (next :: more)
      | _ => []
    else if !word.isEmpty && !word.startsWith "-" then word :: plainWords rest
    else plainWords rest

/-- The words without the first that is the given plain word. -/
def withoutFirst (x : String) : List String → List String
  | [] => []
  | word :: rest =>
    if word == "--" then word :: rest
    else if takesNext word then
      match rest with
      | value :: more => word :: value :: withoutFirst x more
      | [] => [word]
    else if word == x then rest
    else word :: withoutFirst x rest

/-! ## Suggestions -/

/-- The next row of the table of edit distances, from the row above. -/
def distanceRow (c : Nat) : List Nat → Nat → List Nat → List Nat
  | d :: rest, left, diag :: above :: more =>
    let best := if c = d then diag else 1 + min diag (min left above)
    best :: distanceRow c rest best (above :: more)
  | _, _, _ => []

/-- The number of changes, insertions and deletions that lead from one text to the other. -/
def distance (s t : List Nat) : Nat :=
  let first := List.range (t.length + 1)
  let last := s.foldl (fun row c => (row.headD 0 + 1) :: distanceRow c t (row.headD 0 + 1) row)
    first
  last.getLast?.getD 0

/-- The commands that a word may stand for. -/
def suggestions (word : String) : List String :=
  let typed := Text.lowerEach word
  (Verb.subcommands.filter (· != .help)).map Verb.name |>.filter fun n =>
    distance (Text.bytes typed) (Text.bytes n) ≤ 2 || n.startsWith typed

def unknownCommand (word : String) : Failure :=
  let found := suggestions word
  let hint := if found.isEmpty then ""
    else "\n\nDid you mean this?\n" ++ String.join (found.map fun n => "\t" ++ n ++ "\n")
  .plain ("unknown command " ++ Text.quote word ++ " for " ++ Text.quote programName ++ hint)

/-- The command of a command line, and the words that are left for it. -/
def findVerb (words : List String) : Except Failure (Verb × List String) :=
  match plainWords words with
  | [] => .ok (.root, words)
  | word :: _ =>
    match Verb.subcommands.find? (·.isCalled word) with
    | some v => .ok (v, withoutFirst word words)
    | none => .error (unknownCommand word)

end Interlude.Cli
