import Interlude.Failure
import Interlude.Number.Literal
import Interlude.Text.Csv
import Interlude.Time.Duration
/-!
# Flags

Options of a command line. A long flag is written `--name value` or `--name=value`; short ones are
single letters after one dash and may be written together, the last with its value attached. A flag
that is a switch takes a value only after `=`. Everything else is an argument, as is all that
follows `--`.
-/

namespace Interlude.Cli

/-- What values a flag takes. A flag of `many` keeps all of its values, one of `list` the fields of
all of them, and the others only the last. -/
inductive FlagKind where
  | text
  | many
  | list
  | int
  | duration
  | switch
  | choice (allowed : List String)
deriving DecidableEq, Repr, Inhabited

/-- A flag with its name and letter. `usage` says what it is for, and `initial` what holds without
it. -/
structure Flag where
  name : String
  letter : Option Char := none
  kind : FlagKind := .text
  usage : String := ""
  initial : String := ""
deriving DecidableEq, Repr, Inhabited

namespace Flag

/-- The flag as messages name it. -/
def title (f : Flag) : String :=
  match f.letter with
  | some c => "-" ++ String.singleton c ++ ", --" ++ f.name
  | none => "--" ++ f.name

/-- Rejects a format that is not allowed, with the one that may be meant. Case does not matter. -/
def checkChoice (allowed : List String) (value : String) : Except String Unit :=
  let lower := Text.lowerAscii value
  if allowed.contains lower then .ok ()
  else
    match allowed.find? fun a => !value.isEmpty && a.startsWith lower with
    | some a =>
      .error ("unsupported format " ++ Text.quote value ++ ", did you mean " ++ Text.quote a ++ "?")
    | none =>
      .error ("unsupported format " ++ Text.quote value ++ " (supported: " ++
        Text.join ", " allowed ++ ")")

/-- What is wrong with a value. -/
def checkValue (kind : FlagKind) (value : String) : Except String Unit :=
  match kind with
  | .text => .ok ()
  | .many => .ok ()
  | .list => (Csv.fields value).mapError (·.text) |>.map fun _ => ()
  | .int =>
    (Number.readLiteral value).mapError (fun e =>
      "strconv.ParseInt: parsing " ++ Text.quote value ++ ": " ++ e.text) |>.map fun _ => ()
  | .duration => (Duration.read value).mapError (·.text value) |>.map fun _ => ()
  | .switch =>
    if (Number.readFlag? value).isSome then .ok ()
    else .error ("strconv.ParseBool: parsing " ++ Text.quote value ++ ": invalid syntax")
  | .choice allowed => checkChoice allowed value

end Flag

/-- The flags that were given, in order, with their values, and the arguments. -/
structure Given where
  uses : List (String × String) := []
  args : List String := []
deriving Inhabited

namespace Given

/-- All values of a flag. -/
def all (g : Given) (name : String) : List String :=
  (g.uses.filter (·.1 == name)).map (·.2)

/-- The last value of a flag, if it was given. -/
def last? (g : Given) (name : String) : Option String := (g.all name).getLast?

/-- The last value of a flag, or the empty text. -/
def last (g : Given) (name : String) : String := (g.last? name).getD ""

/-- The value of a switch. -/
def isOn (g : Given) (name : String) (otherwise : Bool) : Bool :=
  ((g.last? name).bind Number.readFlag?).getD otherwise

/-- The fields of all values of a flag. -/
def fields (g : Given) (name : String) : List String :=
  (g.all name).flatMap fun v => ((Csv.fields v).toOption).getD []

/-- Adds a use of a flag, if its value is right. -/
def use (g : Given) (f : Flag) (value : String) : Except String Given :=
  match Flag.checkValue f.kind value with
  | .ok _ => .ok { g with uses := g.uses ++ [(f.name, value)] }
  | .error e =>
    .error ("invalid argument " ++ Text.quote value ++ " for " ++ Text.quote f.title ++
      " flag: " ++ e)

end Given

/-- A letter between quotes. Of a longer character the first byte is shown. -/
def letterText (c : Char) : String :=
  let first := Char.ofNat ((Text.bytes (String.singleton c)).headD 0)
  let inner := if first = '"' then "\"" else if first = '\'' then "\\'" else Text.quoteChar first
  "'" ++ inner ++ "'"

/-- Reads a long flag and, unless it has one, its value from what follows. -/
def readLong (flags : List Flag) (g : Given) (s : String) (rest : List String) :
    Except String (Given × List String) := do
  let body := String.ofList (s.toList.drop 2)
  if body.startsWith "-" || body.startsWith "=" then throw ("bad flag syntax: " ++ s)
  let (name, value?) := match Text.cut? '=' body with
    | some (name, value) => (name, some value)
    | none => (body, none)
  let some f := flags.find? (·.name == name) | throw ("unknown flag: --" ++ name)
  match value?, f.kind == .switch, rest with
  | some v, _, _ => return (← g.use f v, rest)
  | none, true, _ => return (← g.use f "true", rest)
  | none, false, v :: rest => return (← g.use f v, rest)
  | none, false, [] => throw ("flag needs an argument: " ++ s)

/-- Reads short flags written together; the last may have its value attached or following. -/
def readShort (flags : List Flag) (rest : List String) : Given → List Char →
    Except String (Given × List String)
  | g, [] => .ok (g, rest)
  | g, c :: more => do
    let whole := String.ofList (c :: more)
    let some f := flags.find? (·.letter == some c)
      | throw ("unknown shorthand flag: " ++ letterText c ++ " in -" ++ whole)
    match more with
    | '=' :: v :: vs => return (← g.use f (String.ofList (v :: vs)), rest)
    | more =>
      if f.kind == .switch then readShort flags rest (← g.use f "true") more
      else if !more.isEmpty then return (← g.use f (String.ofList more), rest)
      else
        match rest with
        | v :: rest => return (← g.use f v, rest)
        | [] => throw ("flag needs an argument: " ++ letterText c ++ " in -" ++ whole)

/-- Reads a command line word by word; each step takes at least one. -/
def readWords (flags : List Flag) : Nat → Given → List String → Except String Given
  | _, g, [] => .ok g
  | 0, g, _ => .ok g
  | fuel + 1, g, s :: rest => do
    match s.toList with
    | ['-', '-'] => return { g with args := g.args ++ rest }
    | '-' :: '-' :: _ =>
      let (g, rest) ← readLong flags g s rest
      readWords flags fuel g rest
    | '-' :: c :: cs =>
      let (g, rest) ← readShort flags rest g (c :: cs)
      readWords flags fuel g rest
    | _ => readWords flags fuel { g with args := g.args ++ [s] } rest

/-- Reads a command line. -/
def readFlags (flags : List Flag) (words : List String) : Except Failure Given :=
  (readWords flags words.length {} words).mapError .plain

end Interlude.Cli
