import Interlude.Text.Space
import Interlude.Text.Utf8
/-!
# Comma-separated fields

One line of fields separated by commas. A field between double quotes may hold commas, and a quote
in it is written twice.
-/

namespace Interlude.Csv

/-- Why a line cannot be read, with the column in bytes. -/
inductive Issue where
  | bareQuote (column : Nat)
  | looseQuote (column : Nat)
deriving DecidableEq, Repr, Inhabited

def Issue.text : Issue → String
  | bareQuote c => "parse error on line 1, column " ++ toString c ++ ": bare \" in non-quoted field"
  | looseQuote c =>
    "parse error on line 1, column " ++ toString c ++ ": extraneous or missing \" in quoted-field"

def width (cs : List Char) : Nat := Text.byteLength (String.ofList cs)

/-- The rest of a field after its opening quote, and what follows its closing one. -/
def quoted (column : Nat) (done : List Char) : List Char → Except Issue (String × Nat × List Char)
  | [] => .error (.looseQuote column)
  | '"' :: '"' :: rest => quoted (column + 2) ('"' :: done) rest
  | '"' :: rest => .ok (String.ofList done.reverse, column + 1, rest)
  | c :: rest => quoted (column + width [c]) (c :: done) rest

/-- The fields of a line from a column on. Each takes at least a character, or is the last. -/
def fieldsFrom : Nat → Nat → List Char → Except Issue (List String)
  | 0, _, _ => .ok []
  | fuel + 1, column, '"' :: rest => do
    let (field, column, rest) ← quoted (column + 1) [] rest
    match rest with
    | [] => return [field]
    | ',' :: rest => return field :: (← fieldsFrom fuel (column + 1) rest)
    | _ => throw (.looseQuote (column - 1))
  | fuel + 1, column, cs => do
    let field := cs.takeWhile (· != ',')
    if field.contains '"' then throw (.bareQuote (column + width (field.takeWhile (· != '"'))))
    match cs.dropWhile (· != ',') with
    | _ :: rest => return String.ofList field :: (← fieldsFrom fuel (column + width field + 1) rest)
    | [] => return [String.ofList field]

/-- The fields of the first line that is not empty; an empty text has none. -/
def fields (s : String) : Except Issue (List String) :=
  match (Text.split '\n' s).find? (!·.isEmpty) with
  | some line => fieldsFrom (line.length + 1) 1 line.toList
  | none => .ok []

end Interlude.Csv
