import Interlude.Json.Basic
import Interlude.Text.Quoted
/-!
# Writing JSON

Compact and indented layouts. `Style.embedded` also escapes the characters that could end a script
element, as documents embedded in pages need.
-/

namespace Interlude.Json

/-- How characters of a string are escaped: `markup` tells whether those of markup are, and
`lettered` whether backspace and form feed have escapes of one letter. -/
structure Style where
  markup : Bool
  lettered : Bool

namespace Style

/-- For documents that stand alone. -/
def plain : Style := ⟨false, true⟩

/-- For documents inside pages. -/
def embedded : Style := ⟨true, true⟩

/-- For lines of a log. -/
def logged : Style := ⟨false, false⟩

end Style

def escapeChar (style : Style) (c : Char) : String :=
  match c with
  | '"' => "\\\""
  | '\\' => "\\\\"
  | '\n' => "\\n"
  | '\r' => "\\r"
  | '\t' => "\\t"
  | c =>
    let n := c.toNat
    if style.lettered && n = 8 then "\\b"
    else if style.lettered && n = 12 then "\\f"
    else if n < 0x20 then "\\u" ++ Text.hexPadded 4 n
    else if style.markup && (c = '<' || c = '>' || c = '&') then "\\u" ++ Text.hexPadded 4 n
    else if n = 0x2028 || n = 0x2029 then "\\u" ++ Text.hexPadded 4 n
    else String.singleton c

def writeString (style : Style) (s : String) : String :=
  "\"" ++ String.join (s.toList.map (escapeChar style)) ++ "\""

mutual

/-- Without blanks. -/
def compact (style : Style) : Json → String
  | .null => "null"
  | .bool b => if b then "true" else "false"
  | .num t => t
  | .str s => writeString style s
  | .arr items => "[" ++ String.intercalate "," (compactItems style items) ++ "]"
  | .obj members => "\x7b" ++ String.intercalate "," (compactMembers style members) ++ "\x7d"

def compactItems (style : Style) : List Json → List String
  | [] => []
  | j :: rest => compact style j :: compactItems style rest

def compactMembers (style : Style) : List (String × Json) → List String
  | [] => []
  | (k, v) :: rest => (writeString style k ++ ":" ++ compact style v) :: compactMembers style rest

end

mutual

/-- One item or member a line, indented by two blanks a level. -/
def indented (style : Style) (depth : Nat) : Json → String
  | .arr items =>
    if items.isEmpty then "[]"
    else "[\n" ++ String.intercalate ",\n" (indentedItems style (depth + 1) items) ++ "\n" ++
      "".pushn ' ' (2 * depth) ++ "]"
  | .obj members =>
    if members.isEmpty then "\x7b\x7d"
    else "\x7b\n" ++ String.intercalate ",\n" (indentedMembers style (depth + 1) members) ++ "\n" ++
      "".pushn ' ' (2 * depth) ++ "\x7d"
  | .null => "null"
  | .bool b => if b then "true" else "false"
  | .num t => t
  | .str s => writeString style s

def indentedItems (style : Style) (depth : Nat) : List Json → List String
  | [] => []
  | j :: rest =>
    ("".pushn ' ' (2 * depth) ++ indented style depth j) :: indentedItems style depth rest

def indentedMembers (style : Style) (depth : Nat) : List (String × Json) → List String
  | [] => []
  | (k, v) :: rest =>
    ("".pushn ' ' (2 * depth) ++ writeString style k ++ ": " ++ indented style depth v) ::
      indentedMembers style depth rest

end

end Interlude.Json
