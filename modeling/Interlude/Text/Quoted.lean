import Interlude.Text.Printable
import Interlude.Text.Utf8
/-!
# Quoted and escaped text

Names inside messages are shown between double quotes, with the characters that cannot be shown
as they are written as escapes. Text is made safe for HTML and for URIs, and line breaks are written
as markup.
-/

namespace Interlude.Text

/-- Lower-case hexadecimal digits, padded with zeros to at least `width`. -/
def hexPadded (width n : Nat) : String :=
  let digits := Nat.toDigits 16 n
  String.ofList (List.replicate (width - digits.length) '0' ++ digits)

/-- Upper-case hexadecimal digits, padded with zeros to at least `width`. -/
def hexPaddedUpper (width n : Nat) : String :=
  (hexPadded width n).map Char.toUpper

/-! ## Quotes -/

/-- How a character is written inside double quotes. -/
def quoteChar (c : Char) : String :=
  if c = '"' then "\\\""
  else if c = '\\' then "\\\\"
  else if isPrintable c then String.singleton c
  else
    match c.toNat with
    | 7 => "\\a"
    | 8 => "\\b"
    | 12 => "\\f"
    | 10 => "\\n"
    | 13 => "\\r"
    | 9 => "\\t"
    | 11 => "\\v"
    | n =>
      if n < 0x20 || n = 0x7F then "\\x" ++ hexPadded 2 n
      else if n < 0x10000 then "\\u" ++ hexPadded 4 n
      else "\\U" ++ hexPadded 8 n

/-- A text between double quotes. -/
def quote (s : String) : String :=
  "\"" ++ String.join (s.toList.map quoteChar) ++ "\""

/-! ## Escapes -/

/-- A character as it stands in HTML text or in a quoted attribute. -/
def htmlChar (c : Char) : List Char :=
  match c with
  | '&' => "&amp;".toList
  | '\'' => "&#39;".toList
  | '<' => "&lt;".toList
  | '>' => "&gt;".toList
  | '"' => "&#34;".toList
  | '\r' => "&#13;".toList
  | c => [c]

/-- Escapes text for HTML. -/
def escapeHtml (s : String) : String := String.ofList (s.toList.flatMap htmlChar)

/-- The line break of HTML. -/
def breakTag : List Char := "<br>".toList

def lineBreaksFrom : List Char → List Char
  | [] => []
  | '\r' :: '\n' :: rest => breakTag ++ lineBreaksFrom rest
  | c :: rest => (if c = '\r' || c = '\n' then breakTag else [c]) ++ lineBreaksFrom rest

/-- Writes every line break as markup; the pair of carriage return and line feed is one. -/
def lineBreaks (s : String) : String := String.ofList (lineBreaksFrom s.toList)

/-- Characters that stand for themselves in every part of a URI. -/
def isUnreserved (n : Nat) : Bool :=
  (0x30 ≤ n && n ≤ 0x39) || (0x41 ≤ n && n ≤ 0x5A) || (0x61 ≤ n && n ≤ 0x7A) || n ==
    0x2D || n == 0x5F || n == 0x2E || n == 0x7E

/-- A byte as a percent sign and two digits. -/
def percentByte (n : Nat) : String := "%" ++ hexPaddedUpper 2 n

/-- Percent-encodes everything that is not unreserved. -/
def escapeUri (s : String) : String :=
  String.join ((bytes s).map fun n => if isUnreserved n then String.singleton (Char.ofNat n)
    else percentByte n)

end Interlude.Text
