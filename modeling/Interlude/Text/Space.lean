/-!
# White space

The white space that is trimmed from type names, numbers, levels and list settings: the
characters of the Unicode property, not only the ASCII ones.
-/

namespace Interlude.Text

/-- Characters of the Unicode white-space property. -/
def isSpace (c : Char) : Bool :=
  let n := c.toNat
  (9 ≤ n && n ≤ 13) || n == 0x20 || n == 0x85 || n == 0xA0 || n == 0x1680 ||
    (0x2000 ≤ n && n ≤ 0x200A) || n == 0x2028 || n == 0x2029 || n == 0x202F || n == 0x205F ||
    n == 0x3000

/-- Drops white space at both ends. -/
def trimChars (cs : List Char) : List Char :=
  ((cs.dropWhile isSpace).reverse.dropWhile isSpace).reverse

/-- Drops white space at both ends of a text. -/
def trim (s : String) : String :=
  String.ofList (trimChars s.toList)

/-- Splits at every `sep`; the pieces joined by `sep` give the list back. -/
def splitChars (sep : Char) : List Char → List (List Char)
  | [] => [[]]
  | c :: rest =>
    if c = sep then [] :: splitChars sep rest
    else
      match splitChars sep rest with
      | [] => [[c]]
      | piece :: pieces => (c :: piece) :: pieces

/-- Splits a text at every `sep`. -/
def split (sep : Char) (s : String) : List String :=
  (splitChars sep s.toList).map String.ofList

/-- Joins texts with `sep` between neighbours. -/
def join (sep : String) (parts : List String) : String :=
  String.intercalate sep parts

/-- The text before and after the first `sep`, if there is one. -/
def cut? (sep : Char) (s : String) : Option (String × String) :=
  let cs := s.toList
  match cs.dropWhile (· != sep) with
  | [] => none
  | _ :: rest => some (String.ofList (cs.takeWhile (· != sep)), String.ofList rest)

/-- ASCII letters in lower case, other characters as they are. -/
def lowerAscii (s : String) : String :=
  s.map Char.toLower

end Interlude.Text
