import Interlude.Json.Basic
import Interlude.Number.Read
import Interlude.Text.Utf8
/-!
# Reading JSON

A total reader: every step consumes a character, so the length of the text bounds the work.
-/

namespace Interlude.Json

def isBlank (c : Char) : Bool :=
  c = ' ' || c = '\t' || c = '\n' || c = '\r'

def skipBlank (cs : List Char) : List Char :=
  cs.dropWhile isBlank

/-- Four hexadecimal digits. -/
def readHex4 : List Char → Option (Nat × List Char)
  | a :: b :: c :: d :: rest => do
    let a ← Number.hexValue? a
    let b ← Number.hexValue? b
    let c ← Number.hexValue? c
    let d ← Number.hexValue? d
    return (((a * 16 + b) * 16 + c) * 16 + d, rest)
  | _ => none

/-- The rest of a string after its opening quote, up to and with the closing one. An escaped
surrogate without its partner is the replacement character. -/
def readString : Nat → List Char → List Char → Option (String × List Char)
  | 0, _, _ => none
  | _, _, [] => none
  | fuel + 1, acc, c :: rest =>
    if c = '"' then some (String.ofList acc.reverse, rest)
    else if c.toNat < 0x20 then none
    else if c ≠ '\\' then readString fuel (c :: acc) rest
    else
      match rest with
      | '"' :: rest => readString fuel ('"' :: acc) rest
      | '\\' :: rest => readString fuel ('\\' :: acc) rest
      | '/' :: rest => readString fuel ('/' :: acc) rest
      | 'b' :: rest => readString fuel (Char.ofNat 8 :: acc) rest
      | 'f' :: rest => readString fuel (Char.ofNat 12 :: acc) rest
      | 'n' :: rest => readString fuel ('\n' :: acc) rest
      | 'r' :: rest => readString fuel ('\r' :: acc) rest
      | 't' :: rest => readString fuel ('\t' :: acc) rest
      | 'u' :: rest =>
        match readHex4 rest with
        | none => none
        | some (n, rest) =>
          if 0xD800 ≤ n && n < 0xDC00 then
            match rest with
            | '\\' :: 'u' :: more =>
              match readHex4 more with
              | some (m, more) =>
                if 0xDC00 ≤ m && m < 0xE000 then
                  readString fuel (Char.ofNat (0x10000 + (n - 0xD800) * 0x400 + (m - 0xDC00)) ::
                    acc) more
                else readString fuel (Text.replacement :: acc) rest
              | none => none
            | _ => readString fuel (Text.replacement :: acc) rest
          else if 0xDC00 ≤ n && n < 0xE000 then readString fuel (Text.replacement :: acc) rest
          else readString fuel (Char.ofNat n :: acc) rest
      | _ => none

/-- A number's text: no leading zeros, digits around a point, an optional exponent. -/
def readNumber (cs : List Char) : Option (String × List Char) :=
  let (sign, cs) := match cs with
    | '-' :: rest => (['-'], rest)
    | rest => ([], rest)
  let whole := cs.takeWhile Char.isDigit
  let cs := cs.dropWhile Char.isDigit
  if whole.isEmpty || (whole.head? = some '0' && 1 < whole.length) then none
  else
    let fraction? : Option (List Char × List Char) :=
      match cs with
      | '.' :: rest =>
        let ds := rest.takeWhile Char.isDigit
        if ds.isEmpty then none else some ('.' :: ds, rest.dropWhile Char.isDigit)
      | rest => some ([], rest)
    match fraction? with
    | none => none
    | some (fraction, cs) =>
      let exponent? : Option (List Char × List Char) :=
        match cs with
        | e :: rest =>
          if e = 'e' || e = 'E' then
            let (mark, rest) := match rest with
              | '+' :: more => (['+'], more)
              | '-' :: more => (['-'], more)
              | more => ([], more)
            let ds := rest.takeWhile Char.isDigit
            if ds.isEmpty then none else some (e :: mark ++ ds, rest.dropWhile Char.isDigit)
          else some ([], cs)
        | [] => some ([], [])
      exponent?.map fun (exponent, rest) =>
        (String.ofList (sign ++ whole ++ fraction ++ exponent), rest)

/-- Drops a literal word. -/
def dropWord : List Char → List Char → Option (List Char)
  | [], cs => some cs
  | w :: ws, c :: cs => if w = c then dropWord ws cs else none
  | _ :: _, [] => none

mutual

/-- Reads one value, after any blanks, and gives what follows it. -/
def readValue : Nat → List Char → Option (Json × List Char)
  | 0, _ => none
  | fuel + 1, cs =>
    match skipBlank cs with
    | '\x7b' :: rest =>
      match skipBlank rest with
      | '\x7d' :: rest => some (.obj [], rest)
      | rest => readMembers fuel [] rest
    | '[' :: rest =>
      match skipBlank rest with
      | ']' :: rest => some (.arr [], rest)
      | rest => readItems fuel [] rest
    | '"' :: rest => (readString (rest.length + 1) [] rest).map fun (s, rest) => (.str s, rest)
    | 't' :: rest => (dropWord "rue".toList rest).map (.bool true, ·)
    | 'f' :: rest => (dropWord "alse".toList rest).map (.bool false, ·)
    | 'n' :: rest => (dropWord "ull".toList rest).map (.null, ·)
    | rest => (readNumber rest).map fun (t, rest) => (.num t, rest)

def readItems : Nat → List Json → List Char → Option (Json × List Char)
  | 0, _, _ => none
  | fuel + 1, acc, cs =>
    match readValue fuel cs with
    | none => none
    | some (v, rest) =>
      match skipBlank rest with
      | ',' :: rest => readItems fuel (v :: acc) rest
      | ']' :: rest => some (.arr (v :: acc).reverse, rest)
      | _ => none

def readMembers : Nat → List (String × Json) → List Char → Option (Json × List Char)
  | 0, _, _ => none
  | fuel + 1, acc, cs =>
    match skipBlank cs with
    | '"' :: rest =>
      match readString (rest.length + 1) [] rest with
      | none => none
      | some (key, rest) =>
        match skipBlank rest with
        | ':' :: rest =>
          match readValue fuel rest with
          | none => none
          | some (v, rest) =>
            match skipBlank rest with
            | ',' :: rest => readMembers fuel ((key, v) :: acc) rest
            | '\x7d' :: rest => some (.obj ((key, v) :: acc).reverse, rest)
            | _ => none
        | _ => none
    | _ => none

end

/-- Reads the first value of a text and gives the rest. -/
def readFirst (s : String) : Option (Json × List Char) :=
  readValue (s.length + 1) s.toList

/-- Reads a text that holds one value and nothing else. -/
def read? (s : String) : Option Json :=
  match readFirst s with
  | some (j, rest) => if (skipBlank rest).isEmpty then some j else none
  | none => none

end Interlude.Json
