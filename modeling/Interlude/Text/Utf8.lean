/-!
# Text as bytes

Lengths of output are counted in bytes of UTF-8, and a few texts are cut at a number of bytes. A
cut inside a character leaves bytes that are no character; each is shown as the replacement
character. A text is always made of whole characters: bytes that come from outside, of a binary
scalar or of an address, lose what is no character when they are read.
-/

namespace Interlude.Text

/-- The replacement character, shown for a byte that belongs to no character. -/
def replacement : Char := Char.ofNat 0xFFFD

/-- The number of bytes of a text. -/
def byteLength (s : String) : Nat := s.utf8ByteSize

/-- Reads one character of UTF-8 from the front of `bytes`; the number is how many were used. -/
def decodeStep (bytes : List Nat) : Char × Nat :=
  let tail (b : Nat) : Bool := 0x80 ≤ b && b ≤ 0xBF
  match bytes with
  | [] => (replacement, 0)
  | a :: rest =>
    if a < 0x80 then (Char.ofNat a, 1)
    else if 0xC2 ≤ a && a ≤ 0xDF then
      match rest with
      | b :: _ =>
        if tail b then (Char.ofNat ((a - 0xC0) * 64 + (b - 0x80)), 2) else (replacement, 1)
      | _ => (replacement, 1)
    else if 0xE0 ≤ a && a ≤ 0xEF then
      match rest with
      | b :: c :: _ =>
        let low := if a = 0xE0 then 0xA0 else 0x80
        let high := if a = 0xED then 0x9F else 0xBF
        if low ≤ b && b ≤ high && tail c then
          (Char.ofNat ((a - 0xE0) * 4096 + (b - 0x80) * 64 + (c - 0x80)), 3)
        else (replacement, 1)
      | _ => (replacement, 1)
    else if 0xF0 ≤ a && a ≤ 0xF4 then
      match rest with
      | b :: c :: d :: _ =>
        let low := if a = 0xF0 then 0x90 else 0x80
        let high := if a = 0xF4 then 0x8F else 0xBF
        if low ≤ b && b ≤ high && tail c && tail d then
          (Char.ofNat ((a - 0xF0) * 262144 + (b - 0x80) * 4096 + (c - 0x80) * 64 + (d - 0x80)), 4)
        else (replacement, 1)
      | _ => (replacement, 1)
    else (replacement, 1)

/-- Decodes at most `fuel` characters. -/
def decodeChars : Nat → List Nat → List Char
  | 0, _ => []
  | _, [] => []
  | fuel + 1, bytes =>
    let (c, used) := decodeStep bytes
    c :: decodeChars fuel (bytes.drop used)

/-- The text of a byte sequence; a byte that belongs to no character becomes the replacement
character. -/
def ofBytes (bytes : List Nat) : String :=
  String.ofList (decodeChars bytes.length bytes)

/-- The bytes of a text. -/
def bytes (s : String) : List Nat :=
  s.toUTF8.toList.map UInt8.toNat

/-- The first `n` bytes of a text. -/
def takeBytes (n : Nat) (s : String) : String :=
  ofBytes ((bytes s).take n)

end Interlude.Text
