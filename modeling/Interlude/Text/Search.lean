/-!
# Searching text

Positions are counted in characters.
-/

namespace Interlude.Text

/-- The position of the first occurrence of `pat`, counted on from `at₀`. -/
def indexFrom (pat : List Char) (at₀ : Nat) (cs : List Char) : Option Nat :=
  if pat.isPrefixOf cs then some at₀
  else
    match cs with
    | [] => none
    | _ :: rest => indexFrom pat (at₀ + 1) rest

/-- The position of the first occurrence of `pat` in `s`. -/
def index? (s pat : String) : Option Nat := indexFrom pat.toList 0 s.toList

/-- The characters of `s` from `start` up to `stop`, both kept within the text and in order. -/
def sub (s : String) (start stop : Int) : String :=
  let cs := s.toList
  let low := (min start cs.length).toNat
  let high := max low (min stop cs.length).toNat
  String.ofList ((cs.take high).drop low)

end Interlude.Text
