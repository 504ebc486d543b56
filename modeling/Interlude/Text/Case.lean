import Interlude.Text.Case.Mapping
import Interlude.Text.Case.Class
/-!
# Case

Text in upper, lower and title case. The Greek sigma is written in its final form at the end of a
word. A word begins at a letter with case and lasts until a character that breaks words; single
marks such as an apostrophe or a full stop between letters do not.
-/

namespace Interlude.Text

/-- Text in upper case, character by character. -/
def upper (s : String) : String := String.ofList (s.toList.flatMap upperChar)

def capitalSigma : Char := Char.ofNat 0x3A3
def smallSigma : Char := Char.ofNat 0x3C3
def finalSigma : Char := Char.ofNat 0x3C2

/-- How many characters after a sigma are judged. -/
def sigmaReach : Nat := 31

/-- The small sigma before `rest`: the ordinary one if a letter follows, else the final one. -/
def sigmaBefore (rest : List Char) : Char :=
  match (rest.take sigmaReach).dropWhile isCaseIgnorable with
  | c :: _ => if isCased c then smallSigma else finalSigma
  | [] => finalSigma

/-- Lower case of the rest of a text; `inWord` says that a letter came before it in its word. -/
def lowerFrom (inWord : Bool) : List Char → List Char
  | [] => []
  | c :: rest =>
    if !inWord then lowerChar c ++ lowerFrom (isCased c) rest
    else if !isCased c && !isCaseIgnorable c then c :: lowerFrom false rest
    else if c = capitalSigma then sigmaBefore rest :: lowerFrom true rest
    else lowerChar c ++ lowerFrom true rest

/-- Each character in lower case by itself, so that the number of characters stays. -/
def lowerEach (s : String) : String := s.map fun c => (lowerChar c).headD c

/-- Text in lower case. -/
def lower (s : String) : String := String.ofList (lowerFrom false s.toList)

/-- Where title casing stands: inside a word or not, whether the last character was a mark within
words, and how many characters after a sigma are still passed over. -/
structure TitleState where
  inWord : Bool := false
  afterMark : Bool := false
  afterSigma : Nat := 0

/-- Title case of the rest of a text. -/
def titleFrom (st : TitleState) : List Char → List Char
  | [] => []
  | c :: rest =>
    if 0 < st.afterSigma && isCaseIgnorable c then
      let ends := (st.afterMark && isMidWord c) || isWordBreak c
      c :: titleFrom ⟨st.inWord && !ends, isMidWord c, st.afterSigma - 1⟩ rest
    else
      let inWord := st.inWord && !(st.afterSigma == 0 && st.afterMark && isMidWord c)
      if isCased c then
        if !inWord then titleChar c ++ titleFrom ⟨true, false, 0⟩ rest
        else if c = capitalSigma then sigmaBefore rest :: titleFrom ⟨true, false, sigmaReach⟩ rest
        else lowerChar c ++ titleFrom ⟨true, false, 0⟩ rest
      else c :: titleFrom ⟨inWord && !isWordBreak c, isMidWord c, 0⟩ rest

/-- Text with its words capitalised. -/
def title (s : String) : String := String.ofList (titleFrom {} s.toList)

end Interlude.Text
