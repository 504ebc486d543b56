import Mathlib
import Interlude.Text.Case
import Interlude.Text.Quoted
/-!
# Texts in pieces

What becomes of a text that is changed piece by piece. A change that goes character by character, or
byte by byte, does to the pieces what it does to the whole. Line breaks are the exception: a
carriage return and a line feed are one break, so a text may be cut anywhere but between the two
(`lineBreaksFrom_append`).
-/

namespace Interlude.Text

theorem upper_append (s t : String) : upper (s ++ t) = upper s ++ upper t := by
  simp only [upper, String.toList_append, List.flatMap_append, String.ofList_append]

theorem escapeHtml_append (s t : String) : escapeHtml (s ++ t) = escapeHtml s ++ escapeHtml t := by
  simp only [escapeHtml, String.toList_append, List.flatMap_append, String.ofList_append]

/-- What a byte array still lists from an index on. -/
theorem toList_loop (bs : ByteArray) (i : Nat) (r : List UInt8) :
    ByteArray.toList.loop bs i r = r.reverse ++ bs.data.toList.drop i := by
  induction hn : bs.size - i generalizing i r with
  | zero =>
    have hi : ¬i < bs.size := by omega
    rw [ByteArray.toList.loop.eq_def, if_neg hi, List.drop_eq_nil_of_le, List.append_nil]
    rw [Array.length_toList]
    exact Nat.not_lt.1 hi
  | succ n ih =>
    have hi : i < bs.size := by omega
    have hd : i < bs.data.toList.length := by rw [Array.length_toList]; exact hi
    rw [ByteArray.toList.loop.eq_def, if_pos hi, ih _ _ (by omega), List.drop_eq_getElem_cons hd]
    rw [List.reverse_cons, List.append_assoc, List.singleton_append, ByteArray.get!,
      getElem!_pos bs.data i hi, Array.getElem_toList]

theorem bytes_append (s t : String) : bytes (s ++ t) = bytes s ++ bytes t := by
  simp only [bytes, String.toUTF8, String.toByteArray_append, ByteArray.toList, toList_loop,
    List.reverse_nil, List.nil_append, List.drop_zero, ByteArray.toList_data_append,
    List.map_append]

theorem escapeUri_append (s t : String) : escapeUri (s ++ t) = escapeUri s ++ escapeUri t := by
  simp only [escapeUri, bytes_append, List.map_append, String.join_append]

/-! ## Line breaks -/

/-- A text may be cut anywhere but between a carriage return and a line feed. -/
theorem lineBreaksFrom_append {a b : List Char} (h : a.getLast? = some '\r' → b.head? ≠ some '\n') :
    lineBreaksFrom (a ++ b) = lineBreaksFrom a ++ lineBreaksFrom b := by
  fun_induction lineBreaksFrom a with
  | case1 => rfl
  | case2 rest ih =>
    rw [List.cons_append, List.cons_append, lineBreaksFrom, ih, List.append_assoc]
    intro hr
    apply h
    cases rest <;> simp_all
  | case3 c rest hc ih => 
    rw [List.cons_append, lineBreaksFrom, ih, List.append_assoc]
    · intro hr
      apply h
      cases rest <;> simp_all
    · intro rest' hcr hrest
      cases rest with
      | nil =>
        subst hcr
        exact h rfl (by rw [List.nil_append] at hrest; rw [hrest]; rfl)
      | cons d rest =>
        cases hrest
        exact hc rest hcr rfl

/-! ## Lower case

A capital sigma is the only character whose lower case depends on what stands beside it. -/

/-- Every code point of a run has case: the run lies within one range, or each of its points lies
within some. -/
theorem lowerRuns_cased : ∀ r ∈ lowerRuns,
    (casedRanges.any fun x => x.1 ≤ r.first && r.last ≤ x.2) ∨ ∀ k ≤ (r.last - r.first) / r.step,
    casedRanges.any fun x => x.1 ≤ r.first + k * r.step && r.first + k * r.step ≤ x.2 := by
  decide +kernel

theorem isCased_of_holds {r : CaseRun} (hr : r ∈ lowerRuns) {c : Char} (hc : r.holds c.toNat) :
    isCased c := by
  simp only [CaseRun.holds, Bool.and_eq_true, decide_eq_true_eq, beq_iff_eq] at hc
  obtain ⟨⟨hfirst, hlast⟩, hstep⟩ := hc
  rcases lowerRuns_cased r hr with h | h
  · obtain ⟨x, hx, hb⟩ := List.any_eq_true.1 h
    simp only [Bool.and_eq_true, decide_eq_true_eq] at hb
    exact List.any_eq_true.2 ⟨x, hx, by simp only [Bool.and_eq_true, decide_eq_true_eq]; omega⟩
  · have hpoint : r.first + (c.toNat - r.first) / r.step * r.step = c.toNat := by
      have := Nat.div_add_mod (c.toNat - r.first) r.step
      rw [Nat.mul_comm] at this
      omega
    have := h ((c.toNat - r.first) / r.step) (Nat.div_le_div_right (by omega))
    rwa [hpoint] at this

/-- Only characters with case have another lower case. -/
theorem lowerChar_of_not_isCased {c : Char} (h : isCased c = false) : lowerChar c = [c] := by
  unfold lowerChar
  split
  · have hupper : ¬(c.val ≥ 'A'.val ∧ c.val ≤ 'Z'.val) := by
      intro hu
      have hcased : isCased c := List.any_eq_true.2 ⟨(0x41, 0x5a), by decide, by
        simp only [Bool.and_eq_true, decide_eq_true_eq]
        exact hu⟩
      exact Bool.false_ne_true (h.symm.trans hcased)
    rw [Char.toLower, dif_neg hupper]
  · unfold mapCase
    split
    · next codes hcodes =>
      have hcased : isCased c := by
        have hpoint : c.toNat = 0x130 := by
          simp only [lowerSpecial, List.lookup] at hcodes
          split at hcodes
          · next hb => exact eq_of_beq hb
          · cases hcodes
        rw [isCased, inRanges, hpoint]
        decide +kernel
      exact absurd (h.symm.trans hcased) Bool.false_ne_true
    · split
      · next r hr =>
        have hcased := isCased_of_holds (List.mem_of_find?_eq_some hr)
          (List.find?_some (p := fun r : CaseRun => r.holds c.toNat) hr)
        exact absurd (h.symm.trans hcased) Bool.false_ne_true
      · rfl

theorem lowerFrom_of_no_sigma {cs : List Char} (h : capitalSigma ∉ cs) (inWord : Bool) :
    lowerFrom inWord cs = cs.flatMap lowerChar := by
  induction cs generalizing inWord with
  | nil => rfl
  | cons c rest ih =>
    have hrest : capitalSigma ∉ rest := fun hm => h (List.mem_cons_of_mem _ hm)
    have hc : c ≠ capitalSigma := by rintro rfl; exact h List.mem_cons_self
    rw [lowerFrom, List.flatMap_cons, if_neg hc]
    simp only [ih hrest]
    split
    · rfl
    · split
      · next hcase =>
        simp only [Bool.and_eq_true, Bool.not_eq_true'] at hcase
        rw [lowerChar_of_not_isCased hcase.1]
        rfl
      · rfl

theorem lower_of_no_sigma {s : String} (h : capitalSigma ∉ s.toList) :
    lower s = String.ofList (s.toList.flatMap lowerChar) :=
  congrArg String.ofList (lowerFrom_of_no_sigma h false)

end Interlude.Text
