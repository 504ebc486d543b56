import Interlude.Proofs.Expr.Direct
import Interlude.Proofs.Text.Search
/-!
# Functions of positions

The functions of text agree on positions, which are counted in characters and kept in sixty-four
bits: one text contains another exactly if it can be cut out, and the index is the first position
where it can. A text has fewer characters than sixty-four bits count; a position and a length may
still add up to more, and then nothing is cut out (`Eval.positions_agree`).
-/

namespace Interlude

namespace Eval

theorem pure_inj {α : Type} {a b : α} (h : (pure a : Eval α) = pure b) : a = b := by
  have happly := congrFun (congrFun h { params := [], injected := [], context := {} })
    { cells := #[], heap := {} }
  cases happly
  rfl

variable (place : List Nat) (s t : String)

/-- A call that comes to a value whatever it is run on. -/
theorem call_of_apply {f : Function} {args : List Value} {v : Value}
    (h : apply place f args = pure v) :
    call place f args = pure v := by
  unfold call
  rw [h]
  rfl

theorem call_strContains :
    call place .strContains [.str s, .str t] = pure (.bool (Text.index? s t).isSome) := by
  apply call_of_apply
  simp [apply]

theorem call_strIndexOf : call place .strIndexOf [.str s, .str t] =
    pure (.int (match Text.index? s t with | some i => Int64.ofNat i | none => -1)) := by
  apply call_of_apply
  simp only [apply, text_str, pure_bind]
  cases Text.index? s t <;> rfl

theorem call_strLen : call place .strLen [.str t] = pure (.int (Int64.ofNat t.length)) := by
  apply call_of_apply
  simp [apply]

theorem call_strSub (j k : Int64) :
    call place .strSub [.str s, .int j, .int k] = pure (.str (Text.sub s j.toInt k.toInt)) := by
  apply call_of_apply
  simp only [apply, text_str, pure_bind, Value.toInt64?]
  rfl

theorem call_strSub_rest (k : Int64) :
    call place .strSub [.str s, .int k] = pure (.str (Text.sub s k.toInt s.length)) := by
  apply call_of_apply
  simp only [apply, text_str, pure_bind, Value.toInt64?]
  rfl

end Eval

/-! ## Positions in sixty-four bits -/

namespace Text

theorem StandsAt.length_le {α : Type} {pat xs : List α} {i : Nat} (h : StandsAt pat xs i) :
    pat.length ≤ xs.length := by
  have hlen := List.IsPrefix.length_le h
  rw [List.length_drop] at hlen
  omega

theorem StandsAt.add_length_le {α : Type} {pat xs : List α} {i : Nat} (h : StandsAt pat xs i)
    (hne : pat ≠ []) :
    i + pat.length ≤ xs.length := by
  have hlen := List.IsPrefix.length_le h
  have hpos := List.length_pos_iff.2 hne
  rw [List.length_drop] at hlen
  omega

theorem length_sub_le (s : String) (start stop : Int) : (sub s start stop).length ≤ s.length := by
  unfold sub
  rw [String.length_ofList, List.length_drop, List.length_take, String.length_toList]
  omega

/-- A position and a length that add up to more than sixty-four bits count cut out nothing. -/
theorem sub_eq_iff_standsAt {s : String} (hs : s.length < 2 ^ 63) (t : String) {j : Int64}
    (hj : 0 ≤ j) :
    sub s j.toInt (j + Int64.ofNat t.length).toInt = t ↔
    StandsAt t.toList s.toList j.toInt.toNat := by
  have hj : 0 ≤ j.toInt := Int64.le_iff_toInt_le.1 hj
  have hjlt : j.toInt < 2 ^ 63 := j.toInt_lt
  by_cases ht : t.length < 2 ^ 63
  · have hsum : (j + Int64.ofNat t.length).toInt = (j.toInt + t.length).bmod (2 ^ 64) := by
      rw [Int64.toInt_add, Int64.toInt_ofNat_of_lt ht]
    by_cases hover : j.toInt + t.length < 2 ^ 63
    · have hstop : (j + Int64.ofNat t.length).toInt = j.toInt.toNat + t.length := by
        rw [hsum, Int.bmod_eq_of_le] <;> omega
      have hstart : j.toInt = j.toInt.toNat := (Int.toNat_of_nonneg hj).symm
      rw [hstop, hstart]
      exact sub_eq_iff s t j.toInt.toNat
    · have hneg : (j + Int64.ofNat t.length).toInt < 0 := by
        rw [hsum, Int.bmod_def]
        omega
      rw [sub_of_neg s _ hneg]
      have hne : t.toList ≠ [] := by
        intro hnil
        have hzero : t.length = 0 := by rw [← String.length_toList, hnil]; rfl
        omega
      constructor
      · rintro rfl
        exact absurd rfl hne
      · intro hstands
        have hlen := hstands.add_length_le hne
        rw [String.length_toList, String.length_toList] at hlen
        omega
  · constructor
    · intro heq
      have hlen := length_sub_le s j.toInt (j + Int64.ofNat t.length).toInt
      rw [heq] at hlen
      omega
    · intro hstands
      have hlen := hstands.length_le
      rw [String.length_toList, String.length_toList] at hlen
      omega

/-- A first position is in the text. -/
theorem FirstAt.le_length {α : Type} {pat xs : List α} {i : Nat} (h : FirstAt pat xs i) :
    i ≤ xs.length := by
  by_cases hne : pat = []
  · have hzero := h.first 0 (by rw [StandsAt, hne]; exact List.nil_prefix)
    omega
  · have := h.stands.add_length_le hne
    omega

/-- The characters before the first place are those that the bytes before it encode. -/
theorem FirstAt.split {s t : String} {j : Nat} (h : FirstAt t.toList s.toList j) {i : Nat}
    (hi : FirstAt (Text.bytes t) (Text.bytes s) i) : ∃ a b, s = a ++ b ∧ (Text.bytes a).length = i ∧
    a.length = j := by
  refine ⟨String.ofList (s.toList.take j), String.ofList (s.toList.drop j), ?_, ?_, ?_⟩
  · rw [← String.ofList_append, List.take_append_drop, String.ofList_toList]
  · rw [bytes_eq, List.length_map, String.toList_ofList]
    exact h.bytes.unique hi
  · rw [String.length_ofList, List.length_take]
    exact Nat.min_eq_left h.le_length

end Text

/-- **The functions of text agree on positions.** A text contains another exactly if the index is
not minus one, exactly if the other can be cut out somewhere, and then the index is the first
position where it can. The index is where a search of the bytes finds the other, counted in the
characters before it. And a text cut in two at any position is the two parts. -/
theorem Eval.positions_agree (place : List Nat) (s t : String) (hs : s.length < 2 ^ 63) :
    ∃ (found : Bool) (position length : Int64),
      call place .strContains [.str s, .str t] = pure (.bool found) ∧
      call place .strIndexOf [.str s, .str t] = pure (.int position) ∧
      call place .strLen [.str t] = pure (.int length) ∧
      (found = true ↔ position ≠ -1) ∧
      (found = true ↔ ∃ j, 0 ≤ j ∧ call place .strSub [.str s, .int j, .int (j + length)] =
      pure (.str t)) ∧ (found = true → 0 ≤ position ∧
        call place .strSub [.str s, .int position, .int (position + length)] = pure (.str t) ∧
        ∀ j, 0 ≤ j → call place .strSub [.str s, .int j, .int (j + length)] = pure (.str t) →
      position ≤ j) ∧ (found = true ↔ ∃ i, Text.StandsAt (Text.bytes t) (Text.bytes s) i) ∧
      (∀ i, Text.FirstAt (Text.bytes t) (Text.bytes s) i →
        ∃ a b, s = a ++ b ∧ (Text.bytes a).length = i ∧ position = Int64.ofNat a.length) ∧
      ∀ k : Int64, ∃ front back, call place .strSub [.str s, .int 0, .int k] = pure (.str front) ∧
        call place .strSub [.str s, .int k] = pure (.str back) ∧ front ++ back = s := by
  have hcut {j : Int64} (hj : 0 ≤ j) :
      call place .strSub [.str s, .int j, .int (j + Int64.ofNat t.length)] = pure (.str t) ↔
        Text.StandsAt t.toList s.toList j.toInt.toNat := by
    rw [call_strSub, ← Text.sub_eq_iff_standsAt hs t hj]
    exact ⟨fun h => Value.str.inj (pure_inj h), fun h => by rw [h]⟩
  refine ⟨_, _, _, call_strContains place s t, call_strIndexOf place s t, call_strLen place t, ?_⟩
  have hparts (k : Int64) : ∃ front back, call place .strSub [.str s, .int 0, .int k] =
      pure (.str front) ∧ call place .strSub [.str s, .int k] = pure (.str back) ∧
          front ++ back = s :=
    ⟨_, _, call_strSub place s 0 k, call_strSub_rest place s k, Text.sub_append_sub s k.toInt⟩
  rcases Text.index?_spec s t with ⟨i, hi, hfirst⟩ | ⟨hnone, hall⟩
  · have hlt : i < 2 ^ 63 := Nat.lt_of_le_of_lt hfirst.le_length (by rwa [String.length_toList])
    have htoInt : (Int64.ofNat i).toInt = i := Int64.toInt_ofNat_of_lt hlt
    have hpos : 0 ≤ Int64.ofNat i :=
      Int64.le_iff_toInt_le.2 (by rw [htoInt]; exact Int.natCast_nonneg i)
    have hhere : call place .strSub [.str s, .int (Int64.ofNat i),
        .int (Int64.ofNat i + Int64.ofNat t.length)] = pure (.str t) :=
        (hcut hpos).2 (by rw [htoInt]; exact hfirst.stands)
    simp only [hi, Option.isSome_some, true_iff, forall_const]
    refine ⟨?_, ⟨_, hpos, hhere⟩, ⟨hpos, hhere, fun j hj h => ?_⟩, ⟨_, hfirst.bytes.stands⟩,
      fun b hb => ?_, hparts⟩
    · intro hminus
      rw [hminus] at hpos
      exact absurd hpos (by decide)
    · have hle := hfirst.first _ ((hcut hj).1 h)
      have hj' : 0 ≤ j.toInt := Int64.le_iff_toInt_le.1 hj
      rw [Int64.le_iff_toInt_le, htoInt]
      omega
    · obtain ⟨front, back, hsplit, hlen, rfl⟩ := hfirst.split hb
      exact ⟨front, back, hsplit, hlen, rfl⟩
  · simp only [hnone, Option.isSome_none, Bool.false_eq_true, false_iff, false_implies, true_and]
    refine ⟨by simp, ?_, ?_, ?_, hparts⟩
    · rintro ⟨j, hj, h⟩
      exact hall _ ((hcut hj).1 h)
    · intro h
      obtain ⟨j, hj⟩ := Text.exists_standsAt_bytes h
      exact hall j hj
    · intro i h
      obtain ⟨j, hj⟩ := Text.exists_standsAt_bytes ⟨i, h.stands⟩
      exact absurd hj (hall j)

namespace Sample

/-- A text with characters of one, two and three bytes. -/
def path : String := "añ→b→"

/-- The first arrow is found behind two characters, where it can be cut out. -/
theorem arrow_found : ∃ position : Int64, Eval.call [] .strIndexOf [.str path, .str "→"] =
    pure (.int position) ∧ 0 ≤ position ∧ position ≤ 2 ∧
    Eval.call [] .strSub [.str path, .int position, .int (position + 1)] = pure (.str "→") := by
  obtain ⟨found, position, length, -, hindex, hlength, -, hcut, hfirst, -⟩ :=
    Eval.positions_agree [] path "→" (by decide)
  have hone : length = 1 := by
    have h := hlength.symm.trans (Eval.call_strLen [] "→")
    exact Value.int.inj (Eval.pure_inj h)
  subst hone
  have htwo : Eval.call [] .strSub [.str path, .int 2, .int (2 + 1)] = pure (.str "→") := by
    rw [Eval.call_strSub]
    exact congrArg (fun s => pure (Value.str s)) (by decide +kernel)
  obtain ⟨hpos, hhere, hleast⟩ := hfirst (hcut.2 ⟨2, by decide, htwo⟩)
  exact ⟨position, hindex, hpos, hleast 2 (by decide) htwo, hhere⟩

end Sample

end Interlude
