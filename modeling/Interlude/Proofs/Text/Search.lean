import Interlude.Text.Search
import Interlude.Proofs.Text.Pieces
/-!
# Positions in text

A text can be searched character by character or byte by byte. Both find the same place: the bytes
of a character begin with one that no character has inside, so a match of bytes starts where a
character starts (`stands_of_encode`), and what the bytes before it encode is counted in characters.

The characters from a position, as many as a text has, are that text exactly if it stands there
(`sub_eq_iff`).
-/

namespace Interlude.Text

/-! ## Occurrences -/

/-- `pat` stands in a list at a place. -/
def StandsAt {α : Type} (pat xs : List α) (i : Nat) : Prop := pat <+: xs.drop i

/-- The first place where `pat` stands. -/
structure FirstAt {α : Type} (pat xs : List α) (i : Nat) : Prop where
  stands : StandsAt pat xs i
  first : ∀ j, StandsAt pat xs j → i ≤ j

theorem FirstAt.unique {α : Type} {pat xs : List α} {i j : Nat} (h : FirstAt pat xs i)
    (h' : FirstAt pat xs j) : i = j :=
  Nat.le_antisymm (h.first j h'.stands) (h'.first i h.stands)

theorem FirstAt.succ {α : Type} {pat xs : List α} {x : α} {i : Nat} (h : FirstAt pat xs i)
    (hzero : ¬pat <+: x :: xs) : FirstAt pat (x :: xs) (i + 1) := by
  refine ⟨h.stands, fun j hj => ?_⟩
  cases j with
  | zero => exact absurd hj hzero
  | succ j => exact Nat.succ_le_succ (h.first j hj)

/-- The search finds the first place, or there is none. -/
theorem indexFrom_spec (pat : List Char) (k : Nat) (cs : List Char) :
    (∃ j, indexFrom pat k cs = some (k + j) ∧ FirstAt pat cs j) ∨
      indexFrom pat k cs = none ∧ ∀ j, ¬StandsAt pat cs j := by
  induction cs generalizing k with
  | nil =>
    unfold indexFrom
    by_cases h : pat.isPrefixOf []
    · rw [if_pos h]
      exact .inl ⟨0, rfl, List.isPrefixOf_iff_prefix.1 h, fun _ _ => Nat.zero_le _⟩
    · rw [if_neg h]
      refine .inr ⟨rfl, fun j hj => h (List.isPrefixOf_iff_prefix.2 ?_)⟩
      rwa [StandsAt, List.drop_nil] at hj
  | cons c rest ih =>
    unfold indexFrom
    by_cases h : pat.isPrefixOf (c :: rest)
    · rw [if_pos h]
      exact .inl ⟨0, rfl, List.isPrefixOf_iff_prefix.1 h, fun _ _ => Nat.zero_le _⟩
    · rw [if_neg h]
      have hzero : ¬pat <+: c :: rest := fun hz => h (List.isPrefixOf_iff_prefix.2 hz)
      rcases ih (k + 1) with ⟨j, hj, hfirst⟩ | ⟨hnone, hall⟩
      · exact .inl ⟨j + 1, hj.trans (by rw [Nat.add_assoc, Nat.add_comm 1]), hfirst.succ hzero⟩
      · refine .inr ⟨hnone, fun j hj => ?_⟩
        cases j with
        | zero => exact hzero hj
        | succ j => exact hall j hj

theorem index?_spec (s pat : String) :
    (∃ i, index? s pat = some i ∧ FirstAt pat.toList s.toList i) ∨ index? s pat = none ∧
    ∀ j, ¬StandsAt pat.toList s.toList j := by
  have h := indexFrom_spec pat.toList 0 s.toList
  simp only [Nat.zero_add] at h
  exact h

/-! ## Bytes -/

/-- The bytes of characters. -/
def encode (cs : List Char) : List UInt8 := cs.flatMap String.utf8EncodeChar

theorem bytes_eq (s : String) : bytes s = (encode s.toList).map UInt8.toNat := by
  unfold bytes
  rw [ByteArray.toList, toList_loop, List.reverse_nil, List.nil_append, List.drop_zero,
    String.toUTF8, ← String.utf8Encode_toList, List.utf8Encode, List.toList_data_toByteArray]
  rfl

theorem encode_append (cs ds : List Char) : encode (cs ++ ds) = encode cs ++ encode ds :=
    List.flatMap_append

theorem prefix_of_encode {t s : List Char} (h : encode t <+: encode s) : t <+: s := by
  obtain ⟨rest, hrest⟩ := h
  apply List.isPrefix_of_utf8Encode_append_eq_utf8Encode rest.toByteArray
  rw [List.utf8Encode, List.utf8Encode, ← List.toByteArray_append]
  exact congrArg List.toByteArray hrest

/-- Bytes of a text stand in bytes of a text only where a character begins. -/
theorem stands_of_encode {t s : List Char} (ht : t ≠ []) {i : Nat}
    (h : StandsAt (encode t) (encode s) i) :
    ∃ a b, s = a ++ b ∧ (encode a).length = i ∧ t <+: b := by
  induction s generalizing i with
  | nil =>
    rw [StandsAt, show encode [] = [] from rfl, List.drop_nil, List.prefix_nil] at h
    cases t with
    | nil => exact absurd rfl ht
    | cons c rest => simp [encode] at h
  | cons c rest ih =>
    rw [StandsAt, show encode (c :: rest) = String.utf8EncodeChar c ++
      encode rest from List.flatMap_cons] at h
    by_cases hzero : i = 0
    · subst hzero
      exact ⟨[], c :: rest, rfl, rfl, prefix_of_encode h⟩
    · by_cases hin : i < (String.utf8EncodeChar c).length
      · -- inside a character no character begins
        obtain ⟨d, ds, rfl⟩ : ∃ d ds, t = d :: ds := by
          cases t with
          | nil => exact absurd rfl ht
          | cons d ds => exact ⟨d, ds, rfl⟩
        have hpos : 0 < (String.utf8EncodeChar d).length :=
          List.length_pos_iff.2 String.utf8EncodeChar_ne_nil
        have hsame : (String.utf8EncodeChar c)[i] = (String.utf8EncodeChar d)[0] := by
          have hlen : 0 < (encode (d :: ds)).length := by
            rw [show encode (d :: ds) = String.utf8EncodeChar d ++ encode ds from List.flatMap_cons,
              List.length_append]
            omega
          have hget := h.getElem hlen
          rw [List.getElem_drop] at hget
          simp only [Nat.add_zero, encode, List.flatMap_cons] at hget
          rw [List.getElem_append_left hpos, List.getElem_append_left hin] at hget
          exact hget.symm
        have hfirst : (String.utf8EncodeChar c)[i].IsUTF8FirstByte := by
          rw [hsame]
          exact UInt8.isUTF8FirstByte_getElem_utf8EncodeChar.2 rfl
        exact absurd (UInt8.isUTF8FirstByte_getElem_utf8EncodeChar.1 hfirst) hzero
      · rw [List.drop_append, List.drop_eq_nil_of_le (Nat.not_lt.1 hin), List.nil_append] at h
        obtain ⟨a, b, rfl, hlen, hb⟩ := ih h
        refine ⟨c :: a, b, rfl, ?_, hb⟩
        rw [show encode (c :: a) = String.utf8EncodeChar c ++ encode a from List.flatMap_cons,
          List.length_append, hlen]
        omega

theorem standsAt_bytes_iff {s t : String} {i : Nat} :
    StandsAt (bytes t) (bytes s) i ↔ StandsAt (encode t.toList) (encode s.toList) i := by
  unfold StandsAt
  rw [bytes_eq, bytes_eq, ← List.map_drop, List.prefix_iff_eq_take, List.prefix_iff_eq_take,
    List.length_map, ← List.map_take]
  exact (List.map_inj_right fun _ _ h => UInt8.toNat_inj.1 h).trans Iff.rfl

/-- Where characters stand, their bytes stand behind the bytes of the characters before. -/
theorem StandsAt.encode {t s : List Char} {j : Nat} (h : StandsAt t s j) :
    StandsAt (encode t) (Text.encode s) (Text.encode (s.take j)).length := by
  obtain ⟨rest, hrest⟩ := h
  refine ⟨Text.encode rest, ?_⟩
  have hsplit : Text.encode s = Text.encode (s.take j) ++ Text.encode (s.drop j) := by
    rw [← encode_append, List.take_append_drop]
  rw [← encode_append, hrest, hsplit, List.drop_left]

/-- The first place in the bytes is behind the characters before the first place in the text. -/
theorem FirstAt.bytes {s t : String} {j : Nat} (h : FirstAt t.toList s.toList j) :
    FirstAt (bytes t) (Text.bytes s) (Text.encode (s.toList.take j)).length := by
  refine ⟨standsAt_bytes_iff.2 h.stands.encode, fun i hi => ?_⟩
  by_cases ht : t.toList = []
  · -- the empty text stands at the beginning
    have hzero := h.first 0 (by rw [StandsAt, ht]; exact List.nil_prefix)
    rw [Nat.le_zero.1 hzero]
    exact Nat.zero_le i
  · obtain ⟨a, b, hs, hlen, hb⟩ := stands_of_encode ht (standsAt_bytes_iff.1 hi)
    have hle : j ≤ a.length := h.first a.length (by rw [StandsAt, hs, List.drop_left]; exact hb)
    rw [← hlen, hs, List.take_append_of_le_length hle]
    obtain ⟨c, hc⟩ := List.take_prefix j a
    conv => rhs; rw [← hc, encode_append, List.length_append]
    exact Nat.le_add_right _ _

theorem exists_standsAt_bytes {s t : String} (h : ∃ i, StandsAt (bytes t) (bytes s) i) :
    ∃ j, StandsAt t.toList s.toList j := by
  obtain ⟨i, hi⟩ := h
  by_cases ht : t.toList = []
  · exact ⟨0, by rw [StandsAt, ht]; exact List.nil_prefix⟩
  · obtain ⟨a, b, hs, -, hb⟩ := stands_of_encode ht (standsAt_bytes_iff.1 hi)
    exact ⟨a.length, by rw [StandsAt, hs, List.drop_left]; exact hb⟩

/-! ## Parts -/

/-- The characters from a position, as many as asked for. -/
theorem toList_sub (s : String) (j n : Nat) :
    (sub s j (j + n)).toList = (s.toList.drop j).take n := by
  unfold sub
  simp only [String.toList_ofList]
  generalize s.toList = cs
  by_cases hj : j ≤ cs.length
  · have hlow : (min (j : Int) cs.length).toNat = j := by omega
    have hhigh : max j (min ((j : Int) + n) cs.length).toNat - j = min n (cs.length - j) := by omega
    rw [hlow, List.drop_take, hhigh, ← List.length_drop, ← List.take_eq_take_min]
  · have hlow : (min (j : Int) cs.length).toNat = cs.length := by omega
    have hlen : (cs.take (max cs.length (min ((j : Int) + n) cs.length).toNat)).length ≤
      cs.length := List.length_take_le' ..
    rw [hlow, List.drop_eq_nil_of_le hlen, List.drop_eq_nil_of_le (by omega), List.take_nil]

/-- The part of the length of a text is the text exactly where it stands. -/
theorem sub_eq_iff (s t : String) (j : Nat) : sub s j (j + t.length) = t ↔
    StandsAt t.toList s.toList j := by
  rw [← String.toList_inj, toList_sub, StandsAt, List.prefix_iff_eq_take, String.length_toList]
  exact eq_comm

/-- A part that ends before it begins is empty. -/
theorem sub_of_neg (s : String) (start : Int) {stop : Int} (hstop : stop < 0) :
    sub s start stop = "" := by
  unfold sub
  simp only
  have hhigh : max (min start s.toList.length).toNat (min stop s.toList.length).toNat =
      (min start s.toList.length).toNat := by
    omega
  rw [hhigh, List.drop_eq_nil_of_le (List.length_take_le ..)]

/-- The parts before and from a position make up the text. -/
theorem sub_append_sub (s : String) (k : Int) : sub s 0 k ++ sub s k s.length = s := by
  unfold sub
  simp only
  have hlen : s.length = s.toList.length := String.length_toList.symm
  have hzero : (min 0 (s.toList.length : Int)).toNat = 0 := by omega
  have hhigh : max 0 (min k s.toList.length).toNat = (min k s.toList.length).toNat := by omega
  have htop : max (min k s.toList.length).toNat (min (s.length : Int) s.toList.length).toNat =
    s.toList.length := by omega
  rw [hzero, hhigh, List.drop_zero, htop, List.take_length, ← String.ofList_append,
    List.take_append_drop, String.ofList_toList]

end Interlude.Text
