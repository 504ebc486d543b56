import Mathlib
import Interlude.StaticType
/-!
# The notation of types

Reading gives back the type that was written. A written type is cut where it was put together:
brackets enclose the commas and bars inside it, so a cut at depth zero passes over a whole type
(`Passes`), and the types between commas come out one by one (`splitTop_commas`).

Whatever is read has the shape that is written, so reading and writing agree on every text that is a
type (`parse_notation`).
-/

namespace Interlude

namespace StaticType

/-! ## Shape -/

mutual

/-- Something holds of a type and of all types in it. -/
def Throughout (P : StaticType → Prop) : StaticType → Prop
  | mk k n es => P (mk k n es) ∧ ThroughoutAll P es

def ThroughoutAll (P : StaticType → Prop) : List StaticType → Prop
  | [] => True
  | t :: ts => t.Throughout P ∧ ThroughoutAll P ts

end

/-- The kind is known. -/
def Known (t : StaticType) : Prop := t.kind ≠ .unknown

/-- Null admits null, a list has at most one element type, a map has two or none, and nothing else
has any. -/
structure Formed (t : StaticType) : Prop where
  null : t.kind = .null → t.nullable = true
  list : t.kind = .list → t.elems.length = 0 ∨ t.elems.length = 1
  map : t.kind = .map → t.elems.length = 0 ∨ t.elems.length = 2
  rest : t.kind ≠ .list → t.kind ≠ .map → t.elems.length = 0

theorem throughoutAll_iff {P : StaticType → Prop} {ts : List StaticType} :
    ThroughoutAll P ts ↔ ∀ t ∈ ts, t.Throughout P := by
  induction ts with
  | nil => simp [ThroughoutAll]
  | cons t ts ih => simp [ThroughoutAll, ih]

theorem Formed.withNullable {t : StaticType} (h : t.Formed) {n : Bool}
    (hn : t.nullable = true → n = true) :
    (t.withNullable n).Formed where
  null hk := hn (h.null hk)
  list := h.list
  map := h.map
  rest := h.rest

theorem Throughout.formed_withNullable {t : StaticType} (h : t.Throughout Formed) {n : Bool}
    (hn : t.nullable = true → n = true) : (t.withNullable n).Throughout Formed := by
  obtain ⟨k, m, es⟩ := t
  exact ⟨h.1.withNullable hn, h.2⟩

/-- A type without element types. -/
theorem formed_bare {k : TypeKind} {n : Bool} (h : k = .null → n = true) :
    (mk k n []).Throughout Formed :=
  ⟨⟨h, fun _ => .inl rfl, fun _ => .inl rfl, fun _ _ => rfl⟩, trivial⟩

/-! ## What is read is formed -/

theorem joinMember_formed {acc : Option StaticType} {t : StaticType}
    (hacc : ∀ u, acc = some u → u.Throughout Formed) (ht : t.Throughout Formed) :
    ∀ u, joinMember acc t = some u → u.Throughout Formed := by
  intro u hu
  cases acc with
  | none =>
    cases hu
    exact ht
  | some v =>
    simp only [joinMember] at hu
    split at hu
    · cases hu
      exact ht
    · cases hu
      exact formed_bare nofun

theorem foldl_joinMember_formed {ts : List StaticType} (hts : ∀ t ∈ ts, t.Throughout Formed)
    (acc : Option StaticType) (hacc : ∀ u, acc = some u → u.Throughout Formed) :
    ∀ u, ts.foldl joinMember acc = some u → u.Throughout Formed := by
  induction ts generalizing acc with
  | nil => exact hacc
  | cons t ts ih =>
    refine ih (fun u hu => hts u (List.mem_cons_of_mem _ hu)) _ ?_
    exact joinMember_formed hacc (hts t List.mem_cons_self)

theorem applyArguments_formed {kind : TypeKind} {name : List Char} {args : List StaticType}
    {t : StaticType} (hargs : ∀ a ∈ args, a.Throughout Formed)
    (h : applyArguments kind name args = .ok t) : t.Throughout Formed := by
  unfold applyArguments at h
  split at h
  · cases h
  · next hlist =>
    split at h
    · cases h
    · next hmap =>
      split at h
      · cases h
      · next hother =>
        cases h
        simp only [Bool.and_eq_true, decide_eq_true_eq, bne_iff_ne, not_and, Decidable.not_not]
          at hlist hmap hother
        refine ⟨⟨?_, fun hk => .inr (hlist hk), fun hk => .inr (hmap hk), fun hl hm =>
          (hm (hother hl)).elim⟩, throughoutAll_iff.2 hargs⟩
        rintro rfl
        exact absurd (hother nofun) nofun

theorem mapM_ok_mem {α β ε : Type} {f : α → Except ε β} {xs : List α} {ys : List β}
    (h : xs.mapM f = .ok ys) :
    ∀ y ∈ ys, ∃ x ∈ xs, f x = .ok y := by
  induction xs generalizing ys with
  | nil =>
    cases h
    simp
  | cons x xs ih =>
    rw [List.mapM_cons] at h
    cases hx : f x with
    | error e => rw [hx] at h; cases h
    | ok y =>
      cases hxs : xs.mapM f with
      | error e => rw [hx, hxs] at h; cases h
      | ok ys' =>
        rw [hx, hxs] at h
        cases h
        rintro z (_ | ⟨_, hz⟩)
        · exact ⟨x, List.mem_cons_self, hx⟩
        · obtain ⟨x', hx', hfx'⟩ := ih hxs z hz
          exact ⟨x', List.mem_cons_of_mem _ hx', hfx'⟩

theorem parseChars_formed {fuel : Nat} {cs : List Char} {t : StaticType}
    (h : parseChars fuel cs = .ok t) :
    t.Throughout Formed := by
  induction fuel generalizing cs t with
  | zero =>
    cases h
    exact formed_bare nofun
  | succ fuel ih =>
    have hall {ps : List (List Char)} {ts : List StaticType}
      (hts : ps.mapM (parseChars fuel) = .ok ts) :
        ∀ t ∈ ts, t.Throughout Formed := by
      intro t ht
      obtain ⟨p, -, hp⟩ := mapM_ok_mem hts t ht
      exact ih hp
    unfold parseChars at h
    split at h
    · -- an empty text
      cases h
      exact formed_bare nofun
    · -- a question mark
      next rest _ =>
      cases hp : parseChars fuel rest with
      | error e => rw [hp] at h; cases h
      | ok u =>
        rw [hp] at h
        cases h
        exact (ih hp).formed_withNullable fun _ => rfl
    · next s _ _ =>
      split at h
      · -- a union
        next a b more _ =>
        simp only at h
        generalize (a :: b :: more).any _ = nullable at h
        generalize List.filter _ (a :: b :: more) = members at h
        cases hm : members.mapM (parseChars fuel) with
        | error e => rw [hm] at h; cases h
        | ok ts =>
          rw [hm] at h
          have hjoin := foldl_joinMember_formed (hall hm) none fun _ hu => by cases hu
          cases hu : ts.foldl joinMember none with
          | none =>
            simp only [bind, Except.bind, hu] at h
            cases h
            exact formed_bare fun _ => rfl
          | some u =>
            simp only [bind, Except.bind, hu] at h
            cases h
            exact (hjoin u hu).formed_withNullable fun hn => by rw [hn, Bool.true_or]
      · -- one type
        simp only at h
        split at h
        · cases h
        · split at h
          · cases h
          · next kind _ =>
            split at h
            · cases h
              exact formed_bare fun hk => by simp [hk]
            · generalize splitTop ',' 0 _ = pieces at h
              cases hm : pieces.mapM (parseChars fuel) with
              | error e => rw [hm] at h; cases h
              | ok ts =>
                rw [hm] at h
                exact applyArguments_formed (hall hm) h

/-! ## Cuts -/

/-- Characters before the first piece. -/
def glue (cs : List Char) : List (List Char) → List (List Char)
  | [] => [cs]
  | piece :: pieces => (cs ++ piece) :: pieces

theorem splitTop_ne_nil (sep : Char) (depth : Int) (cs : List Char) :
    splitTop sep depth cs ≠ [] := by
  cases cs with
  | nil => simp [splitTop]
  | cons c rest =>
    unfold splitTop
    split
    · simp
    · simp only
      split <;> simp

/-- A cut at `sep` passes over the characters, at a depth. -/
def Passes (sep : Char) (depth : Int) (cs : List Char) : Prop :=
  ∀ rest, splitTop sep depth (cs ++ rest) = glue cs (splitTop sep depth rest)

namespace Passes

variable {sep : Char} {depth : Int}

theorem nil : Passes sep depth [] := by
  intro rest
  cases hs : splitTop sep depth rest with
  | nil => exact absurd hs (splitTop_ne_nil sep depth rest)
  | cons piece pieces => simp [glue, hs]

theorem append {cs ds : List Char} (hc : Passes sep depth cs) (hd : Passes sep depth ds) :
    Passes sep depth (cs ++ ds) := by
  intro rest
  rw [List.append_assoc, hc, hd]
  cases splitTop sep depth rest with
  | nil => rfl
  | cons piece pieces => simp [glue]

/-- One character, which changes the depth for what follows. -/
theorem splitTop_cons {c : Char} (h : c ≠ sep ∨ depth ≠ 0) (rest : List Char) :
    splitTop sep depth (c :: rest) =
      glue [c] (splitTop sep (if c = '<' then depth + 1 else if c = '>' then depth - 1 else depth)
      rest) := by
  have hpass : ¬((c = sep && depth = 0) = true) := by
    simp only [Bool.and_eq_true, decide_eq_true_eq]
    rintro ⟨hc, hd⟩
    exact h.elim (· hc) (· hd)
  rw [splitTop, if_neg hpass]
  simp only
  generalize splitTop sep (if c = '<' then depth + 1 else if c = '>' then depth - 1 else depth)
    rest = pieces
  cases pieces <;> rfl

theorem char {c : Char} (h : c ≠ sep ∨ depth ≠ 0) (hopen : c ≠ '<') (hclose : c ≠ '>') :
    Passes sep depth [c] := by
  intro rest
  rw [List.singleton_append, splitTop_cons h, if_neg hopen, if_neg hclose]

theorem chars {cs : List Char} (h : ∀ c ∈ cs, c ≠ sep ∧ c ≠ '<' ∧ c ≠ '>') :
    Passes sep depth cs := by
  induction cs with
  | nil => exact nil
  | cons c cs ih =>
    obtain ⟨hc, hopen, hclose⟩ := h c List.mem_cons_self
    exact (char (.inl hc) hopen hclose).append (ih fun d hd => h d (List.mem_cons_of_mem _ hd))

/-- What stands in brackets is one level deeper. -/
theorem bracket {cs : List Char} (hopen : sep ≠ '<') (hclose : sep ≠ '>')
    (h : Passes sep (depth + 1) cs) :
    Passes sep depth ('<' :: cs ++ ['>']) := by
  intro rest
  rw [List.append_assoc, List.cons_append, splitTop_cons (.inl hopen.symm), if_pos rfl, h,
    List.singleton_append, splitTop_cons (.inl hclose.symm), if_neg (by decide), if_pos rfl,
    Int.add_sub_cancel]
  cases splitTop sep depth rest with
  | nil => simp [glue]
  | cons piece pieces => simp [glue]

/-- All of the characters are one piece. -/
theorem splitTop_eq {cs : List Char} (h : Passes sep depth cs) : splitTop sep depth cs = [cs] := by
  have := h []
  rwa [List.append_nil, splitTop, glue, List.append_nil] at this

end Passes

/-! ## What is written -/

/-- The characters of a written type. -/
def chars (t : StaticType) : List Char := t.text.toList

/-- The characters of written types, with commas between them. -/
def commas : List StaticType → List Char
  | [] => []
  | [t] => t.chars
  | t :: ts => t.chars ++ ',' :: commas ts

theorem commas_cons (t u : StaticType) (us : List StaticType) :
    commas (t :: u :: us) = t.chars ++ ',' :: commas (u :: us) := rfl

theorem toList_intercalate_texts (ts : List StaticType) :
    (String.intercalate "," (texts ts)).toList = commas ts := by
  induction ts with
  | nil => rfl
  | cons t ts ih =>
    cases ts with
    | nil => simp [texts, commas, chars]
    | cons u us =>
      rw [commas_cons, ← ih]
      simp [texts, chars]

theorem chars_mk (k : TypeKind) (n : Bool) (es : List StaticType) : (mk k n es).chars =
    (if n && k != .null then ['?'] else []) ++
    (k.name.toList ++ (if es.isEmpty then [] else '<' :: commas es ++ ['>'])) := by
  unfold chars text
  simp only [String.toList_append]
  rw [List.append_assoc]
  congr 1
  · split <;> rfl
  · congr 1
    split
    · rfl
    · rw [String.toList_append, String.toList_append, toList_intercalate_texts]
      rfl

/-- A name is written with letters alone. -/
theorem name_letters {k : TypeKind} (h : k ≠ .unknown) : ∀ c ∈ k.name.toList, 'a' ≤ c ∧
    c ≤ 'z' := by
  have hall : k.name.toList.all (fun c => decide ('a' ≤ c ∧ c ≤ 'z')) = true := by
    cases k <;> first | exact absurd rfl h | decide
  exact fun c hc => of_decide_eq_true (List.all_eq_true.1 hall c hc)

theorem name_ne_nil (k : TypeKind) : k.name.toList ≠ [] := by
  cases k <;> decide

theorem ofName?_name {k : TypeKind} (h : k ≠ .unknown) : TypeKind.ofName? k.name = some k := by
  cases k <;> first | exact absurd rfl h | decide

theorem passes_name {sep : Char} (hsep : sep = ',' ∨ sep = '|') {k : TypeKind} (h : k ≠ .unknown)
    (depth : Int) :
    Passes sep depth k.name.toList := by
  refine .chars fun c hc => ?_
  obtain ⟨hlow, hhigh⟩ := name_letters h c hc
  refine ⟨?_, ?_, ?_⟩
  · rintro rfl
    rcases hsep with rfl | rfl
    · exact absurd hlow (by decide)
    · exact absurd hhigh (by decide)
  · rintro rfl
    exact absurd hlow (by decide)
  · rintro rfl
    exact absurd hlow (by decide)

mutual

/-- A cut at a comma or a bar passes over a written type. -/
theorem passes_chars {sep : Char} (hsep : sep = ',' ∨ sep = '|') : (t : StaticType) →
    t.Throughout Known → {depth : Int} → 0 ≤ depth → Passes sep depth t.chars
  | mk k n es, h, depth, hd => by
    have hopen : sep ≠ '<' := by rcases hsep with rfl | rfl <;> decide
    have hclose : sep ≠ '>' := by rcases hsep with rfl | rfl <;> decide
    have hmark : '?' ≠ sep := by rcases hsep with rfl | rfl <;> decide
    rw [chars_mk]
    refine .append ?_ (.append (passes_name hsep h.1 depth) ?_)
    · split
      · exact .char (.inl hmark) (by decide) (by decide)
      · exact .nil
    · split
      · exact .nil
      · exact .bracket hopen hclose (passes_commas hsep es h.2 (by omega))

/-- In brackets it passes over commas as well. -/
theorem passes_commas {sep : Char} (hsep : sep = ',' ∨ sep = '|') : (ts : List StaticType) →
    ThroughoutAll Known ts → {depth : Int} → 0 < depth → Passes sep depth (commas ts)
  | [], _, _, _ => .nil
  | [t], h, _, hd => passes_chars hsep t h.1 (Int.le_of_lt hd)
  | t :: u :: us, h, _, hd =>
    have hcomma : Passes sep _ [','] := .char (.inr (Int.ne_of_gt hd)) (by decide) (by decide)
    .append (passes_chars hsep t h.1 (Int.le_of_lt hd))
      (hcomma.append (passes_commas hsep (u :: us) h.2 hd))

end

/-- Types with commas between them are cut at these commas and at no other. -/
theorem splitTop_commas {ts : List StaticType} (hne : ts ≠ []) (h : ThroughoutAll Known ts) :
    splitTop ',' 0 (commas ts) = ts.map chars := by
  induction ts with
  | nil => exact absurd rfl hne
  | cons t ts ih =>
    have hpass := passes_chars (.inl rfl) t h.1 (Int.le_refl 0)
    cases ts with
    | nil => exact hpass.splitTop_eq
    | cons u us =>
      have hcomma (rest : List Char) : splitTop ',' 0 (',' :: rest) = [] :: splitTop ',' 0 rest :=
        rfl
      rw [commas_cons, hpass, hcomma, ih (by simp) h.2, glue, List.append_nil]
      rfl

/-! ## Reading what is written -/

/-- Nothing is dropped from a text with no white space at its ends. -/
theorem trimChars_eq_self {cs : List Char} {c d : Char} (hhead : cs.head? = some c)
    (hc : Text.isSpace c = false) (hlast : cs.getLast? = some d) (hd : Text.isSpace d = false) :
    Text.trimChars cs = cs := by
  have hdrop {ds : List Char} {c : Char} (h : ds.head? = some c) (hc : Text.isSpace c = false) :
      ds.dropWhile Text.isSpace = ds := by
    cases ds with
    | nil => rfl
    | cons d ds =>
      cases h
      rw [List.dropWhile_cons, hc, if_neg Bool.false_ne_true]
  unfold Text.trimChars
  rw [hdrop hhead hc, hdrop (by rwa [List.head?_reverse]) hd, List.reverse_reverse]

theorem isSpace_of_letter {c : Char} (h : 'a' ≤ c ∧ c ≤ 'z') : Text.isSpace c = false := by
  obtain ⟨hlow, hhigh⟩ := h
  have hlow : 97 ≤ c.toNat := hlow
  have hhigh : c.toNat ≤ 122 := hhigh
  simp only [Text.isSpace, Bool.or_eq_false_iff, Bool.and_eq_false_iff, decide_eq_false_iff_not,
    beq_eq_false_iff_ne]
  omega

/-- The characters of a type that shows no question mark. -/
def core (k : TypeKind) (es : List StaticType) : List Char :=
  k.name.toList ++ (if es.isEmpty then [] else '<' :: commas es ++ ['>'])

theorem chars_eq (k : TypeKind) (n : Bool) (es : List StaticType) :
    (mk k n es).chars = (if n && k != .null then ['?'] else []) ++ core k es := chars_mk k n es

section

variable {k : TypeKind} {es : List StaticType}

theorem head?_core (k : TypeKind) (es : List StaticType) :
    ∃ c rest, k.name.toList = c :: rest ∧ (core k es).head? = some c := by
  cases hname : k.name.toList with
  | nil => exact absurd hname (name_ne_nil k)
  | cons c rest => exact ⟨c, rest, rfl, by rw [core, hname]; rfl⟩

/-- The last character is a letter or a bracket. -/
theorem getLast?_core (hk : k ≠ .unknown) (es : List StaticType) :
    ∃ c, (core k es).getLast? = some c ∧ Text.isSpace c = false := by
  unfold core
  split
  · cases hlast : k.name.toList.getLast? with
    | none => exact absurd (List.getLast?_eq_none_iff.1 hlast) (name_ne_nil k)
    | some c =>
      rw [List.append_nil]
      exact ⟨c, hlast, isSpace_of_letter (name_letters hk c (List.mem_of_getLast? hlast))⟩
  · rw [← List.append_assoc, List.getLast?_concat]
    exact ⟨'>', rfl, by decide⟩

theorem trimChars_core (hk : k ≠ .unknown) : Text.trimChars (core k es) = core k es := by
  obtain ⟨c, rest, hname, hhead⟩ := head?_core k es
  obtain ⟨d, hlast, hd⟩ := getLast?_core hk es
  refine trimChars_eq_self hhead (isSpace_of_letter (name_letters hk c ?_)) hlast hd
  rw [hname]
  exact List.mem_cons_self

/-- The name ends where the brackets begin. -/
theorem span_core (hk : k ≠ .unknown) (es : List StaticType) :
    (core k es).takeWhile (· != '<') = k.name.toList ∧
    (core k es).dropWhile (· != '<') = if es.isEmpty then [] else '<' :: commas es ++ ['>'] := by
  have hname : ∀ c ∈ k.name.toList, (c != '<') = true := by
    intro c hc
    obtain ⟨hlow, -⟩ := name_letters hk c hc
    rw [bne_iff_ne]
    rintro rfl
    exact absurd hlow (by decide)
  unfold core
  rw [List.takeWhile_append_of_pos hname, List.dropWhile_append_of_pos hname]
  split <;> simp

theorem commas_ne_nil (e : StaticType) (es : List StaticType) : commas (e :: es) ≠ [] := by
  have hchars : e.chars ≠ [] := by
    obtain ⟨k, n, args⟩ := e
    obtain ⟨c, rest, hname, -⟩ := head?_core k args
    simp [chars_eq, core, hname]
  cases es with
  | nil => exact hchars
  | cons u us => simp [commas_cons]

/-- The element types of a formed type are taken as they are. -/
theorem applyArguments_eq {n : Bool} (h : (mk k n es).Formed) (hne : es ≠ []) :
    applyArguments k k.name.toList es = .ok (mk k (k = .null) es) := by
  have hlength : es.length ≠ 0 := fun h => hne (List.length_eq_zero_iff.1 h)
  by_cases hl : k = .list
  · subst hl
    have hone : es.length = 1 := (h.list rfl).resolve_left hlength
    simp [applyArguments, hone]
  · by_cases hm : k = .map
    · subst hm
      have htwo : es.length = 2 := (h.map rfl).resolve_left hlength
      simp [applyArguments, htwo]
    · exact absurd (h.rest hl hm) hlength

theorem parseChars_mark (hk : k ≠ .unknown) (fuel : Nat) :
    parseChars (fuel + 1) ('?' :: core k es) = (parseChars fuel (core k es)).map orNull := by
  have htrim : Text.trimChars ('?' :: core k es) = '?' :: core k es := by
    obtain ⟨d, hlast, hd⟩ := getLast?_core hk es
    refine trimChars_eq_self rfl (by decide) ?_ hd
    rw [List.getLast?_cons, hlast, Option.getD_some]
  rw [parseChars, htrim]
  rfl

/-- A type that shows no question mark is read, if its element types are. -/
theorem parseChars_core {n : Bool} (hknown : (mk k n es).Throughout Known)
    (hformed : (mk k n es).Formed) {fuel : Nat}
    (hes : (es.map chars).mapM (parseChars fuel) = .ok es) :
    parseChars (fuel + 1) (core k es) = .ok (mk k (k = .null) es) := by
  have hk : k ≠ .unknown := hknown.1
  obtain ⟨c, rest, hname, hhead⟩ := head?_core k es
  have hletter := name_letters hk c (by rw [hname]; exact List.mem_cons_self)
  have hone : splitTop '|' 0 (core k es) = [core k es] := by
    have hpass : Passes '|' 0 (mk k false es).chars :=
      passes_chars (.inr rfl) (mk k false es) hknown (Int.le_refl 0)
    rw [chars_eq, Bool.false_and, if_neg Bool.false_ne_true, List.nil_append] at hpass
    exact hpass.splitTop_eq
  obtain ⟨htake, hdrop⟩ := span_core hk es
  unfold parseChars
  rw [trimChars_core hk]
  split
  · next hnil => rw [hnil] at hhead; cases hhead
  · next rest' hmark =>
    rw [hmark] at hhead
    cases hhead
    exact absurd hletter.1 (by decide)
  · rw [hone]
    simp only [htake, hdrop, String.ofList_toList, ofName?_name hk]
    cases es with
    | nil => simp
    | cons e es =>
      have hlast : (core k (e :: es)).getLast? = some '>' := by
        rw [core, List.isEmpty_cons, if_neg Bool.false_ne_true, ← List.append_assoc,
          List.getLast?_concat]
      have hargs : (('<' :: commas (e :: es) ++ ['>']).drop 1).dropLast = commas (e :: es) := by
        rw [List.cons_append, List.drop_one, List.tail_cons, List.dropLast_concat]
      have hpieces := splitTop_commas (List.cons_ne_nil e es) hknown.2
      simp only [List.isEmpty_cons, if_neg Bool.false_ne_true, hlast, hargs]
      rw [if_neg (by simp)]
      split
      · next hnil => exact absurd hnil (commas_ne_nil e es)
      · rw [hpieces, hes]
        exact applyArguments_eq hformed (List.cons_ne_nil e es)

end

theorem length_le_commas {t : StaticType} {ts : List StaticType} (h : t ∈ ts) :
    t.chars.length ≤ (commas ts).length := by
  induction ts with
  | nil => cases h
  | cons u us ih =>
    cases us with
    | nil =>
      cases List.mem_singleton.1 h
      exact Nat.le_refl _
    | cons v vs =>
      rw [commas_cons, List.length_append, List.length_cons]
      rcases List.mem_cons.1 h with rfl | h
      · omega
      · have := ih h
        omega

mutual

/-- A written type is read, with fuel for its length. -/
theorem parseChars_chars : (t : StaticType) → t.Throughout Known → t.Throughout Formed →
    {fuel : Nat} → t.chars.length < fuel → parseChars fuel t.chars = .ok t
  | mk k n es, hknown, hformed, fuel, hfuel => by
    have hes {fuel : Nat} (hfuel : (core k es).length ≤ fuel) :
        (es.map chars).mapM (parseChars fuel) = .ok es := by
      refine parseChars_all es hknown.2 hformed.2 fun e he => ?_
      have hlen := length_le_commas he
      have hne : es.isEmpty = false := by
        cases es with
        | nil => cases he
        | cons _ _ => rfl
      simp only [core, hne, Bool.false_eq_true, if_false, List.length_append, List.length_cons]
        at hfuel
      omega
    rw [chars_eq] at hfuel ⊢
    by_cases hmark : (n && k != .null) = true
    · rw [if_pos hmark] at hfuel ⊢
      simp only [Bool.and_eq_true, bne_iff_ne] at hmark
      obtain ⟨rfl, hnull⟩ := hmark
      simp only [List.singleton_append, List.length_cons] at hfuel ⊢
      obtain ⟨fuel, rfl⟩ : ∃ f, fuel = f + 2 := ⟨fuel - 2, by omega⟩
      have hk : k ≠ .unknown := hknown.1
      rw [parseChars_mark hk, parseChars_core hknown hformed.1 (hes (by omega))]
      simp [Except.map, orNull, withNullable, kind, elems]
    · rw [if_neg hmark] at hfuel ⊢
      rw [List.nil_append] at hfuel ⊢
      obtain ⟨fuel, rfl⟩ : ∃ f, fuel = f + 1 := ⟨fuel - 1, by omega⟩
      rw [parseChars_core hknown hformed.1 (hes (by omega))]
      have hn : decide (k = .null) = n := by
        by_cases hk : k = .null
        · rw [decide_eq_true hk]
          exact (hformed.1.null hk).symm
        · rw [decide_eq_false hk]
          simpa [hk] using hmark
      rw [hn]

theorem parseChars_all : (ts : List StaticType) → ThroughoutAll Known ts → ThroughoutAll Formed ts →
    {fuel : Nat} → (∀ t ∈ ts, t.chars.length < fuel) →
    (ts.map chars).mapM (parseChars fuel) = .ok ts
  | [], _, _, _, _ => rfl
  | t :: ts, hknown, hformed, fuel, hfuel => by
    rw [List.map_cons, List.mapM_cons,
      parseChars_chars t hknown.1 hformed.1 (hfuel t List.mem_cons_self),
      parseChars_all ts hknown.2 hformed.2 fun u hu => hfuel u (List.mem_cons_of_mem _ hu)]
    rfl

end

theorem parse_text {t : StaticType} (hknown : t.Throughout Known) (hformed : t.Throughout Formed) :
    parse t.text = .ok t := by
  unfold parse
  exact parseChars_chars t hknown hformed (by rw [← String.length_toList]; exact Nat.lt_succ_self _)

/-- **Types print and parse back.** A type of the shape that types have is read from its notation;
and what is read from any text, if no part of it is unknown, is read again from its notation. -/
theorem parse_notation :
    (∀ t : StaticType, t.Throughout Known → t.Throughout Formed → parse t.text = .ok t) ∧
    ∀ (s : String) (t : StaticType), parse s = .ok t → t.Throughout Known → parse t.text = .ok t :=
  ⟨fun _ => parse_text, fun _ _ hs hknown => parse_text hknown (parseChars_formed hs)⟩

end StaticType

namespace Sample

open StaticType

/-- Lists of numbers by name; the index and its numbers may be null. -/
def index : StaticType := mk .map true [.string, .listOf (mk .int true [])]

/-- The index is written with marks, and read from there as from a union with spaces. -/
theorem index_notation : index.text = "?map<string,list<?int>>" ∧ parse index.text = .ok index ∧
    parse "map< string, list<int | null> >|null" = .ok index ∧
    parse "?map<string,list<?int>>" = .ok index := by
  have hknown : index.Throughout Known := by
    simp [index, Throughout, ThroughoutAll, Known, StaticType.string, StaticType.of, listOf, kind]
  have hformed : index.Throughout Formed := by
    refine ⟨⟨nofun, nofun, fun _ => .inr rfl, fun _ h => absurd rfl h⟩, formed_bare nofun,
      ⟨⟨nofun, fun _ => .inr rfl, nofun, fun h => absurd rfl h⟩, formed_bare nofun, trivial⟩,
      trivial⟩
  have hread : parse "map< string, list<int | null> >|null" = .ok index := by cbv
  exact ⟨by cbv, parse_notation.1 index hknown hformed, hread,
    parse_notation.2 _ index hread hknown⟩

end Sample

end Interlude
