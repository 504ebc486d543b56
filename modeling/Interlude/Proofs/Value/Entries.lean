import Interlude.Value.Basic
import Mathlib.Data.List.Find
import Mathlib.Data.List.Induction
import Mathlib.Data.Nat.Init
/-!
# The entries of a map

A map keeps one entry for each identity of a key, in the order in which the identities came up. The
key that was given first stays, the value that was given last counts (`setAll_by_identity`). Float
keys are not looked at: an integral one has the identity of an integer, and one that is no number
has none.
-/

namespace Interlude

namespace Value

/-- Whether a value can be the key of an entry. -/
def isKey : Value → Bool
  | bool _ | int _ | float _ | str _ | content .. => true
  | null | undefined | list .. | map .. | record .. | future _ => false

/-- Whether two keys have one identity: integers and booleans by value, strings and content by their
text. -/
def isSameKey : Value → Value → Bool
  | int i, int j => i == j
  | bool b, bool c => b == c
  | a, b =>
    match a.stringLike?, b.stringLike? with
    | some s, some t => s == t
    | _, _ => false

/-- The entries after each of `sets` was set in turn. A set that fails changes nothing. -/
def setAll (sets : List (Value × Value)) : List (Value × Value) :=
  sets.foldl (fun entries s => ( setEntry? entries s.1 s.2).getD entries) []

theorem setAll_snoc (sets : List (Value × Value)) (s : Value × Value) :
    setAll (sets ++ [s]) = ( setEntry? (setAll sets) s.1 s.2).getD (setAll sets) := by
  simp [setAll]

/-! ## Identities -/

theorem isSameKey_symm (a b : Value) : a.isSameKey b = b.isSameKey a := by
  cases a <;> cases b <;> simp [isSameKey, stringLike?, Bool.beq_comm]

/-- Two keys have one identity if they are the same integer or boolean, or have the same text. -/
theorem isSameKey_iff {a b : Value} : a.isSameKey b = true ↔
    (∃ i, a = int i ∧ b = int i) ∨ (∃ c, a = bool c ∧ b = bool c) ∨
      ∃ s, a.stringLike? = some s ∧ b.stringLike? = some s := by
  cases a <;> cases b <;> simp [isSameKey, stringLike?] <;> exact eq_comm

theorem isSameKey_trans {a b c : Value} (h : a.isSameKey b = true) (h' : b.isSameKey c = true) :
    a.isSameKey c = true := by
  rcases isSameKey_iff.1 h with ⟨i, rfl, rfl⟩ | ⟨t, rfl, rfl⟩ | ⟨s, ha, hb⟩
  · exact h'
  · exact h'
  · rcases isSameKey_iff.1 h' with ⟨i, rfl, -⟩ | ⟨t, rfl, -⟩ | ⟨u, hb', hc⟩
    · cases hb
    · cases hb
    · obtain rfl : s = u := Option.some.inj (hb.symm.trans hb')
      exact isSameKey_iff.2 (.inr (.inr ⟨s, ha, hc⟩))

/-- Two keys of one identity are the same as the same keys. -/
theorem isSameKey_congr {a b : Value} (h : a.isSameKey b = true) (c : Value) :
    a.isSameKey c = b.isSameKey c := by
  rw [Bool.eq_iff_iff]
  exact ⟨isSameKey_trans (isSameKey_symm a b ▸ h), isSameKey_trans h⟩

/-- What is no key is the same as nothing. -/
theorem isSameKey_of_not_isKey {k : Value} (hk : k.isKey = false) (a : Value) :
    k.isSameKey a = false := by
  cases k <;> simp_all [isKey] <;> rfl

theorem ofValue?_eq_none {k : Value} : MapKey.ofValue? k = none ↔ k.isKey = false := by
  cases k <;> simp [MapKey.ofValue?, isKey]
  split <;> simp

/-- Apart from floats, keys are compared by their identities. -/
theorem same_eq {a b : Value} (ha : a.kind ≠ .float) (hb : b.kind ≠ .float) {k : MapKey}
    (hk : MapKey.ofValue? a = some k) :
    ((MapKey.ofValue? b).map (k.same ·)).getD false = a.isSameKey b := by
  have hint (i j : Int64) : (i.toInt == j.toInt) = (i == j) := by
    rw [Bool.eq_iff_iff, beq_iff_eq, beq_iff_eq, Int64.toInt_inj]
  cases a with
  | float => exact (ha rfl).elim
  | int i =>
    cases hk
    cases b with
    | float => exact (hb rfl).elim
    | int j => exact hint i j
    | _ => rfl
  | bool | str | content =>
    cases hk
    cases b with
    | float => exact (hb rfl).elim
    | _ => rfl
  | _ => cases hk

/-! ## One set -/

section

variable {entries : List (Value × Value)} {key k : Value}

theorem entry?_eq (he : ∀ e ∈ entries, e.1.kind ≠ .float) (hk : k.kind ≠ .float) :
    entry? entries k = (entries.find? fun e => k.isSameKey e.1).map (·.2) := by
  unfold entry?
  cases hkey : MapKey.ofValue? k with
  | none =>
    have hnone : entries.find? (fun e => k.isSameKey e.1) = none :=
      List.find?_eq_none.2 fun e _ => by simp [isSameKey_of_not_isKey (ofValue?_eq_none.1 hkey)]
    rw [hnone]
    rfl
  | some m =>
    have hfind := List.find?_congr (l := entries) fun e hmem => same_eq hk (he e hmem) hkey
    simp only [hfind]

/-- A set under a key replaces the value of the entry with its identity, or adds an entry. -/
theorem setEntry?_eq (he : ∀ e ∈ entries, e.1.kind ≠ .float) (hf : key.kind ≠ .float)
    (hkey : key.isKey = true) (value : Value) : setEntry? entries key value =
      some (if (entries.find? fun e => key.isSameKey e.1).isSome then
        entries.map fun e => if key.isSameKey e.1 then (e.1, value) else e
      else entries ++ [(key, value)]) := by
  unfold setEntry?
  cases hm : MapKey.ofValue? key with
  | none => simp [ofValue?_eq_none.1 hm] at hkey
  | some m =>
    have hhit : ∀ e ∈ entries, ((MapKey.ofValue? e.1).map (m.same ·)).getD false =
        key.isSameKey e.1 :=
      fun e hmem => same_eq hf (he e hmem) hm
    have hmap : (entries.map fun e =>
        if ((MapKey.ofValue? e.1).map (m.same ·)).getD false then (e.1, value) else e) =
            entries.map fun e => if key.isSameKey e.1 then (e.1, value) else e :=
      List.map_congr_left fun e hmem => by rw [hhit e hmem]
    have hfind := List.find?_congr hhit
    simp only [← List.isSome_find?, hfind, hmap]
    split <;> rfl

theorem setEntry?_eq_none {value : Value} : setEntry? entries key value = none ↔
    key.isKey = false := by
  rw [← ofValue?_eq_none]
  unfold setEntry?
  cases MapKey.ofValue? key with
  | none => simp
  | some m =>
    simp only [reduceCtorEq, iff_false]
    split <;> simp

/-- What holds of all entries, and of the key and value of a set, holds of all entries after it. -/
theorem forall_set {P Q : Value → Prop} {value : Value}
    (h : ∀ e ∈ entries, P e.1 ∧ Q e.2) (hk : P key) (hv : Q value) :
    ∀ e ∈ ( setEntry? entries key value).getD entries, P e.1 ∧ Q e.2 := by
  unfold setEntry?
  cases MapKey.ofValue? key with
  | none => exact h
  | some m =>
    simp only
    split
    · intro e he
      obtain ⟨d, hd, rfl⟩ := List.mem_map.1 he
      split
      · exact ⟨(h d hd).1, hv⟩
      · exact h d hd
    · intro e he
      rcases List.mem_append.1 he with he | he
      · exact h e he
      · rw [List.mem_singleton.1 he]
        exact ⟨hk, hv⟩

/-- The same for sets in a row. -/
theorem forall_sets {P Q : Value → Prop} {sets : List (Value × Value)}
    (hsets : ∀ s ∈ sets, P s.1 ∧ Q s.2) (h : ∀ e ∈ entries, P e.1 ∧ Q e.2) :
    ∀ e ∈ sets.foldl (fun entries (k, v) => ( setEntry? entries k v).getD entries) entries,
    P e.1 ∧ Q e.2 := by
  induction sets generalizing entries with
  | nil => exact h
  | cons s rest ih =>
    obtain ⟨⟨hk, hv⟩, hrest⟩ := List.forall_mem_cons.1 hsets
    exact ih hrest (forall_set h hk hv)

/-- A set leaves the keys alone, or adds its own at the end if none has its identity. -/
theorem keys_setEntry? (he : ∀ e ∈ entries, e.1.kind ≠ .float) (hf : key.kind ≠ .float)
    (hkey : key.isKey = true) (value : Value) :
    (( setEntry? entries key value).getD entries).map (·.1) =
      if (entries.map (·.1)).any (key.isSameKey ·) then entries.map (·.1)
      else entries.map (·.1) ++ [key] := by
  have hany : (entries.map (·.1)).any (key.isSameKey ·) =
      (entries.find? fun e => key.isSameKey e.1).isSome := by
    rw [List.any_map, List.isSome_find?]
    rfl
  rw [setEntry?_eq he hf hkey, hany, Option.getD_some]
  split
  · rw [List.map_map]
    refine List.map_congr_left fun e _ => ?_
    simp only [Function.comp_apply]
    split <;> rfl
  · simp

/-- After a set its value is found under its identity, and under every other what was found
before. -/
theorem entry?_setEntry? (he : ∀ e ∈ entries, e.1.kind ≠ .float) (hf : key.kind ≠ .float)
    (hkey : key.isKey = true) (hk : k.kind ≠ .float) (value : Value) :
    entry? (( setEntry? entries key value).getD entries) k =
      if k.isSameKey key then some value else entry? entries k := by
  have hafter : ∀ e ∈ ( setEntry? entries key value).getD entries, e.1.kind ≠ .float :=
      fun e hmem =>
    (forall_set (P := (kind · ≠ .float)) (Q := fun _ => True) (fun e he' => ⟨he e he', trivial⟩)
      hf trivial e hmem).1
  rw [entry?_eq hafter hk, entry?_eq he hk, setEntry?_eq he hf hkey, Option.getD_some]
  split
  · next hfound =>
    -- replacing a value keeps the keys, so the same entry is found as before
    have hsame : (fun e => k.isSameKey e.1) ∘
      (fun e => if key.isSameKey e.1 then (e.1, value) else e) =
        fun e => k.isSameKey e.1 := by
      funext e
      simp only [Function.comp_apply]
      split <;> rfl
    rw [List.find?_map, hsame, Option.map_map]
    cases hk' : k.isSameKey key with
    | true =>
      have hfind : (entries.find? fun e => k.isSameKey e.1) = entries.find? fun e =>
          key.isSameKey e.1 := by
        simp only [isSameKey_congr hk']
      obtain ⟨e, he'⟩ := Option.isSome_iff_exists.1 hfound
      have hhit : key.isSameKey e.1 = true :=
        List.find?_some (p := fun e : Value × Value => key.isSameKey e.1) he'
      rw [hfind, he']
      simp [hhit]
    | false =>
      cases hfind : entries.find? fun e => k.isSameKey e.1 with
      | none => rfl
      | some e =>
        have hhit : k.isSameKey e.1 = true :=
          List.find?_some (p := fun e : Value × Value => k.isSameKey e.1) hfind
        have hmiss : key.isSameKey e.1 = false := by
          rw [← Bool.not_eq_true]
          intro h
          rw [isSameKey_symm, isSameKey_congr h, isSameKey_symm, hhit] at hk'
          cases hk'
        simp [hmiss]
  · next hnone =>
    rw [Option.not_isSome_iff_eq_none] at hnone
    rw [List.find?_append]
    cases hk' : k.isSameKey key with
    | true =>
      have hfind : (entries.find? fun e => k.isSameKey e.1) = none := by
        simp only [isSameKey_congr hk']
        exact hnone
      simp [hfind, hk']
    | false => simp [hk']

end

/-! ## Sets in a row -/

/-- The first of each class of a list stay when an element is added, and it is added to them if its
class is new. -/
theorem eraseDupsBy_snoc {α : Type} (r : α → α → Bool) (l : List α) (a : α) :
    (l ++ [a]).eraseDupsBy r =
    if (l.eraseDupsBy r).any (r a ·) then l.eraseDupsBy r else l.eraseDupsBy r ++ [a] := by
  induction hn : l.length using Nat.strong_induction_on generalizing l with
  | _ n ih =>
    cases l with
    | nil => simp [List.eraseDupsBy_cons]
    | cons b rest =>
      rw [List.cons_append, List.eraseDupsBy_cons, List.eraseDupsBy_cons, List.filter_append]
      cases hb : r a b with
      | true => simp [hb]
      | false =>
        have hlt : (rest.filter fun c => decide (r c b = false)).length < n := by
          have := List.length_filter_le (fun c => decide (r c b = false)) rest
          rw [List.length_cons] at hn
          omega
        have hlast : [a].filter (fun c => decide (r c b = false)) = [a] := by simp [hb]
        rw [hlast, ih _ hlt _ rfl, List.any_cons, hb, Bool.false_or]
        split <;> rfl

section

variable {sets : List (Value × Value)}

theorem setAll_refused {k : Value} (hk : k.isKey = false) (value : Value)
    (sets : List (Value × Value)) :
    setAll (sets ++ [(k, value)]) = setAll sets := by
  rw [setAll_snoc, setEntry?_eq_none.2 hk]
  rfl

theorem setAll_floatless (hs : ∀ s ∈ sets, s.1.kind ≠ .float) : ∀ e ∈ setAll sets,
    e.1.kind ≠ .float := by
  have hnone : ∀ e ∈ ([] : List (Value × Value)), e.1.kind ≠ .float ∧ True := nofun
  have hsets : ∀ s ∈ sets, s.1.kind ≠ .float ∧ True := fun s hmem => ⟨hs s hmem, trivial⟩
  intro e he
  exact (forall_sets (P := (kind · ≠ .float)) (Q := fun _ => True) hsets hnone e he).1

/-- The keys are those given first, one of each identity, in the order in which they were given. -/
theorem keys_setAll (hs : ∀ s ∈ sets, s.1.kind ≠ .float) :
    (setAll sets).map (·.1) = ((sets.map (·.1)).filter isKey).eraseDupsBy isSameKey := by
  induction sets using List.reverseRecOn with
  | nil => rfl
  | append_singleton sets s ih =>
    have hbefore : ∀ t ∈ sets, t.1.kind ≠ .float := fun t ht => hs t (List.mem_append_left _ ht)
    rw [List.map_append, List.filter_append, List.map_singleton]
    cases hkey : s.1.isKey with
    | false =>
      rw [setAll_refused hkey, ih hbefore]
      simp [hkey]
    | true =>
      rw [setAll_snoc, keys_setEntry? (setAll_floatless hbefore) (hs s (by simp)) hkey, ih hbefore]
      simp only [List.filter_cons, hkey, if_true, List.filter_nil, eraseDupsBy_snoc]

/-- Under a key the value is found that was set last under its identity. -/
theorem entry?_setAll (hs : ∀ s ∈ sets, s.1.kind ≠ .float) {k : Value} (hk : k.kind ≠ .float) :
    entry? (setAll sets) k = ((sets.filter fun s => k.isSameKey s.1).getLast?).map (·.2) := by
  induction sets using List.reverseRecOn with
  | nil => exact entry?_eq (fun _ he => (List.not_mem_nil he).elim) hk
  | append_singleton sets s ih =>
    have hbefore : ∀ t ∈ sets, t.1.kind ≠ .float := fun t ht => hs t (List.mem_append_left _ ht)
    rw [List.filter_append]
    cases hkey : s.1.isKey with
    | false =>
      have hmiss : k.isSameKey s.1 = false :=
        (isSameKey_symm ..).trans (isSameKey_of_not_isKey hkey k)
      rw [setAll_refused hkey, ih hbefore]
      simp [hmiss]
    | true =>
      rw [setAll_snoc, entry?_setEntry? (setAll_floatless hbefore) (hs s (by simp)) hkey hk,
        ih hbefore]
      cases hsame : k.isSameKey s.1 with
      | true => simp [hsame]
      | false => simp [hsame]

end

/-! ## A map in three parts -/

/-- A map in three parts: its keys in the order in which they came up, the value of each, and where
each stands. -/
structure Parts where
  keys : List Value := []
  values : List Value := []
  index : List (MapKey × Nat) := []

namespace Parts

/-- Where a key stands. -/
def place? (t : Parts) (m : MapKey) : Option Nat := (t.index.find? fun e => m.same e.1).map (·.2)

/-- The value at the place of a key. -/
def get? (t : Parts) (key : Value) : Option Value :=
  match MapKey.ofValue? key with
  | none => none
  | some m => (t.place? m).bind (t.values[·]?)

/-- Writes the value at the place of a key, or adds a place for it. Fails for what is no key. -/
def set? (t : Parts) (key value : Value) : Option Parts :=
  match MapKey.ofValue? key with
  | none => none
  | some m =>
    match t.place? m with
    | some i => some { t with values := t.values.set i value }
    | none =>
      some { keys := t.keys ++ [key], values := t.values ++ [value],
             index := t.index ++ [(m, t.keys.length)] }

/-- The parts after each of `sets` was set in turn. -/
def setAll (sets : List (Value × Value)) : Parts :=
  sets.foldl (fun t s => (t.set? s.1 s.2).getD t) {}

/-- The keys with their values. -/
def entries (t : Parts) : List (Value × Value) := t.keys.zip t.values

/-- Whether a key is the one that `m` stands for. -/
def hits (m : MapKey) (k : Value) : Bool := ((MapKey.ofValue? k).map (m.same ·)).getD false

/-- The parts agree: every key has one value, the index tells where the keys stand, and no two keys
have one identity. -/
structure Consistent (t : Parts) : Prop where
  sizes : t.keys.length = t.values.length
  places : ∀ m, t.place? m = t.keys.findIdx? (hits m)
  floatless : ∀ k ∈ t.keys, k.kind ≠ .float
  distinct : t.keys.Pairwise fun a b => a.isSameKey b = false

theorem setAll_snoc (sets : List (Value × Value)) (s : Value × Value) :
    setAll (sets ++ [s]) = ((setAll sets).set? s.1 s.2).getD (setAll sets) := by
  simp [setAll]

theorem set?_eq_none {t : Parts} {key value : Value} : t.set? key value = none ↔
    key.isKey = false := by
  rw [← ofValue?_eq_none]
  unfold set?
  cases MapKey.ofValue? key with
  | none => simp
  | some m =>
    simp only [reduceCtorEq, iff_false]
    split <;> simp

/-- The first entry whose key is met has the value at the place of that key. -/
theorem find?_zip (p : Value → Bool) : ∀ (keys values : List Value), keys.length = values.length →
    ((keys.zip values).find? fun e => p e.1).map (·.2) = (keys.findIdx? p).bind (values[·]?)
  | [], _, _ => by simp
  | k :: keys, [], h => by simp at h
  | k :: keys, v :: values, h => by
    have ih := find?_zip p keys values (Nat.succ.inj h)
    rw [List.zip_cons_cons, List.find?_cons, List.findIdx?_cons]
    cases p k with
    | true => simp
    | false =>
      simp only [Bool.false_eq_true, if_false, ih]
      cases keys.findIdx? p <;> simp

/-- To write at the place of a key is to replace the value of its entry, if no other key is met. -/
theorem map_zip (p : Value → Bool) (v : Value) : ∀ (keys values : List Value) (i : Nat),
    (keys.Pairwise fun a b => p a = true → p b = false) → keys.length = values.length →
    keys.findIdx? p = some i → ((keys.zip values).map fun e => if p e.1 then (e.1, v) else e) =
    keys.zip (values.set i v)
  | [], _, _, _, _, hi => by simp at hi
  | k :: keys, [], _, _, h, _ => by simp at h
  | k :: keys, w :: values, i, hone, h, hi => by
    obtain ⟨hfirst, hrest⟩ := List.pairwise_cons.1 hone
    rw [List.findIdx?_cons] at hi
    rw [List.zip_cons_cons, List.map_cons]
    cases hk : p k with
    | true =>
      rw [hk, if_pos rfl] at hi
      cases hi
      have hmiss : ((keys.zip values).map fun e => if p e.1 then (e.1, v) else e) =
          keys.zip values := by
        refine (List.map_congr_left fun e he => ?_).trans (List.map_id _)
        have hmem : e.1 ∈ keys := (List.of_mem_zip he).1
        simp [hfirst e.1 hmem hk]
      simp [hmiss]
    | false =>
      rw [hk, if_neg Bool.false_ne_true] at hi
      obtain ⟨j, hj, rfl⟩ := Option.map_eq_some_iff.1 hi
      have ih := map_zip p v keys values j hrest (Nat.succ.inj h) hj
      simp [ih]

namespace Consistent

variable {t : Parts} {key value : Value}

theorem empty : Consistent {} where
  sizes := rfl
  places _ := rfl
  floatless _ hk := by cases hk
  distinct := .nil

/-- The value under a key is that of its entry. -/
theorem get? (h : t.Consistent) (k : Value) : t.get? k = entry? t.entries k := by
  unfold Parts.get? entry?
  cases MapKey.ofValue? k with
  | none => rfl
  | some m =>
    simp only
    rw [h.places m]
    exact (find?_zip (hits m) t.keys t.values h.sizes).symm

/-- A set does to the entries what a set of an entry does, and leaves the parts in agreement. -/
theorem set? (h : t.Consistent) (hf : key.kind ≠ .float) {t' : Parts}
    (hs : t.set? key value = some t') :
    t'.Consistent ∧ setEntry? t.entries key value = some t'.entries := by
  unfold Parts.set? at hs
  unfold setEntry?
  cases hm : MapKey.ofValue? key with
  | none =>
    rw [hm] at hs
    cases hs
  | some m =>
    have hhit : ∀ k ∈ t.keys, hits m k = key.isSameKey k := fun k hk =>
      same_eq hf (h.floatless k hk) hm
    have hany : t.entries.any (fun e => hits m e.1) = (t.place? m).isSome := by
      have hkeys : t.entries.map (·.1) = t.keys := List.map_fst_zip (Nat.le_of_eq h.sizes)
      rw [h.places m, List.findIdx?_isSome, ← hkeys, List.any_map]
      rfl
    simp only [hm] at hs ⊢
    cases hplace : t.place? m with
    | some i =>
      rw [hplace] at hs
      cases hs
      have hone : t.keys.Pairwise fun a b => hits m a = true → hits m b = false := by
        refine h.distinct.imp_of_mem fun {a b} ha hb hab hit => ?_
        rw [hhit a ha] at hit
        rw [hhit b hb, isSameKey_congr hit, hab]
      have hmap := map_zip (hits m) value t.keys t.values i hone h.sizes (h.places m ▸ hplace)
      refine ⟨⟨by simp [h.sizes], h.places, h.floatless, h.distinct⟩, ?_⟩
      rw [hplace] at hany
      exact (if_pos hany).trans (congrArg some hmap)
    | none =>
      rw [hplace] at hs
      cases hs
      have hnone : ∀ k ∈ t.keys, key.isSameKey k = false := by
        intro k hk
        have hmiss := List.findIdx?_eq_none_iff.1 (h.places m ▸ hplace) k hk
        rw [← hhit k hk, hmiss]
      refine ⟨⟨by simp [h.sizes], fun m' => ?_, fun k hk => ?_, ?_⟩, ?_⟩
      · have hown : hits m' key = m'.same m := by simp [hits, hm]
        have hbefore := h.places m'
        unfold place? at hbefore ⊢
        rw [List.find?_append, Option.map_or, hbefore, List.findIdx?_append]
        congr 1
        simp only [List.find?_cons, List.find?_nil, List.findIdx?_cons, List.findIdx?_nil, hown]
        cases m'.same m <;> simp
      · rcases List.mem_append.1 hk with hk | hk
        · exact h.floatless k hk
        · rw [List.mem_singleton.1 hk]
          exact hf
      · refine List.pairwise_append.2 ⟨h.distinct, List.pairwise_singleton .., fun a ha b hb => ?_⟩
        rw [List.mem_singleton.1 hb, isSameKey_symm]
        exact hnone a ha
      · rw [hplace] at hany
        rw [Option.isSome_none] at hany
        refine (if_neg (ne_true_of_eq_false hany)).trans (congrArg some ?_)
        simp only [entries]
        rw [List.zip_append h.sizes]
        rfl

end Consistent

/-- After any sets the parts agree, and the map they make up has the entries that were set. -/
theorem setAll_shows {sets : List (Value × Value)} (hs : ∀ s ∈ sets, s.1.kind ≠ .float) :
    (setAll sets).Consistent ∧ (setAll sets).entries = Value.setAll sets ∧
      ∀ k, (setAll sets).get? k = entry? (Value.setAll sets) k := by
  suffices h : (setAll sets).Consistent ∧ (setAll sets).entries = Value.setAll sets from
    ⟨h.1, h.2, fun k => h.2 ▸ h.1.get? k⟩
  induction sets using List.reverseRecOn with
  | nil => exact ⟨.empty, rfl⟩
  | append_singleton sets s ih =>
    obtain ⟨hbefore, hshows⟩ := ih fun t ht => hs t (List.mem_append_left _ ht)
    rw [setAll_snoc, Value.setAll_snoc, ← hshows]
    cases hset : (setAll sets).set? s.1 s.2 with
    | none =>
      rw [setEntry?_eq_none.2 (set?_eq_none.1 hset)]
      exact ⟨hbefore, rfl⟩
    | some t =>
      obtain ⟨hafter, hentries⟩ := hbefore.set? (hs s (by simp)) hset
      rw [hentries]
      exact ⟨hafter, rfl⟩

end Parts

section

variable {sets : List (Value × Value)}

/-- **A map is what was set**: under every key it has the value that was set last under its
identity, its keys are those given first of each identity in their order, and a set under what is no
key fails and changes nothing. -/
theorem setAll_by_identity (hs : ∀ s ∈ sets, s.1.kind ≠ .float) :
    (∀ k : Value, k.kind ≠ .float →
      entry? (setAll sets) k = ((sets.filter fun s => k.isSameKey s.1).getLast?).map (·.2)) ∧
    (setAll sets).map (·.1) = ((sets.map (·.1)).filter isKey).eraseDupsBy isSameKey ∧
    (setAll sets).length = (((sets.map (·.1)).filter isKey).eraseDupsBy isSameKey).length ∧
    (∀ k value : Value, setEntry? (setAll sets) k value = none ↔ k.isKey = false) ∧
    ∀ k value : Value, k.isKey = false → setAll (sets ++ [(k, value)]) = setAll sets := by
  refine ⟨fun k hk => entry?_setAll hs hk, keys_setAll hs, ?_, fun k value => setEntry?_eq_none,
    fun k value hk => setAll_refused hk value sets⟩
  rw [← keys_setAll hs, List.length_map]

end

end Value

namespace Sample

/-- Sets under keys of four kinds. A text and content with the same text are one key, and null is
none. -/
def marks : List (Value × Value) :=
  [(.str "a", .int 1), (.int 1, .int 2), (.null, .int 3), (.bool true, .int 4),
    (.content .html "a", .int 5)]

theorem marks_kept : (∀ s ∈ marks, s.1.kind ≠ .float) ∧
    (Value.setAll marks).map (·.1) = [.str "a", .int 1, .bool true] ∧
    (Value.str "a").kind ≠ .float ∧
    Value.entry? (Value.setAll marks) (.str "a") = some (.int 5) := by
  have hs : ∀ s ∈ marks, s.1.kind ≠ .float := by decide
  obtain ⟨hget, hkeys, -⟩ := Value.setAll_by_identity hs
  exact ⟨hs, hkeys.trans (by rfl), by decide, (hget (.str "a") (by decide)).trans (by rfl)⟩

end Sample

end Interlude
