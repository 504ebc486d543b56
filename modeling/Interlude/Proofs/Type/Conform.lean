import Interlude.Bundle.Typing
import Interlude.Term.Lower
import Interlude.Term.Operator
import Interlude.Proofs.Future
/-!
# Values of static types

A value conforms to a type if it has the kind the type stands for, and its parts, read through
futures, conform to the types of elements. Null conforms where it is admitted. What is asked of
values of record and content types is left open, apart from two things: records have record types,
and who takes a future for a value of such a type takes anything for one (`Conforms.held`).
-/

namespace Interlude

/-- What is asked of values of record and content types. -/
structure Loose where
  admits : TypeKind → Value → Prop
  record : ∀ self fields, admits .record (.record self fields)
  settled : ∀ kind id, admits kind (.future id) → ∀ v, admits kind v

namespace StaticType

section

variable (loose : Loose) (fs : Futures)

mutual

/-- A value of the type. -/
def Conforms : StaticType → Value → Prop
  | mk kind nullable elems, v => (nullable = true ∧ v.isNullish = true) ∨ OfKind kind elems v

/-- A value of a kind of type that is not null. -/
def OfKind : TypeKind → List StaticType → Value → Prop
  | .unknown, _, _ => True
  | .any, _, _ => True
  | .null, _, _ => False
  | .bool, _, v => ∃ b, v = .bool b
  | .int, _, v => ∃ i, v = .int i
  | .float, _, v => ∃ f, v = .float f
  | .number, _, v => (∃ i, v = .int i) ∨ ∃ f, v = .float f
  | .string, _, v => ∃ s, v = .str s
  | .list, [t], v => ∃ self items, v = .list self items ∧
    ∀ x ∈ items, ∀ w, (fs.resolve x).1 = .value w → t.Conforms w
  | .list, _, v => ∃ self items, v = .list self items
  | .map, [k, t], v => ∃ self entries, v = .map self entries ∧ ∀ e ∈ entries,
    (∀ w, (fs.resolve e.1).1 = .value w → k.Conforms w) ∧ ∀ w, (fs.resolve e.2).1 = .value w →
    t.Conforms w
  | .map, _, v => ∃ self entries, v = .map self entries
  | kind, _, v => loose.admits kind v

end

/-- A value of the type, or a future that leads to none but such values. -/
def Held (t : StaticType) (v : Value) : Prop := ∀ w, (fs.resolve v).1 = .value w →
    t.Conforms loose fs w

end

variable {loose : Loose} {fs : Futures} {t : StaticType} {v : Value}

attribute [local simp] Conforms OfKind

/-! ## Equality of types -/

mutual

theorem eq_of_beq : {t u : StaticType} → t.beq u = true → t = u
  | mk k n es, mk k' n' es', h => by
    simp only [beq, Bool.and_eq_true, beq_iff_eq] at h
    obtain ⟨⟨rfl, rfl⟩, hes⟩ := h
    rw [eq_of_beqList hes]

theorem eq_of_beqList : {ts us : List StaticType} → beqList ts us = true → ts = us
  | [], [], _ => rfl
  | t :: ts, u :: us, h => by
    simp only [beqList, Bool.and_eq_true] at h
    rw [eq_of_beq h.1, eq_of_beqList h.2]
  | [], _ :: _, h => by simp [beqList] at h
  | _ :: _, [], h => by simp [beqList] at h

end

/-! ## What types say -/

theorem conforms_any (v : Value) : StaticType.any.Conforms loose fs v := by
  simp [any, of, Conforms, OfKind]

theorem conforms_bool (b : Bool) : StaticType.bool.Conforms loose fs (.bool b) := by
  simp [bool, of, Conforms, OfKind]

theorem conforms_int (i : Int64) : StaticType.int.Conforms loose fs (.int i) := by
  simp [int, of, Conforms, OfKind]

theorem conforms_float (f : Float) : StaticType.float.Conforms loose fs (.float f) := by
  simp [float, of, Conforms, OfKind]

theorem conforms_string (s : String) : StaticType.string.Conforms loose fs (.str s) := by
  simp [string, of, Conforms, OfKind]

theorem conforms_record (self : Origin) (fields : List (String × Value)) :
    (StaticType.of .record).Conforms loose fs (.record self fields) := by
  simp [of, Conforms, OfKind, loose.record]

theorem conforms_list {self : Origin} {items : List Value} (h : ∀ v ∈ items, t.Held loose fs v) :
    (listOf t).Conforms loose fs (.list self items) := by
  rw [listOf, Conforms, OfKind]
  exact .inr ⟨self, items, rfl, h⟩

theorem conforms_map {k : StaticType} {self : Origin} {entries : List (Value × Value)}
    (h : ∀ e ∈ entries, k.Held loose fs e.1 ∧ t.Held loose fs e.2) :
    (mapOf k t).Conforms loose fs (.map self entries) := by
  rw [mapOf, Conforms, OfKind]
  exact .inr ⟨self, entries, rfl, h⟩

/-- Where null is admitted, it conforms. -/
theorem conforms_of_nullish (ht : t.nullable = true) (hv : v.isNullish = true) :
    t.Conforms loose fs v := by
  obtain ⟨k, n, es⟩ := t
  rw [Conforms]
  exact .inl ⟨ht, hv⟩

/-- Admitting null loses no value. -/
theorem Conforms.orNull (h : t.Conforms loose fs v) : t.orNull.Conforms loose fs v := by
  obtain ⟨k, n, es⟩ := t
  simp only [StaticType.orNull, withNullable, kind, elems]
  rw [Conforms] at h ⊢
  rcases h with ⟨_, hv⟩ | h
  · exact .inl ⟨rfl, hv⟩
  · exact .inr h

/-- Without null, all values that are not null stay. -/
theorem Conforms.nonNull (h : t.Conforms loose fs v) (hv : v.isNullish = false) :
    (t.withNullable false).Conforms loose fs v := by
  obtain ⟨k, n, es⟩ := t
  simp only [withNullable, kind, elems]
  rw [Conforms] at h ⊢
  rcases h with ⟨_, hn⟩ | h
  · rw [hv] at hn
    cases hn
  · exact .inr h

theorem Conforms.isInt (h : t.Conforms loose fs v) (ht : t.isInt = true) : ∃ i, v = .int i := by
  obtain ⟨k, n, es⟩ := t
  simp only [StaticType.isInt, nullable, kind, Bool.and_eq_true, Bool.not_eq_true', beq_iff_eq]
    at ht
  obtain ⟨rfl, rfl⟩ := ht
  rw [Conforms, OfKind] at h
  simpa using h

theorem Conforms.isFloat (h : t.Conforms loose fs v) (ht : t.isFloat = true) :
    ∃ f, v = .float f := by
  obtain ⟨k, n, es⟩ := t
  simp only [StaticType.isFloat, nullable, kind, Bool.and_eq_true, Bool.not_eq_true', beq_iff_eq]
    at ht
  obtain ⟨rfl, rfl⟩ := ht
  rw [Conforms, OfKind] at h
  simpa using h

theorem Conforms.isStr (h : t.Conforms loose fs v) (ht : t.isStr = true) : ∃ s, v = .str s := by
  obtain ⟨k, n, es⟩ := t
  simp only [StaticType.isStr, nullable, kind, Bool.and_eq_true, Bool.not_eq_true', beq_iff_eq]
    at ht
  obtain ⟨rfl, rfl⟩ := ht
  rw [Conforms, OfKind] at h
  simpa using h

/-- A number as the types of arithmetic have it. -/
theorem Conforms.isNum (h : t.Conforms loose fs v) (ht : t.isNum = true) :
    ∃ f, v.toFloat? = .ok f := by
  simp only [StaticType.isNum, Bool.or_eq_true] at ht
  rcases ht with ht | ht
  · obtain ⟨i, rfl⟩ := h.isInt ht
    exact ⟨_, rfl⟩
  · obtain ⟨f, rfl⟩ := h.isFloat ht
    exact ⟨_, rfl⟩

/-- A value that conforms is no future, unless its type says nothing, so it is held at its type. -/
theorem Conforms.held (h : t.Conforms loose fs v) : t.Held loose fs v := by
  intro w hw
  cases v with
  | future id =>
    obtain ⟨k, n, es⟩ := t
    rw [Conforms] at h ⊢
    rcases h with ⟨_, hn⟩ | h
    · cases hn
    · refine .inr ?_
      cases k with
      | unknown | any => simp [OfKind]
      | list => rcases es with _ | ⟨e, _ | ⟨e', es⟩⟩ <;> simp [OfKind] at h
      | map => rcases es with _ | ⟨e, _ | ⟨e', _ | ⟨e'', es⟩⟩⟩ <;> simp [OfKind] at h
      | null | bool | int | float | number | string => simp [OfKind] at h
      | _ =>
        simp only [OfKind] at h ⊢
        exact loose.settled _ id h w
  | _ =>
    simp only [Futures.resolve, Futures.resolveFrom, Read.value.injEq] at hw
    subst hw
    exact h

end StaticType

end Interlude
