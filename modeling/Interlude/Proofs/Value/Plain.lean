import Interlude.Proofs.Value.Entries
import Interlude.Proofs.Value.Text
import Interlude.Term.Eval
/-!
# Values without futures

What operators and functions make of values without futures has none either (`plain_applyAll`). The
text of such a value is always the same, and reading it takes no future.
-/

namespace Interlude

/-- A value that neither is a future nor holds one. -/
abbrev Value.Plain (v : Value) : Prop := v.holdsFuture = false

namespace Value

/-! ## Parts -/

theorem plain_items {items : List Value} : holdsFutureAny items = false ↔ ∀ v ∈ items, v.Plain := by
  induction items with
  | nil => simp [holdsFutureAny]
  | cons v rest ih => simp [holdsFutureAny, Plain, ih]

theorem plain_entries {entries : List (Value × Value)} :
    holdsFutureEntries entries = false ↔ ∀ e ∈ entries, e.1.Plain ∧ e.2.Plain := by
  induction entries with
  | nil => simp [holdsFutureEntries]
  | cons e rest ih => simp [holdsFutureEntries, Plain, ih]

theorem plain_fields {fields : List (String × Value)} :
    holdsFutureFields fields = false ↔ ∀ f ∈ fields, f.2.Plain := by
  induction fields with
  | nil => simp [holdsFutureFields]
  | cons f rest ih =>
    obtain ⟨name, v⟩ := f
    simp [holdsFutureFields, Plain, ih]

variable {self : Origin}

theorem plain_list {items : List Value} : (Value.list self items).Plain ↔ ∀ v ∈ items,
    v.Plain := plain_items

theorem plain_map {entries : List (Value × Value)} :
    (Value.map self entries).Plain ↔ ∀ e ∈ entries, e.1.Plain ∧ e.2.Plain := plain_entries

theorem plain_record {fields : List (String × Value)} : (Value.record self fields).Plain ↔
    ∀ f ∈ fields, f.2.Plain :=
  plain_fields

theorem plain_ofContent (kind : ContentKind) (s : String) : (ofContent kind s).Plain := by
  cases kind <;> rfl

theorem plain_itemAt {items : List Value} (h : ∀ v ∈ items, v.Plain) (i : Int64) :
    (itemAt items i).Plain := by
  unfold itemAt
  split
  · rfl
  · cases hi : items[i.toInt.toNat]? with
    | none => rfl
    | some v => exact h v (List.mem_of_getElem? hi)

theorem mem_of_field {fields : List (String × Value)} {name : String} {v : Value}
    (h : field? fields name = some v) :
    (name, v) ∈ fields := by
  unfold field? at h
  induction fields with
  | nil => cases h
  | cons f rest ih =>
    obtain ⟨other, w⟩ := f
    rw [List.lookup_cons] at h
    split at h
    · next he =>
      cases h
      rw [eq_of_beq he]
      exact List.mem_cons_self
    · exact List.mem_cons_of_mem _ (ih h)

theorem plain_field {fields : List (String × Value)} (h : ∀ f ∈ fields, f.2.Plain)
    {name : String} {v : Value} (hv : field? fields name = some v) : v.Plain :=
  h _ (mem_of_field hv)

theorem plain_entry {entries : List (Value × Value)} (h : ∀ e ∈ entries, e.1.Plain ∧ e.2.Plain)
    {key v : Value} (hv : entry? entries key = some v) : v.Plain := by
  unfold entry? at hv
  split at hv
  · cases hv
  · obtain ⟨e, he, rfl⟩ := Option.map_eq_some_iff.1 hv
    exact (h e (List.mem_of_find?_eq_some he)).2

theorem plain_recordOf {fields : List (String × Value)} (h : ∀ f ∈ fields, f.2.Plain) :
    (recordOf self fields).Plain := by
  have hfold (fields acc : List (String × Value)) (hacc : ∀ f ∈ acc, f.2.Plain)
    (h : ∀ f ∈ fields, f.2.Plain) :
      ∀ f ∈ fields.foldl (fun acc kv => acc.filter (·.1 != kv.1) ++ [kv]) acc, f.2.Plain := by
    induction fields generalizing acc with
    | nil => exact hacc
    | cons f rest ih =>
      refine ih _ (fun g hg => ?_) fun g hg => h g (List.mem_cons_of_mem _ hg)
      rcases List.mem_append.1 hg with hg | hg
      · exact hacc g (List.mem_filter.1 hg).1
      · rw [List.mem_singleton.1 hg]
        exact h f List.mem_cons_self
  refine plain_record.2 fun f hf => hfold fields [] (fun _ hg => by cases hg) h f ?_
  exact (List.mem_mergeSort).1 hf

theorem plain_merged {entries : List (Value × Value)} (h : ∀ e ∈ entries, e.1.Plain ∧ e.2.Plain) :
    (Value.map self (entries.foldl (fun acc (k, v) => (Value.setEntry? acc k v).getD acc)
        [])).Plain :=
  plain_map.2 (forall_sets h nofun)

/-! ## Operators -/

theorem plain_neg {v w : Value} (h : v.neg = .ok w) : w.Plain := by
  cases v <;> cases h <;> rfl

theorem plain_numbers {a b w : Value} {f : Float → Float → Float}
    (h : (do let (x, y) ← Arith.numbers a b; return Value.float (f x y) : Except Failure Value) =
      .ok w) : w.Plain := by
  cases hn : Arith.numbers a b with
  | error e => rw [hn] at h; cases h
  | ok p => rw [hn] at h; cases h; rfl

theorem plain_arith {op : Arith} {a b w : Value} (h : op.values a b = .ok w) : w.Plain := by
  unfold Arith.values at h
  split at h
  · exact plain_numbers h
  · next x y _ =>
    cases hi : op.ints x y with
    | error e => rw [hi] at h; cases h
    | ok i => rw [hi] at h; cases h; rfl
  · exact plain_numbers h

theorem plain_concat {args items : List Value} (h : ∀ v ∈ args, v.Plain)
    (hi : Eval.concat args = .ok items) :
    ∀ v ∈ items, v.Plain := by
  induction args generalizing items with
  | nil => cases hi; exact fun _ hv => by cases hv
  | cons v rest ih =>
    cases v with
    | list self own =>
      unfold Eval.concat at hi
      cases hr : Eval.concat rest with
      | error e => rw [hr] at hi; cases hi
      | ok later =>
        rw [hr] at hi
        cases hi
        intro v hv
        rcases List.mem_append.1 hv with hv | hv
        · exact plain_list.1 (h _ List.mem_cons_self) v hv
        · exact ih (fun v hv => h v (List.mem_cons_of_mem _ hv)) hr v hv
    | _ => cases hi

theorem plain_extreme {ints : Int64 → Int64 → Int64} {floats : Float → Float → Float}
    {a b w : Value} (h : Eval.extreme ints floats a b = .ok w) : w.Plain := by
  unfold Eval.extreme at h
  split at h
  · cases h; rfl
  · cases hn : Arith.numbers a b with
    | error e => rw [hn] at h; cases h
    | ok p => rw [hn] at h; cases h; rfl

theorem plain_integral {cut : Float → Float} {v w : Value} (h : Eval.integral cut v = .ok w) :
    w.Plain := by
  unfold Eval.integral at h
  split at h
  · cases h; rfl
  · cases hf : v.toFloat? with
    | error e => rw [hf] at h; cases h
    | ok x => rw [hf] at h; cases h; rfl

theorem plain_round (f : Float) (digits : Int64) : (Eval.round f digits).Plain := by
  unfold Eval.round
  split <;> rfl

theorem plain_applyAll {fs : Futures} {chain : List (Filter × List Value)} {v w : Value}
    (hv : v.Plain) (h : Filter.applyAll fs chain v = .ok w) : w.Plain := by
  induction chain generalizing v with
  | nil => cases h; exact hv
  | cons step rest ih =>
    unfold Filter.applyAll at h
    split at h
    · next u hu => exact ih (Filter.holdsFuture_of_apply hu hv) h
    · cases h

end Value

end Interlude
