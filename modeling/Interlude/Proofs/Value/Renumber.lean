import Mathlib.Logic.Function.Basic
import Interlude.Filter
import Interlude.Term.Eval
/-!
# Values under other numbers

Lists, maps and records carry the numbers of what made them, and templates see of a number only
whether it is that of another value. If numbers are exchanged for others, different ones for
different ones, then what operators, functions and filters make of values is the same up to the
exchange (`apply_renumber`, `applyAll_renumber`); texts, numbers and conditions are the same
altogether.
-/

namespace Interlude

/-- The origin under another number. -/
def Origin.renumber (ρ : Identity → Identity) (o : Origin) : Origin := { o with maker := ρ o.maker }

theorem Origin.renumber_inj {ρ : Identity → Identity} (hρ : ρ.Injective) {o o' : Origin} :
    o.renumber ρ = o'.renumber ρ ↔ o = o' := by
  refine ⟨fun h => ?_, fun h => by rw [h]⟩
  obtain ⟨n, p⟩ := o
  obtain ⟨n', p'⟩ := o'
  simp only [renumber, Origin.mk.injEq] at h ⊢
  exact ⟨hρ h.1, h.2⟩

namespace Value

mutual

/-- The value under other numbers. -/
def renumber (ρ : Identity → Identity) : Value → Value
  | .list self items => .list (self.renumber ρ) (renumberItems ρ items)
  | .map self entries => .map (self.renumber ρ) (renumberEntries ρ entries)
  | .record self fields => .record (self.renumber ρ) (renumberFields ρ fields)
  | v => v

def renumberItems (ρ : Identity → Identity) : List Value → List Value
  | [] => []
  | v :: rest => v.renumber ρ :: renumberItems ρ rest

def renumberEntries (ρ : Identity → Identity) : List (Value × Value) → List (Value × Value)
  | [] => []
  | (k, v) :: rest => (k.renumber ρ, v.renumber ρ) :: renumberEntries ρ rest

def renumberFields (ρ : Identity → Identity) : List (String × Value) → List (String × Value)
  | [] => []
  | (name, v) :: rest => (name, v.renumber ρ) :: renumberFields ρ rest

end

mutual

/-- The numbers in a value. -/
def numbers : Value → List Identity
  | .list self items => self.maker :: numbersOfItems items
  | .map self entries => self.maker :: numbersOfEntries entries
  | .record self fields => self.maker :: numbersOfFields fields
  | _ => []

def numbersOfItems : List Value → List Identity
  | [] => []
  | v :: rest => v.numbers ++ numbersOfItems rest

def numbersOfEntries : List (Value × Value) → List Identity
  | [] => []
  | (k, v) :: rest => k.numbers ++ v.numbers ++ numbersOfEntries rest

def numbersOfFields : List (String × Value) → List Identity
  | [] => []
  | (_, v) :: rest => v.numbers ++ numbersOfFields rest

end

/-- An entry of a map under other numbers. -/
def renumberEntry (ρ : Identity → Identity) (e : Value × Value) : Value × Value :=
    (e.1.renumber ρ, e.2.renumber ρ)

/-- A field of a record, or a param, under other numbers. -/
def renumberField (ρ : Identity → Identity) (f : String × Value) : String × Value :=
    (f.1, f.2.renumber ρ)

variable {ρ : Identity → Identity}

theorem renumberItems_eq (items : List Value) : renumberItems ρ items = items.map (renumber ρ) := by
  induction items with
  | nil => rfl
  | cons v rest ih => rw [renumberItems, ih, List.map_cons]

theorem renumberEntries_eq (entries : List (Value × Value)) :
    renumberEntries ρ entries = entries.map (renumberEntry ρ) := by
  induction entries with
  | nil => rfl
  | cons e rest ih => rw [renumberEntries, ih, List.map_cons, renumberEntry]

theorem renumberFields_eq (fields : List (String × Value)) :
    renumberFields ρ fields = fields.map (renumberField ρ) := by
  induction fields with
  | nil => rfl
  | cons f rest ih => rw [renumberFields, ih, List.map_cons, renumberField]

section Constructors

variable (self : Origin)

@[simp] theorem renumber_null : Value.null.renumber ρ = .null := rfl
@[simp] theorem renumber_undefined : Value.undefined.renumber ρ = .undefined := rfl
@[simp] theorem renumber_bool (b : Bool) : (Value.bool b).renumber ρ = .bool b := rfl
@[simp] theorem renumber_int (i : Int64) : (Value.int i).renumber ρ = .int i := rfl
@[simp] theorem renumber_float (f : Float) : (Value.float f).renumber ρ = .float f := rfl
@[simp] theorem renumber_str (s : String) : (Value.str s).renumber ρ = .str s := rfl
@[simp] theorem renumber_content (kind : ContentKind) (s : String) :
    (Value.content kind s).renumber ρ = .content kind s := rfl
@[simp] theorem renumber_future (id : FutureId) : (Value.future id).renumber ρ = .future id := rfl

@[simp] theorem renumber_list (items : List Value) :
    (Value.list self items).renumber ρ = .list (self.renumber ρ) (items.map (renumber ρ)) := by
  rw [renumber, renumberItems_eq]

@[simp] theorem renumber_map (entries : List (Value × Value)) :
    (Value.map self entries).renumber ρ =
    .map (self.renumber ρ) (entries.map (renumberEntry ρ)) := by
  rw [renumber, renumberEntries_eq]

@[simp] theorem renumber_record (fields : List (String × Value)) :
    (Value.record self fields).renumber ρ =
    .record (self.renumber ρ) (fields.map (renumberField ρ)) := by
  rw [renumber, renumberFields_eq]

@[simp] theorem renumber_ofContent (kind : ContentKind) (s : String) :
    (ofContent kind s).renumber ρ = ofContent kind s := by
  cases kind <;> rfl

end Constructors

mutual

/-- A value whose numbers stay the same stays the same. -/
theorem renumber_eq_self (v : Value) (h : ∀ n ∈ v.numbers, ρ n = n) : v.renumber ρ = v := by
  have horigin {self : Origin} (h : ρ self.maker = self.maker) :
    self.renumber ρ = self := by rw [Origin.renumber, h]
  cases v with
  | list self items =>
    have h := List.forall_mem_cons.1 h
    rw [renumber, horigin h.1, renumberItems_eq_self items h.2]
  | map self entries =>
    have h := List.forall_mem_cons.1 h
    rw [renumber, horigin h.1, renumberEntries_eq_self entries h.2]
  | record self fields =>
    have h := List.forall_mem_cons.1 h
    rw [renumber, horigin h.1, renumberFields_eq_self fields h.2]
  | _ => rfl

theorem renumberItems_eq_self (items : List Value) (h : ∀ n ∈ numbersOfItems items, ρ n = n) :
    renumberItems ρ items = items := by
  cases items with
  | nil => rfl
  | cons v rest =>
    have h := List.forall_mem_append.1 h
    rw [renumberItems, renumber_eq_self v h.1, renumberItems_eq_self rest h.2]

theorem renumberEntries_eq_self (entries : List (Value × Value))
    (h : ∀ n ∈ numbersOfEntries entries, ρ n = n) :
    renumberEntries ρ entries = entries := by
  match entries with
  | [] => rfl
  | (k, v) :: rest =>
    have h := List.forall_mem_append.1 h
    have hkv := List.forall_mem_append.1 h.1
    rw [renumberEntries, renumber_eq_self k hkv.1, renumber_eq_self v hkv.2,
      renumberEntries_eq_self rest h.2]

theorem renumberFields_eq_self (fields : List (String × Value))
    (h : ∀ n ∈ numbersOfFields fields, ρ n = n) :
    renumberFields ρ fields = fields := by
  match fields with
  | [] => rfl
  | (name, v) :: rest =>
    have h := List.forall_mem_append.1 h
    rw [renumberFields, renumber_eq_self v h.1, renumberFields_eq_self rest h.2]

end

/-! ## Coercions and comparisons -/

section

variable (v a b : Value)

@[simp] theorem kind_renumber : (v.renumber ρ).kind = v.kind := by cases v <;> rfl

@[simp] theorem isNullish_renumber : (v.renumber ρ).isNullish = v.isNullish := by cases v <;> rfl

@[simp] theorem isNumber_renumber : (v.renumber ρ).isNumber = v.isNumber := by cases v <;> rfl

@[simp] theorem stringLike?_renumber :
    (v.renumber ρ).stringLike? = v.stringLike? := by cases v <;> rfl

@[simp] theorem widened_renumber : (v.renumber ρ).widened = v.widened := by cases v <;> rfl

@[simp] theorem truthy_renumber : (v.renumber ρ).truthy = v.truthy := by cases v <;> rfl

@[simp] theorem toInt64?_renumber : (v.renumber ρ).toInt64? = v.toInt64? := by cases v <;> rfl

@[simp] theorem toFloat?_renumber : (v.renumber ρ).toFloat? = v.toFloat? := by cases v <;> rfl

@[simp] theorem toStr?_renumber : (v.renumber ρ).toStr? = v.toStr? := by cases v <;> rfl

@[simp] theorem listIndex_renumber :
    Eval.listIndex (v.renumber ρ) = Eval.listIndex v := by cases v <;> rfl

@[simp] theorem ofValue?_renumber :
    MapKey.ofValue? (v.renumber ρ) = MapKey.ofValue? v := by cases v <;> rfl

theorem sameOrigin_renumber (hρ : ρ.Injective) :
    sameOrigin (a.renumber ρ) (b.renumber ρ) = sameOrigin a b := by
  have horigin (o o' : Origin) : (o.renumber ρ == o'.renumber ρ) = (o == o') := by
    rw [Bool.eq_iff_iff, beq_iff_eq, beq_iff_eq, Origin.renumber_inj hρ]
  cases a <;> cases b <;> first | rfl | exact horigin _ _

theorem equal_renumber (hρ : ρ.Injective) : equal (a.renumber ρ) (b.renumber ρ) = equal a b := by
  have hsame := sameOrigin_renumber a b hρ
  unfold equal
  simp only [isNullish_renumber, isNumber_renumber, widened_renumber, stringLike?_renumber]
  split
  · rfl
  · cases a <;> cases b <;>
      first
      | (simp only [renumber_bool, renumber_int, renumber_float, renumber_str,
        renumber_content]; done)
      | exact hsame

@[simp] theorem less_renumber : less (a.renumber ρ) (b.renumber ρ) = less a b := by
  unfold less
  cases a <;> cases b <;> rfl

@[simp] theorem lessEq_renumber : lessEq (a.renumber ρ) (b.renumber ρ) = lessEq a b := by
  unfold lessEq
  cases a <;> cases b <;> rfl

theorem compared_renumber (hρ : ρ.Injective) (op : Comparison) :
    op.values (a.renumber ρ) (b.renumber ρ) = op.values a b := by
  cases op <;> simp only [Comparison.values, equal_renumber _ _ hρ, less_renumber, lessEq_renumber]

end

/-! ## Texts -/

mutual

/-- The text of a value shows no numbers. -/
theorem write_renumber (fs : Futures) (fuel : Nat) (v : Value) :
    (v.renumber ρ).write fs fuel = v.write fs fuel := by
  cases v with
  | list self items => simp only [renumber, write, writeItems_renumber fs fuel items]
  | map self entries => simp only [renumber, write, writeEntries_renumber fs fuel entries]
  | record self fields => simp only [renumber, write, writeFields_renumber fs fuel fields]
  | _ => rfl

theorem writeItems_renumber (fs : Futures) (fuel : Nat) (items : List Value) :
    writeItems fs fuel (renumberItems ρ items) = writeItems fs fuel items := by
  cases items with
  | nil => rfl
  | cons v rest =>
    simp only [renumberItems, writeItems, write_renumber fs fuel v,
      writeItems_renumber fs fuel rest]

theorem writeEntries_renumber (fs : Futures) (fuel : Nat) (entries : List (Value × Value)) :
    writeEntries fs fuel (renumberEntries ρ entries) = writeEntries fs fuel entries := by
  match entries with
  | [] => rfl
  | (k, v) :: rest =>
    simp only [renumberEntries, writeEntries, write_renumber fs fuel k, write_renumber fs fuel v,
      writeEntries_renumber fs fuel rest]

theorem writeFields_renumber (fs : Futures) (fuel : Nat) (fields : List (String × Value)) :
    writeFields fs fuel (renumberFields ρ fields) = writeFields fs fuel fields := by
  match fields with
  | [] => rfl
  | (name, v) :: rest =>
    simp only [renumberFields, writeFields, write_renumber fs fuel v,
      writeFields_renumber fs fuel rest]

end

@[simp] theorem text_renumber (fs : Futures) (v : Value) : (v.renumber ρ).text fs = v.text fs :=
    write_renumber fs _ v

/-! ## Parts -/

@[simp] theorem itemAt_renumber (items : List Value) (i : Int64) :
    itemAt (items.map (renumber ρ)) i = (itemAt items i).renumber ρ := by
  unfold itemAt
  split
  · rfl
  · rw [List.getElem?_map]
    cases items[i.toInt.toNat]? <;> rfl

@[simp] theorem lookup_renumber (fields : List (String × Value)) (name : String) :
    (fields.map (renumberField ρ)).lookup name = (fields.lookup name).map (renumber ρ) := by
  induction fields with
  | nil => rfl
  | cons f rest ih =>
    obtain ⟨other, v⟩ := f
    simp only [List.map_cons, renumberField, List.lookup_cons]
    split
    · rfl
    · exact ih

@[simp] theorem field?_renumber (fields : List (String × Value)) (name : String) :
    field? (fields.map (renumberField ρ)) name = (field? fields name).map (renumber ρ) :=
    lookup_renumber fields name

@[simp] theorem entry?_renumber (entries : List (Value × Value)) (key : Value) :
    entry? (entries.map (renumberEntry ρ)) (key.renumber ρ) =
    (Value.entry? entries key).map (renumber ρ) := by
  unfold entry?
  rw [ofValue?_renumber]
  cases MapKey.ofValue? key with
  | none => rfl
  | some k =>
    simp only [List.find?_map, Function.comp_def, renumberEntry, ofValue?_renumber, Option.map_map]

theorem setEntry?_renumber (entries : List (Value × Value)) (key v : Value) :
    setEntry? (entries.map (renumberEntry ρ)) (key.renumber ρ) (v.renumber ρ) =
      (Value.setEntry? entries key v).map (List.map (renumberEntry ρ)) := by
  unfold setEntry?
  rw [ofValue?_renumber]
  cases MapKey.ofValue? key with
  | none => rfl
  | some k =>
    simp only [List.any_map, Function.comp_def, renumberEntry, ofValue?_renumber]
    split
    · simp only [Option.map_some, List.map_map, Function.comp_def, renumberEntry, ofValue?_renumber]
      congr 2
      funext e
      split <;> rfl
    · simp [renumberEntry]

/-- The entries of a map that is written out. -/
theorem merged_renumber (entries : List (Value × Value)) :
    (entries.map (renumberEntry ρ)).foldl (fun acc (k, v) => (Value.setEntry? acc k v).getD acc)
      [] = (entries.foldl (fun acc (k, v) => (Value.setEntry? acc k v).getD acc) []).map
      (renumberEntry ρ) := by
  have hfold (entries acc : List (Value × Value)) :
      (entries.map (renumberEntry ρ)).foldl (fun acc (k, v) => (Value.setEntry? acc k v).getD acc)
        (acc.map (renumberEntry ρ)) =
      (entries.foldl (fun acc (k, v) => (Value.setEntry? acc k v).getD acc) acc).map
          (renumberEntry ρ) := by
    induction entries generalizing acc with
    | nil => rfl
    | cons e rest ih =>
      obtain ⟨k, v⟩ := e
      rw [List.map_cons, List.foldl_cons, List.foldl_cons, ← ih]
      congr 1
      simp only [renumberEntry]
      rw [setEntry?_renumber]
      cases setEntry? acc k v <;> rfl
  exact hfold entries []

theorem recordOf_renumber (self : Origin) (fields : List (String × Value)) :
    (recordOf self fields).renumber ρ =
    recordOf (self.renumber ρ) (fields.map (renumberField ρ)) := by
  have hfold (fields acc : List (String × Value)) :
      (fields.map (renumberField ρ)).foldl (fun acc kv => acc.filter (·.1 != kv.1) ++ [kv])
        (acc.map (renumberField ρ)) =
      (fields.foldl (fun acc kv => acc.filter (·.1 != kv.1) ++ [kv]) acc).map
          (renumberField ρ) := by
    induction fields generalizing acc with
    | nil => rfl
    | cons f rest ih =>
      rw [List.map_cons, List.foldl_cons, List.foldl_cons, ← ih]
      simp [List.filter_map, Function.comp_def, renumberField]
  have hsort (fields : List (String × Value)) :
      (fields.mergeSort fun a b => a.1 ≤ b.1).map (renumberField ρ) =
        (fields.map (renumberField ρ)).mergeSort fun a b => a.1 ≤ b.1 :=
        List.map_mergeSort fun _ _ _ _ => rfl
  unfold recordOf
  simp only [renumber_record]
  rw [hsort, ← hfold fields [], List.map_nil]

/-! ## Operators and functions -/

section

variable (v a b : Value)

@[simp] theorem arith_renumber (op : Arith) :
    op.values (a.renumber ρ) (b.renumber ρ) = op.values a b := by
  unfold Arith.values
  cases op <;> cases a <;> cases b <;> rfl

@[simp] theorem neg_renumber : (v.renumber ρ).neg = v.neg := by cases v <;> rfl

@[simp] theorem extreme_renumber (ints : Int64 → Int64 → Int64) (floats : Float → Float → Float) :
    Eval.extreme ints floats (a.renumber ρ) (b.renumber ρ) = Eval.extreme ints floats a b := by
  unfold Eval.extreme
  cases a <;> cases b <;> rfl

@[simp] theorem integral_renumber (cut : Float → Float) :
    Eval.integral cut (v.renumber ρ) = Eval.integral cut v := by
  cases v <;> rfl

end

theorem concat_renumber (args : List Value) :
    Eval.concat (args.map (renumber ρ)) = (Eval.concat args).map (List.map (renumber ρ)) := by
  induction args with
  | nil => rfl
  | cons v rest ih =>
    cases v with
    | list self items =>
      simp only [List.map_cons, renumber_list, Eval.concat, ih]
      cases Eval.concat rest with
      | error e => rfl
      | ok later => simp [Except.map, bind, Except.bind, pure, Except.pure]
    | _ => rfl

/-- A value that is no list, map or record has no numbers. -/
def Bare : Value → Prop
  | .list .. => False
  | .map .. => False
  | .record .. => False
  | _ => True

theorem Bare.renumber {v : Value} (h : v.Bare) : v.renumber ρ = v := by
  cases v <;> first | rfl | exact h.elim

theorem bare_numbers {a b w : Value} {f : Float → Float → Float}
    (h : (do let (x, y) ← Arith.numbers a b; return Value.float (f x y) : Except Failure Value) =
      .ok w) : w.Bare := by
  cases hn : Arith.numbers a b with
  | error e => rw [hn] at h; cases h
  | ok p => rw [hn] at h; cases h; trivial

theorem bare_arith {op : Arith} {a b w : Value} (h : op.values a b = .ok w) : w.Bare := by
  unfold Arith.values at h
  split at h
  · exact bare_numbers h
  · next x y _ =>
    cases hi : op.ints x y with
    | error e => rw [hi] at h; cases h
    | ok i => rw [hi] at h; cases h; trivial
  · exact bare_numbers h

theorem bare_neg {v w : Value} (h : v.neg = .ok w) : w.Bare := by
  cases v <;> cases h <;> trivial

theorem bare_extreme {ints : Int64 → Int64 → Int64} {floats : Float → Float → Float} {a b w : Value}
    (h : Eval.extreme ints floats a b = .ok w) : w.Bare := by
  unfold Eval.extreme at h
  split at h
  · cases h; trivial
  · exact bare_numbers h

theorem bare_integral {cut : Float → Float} {v w : Value}
    (h : Eval.integral cut v = .ok w) : w.Bare := by
  unfold Eval.integral at h
  split at h
  · cases h; trivial
  · cases hf : v.toFloat? with
    | error e => rw [hf] at h; cases h
    | ok x => rw [hf] at h; cases h; trivial

theorem bare_round (f : Float) (digits : Int64) : (Eval.round f digits).Bare := by
  unfold Eval.round
  split <;> trivial

end Value

/-! ## Filters -/

namespace Filter

variable {ρ : Identity → Identity}

/-- A filter with its arguments under other numbers. -/
def renumberCall (ρ : Identity → Identity) (d : Filter × List Value) : Filter × List Value :=
  (d.1, d.2.map (Value.renumber ρ))

theorem onText_renumber (fs : Futures) (change : String → String) (v : Value) :
    onText fs change (v.renumber ρ) = (onText fs change v).renumber ρ := by
  unfold onText
  rw [Value.text_renumber]
  cases v <;> rfl

theorem truncation_renumber (args : List Value) :
    truncation (args.map (Value.renumber ρ)) = truncation args := by
  unfold truncation
  match args with
  | [] => rfl
  | [v] =>
    simp only [List.map_cons, List.map_nil, List.head?_cons, Option.getD_some,
      Value.toInt64?_renumber]
  | v :: dots :: rest =>
    simp only [List.map_cons, List.head?_cons, Option.getD_some, Value.toInt64?_renumber,
      Value.truthy_renumber]

theorem apply_renumber (fs : Futures) (f : Filter) (v : Value) (args : List Value) :
    f.apply fs (v.renumber ρ) (args.map (Value.renumber ρ)) =
    (f.apply fs v args).map (Value.renumber ρ) := by
  cases f with
  | escapeHtml =>
    have htext := Value.text_renumber (ρ := ρ) fs v
    cases v with
    | content kind s => cases kind <;> rfl
    | list | map | record =>
      simp only [apply, Value.renumber_list, Value.renumber_map, Value.renumber_record] at htext ⊢
      rw [htext]
      rfl
    | _ => rfl
  | cleanHtml | escapeUri =>
    simp only [apply, Value.text_renumber]
    rfl
  | truncate =>
    simp only [apply, truncateValue, truncation_renumber, Value.text_renumber]
    cases truncation args <;> rfl
  | changeNewlineToBr | upper | lower | title =>
    simp only [apply, onText_renumber]
    rfl
  | id | noAutoescape => rfl

theorem applyAll_renumber (fs : Futures) (chain : List (Filter × List Value)) (v : Value) :
    applyAll fs (chain.map (renumberCall ρ)) (v.renumber ρ) =
    (applyAll fs chain v).map (Value.renumber ρ) := by
  induction chain generalizing v with
  | nil => rfl
  | cons d rest ih =>
    obtain ⟨f, args⟩ := d
    simp only [List.map_cons, renumberCall, applyAll, apply_renumber]
    cases f.apply fs v args with
    | error e => rfl
    | ok w => exact ih w

end Filter

end Interlude
