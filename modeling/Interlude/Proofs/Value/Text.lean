import Interlude.Proofs.Future
import Interlude.Filter
/-!
# Texts and futures

The text of a value depends on the states of futures, and of a value that holds no future on nothing
else at all (`text_of_holdsFuture`). What filters make of a value is the same in both cases, unless
they take the text of a value that holds a future.
-/

namespace Interlude

namespace Value

mutual

theorem write_congr {fs gs : Futures} (h : fs.states = gs.states) (fuel : Nat) (v : Value) :
    v.write fs fuel = v.write gs fuel := by
  unfold write
  cases v with
  | null | undefined | bool | int | float | str | content => rfl
  | list self items => simp only [writeItems_congr h fuel items]
  | map self entries => simp only [writeEntries_congr h fuel entries]
  | record self fields => simp only [writeFields_congr h fuel fields]
  | future id =>
    simp only [Futures.get_congr h id]
    split
    · rfl
    · rfl
    · next inner _ =>
      cases fuel with
      | zero => rfl
      | succ fuel => exact write_congr h fuel inner
termination_by (fuel, sizeOf v)

theorem writeItems_congr {fs gs : Futures} (h : fs.states = gs.states) (fuel : Nat)
    (items : List Value) : writeItems fs fuel items = writeItems gs fuel items := by
  unfold writeItems
  cases items with
  | nil => rfl
  | cons v rest => simp only [write_congr h fuel v, writeItems_congr h fuel rest]
termination_by (fuel, sizeOf items)

theorem writeEntries_congr {fs gs : Futures} (h : fs.states = gs.states) (fuel : Nat)
    (entries : List (Value × Value)) :
    writeEntries fs fuel entries = writeEntries gs fuel entries := by
  unfold writeEntries
  match entries with
  | [] => rfl
  | (k, v) :: rest =>
    simp only [write_congr h fuel k, write_congr h fuel v, writeEntries_congr h fuel rest]
termination_by (fuel, sizeOf entries)

theorem writeFields_congr {fs gs : Futures} (h : fs.states = gs.states) (fuel : Nat)
    (fields : List (String × Value)) : writeFields fs fuel fields = writeFields gs fuel fields := by
  unfold writeFields
  match fields with
  | [] => rfl
  | (name, v) :: rest => simp only [write_congr h fuel v, writeFields_congr h fuel rest]
termination_by (fuel, sizeOf fields)

end

/-- A text depends on the states of futures alone. -/
theorem text_congr {fs gs : Futures} (h : fs.states = gs.states) (v : Value) :
    v.text fs = v.text gs := by
  unfold text
  rw [h]
  exact write_congr h _ v

mutual

theorem write_of_holdsFuture {fs gs : Futures} {fuel more : Nat} (v : Value)
    (h : v.holdsFuture = false) : v.write fs fuel = v.write gs more := by
  unfold write
  cases v with
  | null | undefined | bool | int | float | str | content => rfl
  | list self items =>
    have hi : writeItems fs fuel items = writeItems gs more items :=
      writeItems_of_holdsFuture items h
    simp only [hi]
  | map self entries =>
    have he : writeEntries fs fuel entries = writeEntries gs more entries :=
      writeEntries_of_holdsFuture entries h
    simp only [he]
  | record self fields =>
    have hf : writeFields fs fuel fields = writeFields gs more fields :=
      writeFields_of_holdsFuture fields h
    simp only [hf]
  | future id => cases h

theorem writeItems_of_holdsFuture {fs gs : Futures} {fuel more : Nat} (items : List Value)
    (h : holdsFutureAny items = false) : writeItems fs fuel items = writeItems gs more items := by
  unfold writeItems
  cases items with
  | nil => rfl
  | cons v rest =>
    have hv := Bool.or_eq_false_iff.1 h
    have h₁ : v.write fs fuel = v.write gs more := write_of_holdsFuture v hv.1
    have h₂ : writeItems fs fuel rest = writeItems gs more rest :=
      writeItems_of_holdsFuture rest hv.2
    simp only [h₁, h₂]

theorem writeEntries_of_holdsFuture {fs gs : Futures} {fuel more : Nat}
    (entries : List (Value × Value)) (h : holdsFutureEntries entries = false) :
    writeEntries fs fuel entries = writeEntries gs more entries := by
  unfold writeEntries
  match entries with
  | [] => rfl
  | (k, v) :: rest =>
    have hr := Bool.or_eq_false_iff.1 h
    have hv := Bool.or_eq_false_iff.1 hr.1
    have h₁ : k.write fs fuel = k.write gs more := write_of_holdsFuture k hv.1
    have h₂ : v.write fs fuel = v.write gs more := write_of_holdsFuture v hv.2
    have h₃ : writeEntries fs fuel rest = writeEntries gs more rest :=
      writeEntries_of_holdsFuture rest hr.2
    simp only [h₁, h₂, h₃]

theorem writeFields_of_holdsFuture {fs gs : Futures} {fuel more : Nat}
    (fields : List (String × Value)) (h : holdsFutureFields fields = false) :
    writeFields fs fuel fields = writeFields gs more fields := by
  unfold writeFields
  match fields with
  | [] => rfl
  | (name, v) :: rest =>
    have hr := Bool.or_eq_false_iff.1 h
    have h₁ : v.write fs fuel = v.write gs more := write_of_holdsFuture v hr.1
    have h₂ : writeFields fs fuel rest = writeFields gs more rest :=
      writeFields_of_holdsFuture rest hr.2
    simp only [h₁, h₂]

end

/-- The text of a value that holds no future does not depend on futures. -/
theorem text_of_holdsFuture {v : Value} (h : v.holdsFuture = false) (fs gs : Futures) :
    v.text fs = v.text gs :=
  write_of_holdsFuture v h

end Value

namespace Filter

/-- Where the text of a value is the same, a filter makes the same of it. -/
theorem apply_of_text {fs gs : Futures} {v : Value} (h : v.text fs = v.text gs) (f : Filter)
    (args : List Value) : f.apply fs v args = f.apply gs v args := by
  unfold apply truncateValue onText
  cases f with
  | escapeHtml =>
    simp only
    split
    · rfl
    · rw [h]
  | _ => simp only [h]

/-- A filter that changes a value at all makes a text or content of it. -/
theorem holdsFuture_of_apply {fs : Futures} {f : Filter} {v w : Value} {args : List Value}
    (h : f.apply fs v args = .ok w) (hv : v.holdsFuture = false) : w.holdsFuture = false := by
  unfold apply at h
  cases f with
  | id | noAutoescape => cases h; exact hv
  | truncate =>
    simp only [truncateValue] at h
    cases ht : truncation args with
    | error e => rw [ht] at h; cases h
    | ok r => rw [ht] at h; cases h; rfl
  | escapeHtml => simp only at h; split at h <;> cases h <;> rfl
  | cleanHtml | escapeUri => cases h; rfl
  | changeNewlineToBr | upper | lower | title =>
    simp only [onText] at h
    split at h <;> cases h <;> rfl

theorem applyAll_congr {fs gs : Futures} (h : fs.states = gs.states)
    (chain : List (Filter × List Value)) (v : Value) :
    applyAll fs chain v = applyAll gs chain v := by
  induction chain generalizing v with
  | nil => rfl
  | cons step rest ih =>
    unfold applyAll
    rw [apply_of_text (Value.text_congr h v)]
    split
    · exact ih _
    · rfl

theorem applyAll_of_holdsFuture {fs gs : Futures} (chain : List (Filter × List Value)) {v : Value}
    (h : v.holdsFuture = false) : applyAll fs chain v = applyAll gs chain v := by
  induction chain generalizing v with
  | nil => rfl
  | cons step rest ih =>
    unfold applyAll
    rw [apply_of_text (Value.text_of_holdsFuture h fs gs)]
    split
    · next w hw => exact ih (holdsFuture_of_apply hw h)
    · rfl

/-- Filters that take no text do the same whatever the futures are. -/
theorem applyAll_of_takeText {fs gs : Futures} (chain : List (Filter × List Value)) (v : Value)
    (h : takeText chain = false) : applyAll fs chain v = applyAll gs chain v := by
  induction chain with
  | nil => rfl
  | cons step rest ih =>
    obtain ⟨f, args⟩ := step
    cases f with
    | id | noAutoescape => exact ih h
    | truncate =>
      have ht : (truncation args).isOk = false := h
      unfold applyAll
      simp only [apply, truncateValue]
      cases hr : truncation args with
      | ok r => rw [hr] at ht; cases ht
      | error e => rfl
    | _ => cases h

theorem resultKind_futures (fs gs : Futures) (f : Filter) (kind : ContentKind) (args : List Value) :
    f.resultKind fs kind args = f.resultKind gs kind args := by
  have htext : (Value.ofContent kind "").text fs = (Value.ofContent kind "").text gs :=
    Value.text_of_holdsFuture (by cases kind <;> rfl) fs gs
  unfold resultKind
  rw [apply_of_text htext]

/-- The stages of filters do not depend on futures. -/
theorem stages_futures (fs gs : Futures) (chain : List (Filter × List Value)) (kind : ContentKind) :
    stages fs chain kind = stages gs chain kind := by
  induction chain generalizing kind with
  | nil => rfl
  | cons x rest ih =>
    obtain ⟨f, args⟩ := x
    unfold stages
    rw [ih, resultKind_futures fs gs]

end Filter

end Interlude
