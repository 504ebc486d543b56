import Interlude.Proofs.Filter.Streaming
/-!
# What sinks receive

A sink receives a text in pieces, however it is cut. Meanwhile new buffers and stages may come into
being: they do not count. Everything else that was there stays as it was, but for the sink and the
stages that text passes on its way. A buffer holds what it has received
(`Streams.Received.newBuffer`), and a sink behind stages receives what the stages make of the whole,
once they are closed (`Streams.Ready.wrap`).
-/

namespace Interlude

namespace Streams

/-! ## Streams without new buffers -/

/-- Streams without the buffers from `b` on. -/
def trim (b : Nat) (s : Streams) : Streams := { s with buffers := s.buffers.extract 0 b }

variable {b n : Nat} {s t u : Streams} {sink : Sink}

theorem trim_trim {c : Nat} (h : c ≤ b) (s : Streams) : (s.trim b).trim c = s.trim c := by
  simp only [trim, Array.extract_extract, Nat.zero_add, Nat.min_eq_left h]

theorem Agree.trim (h : s.Agree n t) (b : Nat) : (s.trim b).Agree n (t.trim b) :=
  { h with buffers := by simp only [Streams.trim, h.buffers] }

theorem append_trim (b : Nat) (s : Streams) (sink : Sink) (text : String) :
    (s.trim b).append sink text = ((s.append sink text).1, (s.append sink text).2.trim b) := by
  induction sink generalizing s text with
  | root => rfl
  | buffer id =>
    have hmodify : (s.buffers.extract 0 b).modify id (· ++ text) =
        (s.buffers.modify id (· ++ text)).extract 0 b := by
      apply Array.ext_getElem?
      intro i
      simp only [Array.getElem?_modify, Array.getElem?_extract, Array.size_modify]
      split <;> split <;> simp_all
    simp only [append, trim, hmodify]
  | through id stage next ih =>
    cases stage with
    | lineBreaks =>
      unfold append
      split
      · rfl
      · exact ih (s.setStage id _) _
    | _ =>
      have hstages : (s.trim b).stages = s.stages := rfl
      simp only [append, hstages]
      split
      · rfl
      · exact ih s _

theorem append_sizes (s : Streams) (sink : Sink) (text : String) :
    (s.append sink text).2.buffers.size = s.buffers.size ∧
    (s.append sink text).2.stages.size = s.stages.size := by
  induction sink generalizing s text with
  | root => exact ⟨rfl, rfl⟩
  | buffer id => exact ⟨Array.size_modify .., rfl⟩
  | through id stage next ih =>
    cases stage with
    | lineBreaks =>
      unfold append
      split
      · exact ⟨rfl, rfl⟩
      · refine ⟨(ih (s.setStage id _) _).1, (ih (s.setStage id _) _).2.trans ?_⟩
        exact Array.size_setIfInBounds ..
    | _ =>
      unfold append
      split
      · exact ⟨rfl, rfl⟩
      · exact ih s _

theorem appendAll_trim (b : Nat) (s : Streams) (sink : Sink) (texts : List String) :
    (s.trim b).appendAll sink texts =
    ((s.appendAll sink texts).1, (s.appendAll sink texts).2.trim b) := by
  induction texts generalizing s with
  | nil => rfl
  | cons text rest ih =>
    simp only [appendAll, append_trim]
    generalize s.append sink text = a
    obtain ⟨ra, sa⟩ := a
    cases ra with
    | ok _ => exact ih sa
    | error e => rfl

theorem closeStage_trim (b : Nat) (s : Streams) (id : StageId) (stage : Stage) (next : Sink) :
    (s.trim b).closeStage id stage next =
    ((s.closeStage id stage next).1, (s.closeStage id stage next).2.trim b) := by
  cases stage with
  | lineBreaks =>
    have hstages : (s.trim b).stages = s.stages := rfl
    simp only [closeStage, hstages]
    split
    · exact append_trim b (s.setStage id {}) next "<br>"
    · rfl
  | _ => rfl

theorem closeStage_sizes (s : Streams) (id : StageId) (stage : Stage) (next : Sink) :
    (s.closeStage id stage next).2.buffers.size = s.buffers.size ∧
      (s.closeStage id stage next).2.stages.size = s.stages.size := by
  have hset (st : StageState) : (s.setStage id st).stages.size = s.stages.size :=
    Array.size_setIfInBounds ..
  cases stage with
  | lineBreaks =>
    unfold closeStage
    simp only
    split
    · obtain ⟨hbuffers, hstages⟩ := append_sizes (s.setStage id {}) next "<br>"
      exact ⟨hbuffers, hstages.trans (hset {})⟩
    · exact ⟨rfl, rfl⟩
  | _ => exact ⟨rfl, hset _⟩

theorem closeAll_trim (b : Nat) (s : Streams) (stages : List (StageId × Stage × Sink)) :
    (s.trim b).closeAll stages = ((s.closeAll stages).1, (s.closeAll stages).2.trim b) := by
  induction stages generalizing s with
  | nil => rfl
  | cons x rest ih =>
    obtain ⟨id, stage, next⟩ := x
    simp only [closeAll, closeStage_trim, ih]

theorem closeAll_sizes (s : Streams) (stages : List (StageId × Stage × Sink)) :
    (s.closeAll stages).2.buffers.size = s.buffers.size ∧
    (s.closeAll stages).2.stages.size = s.stages.size := by
  induction stages generalizing s with
  | nil => exact ⟨rfl, rfl⟩
  | cons x rest ih =>
    obtain ⟨id, stage, next⟩ := x
    obtain ⟨hbuffers, hstages⟩ := closeStage_sizes s id stage next
    obtain ⟨hbuffers', hstages'⟩ := ih (s.closeStage id stage next).2
    exact ⟨hbuffers'.trans hbuffers, hstages'.trans hstages⟩

theorem wrap_buffers (s : Streams) (stages : List Stage) (out : Sink) :
    (s.wrap stages out).2.buffers = s.buffers := by
  induction stages with
  | nil => rfl
  | cons stage rest ih => exact ih

/-! ## Received texts -/

/-- A sink that refuses nothing, with stages that are there. -/
structure Ready (s : Streams) (sink : Sink) : Prop where
  below : sink.Below s.stages.size
  accepts : ∀ texts, (s.appendAll sink texts).1 = .ok ()

/-- A sink has received a text, in pieces, and nothing else that was there has changed. -/
structure Received (sink : Sink) (text : String) (s t : Streams) : Prop where
  buffers : s.buffers.size ≤ t.buffers.size
  stages : s.stages.size ≤ t.stages.size
  pieces : ∃ pieces, String.join pieces = text ∧
    (t.trim s.buffers.size).Agree s.stages.size ((s.appendAll sink pieces).2.trim s.buffers.size)

/-- What a ready sink is given it has received. -/
theorem Ready.appendAll (h : s.Ready sink) (pieces : List String) :
    s.appendAll sink pieces = (.ok (), (s.appendAll sink pieces).2) :=
    Prod.ext (h.accepts pieces) rfl

namespace Received

theorem nothing (sink : Sink) (s : Streams) : s.Received sink "" s :=
  ⟨Nat.le_refl _, Nat.le_refl _, [], rfl, .refl _ _⟩

theorem append (sink : Sink) (s : Streams) (h : s.Ready sink) (text : String) :
    s.append sink text = (.ok (), (s.append sink text).2) ∧
    s.Received sink text (s.append sink text).2 := by
  have hone : s.appendAll sink [text] = ((s.append sink text).1, (s.append sink text).2) := by
    rw [Streams.appendAll]
    generalize s.append sink text = a
    obtain ⟨ra, sa⟩ := a
    cases ra <;> rfl
  have hok : (s.append sink text).1 = .ok () := by
    have := h.accepts [text]
    rwa [hone] at this
  obtain ⟨hbuffers, hstages⟩ := append_sizes s sink text
  refine ⟨Prod.ext hok rfl, Nat.le_of_eq hbuffers.symm, Nat.le_of_eq hstages.symm,
    [text], by simp, ?_⟩
  rw [hone]
  exact .refl _ _

/-- A sink receives after it has received. -/
theorem appendAll_after (h : s.Ready sink) {text : String} (hr : s.Received sink text t)
    (texts : List String) :
    ∃ pieces, String.join pieces = text ∧
    (t.appendAll sink texts).1 = (s.appendAll sink (pieces ++ texts)).1 ∧
    ((t.appendAll sink texts).2.trim s.buffers.size).Agree s.stages.size
      ((s.appendAll sink (pieces ++ texts)).2.trim s.buffers.size) := by
  obtain ⟨pieces, hjoin, hagree⟩ := hr.pieces
  have hboth : s.appendAll sink (pieces ++ texts) =
      (s.appendAll sink pieces).2.appendAll sink texts := by
    have hall := h.appendAll (pieces ++ texts)
    obtain ⟨s', hfirst, hlater⟩ := appendAll_append_ok.1 hall
    rw [hfirst, hlater, ← hall]
  have hlater := hagree.appendAll h.below texts
  rw [appendAll_trim, appendAll_trim] at hlater
  exact ⟨pieces, hjoin, by rw [hboth]; exact hlater.1, by rw [hboth]; exact hlater.2⟩

theorem ready (h : s.Ready sink) {text : String} (hr : s.Received sink text t) : t.Ready sink where
  below := h.below.mono hr.stages
  accepts texts := by
    obtain ⟨pieces, _, hsame, _⟩ := hr.appendAll_after h texts
    exact hsame.trans (h.accepts _)

theorem trans (h : s.Ready sink) {text more : String} (hr : s.Received sink text t)
    (hr' : t.Received sink more u) :
    s.Received sink (text ++ more) u := by
  obtain ⟨later, hlater, hagree'⟩ := hr'.pieces
  obtain ⟨pieces, hjoin, _, hagree⟩ := hr.appendAll_after h later
  refine ⟨Nat.le_trans hr.buffers hr'.buffers, Nat.le_trans hr.stages hr'.stages,
    pieces ++ later, ?_, ?_⟩
  · rw [String.join_append, hjoin, hlater]
  · have hfirst := hagree'.trim s.buffers.size
    rw [trim_trim hr.buffers, trim_trim hr.buffers] at hfirst
    exact (hfirst.mono hr.stages).trans hagree

end Received

/-! ## Buffers -/

theorem newBuffer_ready (s : Streams) : s.newBuffer.2.Ready (.buffer s.newBuffer.1) :=
  ⟨trivial, fun texts => by rw [appendAll_buffer]⟩

/-- A new buffer holds what it has received, and no other sink has received anything. -/
theorem Received.newBuffer (sink : Sink) {text : String}
    (h : s.newBuffer.2.Received (.buffer s.newBuffer.1) text t) :
    t.bufferText s.newBuffer.1 = text ∧ s.Received sink "" t := by
  obtain ⟨hbuffers, hstages, pieces, hjoin, hagree⟩ := h
  rw [appendAll_buffer, hjoin] at hagree
  have hsize : s.newBuffer.2.buffers.size = s.buffers.size + 1 := Array.size_push ..
  rw [hsize] at hbuffers hagree
  constructor
  · have hat : (t.buffers.extract 0 (s.buffers.size + 1))[s.buffers.size]? =
        (((s.buffers.push "").modify s.buffers.size (· ++ text)).extract 0
            (s.buffers.size + 1))[s.buffers.size]? :=
      congrArg (·[s.buffers.size]?) hagree.buffers
    simp only [Array.getElem?_extract, Array.getElem?_modify, Array.size_modify, Array.size_push,
      Nat.sub_zero, Nat.zero_add, Nat.min_self, Nat.min_eq_left hbuffers, Nat.lt_succ_self, if_true,
      Array.getElem?_push_size,
      Option.map_some, String.empty_append] at hat
    simp only [bufferText, Streams.newBuffer, hat, Option.getD_some]
  · refine ⟨Nat.le_of_succ_le hbuffers, hstages, [], rfl, ?_⟩
    have hold := hagree.trim s.buffers.size
    rw [trim_trim (Nat.le_succ _), trim_trim (Nat.le_succ _)] at hold
    refine hold.trans ⟨rfl, ?_, fun _ _ => rfl⟩
    apply Array.ext_getElem?
    intro i
    simp only [trim, appendAll, Streams.newBuffer, Array.getElem?_extract, Array.getElem?_modify,
      Array.getElem?_push, Array.size_modify, Array.size_push]
    by_cases hi : i < s.buffers.size
    · simp [hi, Nat.ne_of_gt hi, Nat.ne_of_lt hi]
    · simp [hi]

/-! ## Stages -/

/-- What goes into stages comes out behind them when they are closed. -/
theorem Ready.wrap (h : s.Ready sink) {stages : List Stage}
    (hstages : ∀ stage ∈ stages, stage ≠ .lower) :
    (s.wrap stages sink).2.Ready (s.wrap stages sink).1 ∧
      ∀ {text : String} {t : Streams},
    (s.wrap stages sink).2.Received (s.wrap stages sink).1 text t →
    ∃ u, t.closeAll ((s.wrap stages sink).1.stages stages.length) = (.ok (), u) ∧
    s.Received sink (stages.foldl (fun text stage => stage.change text) text) u := by
  obtain ⟨hbelow, hsize, _⟩ := wrap_below h.below stages
  have hbuffers : (s.wrap stages sink).2.buffers.size = s.buffers.size := by rw [wrap_buffers]
  have hpass (texts : List String) :=
    pass stages h.below texts (h.appendAll (Stage.piecesAll stages texts))
  refine ⟨⟨hbelow, fun texts => ?_⟩, fun {text t} hr => ?_⟩
  · obtain ⟨filled, _, hfilled, _, _⟩ := hpass texts
    rw [hfilled]
  · obtain ⟨pieces, hjoin, hagree⟩ := hr.pieces
    obtain ⟨filled, closed, hfilled, hclosed, hthrough⟩ := hpass pieces
    rw [hfilled, hbuffers] at hagree
    obtain ⟨hresult, hend⟩ := hagree.closeAll hbelow stages.length
    rw [closeAll_trim, closeAll_trim, hclosed] at hresult hend
    obtain ⟨htbuffers, htstages⟩ := closeAll_sizes t ((s.wrap stages sink).1.stages stages.length)
    refine ⟨(t.closeAll ((s.wrap stages sink).1.stages stages.length)).2, Prod.ext hresult rfl, ?_,
      ?_, Stage.piecesAll stages pieces, ?_, ?_⟩
    · rw [htbuffers, ← hbuffers]
      exact hr.buffers
    · rw [htstages]
      exact Nat.le_trans hsize hr.stages
    · rw [Stage.join_piecesAll hstages, hjoin]
    · exact (hend.mono hsize).trans (hthrough.trim _)

end Streams

end Interlude
