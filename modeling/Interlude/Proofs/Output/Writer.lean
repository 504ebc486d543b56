import Mathlib
import Interlude.Proofs.Output
import Interlude.Proofs.Text.Pieces
/-!
# Sinks over writers that may fail

A sink on a writer is intact until the writer first refuses something, and broken from then on. An
intact sink has written or still holds all that was put into it, in order and once; a broken one
takes nothing more. So what the writer has taken, a part of the text that it refused included, is at
every moment the beginning of what was put in (`play_faithful`).
-/

namespace Interlude

/-! ## Refusals -/

namespace Writer

/-- Nothing was refused so far. -/
structure Unrefused (w : Writer) : Prop where
  writes : ∀ n, 0 < n → n ≤ w.attempts → w.refuses n = none
  flushes : ∀ n, 0 < n → n ≤ w.flushes → w.refusesFlush n = none

/-- The last write was refused, and nothing before it. -/
structure WriteRefused (w : Writer) (e : Failure) : Prop where
  last : w.refuses w.attempts = some e
  attempted : 0 < w.attempts
  writes : ∀ n, 0 < n → n < w.attempts → w.refuses n = none
  flushes : ∀ n, 0 < n → n ≤ w.flushes → w.refusesFlush n = none

/-- The last flush was refused, and nothing before it. -/
structure FlushRefused (w : Writer) (e : Failure) : Prop where
  last : w.refusesFlush w.flushes = some e
  attempted : 0 < w.flushes
  writes : ∀ n, 0 < n → n ≤ w.attempts → w.refuses n = none
  flushes : ∀ n, 0 < n → n < w.flushes → w.refusesFlush n = none

/-- What the writer first refused it refused last, with a failure. -/
def FirstRefusal (w : Writer) (e : Failure) : Prop := w.WriteRefused e ∨ w.FlushRefused e

theorem FirstRefusal.not_unrefused {w : Writer} {e : Failure} (h : w.FirstRefusal e) :
    ¬w.Unrefused := by
  intro hu
  rcases h with h | h
  · exact absurd (h.last.symm.trans (hu.writes _ h.attempted (Nat.le_refl _))) nofun
  · exact absurd (h.last.symm.trans (hu.flushes _ h.attempted (Nat.le_refl _))) nofun

/-- The texts that were written, in order. -/
def written (w : Writer) : String := String.join w.writes.toList

/-- A write is taken as a whole, or it is the first that is refused. -/
theorem Unrefused.write {w : Writer} (h : w.Unrefused) (s : String) :
    (∃ w', w.write s = (.ok (), w') ∧ w'.Unrefused ∧ w'.written = w.written ++ s ∧
      w'.refused = w.refused) ∨ ∃ e w', w.write s = (.error e, w') ∧ w'.WriteRefused e ∧
    w'.written = w.written ∧ w'.refused = s := by
  cases hr : w.refuses (w.attempts + 1) with
  | none =>
    refine .inl ⟨{ w with attempts := w.attempts + 1, writes := w.writes.push s },
      by simp only [Writer.write, hr], ⟨fun n hn hle => ?_, h.flushes⟩, by simp [written], rfl⟩
    rcases Nat.lt_or_eq_of_le hle with hlt | rfl
    · exact h.writes n hn (Nat.le_of_lt_succ hlt)
    · exact hr
  | some e =>
    refine .inr ⟨e, { w with attempts := w.attempts + 1, refused := s },
      by simp only [Writer.write, hr], ⟨hr, Nat.succ_pos _, fun n hn hlt => ?_, h.flushes⟩, rfl,
      rfl⟩
    exact h.writes n hn (Nat.le_of_lt_succ hlt)

theorem Unrefused.flush {w : Writer} (h : w.Unrefused) :
    (∃ w', w.flush = (.ok (), w') ∧ w'.Unrefused ∧ w'.written = w.written ∧
      w'.refused = w.refused) ∨ ∃ e w', w.flush = (.error e, w') ∧ w'.FlushRefused e ∧
    w'.written = w.written ∧ w'.refused = w.refused := by
  cases hr : w.refusesFlush (w.flushes + 1) with
  | none =>
    refine .inl ⟨{ w with flushes := w.flushes + 1, pushed := w.pushed || !w.writes.isEmpty },
      by simp only [Writer.flush, hr], ⟨h.writes, fun n hn hle => ?_⟩, rfl, rfl⟩
    rcases Nat.lt_or_eq_of_le hle with hlt | rfl
    · exact h.flushes n hn (Nat.le_of_lt_succ hlt)
    · exact hr
  | some e =>
    refine .inr ⟨e, { w with flushes := w.flushes + 1 }, by simp only [Writer.flush, hr],
      ⟨hr, Nat.succ_pos _, h.writes, fun n hn hlt => ?_⟩, rfl, rfl⟩
    exact h.flushes n hn (Nat.le_of_lt_succ hlt)

end Writer

/-! ## Calls -/

namespace WriterSink

/-- What is done with a sink. -/
inductive Call where
  | append (text : String)
  | flush

def Call.text : Call → String
  | append text => text
  | flush => ""

def act (s : WriterSink) : Call → WriterSink
  | .append text => s.append text
  | .flush => s.flush

def play (s : WriterSink) (calls : List Call) : WriterSink := calls.foldl act s

/-- All that calls put into a sink. -/
def appended (calls : List Call) : String := String.join (calls.map Call.text)

/-- Nothing was refused, and all of the text was written or waits. -/
structure Intact (text : String) (s : WriterSink) : Prop where
  failed : s.failed = none
  writer : s.writer.Unrefused
  refused : s.writer.refused = ""
  output : s.writer.written ++ s.buffered = text

/-- The writer refused something, and that is what every call is told. What was written, and what
was refused, is the beginning of the text. -/
structure Broken (text : String) (e : Failure) (s : WriterSink) : Prop where
  failed : s.failed = some e
  writer : s.writer.FirstRefusal e
  buffered : s.buffered = ""
  taken : ∃ rest, s.writer.written ++ s.writer.refused ++ rest = text

/-- A sink into which the text was put. -/
def Sound (text : String) (s : WriterSink) : Prop := s.Intact text ∨ ∃ e, s.Broken text e

variable {s : WriterSink} {text : String}

theorem Broken.act {e : Failure} (h : s.Broken text e) (c : Call) : s.act c = s := by
  cases c <;> simp [WriterSink.act, append, flush, h.failed]

theorem Broken.more {e : Failure} (h : s.Broken text e) (more : String) :
    s.Broken (text ++ more) e := by
  obtain ⟨rest, hrest⟩ := h.taken
  exact { h with taken := ⟨rest ++ more, by rw [← String.append_assoc, hrest]⟩ }

theorem Intact.more (h : s.Intact text) (more : String) :
    ({ s with buffered := s.buffered ++ more } : WriterSink).Intact (text ++ more) :=
  ⟨h.failed, h.writer, h.refused, by rw [← String.append_assoc, h.output]⟩

/-- What waits is written as a whole, or the sink breaks. -/
theorem Intact.writeThrough (h : s.Intact text) : s.writeThrough.buffered = "" ∧
    s.writeThrough.Sound text := by
  unfold WriterSink.writeThrough
  split
  · next hempty => exact ⟨String.isEmpty_iff.1 hempty, .inl h⟩
  · rcases h.writer.write s.buffered with ⟨w, hw, hunrefused, hwritten, hrefused⟩
      | ⟨e, w, hw, href, hwritten, hrefused⟩
    · rw [hw]
      refine ⟨rfl, .inl ⟨h.failed, hunrefused, hrefused.trans h.refused, ?_⟩⟩
      rw [hwritten, String.append_empty, h.output]
    · rw [hw]
      refine ⟨rfl, .inr ⟨e, rfl, .inl href, rfl, "", ?_⟩⟩
      rw [hwritten, hrefused, String.append_empty, h.output]

theorem Sound.append (h : s.Sound text) (more : String) : (s.append more).Sound (text ++ more) := by
  rcases h with h | ⟨e, h⟩
  · unfold WriterSink.append
    rw [if_neg (by simp [h.failed])]
    simp only
    split
    · exact (h.more more).writeThrough.2
    · exact .inl (h.more more)
  · rw [show s.append more = s from h.act (.append more)]
    exact .inr ⟨e, h.more more⟩

theorem Sound.flush (h : s.Sound text) : s.flush.buffered = "" ∧ s.flush.Sound text := by
  rcases h with h | ⟨e, h⟩
  · obtain ⟨hbuffered, hsound⟩ := h.writeThrough
    unfold WriterSink.flush
    rw [if_neg (by simp [h.failed])]
    simp only
    rcases hsound with h | ⟨e, h⟩
    · rw [if_neg (by simp [h.failed])]
      have hwritten := h.output
      rcases h.writer.flush with ⟨w, hw, hunrefused, hsame, hrefused⟩
        | ⟨e, w, hw, href, hsame, hrefused⟩
      · rw [hw]
        exact ⟨hbuffered, .inl ⟨h.failed, hunrefused, hrefused.trans h.refused,
          by rw [hsame, hwritten]⟩⟩
      · rw [hw]
        refine ⟨hbuffered, .inr ⟨e, rfl, .inr href, hbuffered, "", ?_⟩⟩
        rw [hbuffered, String.append_empty] at hwritten
        rw [hsame, hrefused, h.refused, hwritten, String.append_empty, String.append_empty]
    · rw [if_pos (by simp [h.failed])]
      exact ⟨hbuffered, .inr ⟨e, h⟩⟩
  · rw [show s.flush = s from h.act .flush]
    exact ⟨h.buffered, .inr ⟨e, h⟩⟩

theorem Sound.act (h : s.Sound text) (c : Call) : (s.act c).Sound (text ++ c.text) := by
  cases c with
  | append more => exact h.append more
  | flush =>
    rw [Call.text, String.append_empty]
    exact h.flush.2

theorem Sound.play (h : s.Sound text) (calls : List Call) :
    (s.play calls).Sound (text ++ appended calls) := by
  induction calls generalizing s text with
  | nil =>
    rw [show appended [] = "" from rfl, String.append_empty]
    exact h
  | cons c rest ih =>
    rw [show appended (c :: rest) = c.text ++
      appended rest by simp [appended], ← String.append_assoc]
    exact ih (h.act c)

theorem Broken.play {e : Failure} (h : s.Broken text e) (calls : List Call) : s.play calls = s := by
  induction calls with
  | nil => rfl
  | cons c rest ih => rw [WriterSink.play, List.foldl_cons, h.act c]; exact ih

/-! ## Limits -/

theorem limit_play (s : WriterSink) (calls : List Call) : (s.play calls).limit = s.limit := by
  induction calls generalizing s with
  | nil => rfl
  | cons c rest ih =>
    refine (ih (s.act c)).trans ?_
    cases c with
    | append text => exact limit_append s text
    | flush => exact limit_flush s

/-- With a limit, putting text in does not write. -/
theorem writer_append (hlimit : 0 < s.limit) (more : String) :
    (s.append more).writer = s.writer := by
  unfold append
  split
  · rfl
  · rw [if_neg (by simp [Int.not_le.2 hlimit])]

/-- Without a limit, less than a chunk waits after text was put in. -/
theorem Sound.buffered_lt (h : s.Sound text) (hlimit : s.limit ≤ 0) (more : String) :
    Text.byteLength (s.append more).buffered < chunkSize := by
  rcases h with h | ⟨e, h⟩
  · unfold WriterSink.append
    rw [if_neg (by simp [h.failed])]
    simp only
    split
    · rw [(h.more more).writeThrough.1]
      decide
    · next hsmall =>
      simp only [hlimit, decide_true, Bool.true_and, decide_eq_true_eq] at hsmall
      exact Nat.lt_of_not_le hsmall
  · rw [show s.append more = s from h.act (.append more), h.buffered]
    decide

/-! ## All histories -/

/-- A new sink with a limit, on a writer with refusals of its own. -/
def openOn (limit : Int) (refuses refusesFlush : Nat → Option Failure) : WriterSink :=
  { limit, writer := { refuses, refusesFlush } }

theorem openOn_sound (limit : Int) (refuses refusesFlush : Nat → Option Failure) :
    (openOn limit refuses refusesFlush).Sound "" := by
  refine .inl ⟨rfl, ⟨fun n hn hle => ?_, fun n hn hle => ?_⟩, rfl, rfl⟩
  · exact absurd (Nat.lt_of_lt_of_le hn hle) (Nat.lt_irrefl 0)
  · exact absurd (Nat.lt_of_lt_of_le hn hle) (Nat.lt_irrefl 0)

/-- A part of what is refused keeps what the writer has taken a beginning of the text, byte by
byte. -/
theorem Sound.taken (h : s.Sound text) {part : List Nat}
    (hpart : part <+: Text.bytes s.writer.refused) :
    Text.bytes s.writer.written ++ part <+: Text.bytes text := by
  have hrest : ∃ rest, s.writer.written ++ s.writer.refused ++ rest = text := by
    rcases h with h | ⟨e, h⟩
    · exact ⟨s.buffered, by rw [h.refused, String.append_empty, h.output]⟩
    · exact h.taken
  obtain ⟨rest, rfl⟩ := hrest
  rw [Text.bytes_append, Text.bytes_append]
  exact ((List.prefix_append_right_inj _).2 hpart).trans (List.prefix_append _ _)

/-- **A sink on a writer neither loses nor repeats nor reorders text.** After any calls on a new
sink, whatever its writer refuses: as long as nothing was refused, what was written and what waits
are together what was put in, and calls succeed; the sink asks for a pause exactly when it has a
limit and that many bytes wait; with a limit only a flush writes, without one less than a chunk
waits after text was put in; and after a flush nothing waits. Once something was refused, all calls
are told the failure of the first refusal, and change nothing. What the writer has taken, with any
part of the text it refused, is the beginning of what was put in. -/
theorem play_faithful (limit : Int) (refuses refusesFlush : Nat → Option Failure)
    (calls : List Call) :
    let s := (openOn limit refuses refusesFlush).play calls
    (s.writer.Unrefused → s.writer.written ++ s.buffered = appended calls ∧ s.outcome = .ok ()) ∧
    (s.isLimited = true ↔ 0 < limit ∧ limit ≤ Text.byteLength s.buffered) ∧
    (0 < limit → ∀ text, (s.append text).writer = s.writer) ∧
    (limit ≤ 0 → ∀ text, Text.byteLength (s.append text).buffered < 4096) ∧
    s.flush.buffered = "" ∧
    (¬s.writer.Unrefused → ∃ e, s.writer.FirstRefusal e ∧
      ∀ more, s.play more = s ∧ (s.play more).outcome = .error e) ∧
    ∀ part, part <+: Text.bytes s.writer.refused →
      Text.bytes s.writer.written ++ part <+: Text.bytes (appended calls) := by
  intro s
  have hlimit : s.limit = limit := limit_play _ calls
  have hs : s.Sound (appended calls) := by
    have := (openOn_sound limit refuses refusesFlush).play calls
    rwa [String.empty_append] at this
  refine ⟨fun hu => ?_, ?_, ?_, ?_, hs.flush.1, fun hn => ?_, fun part => hs.taken⟩
  · rcases hs with h | ⟨e, h⟩
    · exact ⟨h.output, by rw [outcome, h.failed]⟩
    · exact absurd hu h.writer.not_unrefused
  · simp only [isLimited, hlimit, Bool.and_eq_true, decide_eq_true_eq]
  · intro hpos text
    exact writer_append (hlimit ▸ hpos) text
  · intro hle text
    exact hs.buffered_lt (hlimit ▸ hle) text
  · rcases hs with h | ⟨e, h⟩
    · exact absurd h.writer hn
    · refine ⟨e, h.writer, fun more => ⟨h.play more, ?_⟩⟩
      rw [h.play more, outcome, h.failed]

end WriterSink

namespace Sample

/-- Refuses the second time. -/
def refusesSecond (n : Nat) : Option Failure := if n = 2 then some (.plain "write failed") else none

/-- A sink whose second flush fails to write. -/
def interrupted : WriterSink :=
  (WriterSink.openOn 3 refusesSecond fun _ => none).play [.append "ab", .append "c", .flush,
    .append "de", .flush]

/-- The first three letters are written and the others are refused; a writer that kept one of them
has kept the next. -/
theorem interrupted_faithful : interrupted.writer.written = "abc" ∧
    interrupted.writer.refused = "de" ∧ Text.bytes "abc" ++ Text.bytes "d" <+: Text.bytes "abcde" ∧
    ∀ more, interrupted.play more = interrupted ∧
    (interrupted.play more).outcome = .error (.plain "write failed") := by
  have hwritten : interrupted.writer.written = "abc" := by cbv
  have hrefused : interrupted.writer.refused = "de" := by cbv
  obtain ⟨-, -, -, -, -, hbroken, htaken⟩ :=
    WriterSink.play_faithful 3 refusesSecond (fun _ => none) [.append "ab", .append "c", .flush,
      .append "de", .flush]
  have hnot : ¬interrupted.writer.Unrefused := fun h => by
    have := h.writes 2 (by decide) (by decide)
    cases this
  obtain ⟨e, hfirst, hmore⟩ := hbroken hnot
  have he : e = .plain "write failed" := by
    rcases hfirst with h | h
    · have hlast : refusesSecond 2 = some e := h.last
      cases hlast
      rfl
    · cases h.last
  subst he
  have hd : Text.bytes "d" <+: Text.bytes interrupted.writer.refused := by
    rw [hrefused, show "de" = "d" ++ "e" from rfl, Text.bytes_append]
    exact List.prefix_append _ _
  have hpart : Text.bytes interrupted.writer.written ++ Text.bytes "d" <+: Text.bytes "abcde" :=
    htaken _ hd
  rw [hwritten] at hpart
  exact ⟨hwritten, hrefused, hpart, hmore⟩

end Sample

end Interlude
