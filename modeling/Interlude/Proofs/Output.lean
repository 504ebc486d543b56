import Interlude.Render.Store
/-!
# Output

All that was ever put into an outlet, however much of it still waits in a buffer. As long as nothing
refuses output, putting text into a sink adds to it and flushing does not change it
(`Streams.Grows`); a sink that asks for a pause gets the same output as one that does not.
-/

namespace Interlude

namespace Writer

/-- A writer that refuses nothing. -/
structure Sturdy (w : Writer) : Prop where
  writes : ∀ n, w.refuses n = none
  flushes : ∀ n, w.refusesFlush n = none

theorem Sturdy.write {w : Writer} (h : w.Sturdy) (s : String) :
    w.write s = (.ok (), { w with attempts := w.attempts + 1, writes := w.writes.push s }) := by
  simp only [Writer.write, h.writes]

theorem Sturdy.flush {w : Writer} (h : w.Sturdy) :
    w.flush = (.ok (), { w with flushes := w.flushes + 1,
                                pushed := w.pushed || !w.writes.isEmpty }) := by
  simp only [Writer.flush, h.flushes]

end Writer

namespace WriterSink

/-- All that was put into the sink. -/
def output (s : WriterSink) : String := String.join s.writer.writes.toList ++ s.buffered

/-- A sink whose writer refuses nothing, and never has. -/
structure Sturdy (s : WriterSink) : Prop where
  failed : s.failed = none
  writer : s.writer.Sturdy

/-- Writing what waits moves it from the buffer to the writer. -/
theorem writeThrough_sturdy {s : WriterSink} (h : s.Sturdy) :
    s.writeThrough.Sturdy ∧ s.writeThrough.output = s.output ∧ s.writeThrough.buffered = "" ∧
      s.writeThrough.limit = s.limit := by
  unfold writeThrough
  split
  · next he =>
    exact ⟨h, rfl, String.isEmpty_iff.1 he, rfl⟩
  · rw [h.writer.write]
    refine ⟨⟨h.failed, h.writer.writes, h.writer.flushes⟩, ?_, rfl, rfl⟩
    simp [output]

theorem append_sturdy {s : WriterSink} (h : s.Sturdy) (text : String) :
    (s.append text).Sturdy ∧ (s.append text).output = s.output ++ text ∧
    (s.append text).limit = s.limit := by
  have hs : ({ s with buffered := s.buffered ++ text } : WriterSink).Sturdy := ⟨h.failed, h.writer⟩
  have ho : ({ s with buffered := s.buffered ++ text } : WriterSink).output = s.output ++ text := by
    simp [output, String.append_assoc]
  unfold append
  rw [if_neg (by simp [h.failed])]
  simp only
  split
  · obtain ⟨hw, hout, _, hlimit⟩ := writeThrough_sturdy hs
    exact ⟨hw, hout.trans ho, hlimit⟩
  · exact ⟨hs, ho, rfl⟩

/-- After a flush nothing waits. -/
theorem flush_sturdy {s : WriterSink} (h : s.Sturdy) :
    s.flush.Sturdy ∧ s.flush.output = s.output ∧ s.flush.buffered = "" ∧
    s.flush.limit = s.limit := by
  obtain ⟨hw, hout, hbuf, hlimit⟩ := writeThrough_sturdy h
  unfold flush
  rw [if_neg (by simp [h.failed])]
  simp only
  rw [if_neg (by simp [hw.failed]), hw.writer.flush]
  exact ⟨⟨hw.failed, hw.writer.writes, hw.writer.flushes⟩, hout, hbuf, hlimit⟩

theorem outcome_sturdy {s : WriterSink} (h : s.Sturdy) : s.outcome = .ok () := by
  unfold outcome
  rw [h.failed]

theorem limit_writeThrough (s : WriterSink) : s.writeThrough.limit = s.limit := by
  unfold writeThrough
  split
  · rfl
  · split <;> rfl

theorem limit_append (s : WriterSink) (text : String) : (s.append text).limit = s.limit := by
  unfold append
  split
  · rfl
  · simp only
    split
    · exact limit_writeThrough _
    · rfl

theorem limit_flush (s : WriterSink) : s.flush.limit = s.limit := by
  unfold flush
  split
  · rfl
  · simp only
    split
    · exact limit_writeThrough s
    · split <;> exact limit_writeThrough s

end WriterSink

namespace Outlet

/-- All that was put into an outlet. -/
def output (o : Outlet) : String :=
  match o.base with
  | .buffer text => text
  | .writer w => w.output
  | .direct w => String.join w.writes.toList

/-- An outlet that refuses nothing. -/
def Sturdy (o : Outlet) : Prop :=
  match o.base with
  | .buffer _ => True
  | .writer w => w.Sturdy
  | .direct w => w.Sturdy

/-- An outlet that never asks for a pause. -/
structure Unlimited (o : Outlet) : Prop where
  gate : o.gate = none
  limit : ∀ w, o.base = .writer w → w.limit ≤ 0

theorem append_sturdy {o : Outlet} (h : o.Sturdy) (text : String) :
    (o.append text).1 = .ok () ∧ (o.append text).2.Sturdy ∧
    (o.append text).2.output = o.output ++ text := by
  obtain ⟨base, gate, asked⟩ := o
  cases base with
  | buffer held => exact ⟨rfl, trivial, rfl⟩
  | writer w =>
    obtain ⟨hw, hout, _⟩ := WriterSink.append_sturdy (s := w) h text
    exact ⟨WriterSink.outcome_sturdy hw, hw, hout⟩
  | direct w =>
    have hw : w.Sturdy := h
    unfold append
    simp only [hw.write]
    refine ⟨trivial, ⟨hw.writes, hw.flushes⟩, ?_⟩
    simp [output]

theorem append_unlimited {o : Outlet} (h : o.Sturdy) (hu : o.Unlimited) (text : String) :
    (o.append text).2.Unlimited := by
  obtain ⟨base, gate, asked⟩ := o
  obtain ⟨hgate, hlimit⟩ := hu
  cases base with
  | buffer held => exact ⟨hgate, fun w hw => by cases hw⟩
  | writer w =>
    refine ⟨hgate, fun w' hw' => ?_⟩
    cases hw'
    rw [(WriterSink.append_sturdy (s := w) h text).2.2]
    exact hlimit w rfl
  | direct w => exact ⟨hgate, fun w' hw' => by cases hw'⟩

theorem flush_sturdy {o : Outlet} (h : o.Sturdy) :
    o.flush.1 = .ok () ∧ o.flush.2.Sturdy ∧ o.flush.2.output = o.output := by
  obtain ⟨base, gate, asked⟩ := o
  cases base with
  | buffer held => exact ⟨rfl, trivial, rfl⟩
  | writer w =>
    obtain ⟨hw, hout, _⟩ := WriterSink.flush_sturdy (s := w) h
    exact ⟨WriterSink.outcome_sturdy hw, hw, hout⟩
  | direct w => exact ⟨rfl, h, rfl⟩

theorem flush_unlimited {o : Outlet} (hu : o.Unlimited) : o.flush.2.Unlimited := by
  obtain ⟨base, gate, asked⟩ := o
  obtain ⟨hgate, hlimit⟩ := hu
  cases base with
  | writer w =>
    refine ⟨hgate, fun w' hw' => ?_⟩
    cases hw'
    rw [WriterSink.limit_flush]
    exact hlimit w rfl
  | _ => exact ⟨hgate, fun w hw => by cases hw⟩

theorem isLimited_base (o : Outlet) : o.isLimited.2.base = o.base := by
  unfold isLimited
  simp only
  split <;> rfl

theorem isLimited_sturdy {o : Outlet} (h : o.Sturdy) : o.isLimited.2.Sturdy ∧
    o.isLimited.2.output = o.output := by
  unfold Sturdy output
  rw [isLimited_base]
  exact ⟨h, rfl⟩

theorem isLimited_unlimited {o : Outlet} (h : o.Unlimited) : o.isLimited = (false, o) := by
  obtain ⟨base, gate, asked⟩ := o
  obtain ⟨rfl, hlimit⟩ := h
  cases base with
  | writer w =>
    have hw := hlimit w rfl
    simp [isLimited, WriterSink.isLimited, Int.not_lt.2 hw]
  | _ => rfl

end Outlet

/-! ## Streams with the same output -/

/-- Streams of which the second never asks for a pause, and in which all else is the same. -/
structure Streams.Alike (s t : Streams) : Prop where
  sturdy : s.outlet.Sturdy
  sturdy' : t.outlet.Sturdy
  unlimited : t.outlet.Unlimited
  output : s.outlet.output = t.outlet.output
  buffers : s.buffers = t.buffers
  stages : s.stages = t.stages

namespace Streams.Alike

variable {s t : Streams}

theorem setStage (h : s.Alike t) (id : StageId) (st : StageState) :
    (s.setStage id st).Alike (t.setStage id st) :=
  { h with stages := by simp only [Streams.setStage, h.stages] }

theorem append (h : s.Alike t) (sink : Sink) (text : String) :
    (s.append sink text).1 = (t.append sink text).1 ∧
    (s.append sink text).2.Alike (t.append sink text).2 := by
  induction sink generalizing s t text with
  | root =>
    obtain ⟨hok, hs, hout⟩ := Outlet.append_sturdy h.sturdy text
    obtain ⟨hok', ht, hout'⟩ := Outlet.append_sturdy h.sturdy' text
    exact ⟨hok.trans hok'.symm, hs, ht, Outlet.append_unlimited h.sturdy' h.unlimited text,
      hout.trans (by rw [h.output]; exact hout'.symm), h.buffers, h.stages⟩
  | buffer id => exact ⟨rfl, { h with buffers := by simp only [Streams.append, h.buffers] }⟩
  | through id stage next ih =>
    cases stage with
    | lineBreaks =>
      unfold Streams.append
      split
      · exact ⟨rfl, h⟩
      · rw [h.stages]
        exact ih (h.setStage id _) _
    | _ =>
      unfold Streams.append
      rw [h.stages]
      split
      · exact ⟨rfl, h⟩
      · exact ih h _

theorem closeStage (h : s.Alike t) (id : StageId) (stage : Stage) (next : Sink) :
    (s.closeStage id stage next).1 = (t.closeStage id stage next).1 ∧
      (s.closeStage id stage next).2.Alike (t.closeStage id stage next).2 := by
  unfold Streams.closeStage
  cases stage with
  | lineBreaks =>
    simp only [h.stages]
    split
    · exact (h.setStage id {}).append next "<br>"
    · exact ⟨rfl, h⟩
  | _ => exact ⟨rfl, h.setStage id _⟩

theorem closeAll (h : s.Alike t) (stages : List (StageId × Stage × Sink)) :
    (s.closeAll stages).1 = (t.closeAll stages).1 ∧
    (s.closeAll stages).2.Alike (t.closeAll stages).2 := by
  induction stages generalizing s t with
  | nil => exact ⟨rfl, h⟩
  | cons x rest ih =>
    obtain ⟨id, stage, next⟩ := x
    obtain ⟨hfirst, h'⟩ := h.closeStage id stage next
    obtain ⟨hlater, h''⟩ := ih h'
    unfold Streams.closeAll
    simp only [hfirst, hlater]
    exact ⟨trivial, h''⟩

theorem wrap (h : s.Alike t) (stages : List Stage) (out : Sink) :
    (s.wrap stages out).1 = (t.wrap stages out).1 ∧
    (s.wrap stages out).2.Alike (t.wrap stages out).2 := by
  induction stages with
  | nil => exact ⟨rfl, h⟩
  | cons stage rest ih =>
    obtain ⟨hnext, h'⟩ := ih
    unfold Streams.wrap
    simp only [hnext, h'.stages]
    exact ⟨trivial, { h' with stages := rfl }⟩

theorem newBuffer (h : s.Alike t) : s.newBuffer.1 = t.newBuffer.1 ∧
    s.newBuffer.2.Alike t.newBuffer.2 :=
  ⟨by simp only [Streams.newBuffer, h.buffers],
    { h with buffers := by simp only [Streams.newBuffer, h.buffers] }⟩

theorem bufferText (h : s.Alike t) (id : BufferId) : s.bufferText id = t.bufferText id := by
  simp only [Streams.bufferText, h.buffers]

/-- The first asks whether to pause. -/
theorem isLimited (h : s.Alike t) (sink : Sink) : (s.isLimited sink).2.Alike t := by
  induction sink with
  | root =>
    obtain ⟨hs, hout⟩ := Outlet.isLimited_sturdy h.sturdy
    exact { h with sturdy := hs, output := hout.trans h.output }
  | buffer id => exact h
  | through id stage next ih => exact ih

/-- The second is never told to pause. -/
theorem isLimited' (h : s.Alike t) (sink : Sink) : t.isLimited sink = (false, t) := by
  induction sink with
  | root => simp only [Streams.isLimited, Outlet.isLimited_unlimited h.unlimited]
  | buffer id => rfl
  | through id stage next ih => exact ih

theorem flush (h : s.Alike t) (sink : Sink) : (s.flush sink).1 = .ok () ∧
    (s.flush sink).2.Alike t := by
  induction sink with
  | root =>
    obtain ⟨hok, hs, hout⟩ := Outlet.flush_sturdy h.sturdy
    exact ⟨hok, { h with sturdy := hs, output := hout.trans h.output }⟩
  | buffer id => exact ⟨rfl, h⟩
  | through id stage next ih => exact ih

/-- A flush of the second pushes out nothing new either. -/
theorem flush' (h : s.Alike t) (sink : Sink) : (t.flush sink).1 = .ok () ∧
    s.Alike (t.flush sink).2 := by
  induction sink with
  | root =>
    obtain ⟨hok, ht, hout⟩ := Outlet.flush_sturdy h.sturdy'
    exact ⟨hok, { h with
      sturdy' := ht
      unlimited := Outlet.flush_unlimited h.unlimited
      output := h.output.trans hout.symm }⟩
  | buffer id => exact ⟨rfl, h⟩
  | through id stage next ih => exact ih

end Streams.Alike

/-! ## Output only grows -/

/-- The second streams hold what the first hold, and perhaps more, unless output was refused. -/
def Streams.Grows (s t : Streams) : Prop :=
  s.outlet.Sturdy → t.outlet.Sturdy ∧ ∃ text, t.outlet.output = s.outlet.output ++ text

namespace Streams.Grows

theorem of_output {s t : Streams}
    (h : s.outlet.Sturdy → t.outlet.Sturdy ∧ t.outlet.output = s.outlet.output) :
    s.Grows t := fun hs => ⟨(h hs).1, "", by rw [(h hs).2, String.append_empty]⟩

theorem of_outlet {s t : Streams} (h : t.outlet = s.outlet) : s.Grows t :=
  of_output fun hs => ⟨by rw [h]; exact hs, by rw [h]⟩

theorem trans {s t u : Streams} (h : s.Grows t) (h' : t.Grows u) : s.Grows u := by
  intro hs
  obtain ⟨ht, text, htext⟩ := h hs
  obtain ⟨hu, more, hmore⟩ := h' ht
  exact ⟨hu, text ++ more, by rw [hmore, htext, String.append_assoc]⟩

theorem append (s : Streams) (sink : Sink) (text : String) : s.Grows (s.append sink text).2 := by
  induction sink generalizing s text with
  | root =>
    exact fun hs => ⟨(Outlet.append_sturdy hs text).2.1, text, (Outlet.append_sturdy hs text).2.2⟩
  | buffer id => exact of_outlet rfl
  | through id stage next ih =>
    cases stage with
    | lineBreaks =>
      unfold Streams.append
      split
      · exact of_outlet rfl
      · exact (of_outlet rfl : s.Grows (s.setStage id _)).trans (ih _ _)
    | _ =>
      unfold Streams.append
      split
      · exact of_outlet rfl
      · exact ih s _

theorem closeStage (s : Streams) (id : StageId) (stage : Stage) (next : Sink) :
    s.Grows (s.closeStage id stage next).2 := by
  unfold Streams.closeStage
  cases stage with
  | lineBreaks =>
    simp only
    split
    · exact (of_outlet rfl : s.Grows (s.setStage id {})).trans (append _ next _)
    · exact of_outlet rfl
  | _ => exact of_outlet rfl

theorem closeAll (s : Streams) (stages : List (StageId × Stage × Sink)) :
    s.Grows (s.closeAll stages).2 := by
  induction stages generalizing s with
  | nil => exact of_outlet rfl
  | cons x rest ih => exact (closeStage s x.1 x.2.1 x.2.2).trans (ih _)

theorem wrap (s : Streams) (stages : List Stage) (out : Sink) : s.Grows (s.wrap stages out).2 := by
  induction stages with
  | nil => exact of_outlet rfl
  | cons stage rest ih => exact ih.trans (of_outlet rfl)

theorem isLimited (s : Streams) (sink : Sink) : s.Grows (s.isLimited sink).2 := by
  induction sink with
  | root => exact of_output Outlet.isLimited_sturdy
  | buffer id => exact of_outlet rfl
  | through id stage next ih => exact ih

theorem flush (s : Streams) (sink : Sink) : s.Grows (s.flush sink).2 := by
  induction sink with
  | root => exact of_output fun hs => (Outlet.flush_sturdy hs).2
  | buffer id => exact of_outlet rfl
  | through id stage next ih => exact ih

end Streams.Grows

namespace Store

/-- The messages that templates have logged. -/
def messages (s : Store) : List Log.Entry := s.log.toList.filter (·.level = .info)

/-- All that was put into the outlet. -/
def output (s : Store) : String := s.streams.outlet.output

/-- A store in which more was put out or logged. -/
structure Grows (s t : Store) : Prop where
  streams : s.streams.Grows t.streams
  messages : ∃ more, t.messages = s.messages ++ more

theorem Grows.of_streams {s t : Store} (h : s.streams.Grows t.streams)
    (hl : t.log = s.log) : s.Grows t :=
  ⟨h, [], by rw [List.append_nil, Store.messages, Store.messages, hl]⟩

/-- Nothing but renders and values has changed. -/
theorem Grows.of_eq {s t : Store} (h : t.streams = s.streams) (hl : t.log = s.log) : s.Grows t :=
  .of_streams (.of_outlet (by rw [h])) hl

theorem Grows.refl (s : Store) : s.Grows s := .of_eq rfl rfl

theorem Grows.trans {s t u : Store} (h : s.Grows t) (h' : t.Grows u) : s.Grows u := by
  obtain ⟨more, hmore⟩ := h.messages
  obtain ⟨more', hmore'⟩ := h'.messages
  exact ⟨h.streams.trans h'.streams, more ++ more', by rw [hmore', hmore, List.append_assoc]⟩

theorem Grows.logged (s : Store) (e : Log.Entry) : s.Grows (s.logged e) := by
  refine ⟨.of_outlet rfl, [e].filter (·.level = .info), ?_⟩
  simp only [Store.messages, Store.logged, Array.toList_push, List.filter_append]

end Store

end Interlude
