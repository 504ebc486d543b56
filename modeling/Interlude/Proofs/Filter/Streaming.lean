import Interlude.Output.Stream
import Interlude.Proofs.Text.Pieces
/-!
# Output through stages

Filters have a pure form, for whole values, and most have a stage, for output on its way. Text that
passes the stages of filters in pieces, however it is cut, comes out as what the pure forms make of
the whole.

A stage is described by the pieces that it lets through, those that closing it lets go included
(`Stage.pieces`). Put together they are the change that the stage makes to the whole text
(`Stage.join_pieces`), and a sink behind stages receives exactly these pieces (`Streams.pass`).
-/

namespace Interlude

/-- The names of the stages of a sink are below `n`. -/
def Sink.Below (n : Nat) : Sink → Prop
  | root => True
  | buffer _ => True
  | through id _ next => id < n ∧ next.Below n

theorem Sink.Below.mono {n m : Nat} (h : n ≤ m) : ∀ {sink : Sink}, sink.Below n → sink.Below m
  | root, _ => trivial
  | buffer _, _ => trivial
  | through _ _ _, hs => ⟨Nat.lt_of_lt_of_le hs.1 h, Sink.Below.mono h hs.2⟩

/-! ## What a stage lets through -/

namespace Stage

/-- The pieces that a stage for line breaks lets through, and whether it withholds a carriage return
in the end; `held` says that it does at the beginning. -/
def unheld (held : Bool) : List String → List String × Bool
  | [] => ([], held)
  | text :: rest =>
    if text.isEmpty then unheld held rest
    else
      let text := if held then "\r" ++ text else text
      let holds := text.toList.getLast? == some '\r'
      let text := if holds then String.ofList text.toList.dropLast else text
      (Text.lineBreaks text :: (unheld holds rest).1, (unheld holds rest).2)

/-- The pieces that a stage makes of pieces, up to its end. -/
def pieces : Stage → List String → List String
  | lineBreaks, chunks =>
  (unheld false chunks).1 ++ if (unheld false chunks).2 then ["<br>"] else []
  | stage, chunks => chunks.map stage.change

/-- The pieces that stages make of pieces, one after the other. -/
def piecesAll : List Stage → List String → List String
  | [], chunks => chunks
  | stage :: rest, chunks => piecesAll rest (stage.pieces chunks)

/-- The text that is withheld. -/
def withheld (held : Bool) : String := if held then "\r" else ""

theorem lineBreaks_withheld (held : Bool) :
    Text.lineBreaks (withheld held) = String.join (if held then ["<br>"] else []) := by
  cases held <;> rfl

/-- What is let through and what is withheld make up the text. -/
theorem dropLast_withheld (text : String) :
    (if text.toList.getLast? == some '\r' then String.ofList text.toList.dropLast else text) ++
      withheld (text.toList.getLast? == some '\r') = text := by
  by_cases h : text.toList.getLast? = some '\r'
  · rw [beq_iff_eq.2 h, if_pos rfl]
    apply String.toList_injective
    rw [String.toList_append, String.toList_ofList]
    obtain ⟨init, hinit⟩ := List.getLast?_eq_some_iff.1 h
    rw [hinit, List.dropLast_concat]
    rfl
  · simp [h, withheld]

/-- What is let through never ends in the middle of a line break that the rest completes. -/
theorem lineBreaks_append_withheld (text rest : String) :
    let holds := text.toList.getLast? == some '\r'
    let body := if holds then String.ofList text.toList.dropLast else text
    Text.lineBreaks (body ++ (withheld holds ++ rest)) = Text.lineBreaks body ++
        Text.lineBreaks (withheld holds ++ rest) := by
  intro holds body
  unfold Text.lineBreaks
  rw [← String.ofList_append, String.toList_append, Text.lineBreaksFrom_append]
  intro hlast
  by_cases h : text.toList.getLast? = some '\r'
  · have hh : holds = true := beq_iff_eq.2 h
    simp [hh, withheld]
  · have hb : body = text := by simp [body, holds, h]
    rw [hb] at hlast
    exact absurd hlast h

theorem join_unheld (held : Bool) (chunks : List String) :
    String.join (unheld held chunks).1 ++ Text.lineBreaks (withheld (unheld held chunks).2) =
      Text.lineBreaks (withheld held ++ String.join chunks) := by
  induction chunks generalizing held with
  | nil => simp [unheld]
  | cons text rest ih =>
    unfold unheld
    split
    · next he =>
      rw [ih, String.join_cons, String.isEmpty_iff.1 he, String.empty_append]
    · have hfull : (if held then "\r" ++ text else text) = withheld held ++
        text := by cases held <;> simp [withheld]
      simp only [hfull]
      generalize hf : withheld held ++ text = full
      rw [String.join_cons, String.append_assoc, ih, ← lineBreaks_append_withheld full,
        ← String.append_assoc, dropLast_withheld, String.join_cons, ← String.append_assoc, hf]

/-- **Changing pieces and changing the whole.** Only lower case depends on more than a piece. -/
theorem join_pieces {stage : Stage} (h : stage ≠ .lower) (chunks : List String) :
    String.join (stage.pieces chunks) = stage.change (String.join chunks) := by
  have distributes {change : String → String}
    (happend : ∀ s t, change (s ++ t) = change s ++ change t) :
      String.join (chunks.map change) = change (String.join chunks) := by
    induction chunks with
    | nil =>
      have hself := congrArg String.toList (happend "" "")
      rw [String.toList_append] at hself
      exact (String.toList_eq_nil_iff.1 (List.self_eq_append_right.1 hself)).symm
    | cons text rest ih => rw [List.map_cons, String.join_cons, String.join_cons, happend, ih]
  cases stage with
  | unchanged => exact distributes fun _ _ => rfl
  | escapeHtml => exact distributes Text.escapeHtml_append
  | lineBreaks =>
    have hj := join_unheld false chunks
    rw [lineBreaks_withheld] at hj
    rw [pieces, String.join_append, hj]
    exact congrArg Text.lineBreaks (String.empty_append ..)
  | upper => exact distributes Text.upper_append
  | lower => exact absurd rfl h
  | escapeUri => exact distributes Text.escapeUri_append

/-- Without a capital sigma, lower case too goes character by character. -/
theorem join_pieces_lower {chunks : List String}
    (h : ∀ chunk ∈ chunks, Text.capitalSigma ∉ chunk.toList) :
    String.join (lower.pieces chunks) = Text.lower (String.join chunks) := by
  have hjoin : Text.capitalSigma ∉ (String.join chunks).toList := by
    induction chunks with
    | nil => exact nofun
    | cons text rest ih =>
      rw [String.join_cons, String.toList_append, List.mem_append, not_or]
      exact ⟨h text List.mem_cons_self, ih fun t ht => h t (List.mem_cons_of_mem _ ht)⟩
  rw [Text.lower_of_no_sigma hjoin]
  clear hjoin
  induction chunks with
  | nil => rfl
  | cons text rest ih =>
    have hrest := ih fun t ht => h t (List.mem_cons_of_mem _ ht)
    calc String.join (lower.pieces (text :: rest))
      _ = Text.lower text ++ String.join (lower.pieces rest) := String.join_cons
      _ = String.ofList ((String.join (text :: rest)).toList.flatMap Text.lowerChar) := by
        rw [hrest, Text.lower_of_no_sigma (h text List.mem_cons_self), ← String.ofList_append,
          ← List.flatMap_append, ← String.toList_append, String.join_cons]

theorem join_piecesAll {stages : List Stage} (h : ∀ stage ∈ stages, stage ≠ .lower)
    (chunks : List String) :
    String.join (piecesAll stages chunks) = stages.foldl (fun text stage => stage.change text)
      (String.join chunks) := by
  induction stages generalizing chunks with
  | nil => rfl
  | cons stage rest ih =>
    rw [piecesAll, ih fun st hst => h st (List.mem_cons_of_mem _ hst),
      join_pieces (h stage List.mem_cons_self)]
    rfl

end Stage

/-! ## Pieces on their way to a sink -/

namespace Streams

/-- Puts pieces of text into a sink, one after another, until one is refused. -/
def appendAll (s : Streams) (sink : Sink) : List String → Except Failure Unit × Streams
  | [] => (.ok (), s)
  | text :: rest =>
    match s.append sink text with
    | (.ok _, s) => s.appendAll sink rest
    | (.error e, s) => (.error e, s)

/-- Streams that are the same but for the stages from `n` on. -/
structure Agree (n : Nat) (s t : Streams) : Prop where
  outlet : s.outlet = t.outlet
  buffers : s.buffers = t.buffers
  stages : ∀ id < n, s.stages[id]? = t.stages[id]?

namespace Agree

variable {n m : Nat} {s t u : Streams}

theorem refl (n : Nat) (s : Streams) : s.Agree n s := ⟨rfl, rfl, fun _ _ => rfl⟩

theorem symm (h : s.Agree n t) : t.Agree n s :=
  ⟨h.outlet.symm, h.buffers.symm, fun id hid => (h.stages id hid).symm⟩

theorem trans (h : s.Agree n t) (h' : t.Agree n u) : s.Agree n u :=
  ⟨h.outlet.trans h'.outlet, h.buffers.trans h'.buffers, fun id hid =>
    (h.stages id hid).trans (h'.stages id hid)⟩

theorem mono (h : s.Agree n t) (hm : m ≤ n) : s.Agree m t :=
  { h with stages := fun id hid => h.stages id (Nat.lt_of_lt_of_le hid hm) }

/-- Stages from `n` on do not count. -/
theorem setStage_right {id : StageId} (hid : n ≤ id) (s : Streams) (st : StageState) :
    s.Agree n (s.setStage id st) := by
  refine ⟨rfl, rfl, fun i hi => ?_⟩
  rw [Streams.setStage, Array.getElem?_setIfInBounds_ne (by omega)]

theorem setStage (h : s.Agree n t) {id : StageId} (hid : id < n) (st : StageState) :
    (s.setStage id st).Agree n (t.setStage id st) := by
  refine ⟨h.outlet, h.buffers, fun i hi => ?_⟩
  have hsize : id < s.stages.size ↔ id < t.stages.size := by
    rw [← Nat.not_le, ← Nat.not_le, ← Array.getElem?_eq_none_iff, ← Array.getElem?_eq_none_iff,
      h.stages id hid]
  simp only [Streams.setStage, Array.getElem?_setIfInBounds, h.stages i hi, hsize]

theorem append (h : s.Agree n t) {sink : Sink} (hs : sink.Below n) (text : String) :
    (s.append sink text).1 = (t.append sink text).1 ∧
    (s.append sink text).2.Agree n (t.append sink text).2 := by
  induction sink generalizing s t text with
  | root => simp only [Streams.append, h.outlet]; exact ⟨trivial, { h with outlet := rfl }⟩
  | buffer id => exact ⟨rfl, { h with buffers := by simp only [Streams.append, h.buffers] }⟩
  | through id stage next ih =>
    obtain ⟨hid, hnext⟩ := hs
    cases stage with
    | lineBreaks =>
      unfold Streams.append
      split
      · exact ⟨rfl, h⟩
      · rw [h.stages id hid]
        exact ih (h.setStage hid _) hnext _
    | _ =>
      unfold Streams.append
      rw [h.stages id hid]
      split
      · exact ⟨rfl, h⟩
      · exact ih h hnext _

theorem appendAll (h : s.Agree n t) {sink : Sink} (hs : sink.Below n) (texts : List String) :
    (s.appendAll sink texts).1 = (t.appendAll sink texts).1 ∧
      (s.appendAll sink texts).2.Agree n (t.appendAll sink texts).2 := by
  induction texts generalizing s t with
  | nil => exact ⟨rfl, h⟩
  | cons text rest ih =>
    obtain ⟨hres, h'⟩ := h.append hs text
    unfold Streams.appendAll
    generalize s.append sink text = a, t.append sink text = b at *
    obtain ⟨ra, sa⟩ := a
    obtain ⟨rb, sb⟩ := b
    cases hres
    cases ra with
    | ok _ => exact ih h'
    | error e => exact ⟨rfl, h'⟩

theorem closeStage (h : s.Agree n t) {id : StageId} {next : Sink} (hid : id < n) (hs : next.Below n)
    (stage : Stage) :
    (s.closeStage id stage next).1 = (t.closeStage id stage next).1 ∧
      (s.closeStage id stage next).2.Agree n (t.closeStage id stage next).2 := by
  unfold Streams.closeStage
  cases stage with
  | lineBreaks =>
    simp only [h.stages id hid]
    split
    · exact (h.setStage hid {}).append hs "<br>"
    · exact ⟨rfl, h⟩
  | _ => exact ⟨rfl, h.setStage hid _⟩

theorem closeAll (h : s.Agree n t) {sink : Sink} (hs : sink.Below n) (count : Nat) :
    (s.closeAll (sink.stages count)).1 = (t.closeAll (sink.stages count)).1 ∧
      (s.closeAll (sink.stages count)).2.Agree n (t.closeAll (sink.stages count)).2 := by
  induction count generalizing s t sink with
  | zero => cases sink <;> exact ⟨rfl, h⟩
  | succ count ih =>
    cases sink with
    | through id stage next =>
      obtain ⟨hfirst, h'⟩ := h.closeStage hs.1 hs.2 stage
      obtain ⟨hlater, h''⟩ := ih h' hs.2
      simp only [Sink.stages, Streams.closeAll, hfirst, hlater]
      exact ⟨trivial, h''⟩
    | _ => exact ⟨rfl, h⟩

/-- Where the first does not refuse, neither does the second. -/
theorem ok {a b : Except Failure Unit × Streams} (h : a.1 = b.1 ∧ a.2.Agree n b.2)
    (ha : a = (.ok (), s)) :
    ∃ t, b = (.ok (), t) ∧ s.Agree n t := by
  subst ha
  exact ⟨b.2, Prod.ext h.1.symm rfl, h.2⟩

end Agree

/-- Text put into a sink does not reach the stages from `n` on. -/
theorem append_stages {n : Nat} {sink : Sink} (hs : sink.Below n) (s : Streams) (text : String)
    {id : StageId} (hid : n ≤ id) : (s.append sink text).2.stages[id]? = s.stages[id]? := by
  induction sink generalizing s text with
  | root => rfl
  | buffer _ => rfl
  | through id' stage next ih =>
    have hne : id' ≠ id := Nat.ne_of_lt (Nat.lt_of_lt_of_le hs.1 hid)
    cases stage with
    | lineBreaks =>
      unfold append
      split
      · rfl
      · rw [ih hs.2, setStage, Array.getElem?_setIfInBounds_ne hne]
    | _ =>
      unfold append
      split
      · rfl
      · exact ih hs.2 _ _

/-- The stage of a sink of its own, which is open. -/
def Open (s : Streams) (id : StageId) (held : Bool) : Prop := s.stages[id]? = some ⟨false, held⟩

theorem Open.state {s : Streams} {id : StageId} {held : Bool} (h : s.Open id held) :
    s.stages[id]?.getD {} = ⟨false, held⟩ := by
  rw [h]
  rfl

theorem Open.append {s : Streams} {id : StageId} {held : Bool} (h : s.Open id held) {next : Sink}
    (hs : next.Below id) (text : String) : (s.append next text).2.Open id held :=
  (append_stages hs s text (Nat.le_refl id)).trans h

/-- A stage that changes every piece by itself. -/
theorem appendAll_through {stage : Stage} (hst : stage ≠ .lineBreaks) {id : StageId} {next : Sink}
    (hs : next.Below id) {s : Streams} (ho : s.Open id false) (chunks : List String) :
    s.appendAll (.through id stage next) chunks = s.appendAll next (chunks.map stage.change) := by
  induction chunks generalizing s with
  | nil => rfl
  | cons text rest ih =>
    have happ : s.append (.through id stage next) text = s.append next (stage.change text) := by
      cases stage with
      | lineBreaks => exact absurd rfl hst
      | _ => simp only [Streams.append, ho.state, Bool.false_eq_true, if_false]
    have ho' := ho.append hs (stage.change text)
    rw [List.map_cons, appendAll, appendAll, happ]
    generalize s.append next (stage.change text) = a at *
    obtain ⟨ra, sa⟩ := a
    cases ra with
    | ok _ => exact ih ho'
    | error e => rfl

theorem Open.setStage {s : Streams} {id : StageId} {held : Bool} (h : s.Open id held)
    (held' : Bool) :
    (s.setStage id ⟨false, held'⟩).Open id held' := by
  have hid : id < s.stages.size := (Array.getElem?_eq_some_iff.1 h).1
  simp [Open, Streams.setStage, hid]

theorem appendAll_cons_ok {s t : Streams} {sink : Sink} {text : String} {rest : List String} :
    s.appendAll sink (text :: rest) = (.ok (), t) ↔
      ∃ s', s.append sink text = (.ok (), s') ∧ s'.appendAll sink rest = (.ok (), t) := by
  rw [appendAll]
  generalize s.append sink text = a
  obtain ⟨ra, sa⟩ := a
  cases ra with
  | ok _ => exact ⟨fun h => ⟨sa, rfl, h⟩, fun ⟨_, heq, h⟩ => by cases heq; exact h⟩
  | error e => exact ⟨fun h => by simp at h, fun ⟨_, heq, _⟩ => by simp at heq⟩

/-- A stage for line breaks. -/
theorem appendAll_lineBreaks {id : StageId} {next : Sink} (hs : next.Below id) {s : Streams}
    {held : Bool} (ho : s.Open id held) (chunks : List String) {t : Streams}
    (ht : s.appendAll next (Stage.unheld held chunks).1 = (.ok (), t)) :
    ∃ s', s.appendAll (.through id .lineBreaks next) chunks = (.ok (), s') ∧ s'.Agree id t ∧
      s'.Open id (Stage.unheld held chunks).2 := by
  induction chunks generalizing s held t with
  | nil =>
    cases ht
    exact ⟨s, rfl, .refl id s, ho⟩
  | cons text rest ih =>
    simp only [appendAll_cons_ok]
    unfold Stage.unheld at ht ⊢
    unfold append
    by_cases he : text.isEmpty
    · simp only [if_pos he] at ht ⊢
      obtain ⟨s', hs', h⟩ := ih ho ht
      exact ⟨s', ⟨s, rfl, hs'⟩, h⟩
    · simp only [if_neg he, ho.state] at ht ⊢
      generalize hholds : ((if held = true then "\r" ++ text else text).toList.getLast? ==
        some '\r') = holds at ht ⊢
      generalize Text.lineBreaks _ = piece at ht ⊢
      -- the state of the stage is its own affair: `next` gets the same with and without it
      obtain ⟨s₁, hfirst, hrest⟩ := appendAll_cons_ok.1 ht
      have hset : s.Agree id (s.setStage id ⟨false, holds⟩) :=
        Agree.setStage_right (Nat.le_refl id) s _
      obtain ⟨s₂, hfirst', hagree⟩ := Agree.ok (hset.append hs piece) hfirst
      obtain ⟨t', hrest', hagree'⟩ :=
        Agree.ok (hagree.appendAll hs (Stage.unheld holds rest).1) hrest
      have ho' : s₂.Open id holds := by
        have := (ho.setStage holds).append hs piece
        rwa [hfirst'] at this
      obtain ⟨s', hs', ha, hopen⟩ := ih ho' hrest'
      exact ⟨s', ⟨s₂, hfirst', hs'⟩, ha.trans hagree'.symm, hopen⟩

theorem appendAll_append_ok {s t : Streams} {sink : Sink} {texts texts' : List String} :
    s.appendAll sink (texts ++ texts') = (.ok (), t) ↔
      ∃ s', s.appendAll sink texts = (.ok (), s') ∧ s'.appendAll sink texts' = (.ok (), t) := by
  induction texts generalizing s with
  | nil => exact ⟨fun h => ⟨s, rfl, h⟩, fun ⟨_, heq, h⟩ => by cases heq; exact h⟩
  | cons text rest ih =>
    simp only [List.cons_append, appendAll_cons_ok, ih]
    constructor
    · rintro ⟨s₁, h₁, s₂, h₂, h⟩
      exact ⟨s₂, ⟨s₁, h₁, h₂⟩, h⟩
    · rintro ⟨s₂, ⟨s₁, h₁, h₂⟩, h⟩
      exact ⟨s₁, h₁, s₂, h₂, h⟩

/-- A buffer takes everything. -/
theorem appendAll_buffer (s : Streams) (id : BufferId) (texts : List String) :
    s.appendAll (.buffer id) texts =
    (.ok (), { s with buffers := s.buffers.modify id (· ++ String.join texts) }) := by
  induction texts generalizing s with
  | nil =>
    have hsame : s.buffers.modify id (· ++ String.join []) = s.buffers := by
      apply Array.ext_getElem?
      intro i
      rw [Array.getElem?_modify]
      split <;> cases s.buffers[i]? <;> simp
    simp only [appendAll, hsame]
  | cons text rest ih =>
    simp only [appendAll, append, ih, String.join_cons]
    congr 2
    apply Array.ext_getElem?
    intro i
    simp only [Array.getElem?_modify]
    split <;> cases s.buffers[i]? <;> simp [String.append_assoc]

/-- What becomes of pieces that are put into a stage, which is then closed. -/
theorem stage_pass {stage : Stage} {id : StageId} {next : Sink} (hs : next.Below id) {s : Streams}
    (ho : s.Open id false) (chunks : List String) {t : Streams}
    (ht : s.appendAll next (stage.pieces chunks) = (.ok (), t)) :
    ∃ filled closed, s.appendAll (.through id stage next) chunks = (.ok (), filled) ∧
      filled.closeStage id stage next = (.ok (), closed) ∧ closed.Agree id t := by
  by_cases hst : stage = .lineBreaks
  · subst hst
    obtain ⟨u, hu, hlast⟩ := appendAll_append_ok.1 ht
    obtain ⟨filled, hfilled, hagree, hopen⟩ := appendAll_lineBreaks hs ho chunks hu
    refine ⟨filled, ?_⟩
    simp only [closeStage, hopen.state]
    cases hheld : (Stage.unheld false chunks).2 with
    | true =>
      rw [hheld] at hlast
      obtain ⟨t₁, hbr, hdone⟩ := appendAll_cons_ok.1 hlast
      cases hdone
      obtain ⟨closed, hclosed, hagree'⟩ := Agree.ok
        ((hagree.symm.trans (Agree.setStage_right (Nat.le_refl id) filled {})).append hs "<br>") hbr
      exact ⟨closed, hfilled, hclosed, hagree'.symm⟩
    | false =>
      rw [hheld] at hlast
      cases hlast
      exact ⟨filled, hfilled, rfl, hagree⟩
  · have hpieces : stage.pieces chunks = chunks.map stage.change := by
      cases stage with
      | lineBreaks => exact absurd rfl hst
      | _ => rfl
    have hclose : t.closeStage id stage next = (.ok (), t.setStage id ⟨true, false⟩) := by
      cases stage with
      | lineBreaks => exact absurd rfl hst
      | _ => rfl
    rw [hpieces] at ht
    refine ⟨t, t.setStage id ⟨true, false⟩, ?_, hclose,
      (Agree.setStage_right (Nat.le_refl id) t _).symm⟩
    rw [appendAll_through hst hs ho, ht]

theorem wrap_below {out : Sink} {s : Streams} (hs : out.Below s.stages.size) (stages : List Stage) :
    (s.wrap stages out).1.Below (s.wrap stages out).2.stages.size ∧
      s.stages.size ≤ (s.wrap stages out).2.stages.size ∧
    s.Agree s.stages.size (s.wrap stages out).2 := by
  induction stages with
  | nil => exact ⟨hs, Nat.le_refl _, .refl _ s⟩
  | cons stage rest ih =>
    obtain ⟨hbelow, hsize, hagree⟩ := ih
    simp only [wrap]
    generalize s.wrap rest out = w at *
    obtain ⟨next, s'⟩ := w
    simp only [Array.size_push]
    refine ⟨⟨Nat.lt_succ_self _, hbelow.mono (Nat.le_succ _)⟩, Nat.le_succ_of_le hsize,
      hagree.outlet, hagree.buffers, ?_⟩
    intro id hid
    rw [hagree.stages id hid, Array.getElem?_push_lt (Nat.lt_of_lt_of_le hid hsize),
      Array.getElem?_eq_getElem]

/-- What becomes of pieces that are put before stages, which are then closed in order: the sink
behind the stages receives the pieces that the stages make of them. -/
theorem pass (stages : List Stage) {out : Sink} {s : Streams} (hs : out.Below s.stages.size)
    (chunks : List String) {t : Streams}
    (ht : s.appendAll out (Stage.piecesAll stages chunks) = (.ok (), t)) :
    ∃ filled closed, (s.wrap stages out).2.appendAll (s.wrap stages out).1 chunks =
    (.ok (), filled) ∧ filled.closeAll ((s.wrap stages out).1.stages stages.length) =
    (.ok (), closed) ∧ closed.Agree s.stages.size t := by
  induction stages generalizing chunks t with
  | nil =>
    refine ⟨t, t, ht, ?_, .refl _ t⟩
    cases out <;> rfl
  | cons stage rest ih =>
    obtain ⟨filled, closed, hfilled, hclosed, hagree⟩ := ih (stage.pieces chunks) ht
    obtain ⟨hbelow, hsize, -⟩ := wrap_below hs rest
    simp only [wrap]
    generalize s.wrap rest out = w at *
    obtain ⟨next, s'⟩ := w
    -- the stage in front is new, so what lies behind it does not see it
    have hpush : s'.Agree s'.stages.size { s' with stages := s'.stages.push {} } := by
      refine ⟨rfl, rfl, fun id hid => ?_⟩
      rw [Array.getElem?_push_lt hid, Array.getElem?_eq_getElem]
    obtain ⟨filled₁, hfilled₁, hagree₁⟩ :=
      Agree.ok (hpush.appendAll hbelow (stage.pieces chunks)) hfilled
    have ho : Streams.Open { s' with stages := s'.stages.push {} } s'.stages.size false := by
      simp [Open]
    obtain ⟨filled₂, closed₂, hfilled₂, hclosed₂, hagree₂⟩ := stage_pass hbelow ho chunks hfilled₁
    obtain ⟨closed₃, hclosed₃, hagree₃⟩ :=
      Agree.ok ((hagree₁.trans hagree₂.symm).closeAll hbelow rest.length) hclosed
    refine ⟨filled₂, closed₃, hfilled₂, ?_, (hagree₃.symm.mono hsize).trans hagree⟩
    simp only [List.length_cons, Sink.stages, closeAll, hclosed₂, hclosed₃]

end Streams

/-! ## Filters and their stages -/

namespace Filter

/-- The filters whose stages go piece by piece, whatever the pieces are. -/
def isPiecewise : Filter → Bool
  | escapeHtml => true
  | changeNewlineToBr => true
  | upper => true
  | escapeUri => true
  | id => true
  | noAutoescape => true
  | _ => false

/-- The stage of a filter changes text as its pure form changes content, and the content that comes
out is of the kind that the next stage is chosen for. -/
theorem apply_ofContent {f : Filter} (hf : f.isPiecewise) (fs : Futures) (kind : ContentKind)
    (args : List Value) :
    ∃ stage, f.stage? kind = some stage ∧ stage ≠ .lower ∧
    ∀ text, f.apply fs (.ofContent kind text) args =
    .ok (.ofContent (f.resultKind fs kind args) (stage.change text)) := by
  cases f with
  | cleanHtml | truncate | lower | title => cases hf
  | escapeHtml =>
    cases kind <;> exact ⟨_, rfl, Stage.noConfusion,
      fun text => by simp [apply, resultKind, Value.ofContent, Value.text, Value.write,
        Stage.change]⟩
  | changeNewlineToBr | upper | escapeUri | id | noAutoescape =>
    cases kind <;> exact ⟨_, rfl, Stage.noConfusion,
      fun text => by simp [apply, onText, resultKind, Value.ofContent, Value.text, Value.write,
        Stage.change]⟩

/-- The stages of filters do to a text what the pure forms do to content. -/
theorem stages_ofContent {chain : List (Filter × List Value)} (hc : ∀ d ∈ chain, d.1.isPiecewise)
    (fs : Futures) (kind : ContentKind) :
    ∃ stages, Filter.stages fs chain kind = .ok stages ∧ (∀ stage ∈ stages, stage ≠ .lower) ∧
    ∃ kind', ∀ text, applyAll fs chain (.ofContent kind text) =
        .ok (.ofContent kind' (stages.foldl (fun text stage => stage.change text) text)) := by
  induction chain generalizing kind with
  | nil => exact ⟨[], rfl, nofun, kind, fun _ => rfl⟩
  | cons d rest ih =>
    obtain ⟨f, args⟩ := d
    obtain ⟨stage, hstage, hlower, happly⟩ :=
      apply_ofContent (hc (f, args) List.mem_cons_self) fs kind args
    obtain ⟨stages, hstages, hlowers, kind', happlies⟩ :=
      ih (fun d hd => hc d (List.mem_cons_of_mem _ hd)) (f.resultKind fs kind args)
    refine ⟨stage :: stages, ?_, ?_, kind', fun text => ?_⟩
    · simp only [Filter.stages, hstages, hstage]
      rfl
    · rintro st (_ | ⟨_, hst⟩)
      · exact hlower
      · exact hlowers st hst
    · rw [applyAll, happly]
      exact happlies _

theorem text_ofContent (fs : Futures) (kind : ContentKind) (text : String) :
    (Value.ofContent kind text).text fs = text := by
  cases kind <;> simp [Value.ofContent, Value.text, Value.write]

/-- **Stages agree with the pure forms.** Text of a kind that is put, in any pieces, before the
stages of filters, which are then closed in order, reaches the sink behind them as pieces of what
the filters make of content of that kind that is the whole text. The sink is any that refuses
nothing. -/
theorem streamed_eq_pure (fs : Futures) (chain : List (Filter × List Value))
    (hc : ∀ d ∈ chain, d.1.isPiecewise) (kind : ContentKind) (chunks : List String) (s : Streams)
    (out : Sink) (hout : out.Below s.stages.size)
    (hs : ∀ texts, (s.appendAll out texts).1 = .ok ()) :
    ∃ stages v pieces filled closed,
      Filter.stages fs chain kind = .ok stages ∧
      applyAll fs chain (.ofContent kind (String.join chunks)) = .ok v ∧
      String.join pieces = v.text fs ∧
      (s.wrap stages out).2.appendAll (s.wrap stages out).1 chunks = (.ok (), filled) ∧
      filled.closeAll ((s.wrap stages out).1.stages stages.length) = (.ok (), closed) ∧
      closed.Agree s.stages.size (s.appendAll out pieces).2 := by
  obtain ⟨stages, hstages, hlower, kind', happly⟩ := stages_ofContent hc fs kind
  obtain ⟨filled, closed, hfilled, hclosed, hagree⟩ :=
    Streams.pass stages hout chunks (Prod.ext (hs (Stage.piecesAll stages chunks)) rfl)
  refine ⟨stages, _, Stage.piecesAll stages chunks, filled, closed, hstages, happly _, ?_, hfilled,
    hclosed, hagree⟩
  rw [text_ofContent, Stage.join_piecesAll hlower]

/-- The stage for lower case agrees with its pure form as long as no capital sigma passes it. -/
theorem lower_streamed (fs : Futures) (args : List Value) (kind : ContentKind)
    (chunks : List String) (hc : ∀ chunk ∈ chunks, Text.capitalSigma ∉ chunk.toList)
    (s : Streams) (out : Sink) (hout : out.Below s.stages.size)
    (hs : ∀ texts, (s.appendAll out texts).1 = .ok ()) :
    ∃ v pieces filled closed,
      apply fs lower (.ofContent kind (String.join chunks)) args = .ok v ∧
      String.join pieces = v.text fs ∧
      (s.wrap [.lower] out).2.appendAll (s.wrap [.lower] out).1 chunks = (.ok (), filled) ∧
      filled.closeAll ((s.wrap [.lower] out).1.stages 1) = (.ok (), closed) ∧
      closed.Agree s.stages.size (s.appendAll out pieces).2 := by
  obtain ⟨filled, closed, hfilled, hclosed, hagree⟩ :=
    Streams.pass [.lower] hout chunks (Prod.ext (hs (Stage.lower.pieces chunks)) rfl)
  refine ⟨.ofContent kind (Text.lower (String.join chunks)), Stage.lower.pieces chunks, filled,
    closed, ?_, ?_, hfilled, hclosed, hagree⟩
  · cases kind <;> simp [apply, onText, Value.ofContent, Value.text, Value.write]
  · rw [text_ofContent, Stage.join_pieces_lower hc]

end Filter

namespace Sample

/-- A capital sigma that begins a piece is taken for one that begins a word, and one that ends a
piece for one that ends a word. -/
theorem lower_cut_at_sigma :
    String.join (Stage.lower.pieces ["ΟΔΟ", "Σ"]) = "οδοσ" ∧
    Text.lower (String.join ["ΟΔΟ", "Σ"]) = "οδος" ∧
    String.join (Stage.lower.pieces ["ΟΣ", "Α"]) = "οςα" ∧
    Text.lower (String.join ["ΟΣ", "Α"]) = "οσα" := by
  decide +kernel

/-- An empty buffer. -/
def page : Streams := { outlet := .collecting, buffers := #[""] }

/-- Line breaks are made markup, and then the markup is escaped. -/
def shown : List (Filter × List Value) := [(.changeNewlineToBr, []), (.escapeHtml, [])]

/-- The first line break is cut in two, and the last is only let go at the close, before the stage
that escapes it is closed. -/
theorem lines_streamed : ∃ stages filled closed,
    Filter.stages {} shown .text = .ok stages ∧
    (page.wrap stages (.buffer 0)).2.appendAll (page.wrap stages (.buffer 0)).1
      ["a\r", "", "\nb\r"] = (.ok (), filled) ∧
    filled.closeAll ((page.wrap stages (.buffer 0)).1.stages stages.length) = (.ok (), closed) ∧
    closed.bufferText 0 = "a&lt;br&gt;b&lt;br&gt;" := by
  obtain ⟨stages, v, pieces, filled, closed, hstages, happly, hpieces, hfilled, hclosed, hagree⟩ :=
    Filter.streamed_eq_pure {} shown (by decide) .text ["a\r", "", "\nb\r"] page (.buffer 0) trivial
      (fun texts => by rw [Streams.appendAll_buffer])
  have hv : v.text {} = "a&lt;br&gt;b&lt;br&gt;" := by
    cases happly
    simp only [Filter.onText, Value.ofContent, Value.text, Value.write]
    decide +kernel
  refine ⟨stages, filled, closed, hstages, hfilled, hclosed, ?_⟩
  rw [Streams.bufferText, hagree.buffers, Streams.appendAll_buffer, hpieces, hv]
  decide +kernel

end Sample

end Interlude
