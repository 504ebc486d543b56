import Mathlib.Data.Finset.Card
import Interlude.Proofs.Render.Calm
import Interlude.Proofs.Resume.Schedule
/-!
# Renders that are driven to their end

A render to a buffered writer is called again whenever it waits for a future or the buffer has
reached its limit. If the future was promised, waiting leaves one future less to wait for; if it was
the limit, more was written than before. So the calls come to an end, and what was written is what a
single call puts out (`Registry.render_writes`).
-/

namespace Interlude

/-! ## Data from outside -/

/-- If a failure is only passed on under another name, a value is the value of what was tried. -/
theorem Boxing.caught_ok {α : Type} {x : Boxing α} {f : Failure → Failure} {n : Identity}
    {r : α × Identity} (h : tryCatchThe Failure x (fun e => throw (f e)) n = .ok r) :
    x n = .ok r := by
  change tryCatchThe Failure (x n) (fun e => throw (f e)) = .ok r at h
  cases hx : x n with
  | ok a => rw [hx] at h; exact h
  | error e => rw [hx] at h; cases h

namespace Datum

mutual

/-- Whether a datum is a future or holds one. -/
def holdsFuture : Datum → Bool
  | .list items => holdsFutureAny items
  | .named members => holdsFutureFields members
  | .keyed members => holdsFutureEntries members
  | .boxed v => v.holdsFuture
  | _ => false

def holdsFutureAny : List Datum → Bool
  | [] => false
  | d :: rest => d.holdsFuture || holdsFutureAny rest

def holdsFutureFields : List (String × Datum) → Bool
  | [] => false
  | (_, d) :: rest => d.holdsFuture || holdsFutureFields rest

def holdsFutureEntries : List (Datum × Datum) → Bool
  | [] => false
  | (k, d) :: rest => k.holdsFuture || d.holdsFuture || holdsFutureEntries rest

end

mutual

/-- What is made of data without futures has none. -/
theorem box_plain : ∀ (d : Datum), d.holdsFuture = false → ∀ {n k : Identity} {v : Value},
    d.box n = .ok (v, k) → v.Plain
  | .null, _, _, _, _, h | .bool _, _, _, _, _, h | .int _, _, _, _, _, h | .float _, _, _, _, _, h
  | .str _, _, _, _, _, h => by
    cases h
    rfl
  | .unsigned i, _, _, _, _, h => by
    unfold box Value.ofUnsigned at h
    split at h
    · cases h
      rfl
    · cases h
  | .list items, hd, _, _, _, h => by
    obtain ⟨vs, k, hvs, h⟩ := StateT.bind_ok h
    cases h
    exact Value.plain_list.2 (boxItems_plain items hd 0 hvs)
  | .named members, hd, _, _, _, h => by
    obtain ⟨vs, k, hvs, h⟩ := StateT.bind_ok h
    cases h
    exact Value.plain_recordOf (boxFields_plain members hd hvs)
  | .keyed members, hd, _, _, _, h => by
    obtain ⟨vs, k, hvs, h⟩ := StateT.bind_ok h
    cases h
    exact Value.plain_map.2 (boxEntries_plain members hd (fun _ he => by cases he) hvs)
  | .foreign _, _, _, _, _, h => by cases h
  | .boxed v, hd, _, _, _, h => by
    cases h
    exact hd

theorem boxItems_plain : ∀ (ds : List Datum), holdsFutureAny ds = false →
    ∀ (i : Nat) {n k : Identity} {vs : List Value}, boxItems i ds n = .ok (vs, k) →
    ∀ v ∈ vs, v.Plain
  | [], _, _, _, _, _, h => by
    cases h
    exact fun _ hv => by cases hv
  | d :: rest, hd, i, _, _, _, h => by
    obtain ⟨hfirst, hrest⟩ := Bool.or_eq_false_iff.1 hd
    obtain ⟨v, k, hv, h⟩ := StateT.bind_ok h
    obtain ⟨vs, k', hvs, h⟩ := StateT.bind_ok h
    cases h
    exact List.forall_mem_cons.2 ⟨box_plain d hfirst (Boxing.caught_ok hv),
      boxItems_plain rest hrest (i + 1) hvs⟩

theorem boxFields_plain : ∀ (ds : List (String × Datum)), holdsFutureFields ds = false →
    ∀ {n k : Identity} {vs : List (String × Value)}, boxFields ds n = .ok (vs, k) →
    ∀ v ∈ vs, v.2.Plain
  | [], _, _, _, _, h => by
    cases h
    exact fun _ hv => by cases hv
  | (_, d) :: rest, hd, _, _, _, h => by
    obtain ⟨hfirst, hrest⟩ := Bool.or_eq_false_iff.1 hd
    obtain ⟨v, k, hv, h⟩ := StateT.bind_ok h
    obtain ⟨vs, k', hvs, h⟩ := StateT.bind_ok h
    cases h
    exact List.forall_mem_cons.2 ⟨box_plain d hfirst (Boxing.caught_ok hv),
      boxFields_plain rest hrest hvs⟩

theorem boxEntries_plain : ∀ (ds : List (Datum × Datum)), holdsFutureEntries ds = false →
    ∀ {n k : Identity} {before vs : List (Value × Value)}, (∀ v ∈ before, v.1.Plain ∧ v.2.Plain) →
      boxEntries before ds n = .ok (vs, k) → ∀ v ∈ vs, v.1.Plain ∧ v.2.Plain
  | [], _, _, _, _, _, hbefore, h => by
    cases h
    exact hbefore
  | (key, d) :: rest, hd, _, _, before, _, hbefore, h => by
    obtain ⟨hfirst, hrest⟩ := Bool.or_eq_false_iff.1 hd
    obtain ⟨hkey, hfirst⟩ := Bool.or_eq_false_iff.1 hfirst
    obtain ⟨kv, k, hk, h⟩ := StateT.bind_ok h
    obtain ⟨v, k', hv, h⟩ := StateT.bind_ok h
    have hset := Value.forall_set hbefore (box_plain key hkey hk) (box_plain d hfirst hv)
    cases hafter : Value.setEntry? before kv v with
    | none =>
      rw [hafter] at h
      cases h
    | some after =>
      rw [hafter] at h hset
      exact boxEntries_plain rest hrest hset h

end

/-- A datum without futures, or one of the first `n` futures. -/
def Promised (n : Nat) (d : Datum) : Prop := d.holdsFuture = false ∨
    ∃ id, d = .boxed (.future id) ∧ id < n

theorem boxParams_promised {n : Nat} (ds : List (String × Datum)) (hds : ∀ d ∈ ds, d.2.Promised n)
    {k k' : Identity} {vs : List (String × Value)} (h : boxParams ds k = .ok (vs, k')) :
    Interlude.Promised n vs := by
  induction ds generalizing k vs with
  | nil =>
    cases h
    exact fun _ hv => by cases hv
  | cons d rest ih =>
    obtain ⟨v, j, hv, h⟩ := StateT.bind_ok h
    obtain ⟨later, j', hlater, h⟩ := StateT.bind_ok h
    cases h
    refine (ih (fun d hd => hds d (List.mem_cons_of_mem _ hd)) hlater).cons ?_
    have hbox := Boxing.caught_ok hv
    rcases hds d List.mem_cons_self with hplain | ⟨id, hid, hlt⟩
    · exact (box_plain d.2 hplain hbox).promised n
    · rw [hid] at hbox
      cases hbox
      exact .inr ⟨id, rfl, hlt⟩

end Datum

/-! ## Waiting -/

namespace Futures

/-- All futures have completed with plain values. -/
def Settled (gs : Futures) : Prop := ∀ id, id < gs.states.size →
    ∃ v, gs.get id = .complete v ∧ v.Plain

variable {fs gs : Futures}

theorem Settled.promising (h : gs.Settled) (ha : fs.Ahead gs)
    (hsize : fs.states.size = gs.states.size) :
    fs.Promising gs.states.size := by
  refine ⟨hsize, fun id => ?_⟩
  by_cases hr : (fs.get id).isReady = true
  · have hin : id < fs.states.size := by
      refine Nat.lt_of_not_le fun hout => ?_
      unfold get at hr
      rw [Array.getElem?_eq_none hout] at hr
      cases hr
    obtain ⟨v, hv, hplain⟩ := h id (hsize ▸ hin)
    exact .inr ⟨v, (ha.ready id hr).symm.trans hv, hplain⟩
  · cases hf : fs.get id with
    | pending => exact .inl rfl
    | _ => rw [hf] at hr; exact (hr rfl).elim

/-- Those of the first `n` futures that are pending. -/
def unsettled (n : Nat) (fs : Futures) : Finset FutureId :=
    {id ∈ Finset.range n | (fs.get id).isReady = false}

/-- Settling one of them leaves fewer. -/
theorem Ahead.unsettled_lt (ha : fs.Ahead gs) {n : Nat} {p : FutureId} (hp : fs.get p = .pending)
    (hlt : p < n) (hr : (gs.get p).isReady = true) :
    (gs.unsettled n).card < (fs.unsettled n).card := by
  have hsub : gs.unsettled n ⊆ fs.unsettled n := by
    intro id hid
    obtain ⟨hin, hnot⟩ := Finset.mem_filter.1 hid
    refine Finset.mem_filter.2 ⟨hin, ?_⟩
    cases hf : (fs.get id).isReady with
    | false => rfl
    | true => rw [ha.ready id hf, hf] at hnot; cases hnot
  refine Finset.card_lt_card ((Finset.ssubset_iff_of_subset hsub).2 ⟨p, ?_, ?_⟩)
  · exact Finset.mem_filter.2 ⟨Finset.mem_range.2 hlt, by rw [hp]; rfl⟩
  · intro hin
    rw [(Finset.mem_filter.1 hin).2] at hr
    cases hr

end Futures

/-- A host that is never called off and keeps what `gs` promises: whoever waits for a future finds
it settled then. -/
structure Host.Keeps (host : Host) (gs : Futures) : Prop where
  waitable : ∀ f, host.waitable f = true
  ended : ∀ round, host.ended round = none
  wait : ∀ (round : Nat) (f : FutureId) (fs : Futures), f < gs.states.size → fs.Ahead gs →
    fs.states.size = gs.states.size →
      ∃ fs', host.wait round f fs = .ok fs' ∧ fs.Ahead fs' ∧ fs'.Ahead gs ∧
      (fs'.get f).isReady = true

/-- Futures that complete in time keep what they promise. -/
theorem Host.timed_keeps {gs : Futures} (hgs : gs.Settled) {late : List (FutureId × Value)}
    (hlate : ∀ f v, gs.get f = .complete v → late.lookup f = some v) :
    (Host.timed late false).Keeps gs where
  waitable _ := rfl
  ended _ := rfl
  wait round f fs hf ha hsize := by
    obtain ⟨v, hv, _⟩ := hgs f hf
    refine ⟨(fs.settle f (.complete v)).2, ?_, fs.settle_ahead f _, ?_⟩
    · simp [Host.timed, hlate f v hv]
    · unfold Futures.settle
      split
      · have hget (g : FutureId) :
          ({ fs with states := fs.states.setIfInBounds f (.complete v) } : Futures).get g =
            if f = g then .complete v else fs.get g := by
          unfold Futures.get
          rw [Array.getElem?_setIfInBounds]
          split
          · rw [if_pos (hsize ▸ hf)]
            rfl
          · rfl
        refine ⟨⟨by simpa using ha.size, fun g hg => ?_⟩, ?_⟩
        · rw [hget] at hg ⊢
          split
          · next heq => rw [← heq]; exact hv
          · next hne => rw [if_neg hne] at hg; exact ha.ready g hg
        · rw [hget, if_pos rfl]
          rfl
      · next hnot =>
        refine ⟨ha, ?_⟩
        cases hf : fs.get f with
        | pending => exact (hnot hf).elim
        | _ => rfl

/-! ## Calls -/

namespace Store

variable {reg : Registry} {context : Context} {host : Host} {gs : Futures} {limit : Int}
  {base : Nat} {id : RenderId}
  {x : Course} {s t : Store}

/-- Where a driven render is between two calls, in the middle of what the run `x` does; at least
`base` characters were written. -/
structure Driven (reg : Registry) (context : Context) (gs : Futures) (limit : Int) (base : Nat)
    (id : RenderId) (x : Course) (s : Store) : Prop where
  safe : s.Safe reg
  known : id < s.renders.size
  calm : s.Calm gs.states.size limit base
  ahead : s.heap.futures.Ahead gs
  under : ∃ made depth y, Stands reg context gs.states made s depth id y ∧ x.Leads y

/-- No more than the whole output was put out. -/
theorem Driven.output_le (h : Driven reg context gs limit base id x s) (hx : x.Comes (.done, t)) :
    s.output.length ≤ t.output.length := by
  obtain ⟨made, depth, y, hstands, hleads⟩ := h.under
  obtain ⟨n, hn⟩ := (Progress.under hstands hleads).shows
  obtain ⟨k, hk⟩ := hx
  obtain ⟨⟨more, hmore⟩, _⟩ := hn (max n k) (Nat.le_max_left n k)
  rw [hk _ (Nat.le_max_right n k)] at hmore
  rw [show t.output = s.output ++ more from hmore, String.length_append]
  exact Nat.le_add_right ..

/-- What the next call comes to: the end, with the whole output, or a stop on the way. -/
inductive Comes (reg : Registry) (context : Context) (gs : Futures) (limit : Int) (base : Nat)
    (id : RenderId) (x : Course) (t : Store) : Outcome × Store → Prop where
  | done {s : Store} : s.Calm gs.states.size limit base → s.output = t.output →
    Comes reg context gs limit base id x t (.done, s)
  | waiting {s : Store} {p : FutureId} : Driven reg context gs limit base id x s →
      p < gs.states.size → s.heap.futures.get p = .pending →
      Comes reg context gs limit base id x t (.waiting p, s)
  | limited {s : Store} : Driven reg context gs limit base id x s → base < s.output.length →
      Comes reg context gs limit base id x t (.limited, s)

theorem Driven.call (hreg : ∀ p ∈ reg.programs, p.Valid)
    (hprompt : ∀ p ∈ reg.programs, ∀ d ∈ p.params, d.Prompt)
    (h : Driven reg context gs limit base id x s) (hx : x.Comes (.done, t)) :
    ∃ fuel, Comes reg context gs limit base id x t (s.invoke reg context fuel id) := by
  obtain ⟨made, depth, y, hstands, hleads⟩ := h.under
  obtain ⟨last, hlast⟩ := hx
  refine ⟨last + depth, ?_⟩
  obtain ⟨hcalm, hout⟩ :=
    (runs_calm gs.states.size limit base reg context (last + depth)).1 id s h.calm
  obtain ⟨hsafe, hlater, hdue⟩ := (runs_safe hreg context (last + depth)).1 id s h.safe h.known
  have htell := (runs_tell hreg hprompt context gs.states (last + depth)).1 s depth id y made h.safe
    hstands hcalm.heap.clear
  have hahead : (s.invoke reg context (last + depth) id).2.heap.futures.Ahead gs :=
    (Futures.Ahead.of_states hlater.states).trans h.ahead
  have hknown : id < (s.invoke reg context (last + depth) id).2.renders.size :=
    Nat.lt_of_lt_of_le h.known hlater.size
  generalize s.invoke reg context (last + depth) id = result
    at hcalm hout hsafe hdue htell hahead hknown
  obtain ⟨o, s'⟩ := result
  have hend {o : Outcome} {t' : Store} (hy : y.Comes (o, t')) (ho : o ≠ .exhausted) :
      (o, t') = (Outcome.done, t) := by
    obtain ⟨n, hn⟩ := hleads.comes hy ho
    rw [← hn (max n last) (Nat.le_max_left ..), ← hlast (max n last) (Nat.le_max_right ..)]
  cases o with
  | done =>
    obtain ⟨made', t', hy, htwin, _⟩ := htell
    cases hend hy (by simp)
    exact .done hcalm htwin.streams.output
  | failed e =>
    obtain ⟨made', t', hy, _⟩ := htell
    cases hend hy (by simp)
  | waiting p =>
    obtain ⟨made', depth', z, hz, hyz, _⟩ := htell
    exact .waiting ⟨hsafe, hknown, hcalm, hahead, made', depth', z, hz, hleads.trans hyz⟩ hout hdue
  | limited =>
    obtain ⟨made', depth', z, hz, hyz, _⟩ := htell
    exact .limited ⟨hsafe, hknown, hcalm, hahead, made', depth', z, hz, hleads.trans hyz⟩ hout
  | exhausted =>
    -- the steps were enough, and no read was endless
    obtain ⟨_, ⟨hendless, _⟩ | hlate⟩ := htell
    · exact (hcalm.heap.futures.not_endless hendless).elim
    · have hex := hlate.lead hleads last (Nat.le_refl _)
      rw [hlast last (Nat.le_refl last)] at hex
      cases hex
  | broken => exact hdue.elim

/-! ## Between two calls -/

/-- A flush of the outlet writes all that waits. -/
theorem Calm.drained {n : Nat} (h : s.Calm n limit base) :
    (s.flush .root).1 = .ok () ∧ (s.flush .root).2.Calm n limit s.output.length ∧
      String.join (s.flush .root).2.streams.outlet.writes = s.output ∧
      (s.flush .root).2.isLimited .root = (false, (s.flush .root).2) := by
  obtain ⟨hheap, ⟨hgate, w, hw, hdrains⟩, hrenders⟩ := h
  obtain ⟨heap, ⟨⟨out, gate, asked⟩, buffers, stages⟩, renders, log⟩ := s
  cases hgate
  cases hw
  obtain ⟨hsturdy, hout, hempty, hlimit⟩ := WriterSink.flush_sturdy hdrains.sturdy
  have hwritten : String.join w.flush.writer.writes.toList = w.output := by
    rw [← hout]
    unfold WriterSink.output
    rw [hempty, String.append_empty]
  have hnot : w.flush.isLimited = false := by
    unfold WriterSink.isLimited
    rw [hempty]
    simp [Text.byteLength]
  refine ⟨WriterSink.outcome_sturdy hsturdy,
    ⟨hheap, ⟨rfl, w.flush, rfl, hsturdy, hlimit.trans hdrains.limit, ?_⟩, hrenders⟩, hwritten, ?_⟩
  · rw [hwritten]
    exact Nat.le_refl _
  · exact Prod.ext hnot rfl

/-- After a flush a driven render is where it was, and all it has put out is written. -/
theorem Driven.flush (h : Driven reg context gs limit base id x s) :
    Driven reg context gs limit s.output.length id x (s.flush .root).2 := by
  obtain ⟨made, depth, y, hstands, hleads⟩ := h.under
  have hrests : s.Rests gs.states 0 (s.flush .root).2 :=
    (Idle.flush s .root).rests (fun _ _ => rfl) gs.states
  exact ⟨h.safe.of_heap rfl (.refl _), h.known, h.calm.drained.2.1, h.ahead, made, depth, y,
    hstands.rests hrests (Nat.zero_le id), hleads⟩

/-- So it is after waiting. -/
theorem Driven.wait (h : Driven reg context gs limit base id x s) (hgs : gs.Settled) {fs : Futures}
    (ha : s.heap.futures.Ahead fs) (hg : fs.Ahead gs) :
    Driven reg context gs limit base id x { s with heap := { s.heap with futures := fs } } := by
  obtain ⟨made, depth, y, hstands, hleads⟩ := h.under
  have hsize : fs.states.size = gs.states.size :=
    Nat.le_antisymm hg.size (Nat.le_trans (Nat.le_of_eq h.calm.heap.futures.size.symm) ha.size)
  have hrests : s.Rests gs.states 0 { s with heap := { s.heap with futures := fs } } :=
    .settled h.calm.heap.clear ha (fun hs hsame => hg.trans (.of_states hsame.symm)) 0
  exact
    { safe := ⟨h.safe.programs, h.safe.frames, h.safe.heap⟩
      known := h.known
      calm := ⟨⟨h.calm.heap.clear, hgs.promising hg hsize, h.calm.heap.thunks⟩, h.calm.outlet,
        h.calm.renders⟩
      ahead := hg
      under := ⟨made, depth, y, hstands.rests hrests (Nat.zero_le id), hleads⟩ }

/-! ## All calls -/

/-- What is still to be waited for, and to be written of an output of this length. -/
def remaining (gs : Futures) (length base : Nat) (s : Store) : Nat :=
  (s.heap.futures.unsettled gs.states.size).card + (length - base)

/-- After a call there is the whole output, or less is left to be done. -/
theorem Comes.between (hgs : gs.Settled) (hhost : host.Keeps gs) (round : Nat)
    (hx : x.Comes (.done, t)) {o : Outcome} {s₀ : Store}
    (hs₀ : s₀.heap.futures.states = s.heap.futures.states)
    (h : Comes reg context gs limit base id x t (o, s)) :
    (∃ s', s.between host round id o = .error (.done, s') ∧
      String.join s'.streams.outlet.writes = t.output) ∨ ∃ s' base',
    s.between host round id o = .ok s' ∧ Driven reg context gs limit base' id x s' ∧
    remaining gs t.output.length base' s' < remaining gs t.output.length base s₀ := by
  have hsame : s.heap.futures.unsettled gs.states.size =
      s₀.heap.futures.unsettled gs.states.size := by
    unfold Futures.unsettled
    refine Finset.filter_congr fun f _ => ?_
    rw [Futures.get_congr hs₀]
  cases h with
  | done hcalm hout =>
    obtain ⟨hok, _, hwritten, _⟩ := hcalm.drained
    refine .inl ⟨(s.flush .root).2, ?_, hwritten.trans hout⟩
    unfold Store.between
    rw [show s.flush .root = (.ok (), (s.flush .root).2) from Prod.ext hok rfl]
  | @waiting _ p hdriven hp hpending =>
    obtain ⟨fs, hwait, ha, hg, hready⟩ := hhost.wait round p s.heap.futures hp hdriven.ahead
      hdriven.calm.heap.futures.size
    refine .inr ⟨_, base, ?_, hdriven.wait hgs ha hg, ?_⟩
    · unfold Store.between
      simp only [hhost.waitable, hwait, if_true]
    · have hless := ha.unsettled_lt hpending hp hready
      unfold remaining
      rw [← hsame]
      exact Nat.add_lt_add_right hless _
  | limited hdriven hmore =>
    obtain ⟨hok, _, _, hnot⟩ := hdriven.calm.drained
    refine .inr ⟨(s.flush .root).2, s.output.length, ?_, hdriven.flush, ?_⟩
    · unfold Store.between
      rw [show s.flush .root = (.ok (), (s.flush .root).2) from Prod.ext hok rfl]
      simp only [hnot]
    · have hle := hdriven.output_le hx
      change (s.heap.futures.unsettled _).card + _ < _
      unfold remaining
      rw [hsame]
      omega

/-- A call that came to something comes to it with more steps too. -/
theorem Comes.enough {fuel more : Nat}
    (h : Comes reg context gs limit base id x t (s.invoke reg context fuel id)) (hm : fuel ≤ more) :
    s.invoke reg context more id = s.invoke reg context fuel id := by
  refine (invoke_approximates reg context hm id s).eq fun hex => ?_
  generalize s.invoke reg context fuel id = result at h hex
  cases h <;> cases hex

theorem driveFrom_succ {round fuel : Nat} {o : Outcome} {s' : Store}
    (hhost : host.ended round = none) (h : s.invoke reg context fuel id = (o, s')) :
    s.driveFrom reg context host round (fuel + 1) id =
      match s'.between host round id o with
      | .error ending => ending
      | .ok s' => s'.driveFrom reg context host (round + 1) fuel id := by
  cases hb : s'.between host round id o <;> simp only [Store.driveFrom, h, hhost, hb]

/-- A driven render comes to its end, and all of its output is written. -/
theorem Driven.drive (hreg : ∀ p ∈ reg.programs, p.Valid)
    (hprompt : ∀ p ∈ reg.programs, ∀ d ∈ p.params, d.Prompt) (hgs : gs.Settled)
    (hhost : host.Keeps gs) (round : Nat) (hx : x.Comes (.done, t))
    (h : Driven reg context gs limit base id x s) :
    ∃ s', String.join s'.streams.outlet.writes = t.output ∧
      ∃ n, ∀ fuel, n ≤ fuel → s.driveFrom reg context host round fuel id = (.done, s') := by
  induction hk : remaining gs t.output.length base s using Nat.strongRecOn
      generalizing base round s with
  | ind k ih =>
    obtain ⟨n, hcomes⟩ := h.call hreg hprompt hx
    have hlater := ((runs_safe hreg context n).1 id s h.safe h.known).2.1
    have hbetween := Comes.between (s := (s.invoke reg context n id).2) hgs hhost round hx
      hlater.states.symm hcomes
    rcases hbetween with ⟨s', hend, hwritten⟩ | ⟨s', base', hgo, hdriven, hless⟩
    · refine ⟨s', hwritten, n + 1, fun fuel hf => ?_⟩
      obtain ⟨fuel, rfl⟩ : ∃ k, fuel = k + 1 := ⟨fuel - 1, by omega⟩
      rw [driveFrom_succ (hhost.ended round) (hcomes.enough (by omega)), hend]
    · obtain ⟨last, hwritten, n', hn'⟩ := ih _ (hk ▸ hless) (round + 1) hdriven rfl
      refine ⟨last, hwritten, max n n' + 1, fun fuel hf => ?_⟩
      obtain ⟨fuel, rfl⟩ : ∃ k, fuel = k + 1 := ⟨fuel - 1, by omega⟩
      rw [driveFrom_succ (hhost.ended round) (hcomes.enough (by omega)), hgo]
      exact hn' fuel (by omega)

/-- With fewer steps a driven render is not through, or it has come to the same. -/
theorem driveFrom_approximates (reg : Registry) (context : Context) (host : Host) (round : Nat)
    (id : RenderId) (fuel more : Nat) (s : Store) :
    (s.driveFrom reg context host round fuel id).1 = .exhausted ∨
      s.driveFrom reg context host round (fuel + more) id =
    s.driveFrom reg context host round fuel id := by
  induction fuel generalizing round s with
  | zero => exact .inl rfl
  | succ fuel ih =>
    rw [Nat.succ_add]
    unfold Store.driveFrom
    rcases invoke_approximates reg context (Nat.le_add_right fuel more) id s with heq | ⟨hex, _⟩
    · rw [heq]
      simp only
      split
      · exact .inr rfl
      · split
        · exact .inr rfl
        · exact ih _ _
    · refine .inl ?_
      simp only [hex, Store.between]

end Store

namespace Registry

variable {reg : Registry} {context : Context} {name : String}
  {params injected : List (String × Datum)}

/-- If a render can be started once all futures are settled, it can be started before. -/
theorem start_driven (hreg : ∀ p ∈ reg.programs, p.Valid)
    (hprompt : ∀ p ∈ reg.programs, ∀ d ∈ p.params, d.Prompt) {fs gs : Futures} (hgs : gs.Settled)
    (hfs : fs.Ahead gs) (hsize : fs.states.size = gs.states.size)
    (hparams : ∀ d ∈ params, d.2.Promised gs.states.size)
    (hinjected : ∀ d ∈ injected, d.2.Promised gs.states.size) {writer : Writer}
    (hwriter : writer.Sturdy) (hnew : writer.writes = #[]) (limit : Int) {fresh : Identity}
    {id : RenderId} {t₀ : Store}
    (ht₀ : reg.start context name params injected .root (.new .collecting gs fresh) =
      (.ok id, t₀)) :
    ∃ s₀, reg.start context name params injected .root
      (.new { base := .writer { limit, writer } } fs fresh) = (.ok id, s₀) ∧
    Store.Driven reg context gs limit 0 id (fun n => t₀.invoke reg context n id) s₀ := by
  obtain ⟨p, hp, given, inj, fresh', hstart, hsame, ⟨_, _, hgiven⟩, _, _, hinj⟩ := start_ok ht₀
  have hsturdy : Outlet.Sturdy { base := .writer { limit, writer } } := ⟨rfl, hwriter⟩
  have hempty : Outlet.output { base := .writer { limit, writer } } = "" := by
    change String.join writer.writes.toList ++ "" = ""
    rw [hnew]
    rfl
  have hcalm : (Store.new { base := .writer { limit, writer } } fs fresh').Calm
      gs.states.size limit 0 :=
    { heap := ⟨rfl, hgs.promising hfs hsize, fun id t ht => by cases ht⟩
      outlet := ⟨rfl, _, rfl, hsturdy, rfl, Nat.zero_le _⟩
      renders := fun id r hr => by cases hr }
  have hcalm₀ := Program.start_calm context p (Datum.boxParams_promised _ hparams hgiven)
    (Datum.boxParams_promised _ hinjected hinj) .root hcalm
  obtain ⟨hmirror, _⟩ :=
    Program.start_mirrors (hreg p hp) (hprompt p hp) (Store.new_twin hsturdy hempty hfs fresh')
      context given inj .root hcalm₀.heap.clear
  have hok : (p.start context given inj .root (.new .collecting gs fresh')).1 = .ok id :=
    congrArg Prod.fst hstart
  have hs₀ : reg.start context name params injected .root
      (.new { base := .writer { limit, writer } } fs fresh) =
          (.ok id, (p.start context given inj .root
              (.new { base := .writer { limit, writer } } fs fresh')).2) :=
    (hsame (.new { base := .writer { limit, writer } } fs fresh) rfl).trans
      (Prod.ext (hmirror.symm.trans hok) rfl)
  obtain ⟨t₁, ht₁, hstands⟩ :=
    start_stands hreg hprompt (Store.new_twin hsturdy hempty hfs fresh) hs₀ hcalm₀.heap.clear
  cases ht₀.symm.trans ht₁
  obtain ⟨hid, hstates⟩ := start_known hs₀
  have hreach : Store.Reachable reg context (.new { base := .writer { limit, writer } } fs fresh) :=
    .init _ fs fresh
  have hsafe := (hreach.start name params injected).safe hreg
  rw [hs₀] at hsafe
  exact ⟨_, hs₀, hsafe, hid, hcalm₀, (Futures.Ahead.of_states hstates).trans hfs, #[], 0, _,
    hstands, .refl hstands.steady⟩

end Registry

/-- Output does not depend on the limit. A template is rendered to a writer that refuses nothing,
with any limit, by a host that keeps what the futures in the data promise. If a single call to a
sink that never asks for a pause, made with all futures completed, comes to its end, so does the
render; what was written then is what the single call puts out. Whatever the number of steps, the
render never fails because the limit is still reached after a flush. -/
theorem Registry.render_writes {analyzer : Analyzer} {templates : List Template} {reg : Registry}
    (hbuild : Registry.build analyzer templates = .ok reg) (hclosed : ∀ t ∈ templates, t.Closed)
    {context : Context} {name : String} {params injected : List (String × Datum)} {fs gs : Futures}
    (hgs : gs.Settled) (hfs : fs.Ahead gs) (hsize : fs.states.size = gs.states.size)
    (hparams : ∀ d ∈ params, d.2.Promised gs.states.size)
    (hinjected : ∀ d ∈ injected, d.2.Promised gs.states.size) {host : Host} (hhost : host.Keeps gs)
    {writer : Writer} (hwriter : writer.Sturdy) (hnew : writer.writes = #[]) (limit : Int)
    {fresh : Identity} {id : RenderId} {t₀ t : Store}
    (hstart : reg.start context name params injected .root (.new .collecting gs fresh) =
      (.ok id, t₀)) {enough : Nat} (hdone : t₀.invoke reg context enough id = (.done, t)) :
    let render fuel := reg.render context host fuel name params injected
      (.new { base := .writer { limit, writer } } fs fresh)
    (∃ s, String.join s.streams.outlet.writes = t.output ∧ ∃ n, ∀ fuel, n ≤ fuel →
      render fuel = (.done, s)) ∧ ∀ fuel, (render fuel).1 ≠ .failed Store.stillLimited := by
  intro render
  have hreg := Registry.build_valid hbuild
  have hprompt := Registry.build_prompt hbuild hclosed
  obtain ⟨s₀, hs₀, hdriven⟩ :=
    start_driven hreg hprompt hgs hfs hsize hparams hinjected hwriter hnew limit hstart
  have hrender (fuel : Nat) : render fuel = s₀.driveFrom reg context host 0 fuel id := by
    simp only [render, Registry.render, hs₀, Store.drive]
  have hcomes : Course.Comes (fun n => t₀.invoke reg context n id) (.done, t) := by
    refine ⟨enough, fun f hf => ?_⟩
    have happ := Store.invoke_approximates reg context hf id t₀
    rw [hdone] at happ
    exact happ.eq (by simp)
  obtain ⟨s, hwritten, n, hn⟩ := hdriven.drive hreg hprompt hgs hhost 0 hcomes
  refine ⟨⟨s, hwritten, n, fun fuel hf => (hrender fuel).trans (hn fuel hf)⟩, fun fuel => ?_⟩
  rw [hrender]
  intro hfailed
  rcases Store.driveFrom_approximates reg context host 0 id fuel n s₀ with hex | hsame
  · rw [hfailed] at hex
    cases hex
  · rw [hn (fuel + n) (Nat.le_add_left n fuel)] at hsame
    rw [← hsame] at hfailed
    cases hfailed

/-- The greeting of someone who is not known yet, written with a limit that its first word
exceeds. -/
theorem Sample.greeting_written :
    let host := Host.timed [(0, .str "you")] false
    let unknown : Futures := { states := #[.pending], reads := #[0] }
    ∃ s, String.join s.streams.outlet.writes = "Hello you" ∧ ∃ n, ∀ fuel, n ≤ fuel →
      Sample.greetings.render {} host fuel "greeting" [("who", .boxed (.future 0))] []
        (.new { base := .writer { limit := 3 } } unknown 0) = (.done, s) := by
  intro host unknown
  let known : Futures := { states := #[.complete (.str "you")], reads := #[0] }
  have hknown (f : FutureId) (v : Value) (hv : known.get f = .complete v) : f = 0 ∧
      v = .str "you" := by
    cases f with
    | zero => cases hv; exact ⟨rfl, rfl⟩
    | succ f => simp [known, Futures.get] at hv
  have hsettled : known.Settled := by
    intro f hf
    cases Nat.lt_one_iff.1 hf
    exact ⟨.str "you", rfl, rfl⟩
  have hahead : unknown.Ahead known := by
    refine ⟨Nat.le_refl 1, fun f hf => ?_⟩
    cases f with
    | zero => cases hf
    | succ f => simp [unknown, Futures.get, Future.isReady] at hf
  have hhost : host.Keeps known := Host.timed_keeps hsettled fun f v hv => by
    obtain ⟨rfl, rfl⟩ := hknown f v hv
    rfl
  have hclosed : ∀ t ∈ [Sample.greeting], t.Closed := by
    simp [Template.Closed, Sample.greeting]
  have hstart : ∃ t₀, Sample.greetings.start {} "greeting" [("who", .boxed (.future 0))] [] .root
      (.new .collecting known 0) = (.ok 0, t₀) := ⟨_, rfl⟩
  obtain ⟨t₀, hstart⟩ := hstart
  have hdone : ∃ t, t₀.invoke Sample.greetings {} 8 0 = (.done, t) ∧ t.output = "Hello you" := by
    cases hstart
    exact ⟨_, by cbv, by cbv⟩
  obtain ⟨t, hdone, hout⟩ := hdone
  have hpromised : ∀ d ∈ [("who", Datum.boxed (.future 0))], d.2.Promised known.states.size := by
    simp [Datum.Promised, known]
  obtain ⟨⟨s, hwritten, hrender⟩, _⟩ :=
    Registry.render_writes Sample.greetings_built hclosed hsettled hahead rfl hpromised (by simp)
      hhost (show Writer.Sturdy {} from ⟨fun _ => rfl, fun _ => rfl⟩) rfl 3 hstart hdone
  exact ⟨s, hwritten.trans hout, hrender⟩

end Interlude
