import Interlude.Proofs.Direct.Code
import Interlude.Proofs.Resume.Step
/-!
# Instructions follow statements

A store shows the world of a direct run if it holds the same output, messages and numbers. What an
instruction does to a store that shows a world is what a statement does to the world; a failure is
the same on both sides, and so is the future that is waited for (`eval_follows`, `onSink_follows`).
-/

namespace Interlude

/-! ## Sinks that never ask for a pause -/

theorem Outlet.Unlimited.append {o : Outlet} (h : o.Unlimited) (text : String) :
    (o.append text).2.Unlimited := by
  obtain ⟨base, gate, asked⟩ := o
  obtain ⟨hgate, hlimit⟩ := h
  cases base with
  | writer w =>
    refine ⟨hgate, fun w' hw' => ?_⟩
    cases hw'
    rw [WriterSink.limit_append]
    exact hlimit w rfl
  | _ => exact ⟨hgate, fun w' hw' => by cases hw'⟩

namespace Streams

/-- The outlet never asks for a pause. -/
abbrev Unlimited (s : Streams) : Prop := s.outlet.Unlimited

variable {s : Streams} (h : s.Unlimited)

include h

theorem Unlimited.append (sink : Sink) (text : String) : (s.append sink text).2.Unlimited := by
  induction sink generalizing s text with
  | root => exact Outlet.Unlimited.append h text
  | buffer id => exact h
  | through id stage next ih =>
    cases stage with
    | lineBreaks =>
      unfold Streams.append
      split
      · exact h
      · exact ih (s := s.setStage id _) h _
    | _ =>
      unfold Streams.append
      split
      · exact h
      · exact ih h _

theorem Unlimited.closeAll (stages : List (StageId × Stage × Sink)) :
    (s.closeAll stages).2.Unlimited := by
  induction stages generalizing s with
  | nil => exact h
  | cons x rest ih =>
    obtain ⟨id, stage, next⟩ := x
    refine ih (s := (s.closeStage id stage next).2) ?_
    unfold Streams.closeStage
    cases stage with
    | lineBreaks =>
      simp only
      split
      · exact Unlimited.append (s := s.setStage id {}) h next _
      · exact h
    | _ => exact h

theorem Unlimited.wrap (stages : List Stage) (out : Sink) : (s.wrap stages out).2.Unlimited := by
  induction stages with
  | nil => exact h
  | cons stage rest ih => exact ih

theorem Unlimited.isLimited (sink : Sink) : s.isLimited sink = (false, s) := by
  induction sink with
  | root => simp only [Streams.isLimited, Outlet.isLimited_unlimited h]
  | buffer id => rfl
  | through id stage next ih => exact ih

end Streams

/-! ## Stores and worlds -/

open Direct (World Act Setup Scene)

theorem Direct.Act.bind_apply {α β : Type} (y : Act α) (g : α → Act β) (w : World) :
    (y >>= g) w = match y w with
    | .ok a w' => g a w'
    | .error e w' => .error e w' := by
  change EStateM.bind y g w = _
  unfold EStateM.bind
  cases y w <;> rfl

/-- A store that holds the output, the messages and the numbers of a world. -/
structure Store.Shows (made : Array Thunk) (states : Array Future) (s : Store)
    (w : World) : Prop where
  tidy : Thunk.AllTidy made
  sound : s.heap.Sound made
  states : s.heap.futures.states = states
  fresh : s.heap.fresh = w.fresh
  streams : s.streams = w.streams
  messages : s.messages = w.log
  unlimited : w.streams.Unlimited

/-- The same output and messages, after a run that has stopped. -/
structure Store.Left (s : Store) (w : World) : Prop where
  streams : s.streams = w.streams
  messages : s.messages = w.log

namespace Store.Shows

variable {made : Array Thunk} {states : Array Future} {s : Store} {w : World}
  (h : s.Shows made states w)

include h

theorem left : s.Left w := ⟨h.streams, h.messages⟩

theorem withStreams {streams : Streams} (hs : streams.Unlimited) :
    ({ s with streams } : Store).Shows made states { w with streams } :=
  ⟨h.tidy, h.sound, h.states, h.fresh, rfl, h.messages, hs⟩

theorem setStatus (id : RenderId) (status : Status) : (s.setStatus id status).Shows made states w :=
  ⟨h.tidy, h.sound, h.states, h.fresh, h.streams, h.messages, h.unlimited⟩

theorem logged {e : Log.Entry} (he : e.level = .info) :
    (s.logged e).Shows made states { w with log := w.log ++ [e] } := by
  refine ⟨h.tidy, h.sound, h.states, h.fresh, h.streams, ?_, h.unlimited⟩
  simp only [Store.messages, Store.logged, Array.toList_push, List.filter_append, List.filter_cons,
    he, decide_true, if_true, List.filter_nil]
  rw [← h.messages]
  rfl

end Store.Shows

/-- The same cells below a mark. -/
structure Cells.SameBelow (mark : Nat) (cs cs' : Cells) : Prop where
  size : cs'.size = cs.size
  read : ∀ i, i < mark → cs'.read i = cs.read i

namespace Cells.SameBelow

variable {mark : Nat} {cs cs' cs'' : Cells}

theorem refl (mark : Nat) (cs : Cells) : SameBelow mark cs cs := ⟨rfl, fun _ _ => rfl⟩

theorem trans (h : SameBelow mark cs cs') (h' : SameBelow mark cs' cs'') : SameBelow mark cs cs'' :=
  ⟨h'.size.trans h.size, fun i hi => (h'.read i hi).trans (h.read i hi)⟩

theorem mono {low : Nat} (h : SameBelow mark cs cs') (hle : low ≤ mark) : SameBelow low cs cs' :=
  ⟨h.size, fun i hi => h.read i (Nat.lt_of_lt_of_le hi hle)⟩

theorem write (h : SameBelow mark cs cs') {i : Nat} (hi : mark ≤ i) (c : Cell) :
    SameBelow mark cs (cs'.write i c) :=
  ⟨(size_write ..).trans h.size, fun j hj => by
    rw [read_write_of_ne _ (Nat.ne_of_gt (Nat.lt_of_lt_of_le hj hi))]
    exact h.read j hj⟩

theorem clear (h : SameBelow mark cs cs') {low : Nat} (hi : mark ≤ low) (high : Nat) :
    SameBelow mark cs (cs'.clear low high) :=
  ⟨(size_clear ..).trans h.size, fun j hj => by
    rw [read_clear, if_neg fun hin =>
      Nat.lt_irrefl j (Nat.lt_of_lt_of_le hj (Nat.le_trans hi hin.1))]
    exact h.read j hj⟩

end Cells.SameBelow

/-- A machine whose cells below a mark are still what they were, and whose store shows a world. -/
structure Machine.Still (mark : Nat) (made : Array Thunk) (states : Array Future) (m m' : Machine)
    (w : World) :
    Prop where
  cells : m.cells.SameBelow mark m'.cells
  store : m'.store.Shows made states w

/-! ## Runs side by side -/

namespace Exec

/-- An execution ends as a direct run does; one that waits `waits`. -/
def Follows {α β : Type} (waits : Prop) (ok : α → Machine → β → World → Prop) :
    EStateM.Result Interrupt Machine α → EStateM.Result Stop World β → Prop
  | .ok a m, .ok b w => ok a m b w
  | .error (.failed e) m, .error (.failed e') w => e = e' ∧ m.store.Left w
  | .error (.waiting p) m, .error (.waiting p') w => waits ∧ p = p' ∧ m.store.Left w
  | .error .exhausted _, .error .exhausted _ => True
  | _, _ => False

variable {α β γ δ : Type} {waits : Prop} {sur : Surroundings} {m : Machine} {w : World}

theorem Follows.bind {x : Exec α} {y : Act β} {f : α → Exec γ} {g : β → Act δ}
    {mid : α → Machine → β → World → Prop} {ok : γ → Machine → δ → World → Prop}
    (hx : Follows waits mid (x sur m) (y w))
    (hf : ∀ a m' b w', mid a m' b w' → Follows waits ok (f a sur m') (g b w')) :
    Follows waits ok ((x >>= f) sur m) ((y >>= g) w) := by
  rw [bind_apply, Act.bind_apply]
  cases hxm : x sur m with
  | ok a m' =>
    cases hyw : y w with
    | ok b w' => rw [hxm, hyw] at hx; exact hf a m' b w' hx
    | error e w' => rw [hxm, hyw] at hx; cases e <;> exact hx.elim
  | error e m' =>
    cases hyw : y w with
    | ok b w' => rw [hxm, hyw] at hx; cases e <;> exact hx.elim
    | error e' w' => rw [hxm, hyw] at hx; cases e <;> cases e' <;> exact hx

/-- A step that has no counterpart in the direct run. -/
theorem Follows.skip {x : Exec α} {f : α → Exec γ} {y : EStateM.Result Stop World δ} {a : α}
    {m' : Machine} {ok : γ → Machine → δ → World → Prop} (hx : x sur m = .ok a m')
    (hf : Follows waits ok (f a sur m') y) :
    Follows waits ok ((x >>= f) sur m) y := by
  rw [bind_apply, hx]
  exact hf

/-- Work after the direct run is through. -/
theorem Follows.finish {x : Exec α} {f : α → Exec γ} {y : EStateM.Result Stop World β}
    {mid : α → Machine → β → World → Prop} {ok : γ → Machine → β → World → Prop}
    (hx : Follows waits mid (x sur m) y)
    (hf : ∀ a m' b w', mid a m' b w' → ∃ c m'', f a sur m' = .ok c m'' ∧ ok c m'' b w') :
    Follows waits ok ((x >>= f) sur m) y := by
  rw [bind_apply]
  cases hxm : x sur m with
  | ok a m' =>
    rw [hxm] at hx
    cases y with
    | ok b w =>
      obtain ⟨c, m'', hc, hok⟩ := hf a m' b w hx
      change Follows waits ok (f a sur m') _
      rw [hc]
      exact hok
    | error e w => cases e <;> exact hx.elim
  | error e m' =>
    rw [hxm] at hx
    cases y with
    | ok b w => cases e <;> exact hx.elim
    | error e' w => cases e <;> cases e' <;> exact hx

theorem Follows.imp {x : EStateM.Result Interrupt Machine α} {y : EStateM.Result Stop World β}
    {ok ok' : α → Machine → β → World → Prop} (h : Follows waits ok x y)
    (hok : ∀ a m b w, ok a m b w → ok' a m b w) :
    Follows waits ok' x y := by
  cases x with
  | ok a m =>
    cases y with
    | ok b w => exact hok a m b w h
    | error e w => cases e <;> exact h.elim
  | error e m =>
    cases y with
    | ok b w => cases e <;> exact h.elim
    | error e' w => cases e <;> cases e' <;> exact h

/-- What is known of both ends. -/
theorem Follows.also {x : EStateM.Result Interrupt Machine α} {y : EStateM.Result Stop World β}
    {ok : α → Machine → β → World → Prop} (h : Follows waits ok x y) {p : α → β → Prop}
    (hp : ∀ a m b w, x = .ok a m → y = .ok b w → p a b) :
    Follows waits (fun a m b w => ok a m b w ∧ p a b) x y := by
  cases x with
  | ok a m =>
    cases y with
    | ok b w => exact ⟨h, hp a m b w rfl rfl⟩
    | error e w => cases e <;> exact h.elim
  | error e m =>
    cases y with
    | ok b w => cases e <;> exact h.elim
    | error e' w => cases e <;> cases e' <;> exact h

variable {made : Array Thunk} {states : Array Future}

/-- Output through sinks. -/
theorem onSink_follows (hm : m.store.Shows made states w) {f : Streams → Except Failure α × Streams}
    (hf : ∀ s : Streams, s.Unlimited → (f s).2.Unlimited) :
    Follows waits (fun a m' b w' => a = b ∧ m'.cells = m.cells ∧ m'.store.Shows made states w' ∧
        m'.store.renders = m.store.renders)
      (onSink (fun s => ((f s.streams).1, { s with streams := (f s.streams).2 })) sur m)
      (Act.onSink f w) := by
  have hs : m.store.streams = w.streams := hm.streams
  unfold Act.onSink
  have hshow := hm.withStreams (hf w.streams hm.unlimited)
  cases hr : (f w.streams).1 with
  | ok a =>
    rw [onSink_ok (a := a) (by rw [hs]; exact hr),
      show f w.streams = (.ok a, (f w.streams).2) by rw [← hr]]
    rw [hs]
    exact ⟨rfl, rfl, hshow, rfl⟩
  | error e =>
    rw [onSink_error (e := e) (by rw [hs]; exact hr),
      show f w.streams = (.error e, (f w.streams).2) by rw [← hr]]
    rw [hs]
    exact ⟨rfl, hshow.left⟩

theorem append_follows (hm : m.store.Shows made states w) (sink : Sink) (text : String) :
    Follows waits (fun _ m' (_ : Unit) w' => m'.cells = m.cells ∧ m'.store.Shows made states w')
      (onSink (·.append sink text) sur m) (Act.write sink text w) :=
  (onSink_follows (f := (·.append sink text)) hm fun _ hs => hs.append sink text).imp
    fun _ _ _ _ h => ⟨h.2.1, h.2.2.1⟩

theorem close_follows (hm : m.store.Shows made states w) (entry : Sink) (stages : Nat) :
    Follows waits (fun _ m' (_ : Unit) w' => m'.cells = m.cells ∧ m'.store.Shows made states w')
      (close entry stages sur m) (Act.close entry stages w) :=
  (onSink_follows (f := (·.closeAll (entry.stages stages))) hm fun _ hs => hs.closeAll _).imp
    fun _ _ _ _ h => ⟨h.2.1, h.2.2.1⟩

theorem wrap_follows (hm : m.store.Shows made states w) (fs : List FilterCall)
    (args : List (List Value)) (futures : Futures) (kind : ContentKind) (sink : Sink) :
    Follows waits (fun entry m' entry' w' => entry = entry' ∧ m'.cells = m.cells ∧
      m'.store.Shows made states w') (wrap fs args kind sink sur m)
      (Act.wrap futures (Eval.applied fs args) kind sink w) := by
  have hrun : wrap fs args kind sink sur m =
      (ofExcept (Filter.stages m.store.heap.futures (Eval.applied fs args) kind) >>= fun stages =>
        onStore fun s => ((s.streams.wrap stages sink).1,
            { s with streams := (s.streams.wrap stages sink).2 })) sur m :=
    rfl
  unfold Act.wrap
  rw [hrun, Filter.stages_futures m.store.heap.futures futures]
  cases Filter.stages futures (Eval.applied fs args) kind with
  | error e => exact ⟨rfl, hm.left⟩
  | ok stages =>
    have hs : m.store.streams = w.streams := hm.streams
    have hshow := hm.withStreams (hm.unlimited.wrap stages sink)
    refine ⟨by rw [hs], rfl, ?_⟩
    change Store.Shows made states { m.store with streams := (m.store.streams.wrap stages sink).2 }
      _
    rw [hs]
    exact hshow

end Exec

/-! ## Evaluations -/

namespace Eval

variable {α β : Type} {x : Eval α} {f : α → β} {env : Env} {m n : Memory}

theorem map_apply (f : α → β) (x : Eval α) (env : Env) (m : Memory) : (f <$> x) env m =
    match x env m with
    | .ok a m' => .ok (f a) m'
    | .error e m' => .error e m' := by
  rw [map_eq_pure_bind, bind_apply]
  rfl

theorem map_ending {r : Except Stop α} (h : x env m = ending r n) :
    (f <$> x) env m = ending (r.map f) n := by
  rw [map_apply, h]
  cases r <;> rfl

theorem ending_of_map {r : Except Stop β} (h : (f <$> x) env m = ending r n) :
    ∃ r', x env m = ending r' n ∧ r'.map f = r := by
  rw [map_apply] at h
  cases hx : x env m with
  | ok a k =>
    rw [hx] at h
    obtain ⟨rfl, rfl⟩ := ending_inj (r := .ok (f a)) h
    exact ⟨.ok a, rfl, rfl⟩
  | error e k =>
    rw [hx] at h
    obtain ⟨rfl, rfl⟩ := ending_inj (r := .error e) h
    exact ⟨.error e, rfl, rfl⟩

end Eval

/-- What a render was given. -/
def Render.scene (rd : Render) : Scene :=
  { template := rd.program.name, params := rd.params, injected := rd.injected, data := rd.data }

/-- An instruction that is set up evaluates under the next number, on clean cells. -/
theorem Machine.setUp_still {m : Machine} {made : Array Thunk} {states : Array Future}
    {w : World} {i : Instr} {x : Extent} (hx : i.extent = some x) (he : i.op.evaluates = true)
    (hm : m.store.Shows made states w) :
    (m.setUp i).maker = w.fresh ∧
    Machine.Still x.low made states m (m.setUp i) { w with fresh := w.fresh + 1 } ∧ ∀ j, x.low ≤ j →
    j < x.high → (m.setUp i).cells.read j = .empty := by
  have hcells : (m.setUp i).cells = m.cells.clear x.low x.high := by
    simp only [Machine.setUp, Instr.clearScratch, hx]
  have hfresh : (m.setUp i).store.heap.fresh = w.fresh + 1 := by
    simp only [Machine.setUp, he, if_true, hm.fresh]
  refine ⟨hm.fresh, ⟨?_, ?_⟩, fun j hlow hhigh => ?_⟩
  · rw [hcells]
    exact (Cells.SameBelow.refl ..).clear (Nat.le_refl _) _
  · exact ⟨hm.tidy, ⟨hm.sound.size, hm.sound.thunks⟩, hm.states, hfresh, hm.streams, hm.messages,
      hm.unlimited⟩
  · rw [hcells, Cells.read_clear, if_pos ⟨hlow, hhigh⟩]

/-- An instruction that evaluates nothing is set up without a number. -/
theorem Machine.setUp_plain (m : Machine) {op : Op} (he : op.evaluates = false) :
    m.setUp { op } = { m with maker := m.store.heap.fresh } := by
  simp only [Machine.setUp, Instr.clearScratch, he, Bool.false_eq_true, if_false]

namespace Exec

variable {α β γ : Type} {su : Setup} {rd : Render} {reg : Registry} {m : Machine} {w : World}
  {made : Array Thunk}

theorem eval_ok {act : Eval α} {sur : Surroundings} {a : α} {m' : Machine}
    (h : eval act sur m = .ok a m') :
    ∃ mem, act (env sur m) ⟨m.cells, m.store.heap⟩ = .ok a mem ∧ m' = after m mem := by
  rw [eval_apply] at h
  cases hact : act (env sur m) ⟨m.cells, m.store.heap⟩ with
  | error stop mem => rw [hact] at h; cases h
  | ok a' mem =>
    rw [hact] at h
    cases h
    exact ⟨mem, rfl, rfl⟩

/-- What an instruction evaluates comes to the same as in the direct run. -/
theorem eval_follows {i : Instr} {x : Extent} (hx : i.extent = some x) (he : i.op.evaluates = true)
    (hle : x.low ≤ x.memo) (hm : m.store.Shows made su.futures.states w)
    {act : Strategy → Eval α} {d : Eval β} {f : α → γ} {g : β → γ} {table : Table}
    {valued : Nat → Prop} (ha : Operand (· < x.low) (keepIn x.memo x.high table) valued act)
    (hv : Eval.Valued valued (m.setUp i).cells)
    (hd : Pairing.Alike ⟨su.futures.states, { rd.scene.env su with maker := w.fresh },
        (m.setUp i).cells, #[]⟩ γ (f <$> act (.meaning made)) (g <$> d)) :
    Follows (i.extent.isSome = true) (fun a m' b w' => f a = g b ∧
      m.Still x.low made su.futures.states m' w')
      (eval (act .usual) ⟨rd, reg, su.context⟩ (m.setUp i)) (rd.scene.eval su d w) := by
  obtain ⟨hmaker, hstill, hclean⟩ := Machine.setUp_still hx he hm
  generalize m.setUp i = m₁ at hmaker hstill hclean hv hd ⊢
  have henv : env ⟨rd, reg, su.context⟩ m₁ = { rd.scene.env su with maker := w.fresh } := by
    rw [← hmaker]
    rfl
  rw [← henv] at hd
  -- the cells of the instruction, and what is kept in them
  let own : Table := fun j => if x.memo ≤ j ∧ j < x.high then table j else none
  have hkeeps : m₁.memory.Keeps made own (env ⟨rd, reg, su.context⟩ m₁) := by
    refine .of_clean hstill.store.sound (fun j v hj hv => ?_) _
    by_cases hin : x.memo ≤ j ∧ j < x.high
    · have hempty := hclean j (Nat.le_trans hle hin.1) hin.2
      change m₁.cells.read j = .value v at hv
      rw [hempty] at hv
      cases hv
    · exact hj (if_neg hin)
  have hsee : ∀ j, j < x.low → own j = none := fun j hj =>
    if_neg fun hin => Nat.lt_irrefl j (Nat.lt_of_lt_of_le hj (Nat.le_trans hle hin.1))
  obtain ⟨r, mem, n, b, husual, hmeaning, hmoves, hkeeps', _, _⟩ :=
    hkeeps.eval hstill.store.tidy ha hsee
    fun p j y hk => (if_pos ⟨hk.1, hk.2.1⟩).trans hk.2.2
  obtain ⟨r', _, k, hl, hr, _, _⟩ :=
    hd m₁.memory ⟨#[], { futures := su.futures }⟩ hstill.store.states rfl rfl rfl
  obtain ⟨hsame, _⟩ := Eval.ending_inj ((Eval.map_ending hmeaning).symm.trans hl)
  obtain ⟨rd', hdirect, hmap⟩ := Eval.ending_of_map hr
  rw [henv] at hdirect
  rw [← hsame] at hmap
  have hshows : (after m₁ mem).store.Shows made su.futures.states { w with fresh := w.fresh + 1 } :=
    ⟨hstill.store.tidy, hkeeps'.heap, hmoves.states.trans hstill.store.states,
      hmoves.fresh.trans hstill.store.fresh, hstill.store.streams, hstill.store.messages,
      hstill.store.unlimited⟩
  have hmeets : Meets ⟨rd, reg, su.context⟩ m₁ _ _ (eval (act .usual)) :=
    eval_meets (fun _ => True) ha (fun _ _ _ _ => trivial) hv
  unfold Meets at hmeets
  rw [eval_ending husual] at hmeets ⊢
  unfold Scene.eval Act.eval
  simp only
  rw [hdirect]
  cases r with
  | ok a =>
    cases rd' with
    | error e => cases hmap
    | ok b =>
      refine ⟨(Except.ok.inj hmap).symm, ?_, hshows⟩
      refine hstill.cells.trans ⟨hmoves.size, fun j hj => hmoves.rest j (hsee j hj)⟩
  | error e =>
    cases rd' with
    | ok b => cases hmap
    | error e' =>
      obtain rfl : e' = e := Except.error.inj hmap
      cases e' with
      | failed cause => exact ⟨rfl, hshows.left⟩
      | waiting p => exact ⟨by rw [hx]; rfl, rfl, hshows.left⟩
      | exhausted => trivial
      | broken => exact hmeets.1.elim

end Exec

/-! ## Where a machine stands -/

/-- The sink that output goes to; a cell it is found in lies below a mark. -/
def Out.Reaches (rd : Render) (mark : Nat) (cells : Cells) (sink : Sink) : Out → Prop
  | .sink => sink = rd.sink
  | .cell slot => slot < mark ∧
    ((∃ id, cells.read slot = .buffer id ∧ sink = .buffer id) ∨ ∃ stages,
      cells.read slot = .wrap sink stages)

/-- What is done with a cell is done with what it holds. -/
theorem Exec.cell_bind {α : Type} {slot : Nat} {c : Cell} {m : Machine} (h : m.cells.read slot = c)
    (f : Cell → Exec α) (sur : Surroundings) : (Exec.cell slot >>= f) sur m = f c sur m := by
  subst h
  rfl

namespace Out.Reaches

variable {rd : Render} {mark : Nat} {cells : Cells} {sink : Sink} {out : Out}
  (h : out.Reaches rd mark cells sink)

include h

theorem keep {cells' : Cells} (hc : cells.SameBelow mark cells') :
    out.Reaches rd mark cells' sink := by
  cases out with
  | sink => exact h
  | cell slot =>
    refine ⟨h.1, ?_⟩
    rw [hc.read slot h.1]
    exact h.2

theorem mono {mark' : Nat} (hle : mark ≤ mark') : out.Reaches rd mark' cells sink := by
  cases out with
  | sink => exact h
  | cell slot => exact ⟨Nat.lt_of_lt_of_le h.1 hle, h.2⟩

theorem target {reg : Registry} {context : Context} {m : Machine} (hc : m.cells = cells) :
    Exec.target out ⟨rd, reg, context⟩ m = .ok sink m := by
  subst hc
  cases out with
  | sink =>
    have hs : sink = rd.sink := h
    rw [hs]
    rfl
  | cell slot =>
    obtain ⟨_, ⟨id, hid, rfl⟩ | ⟨stages, hentry⟩⟩ := h
    · exact Exec.cell_bind hid _ _
    · exact Exec.cell_bind hentry _ _

end Out.Reaches

theorem Exec.write_follows {waits : Prop} {rd : Render} {reg : Registry} {context : Context}
    {m : Machine} {w : World} {made : Array Thunk} {states : Array Future}
    (hm : m.store.Shows made states w) {out : Out} {mark : Nat} {sink : Sink}
    (ho : out.Reaches rd mark m.cells sink) (text : String) :
    Follows waits (fun _ m' (_ : Unit) w' => m'.cells = m.cells ∧ m'.store.Shows made states w')
      (write out text ⟨rd, reg, context⟩ m) (Act.write sink text w) :=
  .skip (ho.target rfl) (append_follows hm sink text)

/-- A cell below a mark, which holds no deferred value but those made. -/
def Machine.Sees (m : Machine) (made : Array Thunk) (mark : Nat) : Seeing := fun i =>
  i < mark ∧ ∀ id, m.cells.read i = .thunk id → id < made.size

/-- A machine stands where a direct run does: its store shows the world, and the locals of a builder
are in its cells. -/
structure Situated (su : Setup) (made : Array Thunk) (b : Program.Builder) (m : Machine)
    (r : Reading) (w : World) :
    Prop where
  store : m.store.Shows made su.futures.states w
  slots : b.slots.Wf
  seen : b.locals.Seen (m.Sees made b.slots.mark)
  reads : ∀ env, b.locals.ReadAs ⟨su.futures.states, env, m.cells, #[]⟩ (Thunk.meaning made) r

theorem Thunk.Extends.size_le {made later : Array Thunk} (h : Thunk.Extends made later) :
    made.size ≤ later.size := by
  by_cases hz : made.size = 0
  · omega
  · have hlast := h (made.size - 1) (by omega)
    have hlt : made.size - 1 < made.size := by omega
    have := (Array.getElem?_eq_some_iff.1 (hlast.trans (Array.getElem?_eq_getElem hlt))).1
    omega

theorem Thunk.Extends.trans {made later last : Array Thunk} (h : Thunk.Extends made later)
    (h' : Thunk.Extends later last) : Thunk.Extends made last := fun id hid =>
  (h' id (Nat.lt_of_lt_of_le hid h.size_le)).trans (h id hid)

namespace Situated

variable {su : Setup} {made : Array Thunk} {b b' : Program.Builder} {m m' : Machine} {r : Reading}
  {w w' : World}
  (h : Situated su made b m r w)

include h

/-- The cells of locals lie below the mark. -/
theorem below : b.locals.Seen (· < b.slots.mark) := h.seen.mono fun _ hi => hi.1

/-- Locals can be read from all cells that are the same below the mark. -/
theorem readAs {cells : Cells} (hc : m.cells.SameBelow b.slots.mark cells) (env : Env) :
    b.locals.ReadAs ⟨su.futures.states, env, cells, #[]⟩ (Thunk.meaning made) r :=
  (h.reads env).keep h.seen (.refl made) fun i hi => ⟨hc.read i hi.1, hi.2⟩

/-- After work that leaves the locals alone. -/
theorem still {made' : Array Thunk} (he : Thunk.Extends made made')
    (hs : m.Still b.slots.mark made' su.futures.states m' w') : Situated su made' b m' r w' where
  store := hs.store
  slots := h.slots
  seen := h.seen.mono fun i hi => ⟨hi.1, fun id hid => by
    rw [hs.cells.read i hi.1] at hid
    exact Nat.lt_of_lt_of_le (hi.2 id hid) he.size_le⟩
  reads env := (h.reads env).keep h.seen he fun i hi => ⟨hs.cells.read i hi.1, hi.2⟩

/-- Slots were taken, or given back. -/
theorem grown (hg : b.slots.Grows b'.slots) (hl : b'.locals = b.locals) :
    Situated su made b' m r w where
  store := h.store
  slots := hg.wf
  seen := by
    rw [hl]
    exact h.seen.mono fun i hi => ⟨Nat.lt_of_lt_of_le hi.1 hg.mark, hi.2⟩
  reads := by rw [hl]; exact h.reads

theorem resized (hr : Program.Resized b b') : Situated su made b' m r w :=
    h.grown (hr.grows h.slots) hr.locals

theorem inner : Situated su made b.inner m r w where
  store := h.store
  slots := h.slots.enter
  seen := h.seen.push
  reads env := (h.reads env).push

end Situated

end Interlude
