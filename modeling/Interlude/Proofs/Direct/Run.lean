import Interlude.Proofs.Direct.Play
/-!
# Code plays plans

The code of a plan plays the plan: from a machine that stands where the direct run does it gets to
the end of the code, and stands there where the direct run stands after the plan. The cells below
the mark of the builder are left alone, so code in a scope of its own leaves all locals as they were
(`Carries.scope`).
-/

namespace Interlude

open Direct (World Act Setup Scene Caller)

/-! ## Code in a program -/

/-- Code stands in a program. -/
def Program.Has (p : Program) (pc : Nat) (code : List Instr) : Prop :=
  ∀ k i, code[k]? = some i → p.code[pc + k]? = some i

namespace Program.Has

variable {p : Program} {pc : Nat} {i : Instr} {code code' : List Instr}

theorem head (h : p.Has pc (i :: code)) : p.code[pc]? = some i := h 0 i rfl

theorem tail (h : p.Has pc (i :: code)) : p.Has (pc + 1) code := fun k j hj => by
  rw [Nat.add_assoc, Nat.add_comm 1 k]
  exact h (k + 1) j hj

theorem left (h : p.Has pc (code ++ code')) : p.Has pc code := fun k j hj => by
  have hlt := (List.getElem?_eq_some_iff.1 hj).1
  exact h k j (by rw [List.getElem?_append_left hlt]; exact hj)

theorem right (h : p.Has pc (code ++ code')) : p.Has (pc + code.length) code' := fun k j hj => by
  rw [Nat.add_assoc]
  refine h (code.length + k) j ?_
  rw [List.getElem?_append_right (Nat.le_add_right ..), Nat.add_sub_cancel_left]
  exact hj

end Program.Has

/-! ## Machines after some work -/

namespace Machine.Still

variable {mark low : Nat} {made made' : Array Thunk} {states : Array Future} {m m' m'' : Machine}
  {w w' : World}

theorem clearMemo (h : m.Still mark made states m' w) {i : Instr} {x : Extent}
    (hx : i.extent = some x) (hle : mark ≤ x.memo) :
    m.Still mark made states { m' with cells := i.clearMemo m'.cells } w := by
  refine ⟨?_, h.store⟩
  simp only [Instr.clearMemo, hx]
  exact h.cells.clear hle _

theorem trans (h : m.Still mark made states m' w) (h' : m'.Still mark made' states m'' w') :
    m.Still mark made' states m'' w' := ⟨h.cells.trans h'.cells, h'.store⟩

theorem mono (h : m.Still mark made states m' w) (hle : low ≤ mark) :
    m.Still low made states m' w :=
  ⟨h.cells.mono hle, h.store⟩

/-- A cell behind the mark is written. -/
theorem write (h : m.Still mark made states m' w) {i : Nat} (hi : mark ≤ i) (c : Cell) :
    m.Still mark made states { m' with cells := m'.cells.write i c } w :=
    ⟨h.cells.write hi c, h.store⟩

end Machine.Still

theorem Instr.read_clearMemo {i : Instr} {x : Extent} (hx : i.extent = some x) {j : Nat}
    (hj : j < x.memo) (cells : Cells) : (i.clearMemo cells).read j = cells.read j := by
  simp only [Instr.clearMemo, hx]
  rw [Cells.read_clear, if_neg fun hin => Nat.lt_irrefl j (Nat.lt_of_lt_of_le hj hin.1)]

section

variable (su : Setup) (made : Array Thunk) (mark : Nat) (m m' : Machine) (w : World)

/-- A machine after work that left the cells below a mark alone. -/
def Machine.Went : Prop := ∃ made', Thunk.Extends made made' ∧
    m.Still mark made' su.futures.states m' w

/-- The same, with the locals of a builder in place. -/
def Machine.Came (b : Program.Builder) (r : Reading) : Prop :=
  ∃ made', Thunk.Extends made made' ∧ m.Still mark made' su.futures.states m' w ∧
    Situated su made' b m' r w

end

theorem Machine.Still.went {su : Setup} {made : Array Thunk} {mark : Nat}
    {m m' : Machine} {w : World} (h : m.Still mark made su.futures.states m' w) :
    m.Went su made mark m' w := ⟨made, .refl made, h⟩

/-- Work after work, of which the first may have made room for locals. -/
theorem Machine.Went.after {su : Setup} {made made' : Array Thunk} {mark mark' : Nat}
    {m m' m'' : Machine} {w w' : World} (he : Thunk.Extends made made')
    (h : m.Still mark made' su.futures.states m' w) (h' : m'.Went su made' mark' m'' w')
    (hle : mark ≤ mark') : m.Went su made mark m'' w' := by
  obtain ⟨made'', he', hs⟩ := h'
  exact ⟨made'', he.trans he', h.trans (hs.mono hle)⟩

/-! ## What instructions evaluate -/

/-- All cells below a mark are in use. -/
def Shapes.below (mark : Nat) : Shapes := fun i => if i < mark then .buffer else .free

theorem Shapes.below_used {mark i : Nat} : Shapes.below mark i ≠ .free ↔ i < mark := by
  unfold Shapes.below
  split
  · next h => exact ⟨fun _ => h, fun _ => by simp⟩
  · next h => exact ⟨fun hne => (hne rfl).elim, fun hlt => (h hlt).elim⟩

theorem Out.Reaches.fits {rd : Render} {mark : Nat} {cells : Cells} {sink : Sink} {out : Out}
    (h : out.Reaches rd mark cells sink) : out.Fits (Shapes.below mark) := by
  cases out with
  | sink => trivial
  | cell slot => exact .inl (if_pos h.1)

namespace Situated

variable {su : Setup} {made : Array Thunk} {b b' : Program.Builder} {m m' : Machine} {r : Reading}
  {w w' : World}
  (h : Situated su made b m r w)

include h

theorem holds : b.Holds (Shapes.below b.slots.mark) where
  slots := h.slots
  locals := h.below.mono fun _ hi => Shapes.below_used.2 hi
  bound _ hi := Shapes.below_used.1 hi

/-- The parts of an instruction touch only cells below the mark and some behind it. If locals can be
read, their code comes to what the parts come to: `C` says so. -/
theorem parts {α : Type} {a : Analyzer} {state : Option SlotKind} {parts : Nat → Program.Build α}
    {p : α} {slot : Nat} {x : Extent}
    (hstep : Program.Build.step state parts a b = .ok ((p, slot, x), b'))
    {T : Keeping → List Nat → Prop} {C : Pairing → (ThunkId → Eval Value) → Prop}
    (hparts : ∀ b₁ b₂, b₁.slots.Wf → b₁.locals.Seen (· < b.slots.mark) →
      parts slot a b₁ = .ok (p, b₂) → Program.Part b₁ b₂ T ∧ ∀ P force, b₁.locals.ReadAs P force r →
      C P force) :
    Program.Build.Stepped b b' state slot x ∧
    (∀ place, ∃ table, T (keepIn x.memo x.high table) place) ∧ ∀ env cells,
    m.cells.SameBelow b.slots.mark cells →
    C ⟨su.futures.states, env, cells, #[]⟩ (Thunk.meaning made) := by
  obtain ⟨hx, ht⟩ := Program.Build.step_ok h.slots hstep fun b₁ b₂ hw hl hp =>
    (hparts b₁ b₂ hw (by rw [hl]; exact h.below) hp).1
  refine ⟨hx, ht, fun env cells hc => ?_⟩
  obtain ⟨b₁, b₂, hw, hl, hp⟩ := Program.Build.step_parts h.slots hstep
  refine (hparts b₁ b₂ hw (by rw [hl]; exact h.below) hp).2 _ _ ?_
  rw [hl]
  exact h.readAs hc env

/-- The same for one expression. -/
theorem exprParts {a : Analyzer} {e : Expr} {c : Compiled} {slot : Nat} {x : Extent}
    (hstep : Program.Build.step none (fun _ => Program.Build.expr e) a b = .ok ((c, slot, x), b')) :
    Program.Build.Stepped b b' none slot x ∧
      (∀ place, ∃ table, c.Touches (· < b.slots.mark) (keepIn x.memo x.high table) place) ∧
      ∀ env cells, m.cells.SameBelow b.slots.mark cells →
        c.Comes ⟨su.futures.states, env, cells, #[]⟩ (Thunk.meaning made) (e.eval r) :=
  h.parts hstep fun _ _ hw hs hc =>
    ⟨Program.Build.expr_ok hw hs hc, fun _ _ hr => (Program.Build.expr_comes hr hc).1⟩

/-- What an instruction evaluates comes to what the direct run evaluates. -/
theorem evaluates {α β γ : Type} {state : Option SlotKind} {slot : Nat} {x : Extent}
    (hx : Program.Build.Stepped b b' state slot x) {i : Instr} (hi : i.extent = some x)
    (he : i.op.evaluates = true) {act : Strategy → Eval α} {d : Eval β} {f : α → γ} {g : β → γ}
    {table : Table} {valued : Nat → Prop}
    (ha : Operand (· < b.slots.mark) (keepIn x.memo x.high table) valued act)
    (hv : ∀ j, valued j → j < b.slots.mark ∧ ∃ v, m.cells.read j = .value v)
    (hd : ∀ env cells, m.cells.SameBelow b.slots.mark cells →
      Pairing.Alike ⟨su.futures.states, env, cells, #[]⟩ γ (f <$> act (.meaning made)) (g <$> d))
    (rd : Render) (reg : Registry) :
    Exec.Follows (i.extent.isSome = true)
      (fun a m' a' w' => f a = g a' ∧ m.Still b.slots.mark made su.futures.states m' w')
      (Exec.eval (act .usual) ⟨rd, reg, su.context⟩ (m.setUp i)) (rd.scene.eval su d w) := by
  have hsame := (Machine.setUp_still hi he h.store).2.1.cells
  rw [← hx.low] at ha hv hd ⊢
  refine Exec.eval_follows hi he hx.low_le h.store ha (fun j hj => ?_) (hd _ _ hsame)
  obtain ⟨hlt, v, hread⟩ := hv j hj
  exact ⟨v, by rw [hsame.read j hlt]; exact hread⟩

/-- The same where both come to the same value. -/
theorem eval_same {α : Type} {state : Option SlotKind} {slot : Nat} {x : Extent}
    (hx : Program.Build.Stepped b b' state slot x) {i : Instr} (hi : i.extent = some x)
    (he : i.op.evaluates = true) {act : Strategy → Eval α} {d : Eval α} {table : Table}
    (ha : Operand (· < b.slots.mark) (keepIn x.memo x.high table) (fun _ => False) act)
    (hd : ∀ env cells, m.cells.SameBelow b.slots.mark cells →
      Pairing.Alike ⟨su.futures.states, env, cells, #[]⟩ α (act (.meaning made)) d) (rd : Render)
    (reg : Registry) :
    Exec.Follows (i.extent.isSome = true) (fun a m' a' w' =>
      a = a' ∧ m.Still b.slots.mark made su.futures.states m' w')
      (Exec.eval (act .usual) ⟨rd, reg, su.context⟩ (m.setUp i)) (rd.scene.eval su d w) := by
  refine h.evaluates (f := id) (g := id) hx hi he ha (fun _ hj => hj.elim)
    (fun env cells hc => ?_) rd reg
  rw [id_map, id_map]
  exact hd env cells hc

theorem came (hs : m.Still b.slots.mark made su.futures.states m' w') (hr : Program.Resized b b') :
    m.Came su made b.slots.mark m' w' b' r :=
  ⟨made, .refl made, hs, (h.still (.refl made) hs).resized hr⟩

/-- Work in a scope of its own. -/
theorem went (hs : m.Went su made b.slots.mark m' w') (hr : Program.Resized b b') :
    m.Came su made b.slots.mark m' w' b' r := by
  obtain ⟨made', he, hs⟩ := hs
  exact ⟨made', he, hs, (h.still he hs).resized hr⟩

end Situated

theorem Program.Build.Stepped.mark_le_memo {b b' : Builder} {state : Option SlotKind}
    {slot : Nat} {x : Extent} (h : Stepped b b' state slot x) : b.slots.mark ≤ x.memo := by
  rw [← h.low]
  exact h.low_le

namespace Program

section

variable (su : Setup) (reg : Registry) (depth : Nat) (a : Analyzer)

/-- Code plays a run, which leaves the locals of the builder after it. -/
def Performs (code : Out → Nat → Build (List Instr)) (run : Scene → Reading → Sink → Act Reading) :
    Prop :=
  ∀ ⦃out : Out⦄ ⦃pc : Nat⦄ ⦃b b' : Builder⦄ ⦃is :
    List Instr⦄ (id : RenderId) {rd : Render} {made : Array Thunk} {m : Machine} {r : Reading}
    {sink : Sink} {w : World}, code out pc a b = .ok (is, b') → rd.program.Has pc is →
    b'.slots.size ≤ m.cells.size → Situated su made b m r w →
      out.Reaches rd b.slots.mark m.cells sink →
    rd.Plays reg su.context id depth (rd.course reg su.context id pc m) (fun _ => pc + is.length)
      (fun r' m' w' => m.Came su made b.slots.mark m' w' b' r') (run rd.scene r sink w)

/-- Code plays a run that leaves no locals. -/
def Carries (code : Out → Nat → Build (List Instr))
    (run : Scene → Reading → Sink → Act Unit) : Prop :=
  ∀ ⦃out : Out⦄ ⦃pc : Nat⦄ ⦃b b' : Builder⦄ ⦃is :
    List Instr⦄ (id : RenderId) {rd : Render} {made : Array Thunk} {m : Machine} {r : Reading}
    {sink : Sink} {w : World}, code out pc a b = .ok (is, b') → rd.program.Has pc is →
    b'.slots.size ≤ m.cells.size → Situated su made b m r w →
      out.Reaches rd b.slots.mark m.cells sink →
    rd.Plays reg su.context id depth (rd.course reg su.context id pc m) (fun _ => pc + is.length)
      (fun _ m' w' => m.Went su made b.slots.mark m' w') (run rd.scene r sink w)

end

variable {su : Setup} {reg : Registry} {depth : Nat} {a : Analyzer} {call : Caller}

/-! ## Output -/

theorem text_performs (s : String) :
    Performs su reg depth a (fun out pc => compilePlan out pc (.text s)) fun scene r sink =>
    Direct.plan su call scene r sink (.text s) := by
  intro out pc b b' is id rd made m r sink w hcode hhas _ h ho
  unfold compilePlan at hcode
  obtain ⟨rfl, rfl⟩ := Build.pure_ok hcode
  unfold Direct.plan
  cases hs : s.isEmpty with
  | true => exact .done rfl (h.came ⟨.refl .., h.store⟩ (.refl _))
  | false =>
    rw [hs] at hhas
    refine .instr hhas.head (fun _ _ _ _ => Op.noConfusion) fun invoke => ?_
    rw [m.setUp_plain rfl]
    have hm : Store.Shows made su.futures.states { m with maker := m.store.heap.fresh }.store w :=
      h.store
    refine Exec.Follows.bind (Exec.write_follows hm ho s) ?_
    rintro _ m' _ w' ⟨hcells, hshow⟩
    exact ⟨rfl, h.came ⟨by rw [hcells]; exact .refl .., hshow⟩ (.refl _)⟩

theorem print_performs (e : Expr) (ds : List Directive) :
    Performs su reg depth a (fun out pc => compilePlan out pc (.print e ds))
      fun scene r sink => Direct.plan su call scene r sink (.print e ds) := by
  intro out pc b b' is id rd made m r sink w hcode hhas _ h ho
  unfold compilePlan at hcode
  obtain ⟨⟨⟨c, fs⟩, slot, x⟩, b₁, hstep, hcode⟩ := Build.bind_ok hcode
  obtain ⟨rfl, rfl⟩ := Build.pure_ok hcode
  obtain ⟨hx, ht, hcome⟩ :=
      h.parts hstep (T := fun keep _ => touchPrint (· < b.slots.mark) keep c fs)
          (C := fun P force => c.Comes P force (e.eval r) ∧
              List.Forall₂ (FilterCall.Comes P force r) fs ds) <| by
    intro b₁ b₂ hw hs hparts
    obtain ⟨c', b₃, hc, hparts⟩ := Build.bind_ok hparts
    obtain ⟨fs', b₄, hfs, hparts⟩ := Build.bind_ok hparts
    obtain ⟨hpair, rfl⟩ := Build.pure_ok hparts
    cases hpair
    refine ⟨Build.print_ok hw hs hc hfs, fun P force hr => ?_⟩
    obtain ⟨hcome, hl⟩ := Build.expr_comes hr hc
    exact ⟨hcome, (Build.filters_come (by rw [hl]; exact hr) hfs).1⟩
  obtain ⟨table, ht⟩ := ht []
  unfold Direct.plan
  refine .instr hhas.head (fun _ _ _ _ => Op.noConfusion) fun invoke => ?_
  refine Exec.Follows.bind (h.eval_same hx rfl rfl (Operand.printed ht)
    (fun env cells hc => Direct.printed_alike (hcome env cells hc).1 (hcome env cells hc).2) rd reg)
    ?_
  rintro s m' _ w' ⟨rfl, hstill⟩
  refine Exec.Follows.bind (Exec.write_follows hstill.store (ho.keep hstill.cells) s) ?_
  rintro _ m'' _ w'' ⟨hcells, hshow⟩
  have hstill' : m.Still b.slots.mark made su.futures.states m'' w'' :=
    ⟨by rw [hcells]; exact hstill.cells, hshow⟩
  exact ⟨rfl, h.came (hstill'.clearMemo rfl hx.mark_le_memo) hx.resized⟩

/-! ## Blocks and scopes -/

theorem noPlan_carries : Carries su reg depth a (fun out pc => compileBlock out pc [])
    fun scene r sink => Direct.block su call scene r sink [] := by
  intro out pc b b' is id rd made m r sink w hcode _ _ h _
  unfold compileBlock at hcode
  obtain ⟨rfl, rfl⟩ := Build.pure_ok hcode
  unfold Direct.block
  exact .done rfl (Machine.Still.went ⟨.refl .., h.store⟩)

theorem plans_carries {p : Plan} {rest : List Plan}
    (hp : Performs su reg depth a (fun out pc => compilePlan out pc p)
      fun scene r sink => Direct.plan su call scene r sink p)
    (hrest : Carries su reg depth a (fun out pc => compileBlock out pc rest)
      fun scene r sink => Direct.block su call scene r sink rest) :
    Carries su reg depth a (fun out pc => compileBlock out pc (p :: rest))
      fun scene r sink => Direct.block su call scene r sink (p :: rest) := by
  intro out pc b b' is id rd made m r sink w hcode hhas hsize h ho
  unfold compileBlock at hcode
  obtain ⟨first, b₁, hfirst, hcode⟩ := Build.bind_ok hcode
  obtain ⟨later, b₂, hlater, hcode⟩ := Build.bind_ok hcode
  obtain ⟨rfl, rfl⟩ := Build.pure_ok hcode
  obtain ⟨g₁, hp₁⟩ := compilePlan_ok p h.holds ho.fits hfirst
  obtain ⟨g₂, hp₂⟩ := compileBlock_ok rest hp₁.holds (ho.fits.mono hp₁.within) hlater
  unfold Direct.block
  refine (hp id hfirst hhas.left (Nat.le_trans hp₂.grows.size hsize) h ho).bind ?_
  rintro r' m' w' ⟨made', he, hs, h'⟩
  have hmark := hp₁.grows.mark
  have hrun := hrest id hlater hhas.right (by rw [hs.cells.size]; exact hsize) h'
    ((ho.keep hs.cells).mono hmark)
  refine hrun.imp fun _ m'' w'' hw => ⟨?_, .after he hs hw hmark⟩
  rw [List.length_append, Nat.add_assoc]

/-- Code in a scope of its own plays what it plays, and keeps the locals. -/
theorem Carries.scope {code : Out → Nat → Build (List Instr)}
    {run : Scene → Reading → Sink → Act Unit} (hcode : Compiles a code)
    (hc : Carries su reg depth a code run) :
    Carries su reg depth a (fun out pc => Build.inScope (code out pc)) run := by
  intro out pc b b' is id rd made m r sink w hscope hhas hsize h ho
  obtain ⟨b₁, hrun, hexit⟩ := Build.inScope_ok hscope
  obtain ⟨g, hp⟩ := hcode h.holds.inner ho.fits hrun
  obtain ⟨_, hsame⟩ := hexit hp.grows
  have hplays := hc id hrun hhas (by rw [← hsame]; exact hsize) h.inner ho
  exact hplays

theorem noBlock_carries {body : List Plan}
    (hc : Carries su reg depth a (fun out pc => compileBlock out pc body) fun scene r sink =>
      Direct.block su call scene r sink body) :
    Carries su reg depth a (fun out pc => Build.orNothing body.isEmpty (compileBlock out pc body))
      fun scene r sink => Direct.block su call scene r sink body := by
  cases body with
  | cons p rest => exact hc.scope (compileBlock_ok _)
  | nil =>
    intro out pc b b' is id rd made m r sink w hcode _ _ h _
    obtain ⟨rfl, rfl⟩ := Build.pure_ok hcode
    unfold Direct.block
    exact .done rfl (Machine.Still.went ⟨.refl .., h.store⟩)

/-- A check whether the sink asks for a pause, before what `f` compiles. -/
theorem check_plays {b b' : Builder} {α : Type} {f : Instr → Build α} {c : α} (hw : b.slots.Wf)
    (h : (Build.checkLimit >>= f) a b = .ok (c, b')) : ∃ check, f check a b = .ok (c, b') ∧
      ∀ {id : RenderId} {rd : Render} {pc : Nat} {m : Machine} {made : Array Thunk}
      {states : Array Future} {w : World}, rd.program.code[pc]? = some check →
    m.store.Shows made states w → ∀ mark, ∃ m',
    (rd.course reg su.context id pc m).Leads (rd.course reg su.context id (pc + 1) m') ∧
    m.Still mark made states m' w := by
  obtain ⟨check, b₁, hcheck, h⟩ := Build.bind_ok h
  obtain ⟨site, rfl, _, rfl⟩ := Build.checkLimit_ok hw hcheck
  exact ⟨_, h, fun hi hm mark => Render.course_checkLimit hi hm mark⟩

/-! ## Tests -/

section

variable {id : RenderId} {rd : Render} {made : Array Thunk} {mark pc next stop : Nat}
  {m : Machine} {w : World}

/-- After what ran, the rest is jumped over, if there is a rest. -/
theorem jump_plays {last : Nat} {jumps : Bool} {x : Course} {y : EStateM.Result Stop World Unit}
    (h : rd.Plays reg su.context id depth x (fun _ => last) (fun _ m' w' =>
        m.Went su made mark m' w') y)
    (hjump : rd.program.Has last (if jumps then [{ op := .jump stop }] else []))
    (hstay : jumps = false → stop = last) :
    rd.Plays reg su.context id depth x (fun _ => stop) (fun _ m' w' =>
      m.Went su made mark m' w') y := by
  refine h.onward fun _ m' w' hw => ?_
  cases jumps with
  | false =>
    rw [hstay rfl]
    exact ⟨m', .refl (rd.course_steady reg su.context id last m'), hw⟩
  | true =>
    obtain ⟨made', he, hs⟩ := hw
    obtain ⟨m'', hlead, hs'⟩ := Render.course_jump hjump.head hs.store mark
    exact ⟨m'', hlead, made', he, hs.trans hs'⟩

/-- A test, what runs if it holds, and what runs if not. -/
theorem test_plays {y : Act Bool} {yes no : Act Unit}
    (htest : rd.Plays reg su.context id depth (rd.course reg su.context id pc m) (fun t =>
        if t then pc + 1 else next) (fun _ m' w' => m.Still mark made su.futures.states m' w')
      (y w)) (hyes : ∀ m' w', m.Still mark made su.futures.states m' w' →
      rd.Plays reg su.context id depth (rd.course reg su.context id (pc + 1) m') (fun _ => stop)
        (fun _ m'' w'' => m'.Went su made mark m'' w'') (yes w'))
    (hno : ∀ m' w', m.Still mark made su.futures.states m' w' →
      rd.Plays reg su.context id depth (rd.course reg su.context id next m') (fun _ => stop)
        (fun _ m'' w'' => m'.Went su made mark m'' w'') (no w')) :
    rd.Plays reg su.context id depth (rd.course reg su.context id pc m) (fun _ => stop)
      (fun _ m'' w'' => m.Went su made mark m'' w'')
      ((y >>= fun t => if t then yes else no) w) := by
  refine htest.bind fun t m' w' hs => ?_
  cases t with
  | true =>
    exact (hyes m' w' hs).imp fun _ _ _ hw => ⟨rfl, .after (.refl made) hs hw (Nat.le_refl _)⟩
  | false =>
    exact (hno m' w' hs).imp fun _ _ _ hw => ⟨rfl, .after (.refl made) hs hw (Nat.le_refl _)⟩

/-- The first of the tests in a row. -/
theorem segment_plays {s : Segment} {rest : List Segment} {y : Act Bool} {yes no : Act Unit}
    (hhas : rd.program.Has pc (Segment.code stop (s :: rest)))
    (hstay : s.jumps = false → stop = pc + 1 + s.body.length)
    (htest : rd.program.code[pc]? = some s.test →
      rd.Plays reg su.context id depth (rd.course reg su.context id pc m) (fun t =>
        if t then pc + 1 else s.next pc) (fun _ m' w' => m.Still mark made su.futures.states m' w')
      (y w)) (hyes : rd.program.Has (pc + 1) s.body →
      ∀ m' w', m.Still mark made su.futures.states m' w' →
      rd.Plays reg su.context id depth (rd.course reg su.context id (pc + 1) m') (fun _ =>
        pc + 1 + s.body.length) (fun _ m'' w'' => m'.Went su made mark m'' w'') (yes w'))
      (hno : rd.program.Has (s.next pc) (Segment.code stop rest) →
      ∀ m' w', m.Still mark made su.futures.states m' w' →
      rd.Plays reg su.context id depth (rd.course reg su.context id (s.next pc) m') (fun _ => stop)
      (fun _ m'' w'' => m'.Went su made mark m'' w'') (no w')) :
    rd.Plays reg su.context id depth (rd.course reg su.context id pc m) (fun _ => stop)
      (fun _ m'' w'' => m.Went su made mark m'' w'')
      ((y >>= fun t => if t then yes else no) w) := by
  rw [Segment.code_cons, List.cons_append, List.cons_append, List.append_assoc] at hhas
  have hafter := hhas.tail.right
  refine test_plays (htest hhas.head) (fun m' w' hs => ?_) fun m' w' hs => hno ?_ m' w' hs
  · exact jump_plays (hyes hhas.tail.left m' w' hs) hafter.left hstay
  · have hnext := hafter.right
    unfold Segment.next
    cases hj : s.jumps <;> rw [hj] at hnext <;> exact hnext

end

section

variable (su : Setup) (reg : Registry) (depth : Nat) (a : Analyzer)

/-- The code of tests in a row plays a run that ends with `no` if none of them holds. What is
`known` of the cells may be asked for; `more` tells that there is code for `no`. -/
def CarriesTests (known : Nat → Cells → Prop) (more : Bool)
    (tests : Out → Nat → Build (List Segment))
    (run : Scene → Reading → Sink → Act Unit → Act Unit) : Prop :=
  ∀ ⦃out : Out⦄ ⦃pc : Nat⦄ ⦃b b' : Builder⦄ ⦃segments :
    List Segment⦄ (id : RenderId) {rd : Render} {made : Array Thunk} {m : Machine} {r : Reading}
    {sink : Sink} {w : World} (stop : Nat) (no : Act Unit),
    tests out pc a b = .ok (segments, b') → rd.program.Has pc (Segment.code stop segments) →
    b'.slots.size ≤ m.cells.size → Situated su made b m r w →
      out.Reaches rd b.slots.mark m.cells sink →
    known b.slots.mark m.cells → (more = false → stop = pc + Segment.length segments) →
    (∀ m' w', m.Still b.slots.mark made su.futures.states m' w' →
      rd.Plays reg su.context id depth
        (rd.course reg su.context id (pc + Segment.length segments) m') (fun _ => stop)
        (fun _ m'' w'' => m'.Went su made b.slots.mark m'' w'') (no w')) →
    rd.Plays reg su.context id depth (rd.course reg su.context id pc m) (fun _ => stop)
      (fun _ m' w' => m.Went su made b.slots.mark m' w') (run rd.scene r sink no w)

end

theorem noBranch_carries (more : Bool) : CarriesTests su reg depth a (fun _ _ => True) more
    (fun out pc => compileBranches out more pc [])
    fun scene r sink no => Direct.firstBranch su call scene r sink no [] := by
  intro out pc b b' segments id rd made m r sink w stop no hcode _ _ h _ _ _ hno
  unfold compileBranches at hcode
  obtain ⟨rfl, rfl⟩ := Build.pure_ok hcode
  unfold Direct.firstBranch
  exact hno m w ⟨.refl .., h.store⟩

theorem branch_carries {c : Expr} {body : List Plan} {rest : List (Expr × List Plan)} {more : Bool}
    (hbody : Carries su reg depth a (fun out pc => compileBlock out pc body)
      fun scene r sink => Direct.block su call scene r sink body)
    (hrest : CarriesTests su reg depth a (fun _ _ => True) more (fun out pc =>
        compileBranches out more pc rest) fun scene r sink no =>
      Direct.firstBranch su call scene r sink no rest) :
    CarriesTests su reg depth a (fun _ _ => True) more (fun out pc =>
      compileBranches out more pc ((c, body) :: rest)) fun scene r sink no =>
    Direct.firstBranch su call scene r sink no ((c, body) :: rest) := by
  intro out pc b b' segments id rd made m r sink w stop no hcode hhas hsize h ho _ hstop hno
  unfold compileBranches at hcode
  obtain ⟨⟨e, slot, x⟩, b₁, hstep, hcode⟩ := Build.bind_ok hcode
  obtain ⟨code, b₂, hblock, hcode⟩ := Build.bind_ok hcode
  obtain ⟨later, b₃, hlater, hcode⟩ := Build.bind_ok hcode
  obtain ⟨rfl, rfl⟩ := Build.pure_ok hcode
  obtain ⟨hx, ht, hcome⟩ := h.exprParts hstep
  obtain ⟨table, ht⟩ := ht []
  have hb₁ := hx.resized.holds h.holds
  obtain ⟨hr₂, _⟩ := Compiles.scope (compileBlock_ok body) (pc + 1) hb₁ ho.fits hblock
  obtain ⟨hr₃, _⟩ := compileBranches_ok more rest (hr₂.holds hb₁) ho.fits (fun _ h => h.elim) hlater
  have hr := hx.resized.trans hr₂
  rw [Segment.length_cons] at hstop hno
  unfold Direct.firstBranch
  refine segment_plays hhas (fun hj => ?_) (fun hi => ?_) (fun hhas m' w' hs => ?_)
    fun hhas m' w' hs => ?_
  · -- without a jump, nothing follows
    have hempty : rest = [] ∧ more = false := by simpa using hj
    obtain ⟨rfl, rfl⟩ := hempty
    unfold compileBranches at hlater
    obtain ⟨rfl, _⟩ := Build.pure_ok hlater
    exact hstop rfl
  · refine .instr hi (fun _ _ _ _ => Op.noConfusion) fun invoke => ?_
    refine Exec.Follows.finish (h.eval_same hx rfl rfl (Operand.bool ht)
      (fun env cells hc => (hcome env cells hc).bool []) rd reg) ?_
    rintro t m' _ w' ⟨rfl, hs⟩
    exact ⟨_, _, rfl, rfl, hs.clearMemo rfl hx.mark_le_memo⟩
  · have hrun := (hbody.scope (compileBlock_ok body)) id hblock hhas
      (by rw [hs.cells.size]; exact Nat.le_trans hr₃.size hsize)
        ((h.still (.refl made) hs).resized hx.resized)
      (by rw [hx.resized.mark]; exact ho.keep hs.cells)
    rw [hx.resized.mark] at hrun
    exact hrun
  · have hrun := hrest id stop no hlater hhas (by rw [hs.cells.size]; exact hsize)
      ((h.still (.refl made) hs).resized hr) (by rw [hr.mark]; exact ho.keep hs.cells) trivial hstop
      (fun m'' w'' hs' => by rw [hr.mark] at hs' ⊢; exact hno m'' w'' (hs.trans hs'))
    rw [hr.mark] at hrun
    exact hrun

theorem cond_performs {branches : List (Expr × List Plan)} {otherwise : List Plan}
    (hbranches : CarriesTests su reg depth a (fun _ _ => True) (!otherwise.isEmpty)
      (fun out pc => compileBranches out (!otherwise.isEmpty) pc branches)
      fun scene r sink no => Direct.firstBranch su call scene r sink no branches)
    (hother : Carries su reg depth a (fun out pc => compileBlock out pc otherwise)
      fun scene r sink => Direct.block su call scene r sink otherwise) :
    Performs su reg depth a (fun out pc => compilePlan out pc (.cond branches otherwise))
      fun scene r sink => Direct.plan su call scene r sink (.cond branches otherwise) := by
  intro out pc b b' is id rd made m r sink w hcode hhas hsize h ho
  unfold compilePlan at hcode
  obtain ⟨check, hcode, hcheck⟩ := check_plays h.slots hcode
  obtain ⟨segments, b₁, hsegments, hcode⟩ := Build.bind_ok hcode
  obtain ⟨last, b₂, hlast, hcode⟩ := Build.bind_ok hcode
  obtain ⟨rfl, rfl⟩ := Build.pure_ok hcode
  obtain ⟨hr₁, _⟩ := compileBranches_ok _ branches h.holds ho.fits (fun _ h => h.elim) hsegments
  obtain ⟨hr₂, _⟩ := orNothing_ok (compileBlock_ok otherwise) _ (hr₁.holds h.holds) ho.fits hlast
  obtain ⟨m₁, hlead, hs₁⟩ := hcheck hhas.head h.store b.slots.mark
  have h₁ := h.still (.refl made) hs₁
  have hcells := hhas.tail.right
  rw [Segment.length_code] at hcells
  unfold Direct.plan
  refine .lead hlead (.bind
    (hbranches id _ _ hsegments hhas.tail.left ?_ h₁ (ho.keep hs₁.cells) trivial ?_ ?_) ?_)
  · rw [hs₁.cells.size]
    exact Nat.le_trans hr₂.size hsize
  · intro hmissing
    have hempty : otherwise.isEmpty = true := by simpa using hmissing
    rw [hempty] at hlast
    obtain ⟨rfl, _⟩ := Build.pure_ok hlast
    rfl
  · intro m₂ w₂ hs₂
    have hrun := noBlock_carries hother id hlast hcells
      (by rw [hs₂.cells.size, hs₁.cells.size]; exact hsize)
      ((h₁.still (.refl made) hs₂).resized hr₁)
      (by rw [hr₁.mark]; exact (ho.keep hs₁.cells).keep hs₂.cells)
    rw [hr₁.mark] at hrun
    exact hrun
  · intro _ m' w' hw
    refine .done ?_ (h.went (.after (.refl made) hs₁ hw (Nat.le_refl _)) (hr₁.trans hr₂))
    simp only [List.length_append, List.length_cons, Segment.length_code]
    omega

theorem noCase_carries {slot : Nat} {v : Value} :
    CarriesTests su reg depth a (fun mark cells => slot < mark ∧ cells.read slot = .value v) true
      (fun out pc => compileCases out slot pc [])
      fun scene r sink no => Direct.firstCase su call scene r sink v no [] := by
  intro out pc b b' segments id rd made m r sink w stop no hcode _ _ h _ _ _ hno
  unfold compileCases at hcode
  obtain ⟨rfl, rfl⟩ := Build.pure_ok hcode
  unfold Direct.firstCase
  exact hno m w ⟨.refl .., h.store⟩

theorem case_carries {slot : Nat} {v : Value} {values : List Expr} {body : List Plan}
    {rest : List (List Expr × List Plan)}
    (hbody : Carries su reg depth a (fun out pc => compileBlock out pc body)
      fun scene r sink => Direct.block su call scene r sink body)
    (hrest : CarriesTests su reg depth a (fun mark cells => slot < mark ∧
        cells.read slot = .value v) true (fun out pc => compileCases out slot pc rest)
      fun scene r sink no => Direct.firstCase su call scene r sink v no rest) :
    CarriesTests su reg depth a (fun mark cells => slot < mark ∧ cells.read slot = .value v) true
      (fun out pc => compileCases out slot pc ((values, body) :: rest))
      fun scene r sink no =>
    Direct.firstCase su call scene r sink v no ((values, body) :: rest) := by
  intro out pc b b' segments id rd made m r sink w stop no hcode hhas hsize h ho hv hstop hno
  unfold compileCases at hcode
  obtain ⟨⟨vs, slot', x⟩, b₁, hstep, hcode⟩ := Build.bind_ok hcode
  obtain ⟨code, b₂, hblock, hcode⟩ := Build.bind_ok hcode
  obtain ⟨later, b₃, hlater, hcode⟩ := Build.bind_ok hcode
  obtain ⟨rfl, rfl⟩ := Build.pure_ok hcode
  obtain ⟨hx, ht, hcome⟩ := h.parts hstep fun _ _ hw hs hc =>
    ⟨Build.exprs_ok hw hs hc, fun _ _ hr => (Build.exprs_come hr hc).1⟩
  obtain ⟨table, ht⟩ := ht []
  have hb₁ := hx.resized.holds h.holds
  obtain ⟨hr₂, _⟩ := Compiles.scope (compileBlock_ok body) (pc + 1) hb₁ ho.fits hblock
  have hused : ∀ j, j = slot → Shapes.below b.slots.mark j ≠ .free := by
    rintro j rfl
    exact Shapes.below_used.2 hv.1
  obtain ⟨hr₃, _⟩ := compileCases_ok slot rest (hr₂.holds hb₁) ho.fits hused hlater
  have hr := hx.resized.trans hr₂
  rw [Segment.length_cons] at hstop hno
  unfold Direct.firstCase
  refine segment_plays hhas (fun hj => by cases hj) (fun hi => ?_) (fun hhas m' w' hs => ?_)
    fun hhas m' w' hs => ?_
  · refine .instr hi (fun _ _ _ _ => Op.noConfusion) fun invoke => ?_
    have htouch : (· < b.slots.mark) slot ∧ touchAll (· < b.slots.mark) _ [] vs := ⟨hv.1, ht⟩
    have hop : Operand (· < b.slots.mark) _ (fun _ => False) (Eval.matchesCase · slot vs) :=
      Operand.matchesCase htouch
    refine Exec.Follows.finish (h.eval_same hx rfl rfl hop (fun env cells hc => ?_) rd reg) ?_
    · refine Pairing.cell_left ((hc.read slot hv.1).trans hv.2) ?_
      exact Direct.anyEqual_alike (hcome env cells hc) v []
    · rintro t m' _ w' ⟨rfl, hs⟩
      exact ⟨_, _, rfl, rfl, hs.clearMemo rfl hx.mark_le_memo⟩
  · have hrun := (hbody.scope (compileBlock_ok body)) id hblock hhas
      (by rw [hs.cells.size]; exact Nat.le_trans hr₃.size hsize)
        ((h.still (.refl made) hs).resized hx.resized)
      (by rw [hx.resized.mark]; exact ho.keep hs.cells)
    rw [hx.resized.mark] at hrun
    exact hrun
  · have hrun := hrest id stop no hlater hhas (by rw [hs.cells.size]; exact hsize)
      ((h.still (.refl made) hs).resized hr) (by rw [hr.mark]; exact ho.keep hs.cells)
      (by rw [hr.mark]; exact ⟨hv.1, (hs.cells.read slot hv.1).trans hv.2⟩) hstop
      (fun m'' w'' hs' => by rw [hr.mark] at hs' ⊢; exact hno m'' w'' (hs.trans hs'))
    rw [hr.mark] at hrun
    exact hrun

theorem default_carries {default : Option (List Plan)}
    (hbody : ∀ body, default = some body →
      Carries su reg depth a (fun out pc => compileBlock out pc body) fun scene r sink =>
      Direct.block su call scene r sink body) :
    Carries su reg depth a (fun out pc => compileDefault out pc default)
      fun scene r sink => Direct.optional su call scene r sink default := by
  cases default with
  | none =>
    intro out pc b b' is id rd made m r sink w hcode _ _ h _
    unfold compileDefault at hcode
    obtain ⟨rfl, rfl⟩ := Build.pure_ok hcode
    unfold Direct.optional
    exact .done rfl (Machine.Still.went ⟨.refl .., h.store⟩)
  | some body =>
    have hscope := (hbody body rfl).scope (compileBlock_ok body)
    intro out pc b b' is id rd made m r sink w hcode hhas hsize h ho
    unfold compileDefault at hcode
    unfold Direct.optional
    exact hscope id hcode hhas hsize h ho

theorem switch_performs {subject : Expr} {cases : List (List Expr × List Plan)}
    {default : Option (List Plan)}
    (hcases : ∀ slot v, CarriesTests su reg depth a (fun mark cells => slot < mark ∧
        cells.read slot = .value v) true (fun out pc => compileCases out slot pc cases)
      fun scene r sink no => Direct.firstCase su call scene r sink v no cases)
    (hdefault : ∀ body, default = some body →
      Carries su reg depth a (fun out pc => compileBlock out pc body) fun scene r sink =>
      Direct.block su call scene r sink body) :
    Performs su reg depth a (fun out pc => compilePlan out pc (.switch subject cases default))
      fun scene r sink => Direct.plan su call scene r sink (.switch subject cases default) := by
  intro out pc b b' is id rd made m r sink w hcode hhas hsize h ho
  unfold compilePlan at hcode
  obtain ⟨check, hcode, hcheck⟩ := check_plays h.slots hcode
  obtain ⟨b₆, hcode, hexit⟩ := Build.inScope_ok hcode
  obtain ⟨slot, b₁, hslot, hcode⟩ := Build.bind_ok hcode
  obtain ⟨⟨c, state, x⟩, b₂, hstep, hcode⟩ := Build.bind_ok hcode
  obtain ⟨segments, b₃, hsegments, hcode⟩ := Build.bind_ok hcode
  obtain ⟨last, b₄, hlast, hcode⟩ := Build.bind_ok hcode
  obtain ⟨rfl, rfl⟩ := Build.pure_ok hcode
  -- the slot of the subject
  obtain ⟨hsyn, hl₁⟩ := Build.onSlots_ok hslot
  obtain ⟨hfirst, hmark, hg₁⟩ := h.slots.synthetic "switch" .value
  injection hsyn with hsyn
  change Slots.synthetic b.slots.enter "switch" .value = (slot, b₁.slots) at hsyn
  rw [hsyn] at hfirst hmark hg₁
  have hslot : slot = b.slots.mark := hfirst
  have hmark : b₁.slots.mark = b.slots.mark + 1 := hmark
  obtain ⟨m₁, hlead, hs₁⟩ := hcheck hhas.head h.store b.slots.mark
  have h₁ := (h.still (.refl made) hs₁).inner.grown hg₁ hl₁
  have ho₁ := (ho.keep hs₁.cells).mono
    (Nat.le_of_lt (by rw [hmark]; exact Nat.lt_succ_self _) : _ ≤ b₁.slots.mark)
  obtain ⟨hx, ht, hcome⟩ := h₁.exprParts hstep
  obtain ⟨table, ht⟩ := ht []
  have hb₂ := hx.resized.holds h₁.holds
  have hused : ∀ j, j = slot → Shapes.below b₁.slots.mark j ≠ .free := by
    rintro j rfl
    exact Shapes.below_used.2 (by omega)
  obtain ⟨hr₃, _⟩ := compileCases_ok slot cases hb₂ ho₁.fits hused hsegments
  obtain ⟨hr₄, _⟩ := default_ok (fun body _ => compileBlock_ok body) (hr₃.holds hb₂) ho₁.fits hlast
  obtain ⟨hr, hsame⟩ := hexit (hg₁.trans ((hx.resized.trans (hr₃.trans hr₄)).grows h₁.slots))
  rw [hsame] at hsize
  have hlt : slot < m₁.cells.size := by
    rw [hs₁.cells.size]
    have := h₁.slots.size
    have := (hx.resized.trans (hr₃.trans hr₄)).size
    omega
  unfold Direct.plan
  have hstore : rd.Plays reg su.context id depth (rd.course reg su.context id (pc + 1) m₁)
      (fun _ => pc + 1 + 1) (fun v m' w' => m₁.Still b.slots.mark made su.futures.states m' w' ∧
        m'.cells.read slot = .value v)
      (rd.scene.eval su (subject.eval r []) w) := by
    refine .instr hhas.tail.head (fun _ _ _ _ => Op.noConfusion) fun invoke => ?_
    have hop : Operand (· < b₁.slots.mark) _ (fun _ => False) (Eval.cellOf · .value c) :=
      Operand.cellOf ht
    refine Exec.Follows.finish (h₁.evaluates (f := fun c => c) (g := Cell.value) hx rfl rfl hop
      (fun _ hj => hj.elim) (fun env cells hc => ?_) rd reg) ?_
    · rw [id_map']
      exact .map _ (hcome env cells hc [])
    · rintro _ m' v w' ⟨rfl, hs⟩
      refine ⟨_, _, rfl, rfl, ?_, ?_⟩
      · refine ((hs.mono (by omega)).write (Nat.le_of_eq hslot.symm) _).clearMemo rfl ?_
        have := hx.mark_le_memo
        omega
      · refine (Instr.read_clearMemo rfl (by have := hx.mark_le_memo; omega) _).trans ?_
        exact Cells.read_write_self (by rw [hs.cells.size]; exact hlt) _
  refine .lead hlead (hstore.bind ?_)
  · rintro v m₂ w₂ ⟨hs₂, hv⟩
    have h₂ := (((h.still (.refl made) hs₁).still (.refl made) hs₂).inner.grown hg₁ hl₁).resized
      hx.resized
    have ho₂ := ((ho.keep hs₁.cells).keep hs₂.cells).mono
      (by rw [hx.resized.mark, hmark]; exact Nat.le_succ _ : _ ≤ b₂.slots.mark)
    have hrest := hhas.tail.tail
    have hcells := hrest.right
    rw [Segment.length_code] at hcells
    refine .bind (hcases slot v id _ _ hsegments hrest.left ?_ h₂ ho₂ ⟨?_, hv⟩
      (fun hno => by cases hno) ?_) ?_
    · rw [hs₂.cells.size, hs₁.cells.size]
      exact Nat.le_trans hr₄.size hsize
    · rw [hx.resized.mark]
      omega
    · intro m₃ w₃ hs₃
      have hrun := default_carries hdefault id hlast hcells
        (by rw [hs₃.cells.size, hs₂.cells.size, hs₁.cells.size]; exact hsize)
        ((h₂.still (.refl made) hs₃).resized hr₃) (by rw [hr₃.mark]; exact ho₂.keep hs₃.cells)
      rw [hr₃.mark] at hrun
      exact hrun
    · intro _ m' w' hw
      have hmarks : b.slots.mark ≤ b₂.slots.mark := by rw [hx.resized.mark]; omega
      refine .done ?_ (h.went (.after (.refl made) (hs₁.trans hs₂) hw hmarks) hr)
      simp only [List.length_append, List.length_cons, Segment.length_code]
      omega

end Program

end Interlude
