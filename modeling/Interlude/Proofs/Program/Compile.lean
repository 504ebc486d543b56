import Interlude.Proofs.Program.Build
/-!
# Compiled programs are typed

By induction on plans: the code of a block is typed from what is known where the block begins, and
knows at its end what it knew there and the locals of the block (`compileBlock_ok`). Blocks in a
scope of their own forget their locals again, so all ways through a statement meet with the same
shapes.
-/

namespace Interlude

namespace Shapes

/-- Telling again what is known changes nothing. -/
theorem set_same {g : Shapes} {i : Nat} {s : Shape} (h : g i = s) : g.set i s = g := by
  funext j
  by_cases hj : j = i
  · subst hj; rw [set_self, h]
  · exact set_of_ne g hj s

/-- The shapes in a loop: its three cells are in use. -/
def loop (g : Shapes) (base : Nat) : Shapes :=
    ((g.set base .any).set (base + 1) .any).set (base + 2) .any

theorem loop_first (g : Shapes) (base : Nat) : g.loop base base = .any := by
  unfold loop
  rw [set_of_ne _ (by omega), set_of_ne _ (by omega), set_self]

theorem loop_second (g : Shapes) (base : Nat) : g.loop base (base + 1) = .any := by
  unfold loop
  rw [set_of_ne _ (by omega), set_self]

theorem loop_third (g : Shapes) (base : Nat) : g.loop base (base + 2) = .any := set_self ..

end Shapes

namespace Program

namespace Builder.Holds

variable {b b' : Builder} {g : Shapes}

theorem grow (h : b.Holds g) (hg : b.slots.Grows b'.slots) (hl : b'.locals = b.locals) :
    b'.Holds g where
  slots := hg.wf
  locals := by rw [hl]; exact h.locals
  bound i hi := Nat.lt_of_lt_of_le (h.bound i hi) hg.mark

/-- A taken slot is put to use. -/
theorem set (h : b.Holds g) {i : Nat} {s : Shape} (hi : i < b.slots.mark) (hs : s ≠ .free) :
    b.Holds (g.set i s) where
  slots := h.slots
  locals := h.locals.mono fun j hj => by
    by_cases hij : j = i
    · rw [hij, Shapes.set_self]; exact hs
    · rw [Shapes.set_of_ne g hij]; exact hj
  bound j hj := by
    by_cases hij : j = i
    · rw [hij]; exact hi
    · rw [Shapes.set_of_ne g hij] at hj; exact h.bound j hj

theorem loop (h : b.Holds g) {base : Nat} (hi : base + 2 < b.slots.mark) : b.Holds (g.loop base) :=
  ((h.set (by omega) (by simp)).set (by omega) (by simp)).set hi (by simp)

theorem bind (h : b.Holds g) (name : String) {x : Binding} (hx : x.Seen (g · ≠ .free)) :
    Builder.Holds { b with locals := b.locals.bind name x } g where
  slots := h.slots
  locals := h.locals.bind hx name
  bound := h.bound

/-- What is in use lies inside the frame. -/
theorem within (h : b.Holds g) {size : Nat} (hs : b.slots.size ≤ size) {i : Nat}
    (hi : g i ≠ .free) : i < size :=
  Nat.lt_of_lt_of_le (h.bound i hi) (Nat.le_trans h.slots.size hs)

end Builder.Holds

/-- Code compiled between two states of the builder, from the shapes known before it to those known
after. -/
structure Piece (b b' : Builder) (pc : Nat) (code : List Instr) (g g' : Shapes) : Prop where
  holds : b'.Holds g'
  grows : b.slots.Grows b'.slots
  within : g.Within g'
  typed : ∀ size, b'.slots.size ≤ size → Typed size pc code g g'

namespace Piece

variable {b b' b'' : Builder} {pc : Nat} {code code' : List Instr} {g g' g'' : Shapes}

theorem nil (h : b.Holds g) : Piece b b pc [] g g :=
  ⟨h, .refl h.slots, .refl g, fun _ _ => .nil (.refl g)⟩

theorem append (h : Piece b b' pc code g g') (h' : Piece b' b'' (pc + code.length) code' g' g'') :
    Piece b b'' pc (code ++ code') g g'' where
  holds := h'.holds
  grows := h.grows.trans h'.grows
  within := h.within.trans h'.within
  typed size hs := (h.typed size (Nat.le_trans h'.grows.size hs)).append (h'.typed size hs)

/-- Code that leaves everything but the number of slots as it was. -/
theorem ofResized (hb : b.Holds g) (hr : Resized b b')
    (ht : ∀ size, b'.slots.size ≤ size → Typed size pc code g g) : Piece b b' pc code g g :=
  ⟨hr.holds hb, hr.grows hb.slots, .refl g, ht⟩

/-- Code that forgets its locals. -/
structure Closed (b b' : Builder) (pc : Nat) (code : List Instr) (g : Shapes) : Prop where
  grows : b.slots.Grows b'.slots
  typed : ∀ size, b'.slots.size ≤ size → Typed size pc code g g

theorem closed (h : Piece b b' pc code g g') : Closed b b' pc code g :=
  ⟨h.grows, fun size hs => (h.typed size hs).forget h.within⟩

/-- Code in a scope of its own. -/
theorem scope {r : Analyzer} {act : Build (List Instr)} (hb : b.Holds g)
    (h : Build.inScope act r b = .ok (code, b'))
    (hact : ∀ b₁, b.inner.Holds g → act r b.inner = .ok (code, b₁) → Closed b.inner b₁ pc code g) :
    Resized b b' ∧ Piece b b' pc code g g := by
  obtain ⟨b₁, hrun, hexit⟩ := Build.inScope_ok h
  have hp := hact b₁ hb.inner hrun
  obtain ⟨hr, hsize⟩ := hexit hp.grows
  refine ⟨hr, .ofResized hb hr fun size hs => hp.typed size ?_⟩
  rw [← hsize]
  exact hs

end Piece

/-! ## Single instructions -/

section

variable {b b' : Builder} {g : Shapes} {pc size : Nat} {exits : List (Nat × Shapes)}

/-- An instruction that neither stops nor has cells of its own. -/
theorem plain_typed {op : Op} {g' : Shapes} (hb : b.Holds g) (hs : b.slots.size ≤ size)
    (hstop : op.stops = false)
    (hf : ∀ (stop : Nat) (types : Nat → Shapes), types pc = g → (types (pc + 1)).Within g' →
      pc + 1 ≤ stop → ExitsFit exits stop types → op.Flows size stop types pc) :
    TypedTo exits size pc [{ op }] g g' := by
  refine .single fun stop types hg hnext hle hexits => ?_
  refine ⟨fun slot h => ?_, fun x hx => (by cases hx), fun h =>
    ?_, ⟨fun _ => none, fun x hx => (by cases hx)⟩, hf stop types hg hnext hle hexits⟩
  · rw [hg] at h
    exact hb.within hs h
  · rw [hstop] at h
    cases h

/-- A check whether the sink asks for a pause, before what `f` compiles. -/
theorem check_ok {r : Analyzer} {α : Type} {f : Instr → Build α} {a : α} (hb : b.Holds g)
    (h : (Build.checkLimit >>= f) r b = .ok (a, b')) :
    ∃ check, f check r b = .ok (a, b') ∧
      ∀ exits size pc, b.slots.size ≤ size → TypedTo exits size pc [check] g g := by
  obtain ⟨i, b₁, hi, hrest⟩ := Build.bind_ok h
  obtain ⟨site, rfl, hsite, rfl⟩ := Build.checkLimit_ok hb.slots hi
  refine ⟨_, hrest, fun exits size pc hs => .single fun stop types hg hnext hle _ => ?_⟩
  refine ⟨fun slot h => ?_, ?_, fun _ => rfl, ⟨fun _ => none, fun x _ => trivial⟩, hle, ?_⟩
  · rw [hg] at h
    exact hb.within hs h
  · rintro x ⟨⟩
    refine ⟨⟨Nat.le_refl _, Nat.le_refl _, fun i hi hi' => ?_, ?_⟩, trivial⟩
    · exact absurd hi' (Nat.not_lt_zero i)
    · rw [hg]
      exact ⟨_, hsite, Nat.zero_le _, Nat.le_trans hb.slots.size hs, hb.bound⟩
  · rw [hg]
    exact hnext

/-- An instruction with cells of its own. -/
theorem stepped_typed {op : Op} {g' : Shapes} {state : Option SlotKind} {slot : Nat} {x : Extent}
    (hb : b.Holds g) (hx : Build.Stepped b b' state slot x) (hs : b'.slots.size ≤ size)
    (ha : op.Apart x) (ht : ∃ table, op.Touches (g · ≠ .free) (keepIn x.memo x.high table))
    (hf : ∀ (stop : Nat) (types : Nat → Shapes), types pc = g → (types (pc + 1)).Within g' →
      pc + 1 ≤ stop → ExitsFit exits stop types → op.Flows size stop types pc) :
    TypedTo exits size pc [{ op, extent := some x }] g g' := by
  refine .single fun stop types hg hnext hle hexits => ?_
  refine ⟨fun slot h => ?_, ?_, fun _ => rfl, ?_, hf stop types hg hnext hle hexits⟩
  · rw [hg] at h
    exact hb.within (Nat.le_trans hx.resized.size hs) h
  · rintro y ⟨⟩
    rw [hg]
    exact ⟨hx.fits hb hs, ha⟩
  · obtain ⟨table, ht⟩ := ht
    refine ⟨table, ?_⟩
    rintro y ⟨⟩
    rw [hg]
    exact ht

end

/-! ## Statements -/

/-- Compiling a body gives typed code, wherever it stands and whatever is known there. -/
def Compiles (r : Analyzer) (body : Out → Nat → Build (List Instr)) : Prop :=
  ∀ {out : Out} {pc : Nat} {b b' : Builder} {g : Shapes} {code : List Instr},
    b.Holds g → out.Fits g → body out pc r b = .ok (code, b') → ∃ g', Piece b b' pc code g g'

/-- A body in a scope of its own. -/
theorem Compiles.scope {r : Analyzer} {body : Out → Nat → Build (List Instr)}
    (hbody : Compiles r body) {out : Out} (pc : Nat) {b b' : Builder} {g : Shapes}
    {code : List Instr} (hb : b.Holds g) (ho : out.Fits g)
    (h : Build.inScope (body out pc) r b = .ok (code, b')) : Resized b b' ∧
    Piece b b' pc code g g := by
  refine Piece.scope hb h fun b₁ hin hrun => ?_
  obtain ⟨g', hp⟩ := hbody hin ho hrun
  exact hp.closed

/-- Compiling tests with their bodies gives typed code that may jump to the end of them all. `see`
says which cells the tests may ask for besides. -/
def CompilesSegments (r : Analyzer) (see : Seeing)
    (tests : Out → Nat → Build (List Segment)) : Prop :=
  ∀ {out : Out} {pc : Nat} {b b' : Builder} {g : Shapes} {segments : List Segment},
    b.Holds g → out.Fits g → (∀ i, see i → g i ≠ .free) → tests out pc r b = .ok (segments, b') →
    Resized b b' ∧ ∀ size, b'.slots.size ≤ size → ∀ stop,
      TypedTo [(stop, g)] size pc (Segment.code stop segments) g g

namespace Segment

theorem length_code (stop : Nat) (segments : List Segment) :
    (code stop segments).length = length segments := by
  unfold length code
  induction segments with
  | nil => rfl
  | cons s rest ih => cases hj : s.jumps <;> simp_all

/-- Where the next test stands. -/
def next (s : Segment) (pc : Nat) : Nat := pc + 1 + s.body.length + if s.jumps then 1 else 0

theorem code_cons (stop : Nat) (s : Segment) (rest : List Segment) : code stop (s :: rest) =
    (s.test :: s.body ++ if s.jumps then [{ op := .jump stop }] else []) ++ code stop rest :=
    List.flatMap_cons

theorem length_cons (s : Segment) (rest : List Segment) (pc : Nat) :
    pc + length (s :: rest) = s.next pc + length rest := by
  unfold next
  rw [← length_code 0, ← length_code 0, code_cons]
  cases s.jumps <;> simp <;> omega

theorem typed_nil {g : Shapes} {size pc stop : Nat} :
    TypedTo [(stop, g)] size pc (code stop []) g g :=
  .nil (.refl g)

theorem typed_cons {b : Builder} {g : Shapes} {size pc stop : Nat} {s : Segment}
    {rest : List Segment} (hb : b.Holds g) (hs : b.slots.size ≤ size)
    (htest : TypedTo [(s.next pc, g), (stop, g)] size pc [s.test] g g)
    (hbody : Typed size (pc + 1) s.body g g)
    (hrest : TypedTo [(stop, g)] size (s.next pc) (code stop rest) g g) :
    TypedTo [(stop, g)] size pc (code stop (s :: rest)) g g := by
  have hjump : TypedTo [(s.next pc, g), (stop, g)] size (pc + 1 + s.body.length)
      (if s.jumps then [{ op := .jump stop }] else []) g g := by
    split
    · refine plain_typed hb hs rfl fun st types hg _ _ hexits => ?_
      obtain ⟨hle, hw⟩ := hexits (stop, g) (by simp)
      exact ⟨hle, by rw [hg]; exact hw⟩
    · exact .nil (.refl g)
  have hfirst : TypedTo [(s.next pc, g), (stop, g)] size pc
      (s.test :: s.body ++ if s.jumps then [{ op := .jump stop }] else []) g g :=
    (htest.cons (hbody.weakenExits fun _ h => by cases h)).append (by
      rw [List.length_cons, Nat.add_comm s.body.length 1, ← Nat.add_assoc]
      exact hjump)
  rw [code_cons]
  refine hfirst.append_at hrest ?_ (.refl g) (.refl g)
  unfold next
  cases s.jumps <;> simp <;> omega

/-- Tests, and what runs if none of them holds. -/
theorem typed_all {g : Shapes} {size pc : Nat} {segments : List Segment} {last : List Instr}
    (hsegments : ∀ stop, TypedTo [(stop, g)] size pc (code stop segments) g g)
    (hlast : Typed size (pc + length segments) last g g) :
    Typed size pc (code (pc + length segments + last.length) segments ++ last) g g := by
  refine TypedTo.closeEnd (h := g) (pc + length segments + last.length) ?_ ?_ (.refl g)
  · refine (hsegments _).append ?_
    rw [length_code]
    exact hlast.weakenExits fun _ h => by cases h
  · rw [List.length_append, length_code, Nat.add_assoc]

end Segment

variable {r : Analyzer}

-- The equations of the compiler are made here, once for the lemmas on its cases.
attribute [local simp] compilePlan

theorem text_ok (t : String) : Compiles r fun out pc => compilePlan out pc (.text t) := by
  intro out pc b b' g code hb ho h
  unfold compilePlan at h
  obtain ⟨rfl, rfl⟩ := Build.pure_ok h
  refine ⟨g, hb, .refl hb.slots, .refl g, fun size hs => ?_⟩
  split
  · exact .nil (.refl g)
  · exact plain_typed hb hs rfl fun stop types hg hnext hle _ =>
      ⟨by rw [hg]; exact ho, hle, by rw [hg]; exact hnext⟩

theorem print_ok (e : Expr) (ds : List Directive) : Compiles r fun out pc =>
    compilePlan out pc (.print e ds) := by
  intro out pc b b' g code hb ho h
  unfold compilePlan at h
  obtain ⟨⟨⟨c, fs⟩, slot, x⟩, b₁, hstep, h⟩ := Build.bind_ok h
  obtain ⟨rfl, rfl⟩ := Build.pure_ok h
  obtain ⟨hx, ht⟩ := Build.step_ok (P := fun keep _ => touchPrint (g · ≠ .free) keep c fs)
      hb.slots hstep <| by
    intro b₁ b₂ hw hl hparts
    obtain ⟨c', b₃, hc, hparts⟩ := Build.bind_ok hparts
    obtain ⟨fs', b₄, hfs, hparts⟩ := Build.bind_ok hparts
    obtain ⟨hpair, rfl⟩ := Build.pure_ok hparts
    cases hpair
    exact Build.print_ok hw (by rw [hl]; exact hb.locals) hc hfs
  refine ⟨g, .ofResized hb hx.resized fun size hs => ?_⟩
  exact stepped_typed hb hx hs trivial (ht []) fun stop types hg hnext hle _ =>
    ⟨by rw [hg]; exact ho, hle, by rw [hg]; exact hnext⟩

/-- One expression as the only part of an instruction. -/
theorem step_expr_ok {b b' : Builder} {g : Shapes} {e : Expr} {c : Compiled}
    {slot : Nat} {x : Extent} (hb : b.Holds g)
    (h : Build.step none (fun _ => Build.expr e) r b = .ok ((c, slot, x), b')) :
    Build.Stepped b b' none slot x ∧
      ∀ place, ∃ table, c.Touches (g · ≠ .free) (keepIn x.memo x.high table) place :=
  Build.step_ok hb.slots h fun b₁ b₂ hw hl hc => Build.expr_ok hw (by rw [hl]; exact hb.locals) hc

theorem orNothing_ok {isMissing : Bool} {body : Out → Nat → Build (List Instr)}
    (hbody : Compiles r body) {out : Out} (pc : Nat) {b b' : Builder} {g : Shapes}
    {code : List Instr} (hb : b.Holds g) (ho : out.Fits g)
    (h : Build.orNothing isMissing (body out pc) r b = .ok (code, b')) : Resized b b' ∧
    Piece b b' pc code g g := by
  cases isMissing with
  | true =>
    obtain ⟨rfl, rfl⟩ := Build.pure_ok h
    exact ⟨.refl _, .nil hb⟩
  | false => exact hbody.scope pc hb ho h

theorem cond_ok {branches : List (Expr × List Plan)} {otherwise : List Plan}
    (hbranches : CompilesSegments r (fun _ => False) fun out pc =>
      compileBranches out (!otherwise.isEmpty) pc branches)
    (hother : Compiles r fun out pc => compileBlock out pc otherwise) :
    Compiles r fun out pc => compilePlan out pc (.cond branches otherwise) := by
  intro out pc b b' g code hb ho h
  unfold compilePlan at h
  obtain ⟨check, h, hcheck⟩ := check_ok hb h
  obtain ⟨segments, b₂, hsegments, h⟩ := Build.bind_ok h
  obtain ⟨last, b₃, hlast, h⟩ := Build.bind_ok h
  obtain ⟨rfl, rfl⟩ := Build.pure_ok h
  obtain ⟨hr₂, hsegs⟩ := hbranches hb ho (fun _ h => h.elim) hsegments
  obtain ⟨hr₃, hp⟩ := orNothing_ok hother _ (hr₂.holds hb) ho hlast
  have hr := hr₂.trans hr₃
  refine ⟨g, .ofResized hb hr fun size hs => ?_⟩
  refine (hcheck _ size pc (Nat.le_trans hr.size hs)).cons ?_
  exact Segment.typed_all (hsegs size (Nat.le_trans hr₃.size hs)) (hp.typed size hs)

theorem branch_ok {c : Expr} {body : List Plan} {rest : List (Expr × List Plan)} {more : Bool}
    (hbody : Compiles r fun out pc => compileBlock out pc body)
    (hrest : CompilesSegments r (fun _ => False) fun out pc => compileBranches out more pc rest) :
    CompilesSegments r (fun _ => False) fun out pc =>
    compileBranches out more pc ((c, body) :: rest) := by
  intro out pc b b' g segments hb ho hsee h
  unfold compileBranches at h
  obtain ⟨⟨e, slot, x⟩, b₁, hstep, h⟩ := Build.bind_ok h
  obtain ⟨code, b₂, hcode, h⟩ := Build.bind_ok h
  obtain ⟨later, b₃, hlater, h⟩ := Build.bind_ok h
  obtain ⟨rfl, rfl⟩ := Build.pure_ok h
  obtain ⟨hx, ht⟩ := step_expr_ok hb hstep
  have hb₁ := hx.resized.holds hb
  obtain ⟨hr₂, hp⟩ := hbody.scope (pc + 1) hb₁ ho hcode
  obtain ⟨hr₃, hsegs⟩ := hrest (hr₂.holds hb₁) ho hsee hlater
  refine ⟨(hx.resized.trans hr₂).trans hr₃, fun size hs stop => ?_⟩
  have hs₂ := Nat.le_trans hr₃.size hs
  refine Segment.typed_cons hb (Nat.le_trans (hx.resized.trans hr₂).size hs₂) ?_ (hp.typed size hs₂)
    (hsegs size hs stop)
  refine stepped_typed hb hx (Nat.le_trans hr₂.size hs₂) trivial (ht [])
    fun st types hg hnext hle hexits => ?_
  obtain ⟨hst, hw⟩ := hexits _ List.mem_cons_self
  rw [← hg] at hw hnext
  exact ⟨⟨hst, hw⟩, hle, hnext⟩

theorem case_ok {slot : Nat} {values : List Expr} {body : List Plan}
    {rest : List (List Expr × List Plan)}
    (hbody : Compiles r fun out pc => compileBlock out pc body)
    (hrest : CompilesSegments r (· = slot) fun out pc => compileCases out slot pc rest) :
    CompilesSegments r (· = slot) fun out pc =>
    compileCases out slot pc ((values, body) :: rest) := by
  intro out pc b b' g segments hb ho hsee h
  unfold compileCases at h
  obtain ⟨⟨vs, slot', x⟩, b₁, hstep, h⟩ := Build.bind_ok h
  obtain ⟨code, b₂, hcode, h⟩ := Build.bind_ok h
  obtain ⟨later, b₃, hlater, h⟩ := Build.bind_ok h
  obtain ⟨rfl, rfl⟩ := Build.pure_ok h
  obtain ⟨hx, ht⟩ := Build.step_ok hb.slots hstep fun b₁ b₂ hw hl hc =>
    have hseen : b₁.locals.Seen (g · ≠ .free) := by rw [hl]; exact hb.locals
    Build.exprs_ok hw hseen hc
  have hb₁ := hx.resized.holds hb
  obtain ⟨hr₂, hp⟩ := hbody.scope (pc + 1) hb₁ ho hcode
  obtain ⟨hr₃, hsegs⟩ := hrest (hr₂.holds hb₁) ho hsee hlater
  refine ⟨(hx.resized.trans hr₂).trans hr₃, fun size hs stop => ?_⟩
  have hs₂ := Nat.le_trans hr₃.size hs
  refine Segment.typed_cons hb (Nat.le_trans (hx.resized.trans hr₂).size hs₂) ?_ (hp.typed size hs₂)
    (hsegs size hs stop)
  obtain ⟨table, ht⟩ := ht []
  refine stepped_typed hb hx (Nat.le_trans hr₂.size hs₂) trivial ⟨table, hsee slot rfl, ht⟩
    fun st types hg hnext hle hexits => ?_
  obtain ⟨hst, hw⟩ := hexits _ List.mem_cons_self
  rw [← hg] at hw hnext
  exact ⟨⟨hst, hw⟩, hle, hnext⟩

theorem default_ok {default : Option (List Plan)}
    (hbody : ∀ body, default = some body → Compiles r fun out pc => compileBlock out pc body)
    {out : Out} {pc : Nat} {b b' : Builder} {g : Shapes} {code : List Instr} (hb : b.Holds g)
    (ho : out.Fits g) (h : compileDefault out pc default r b = .ok (code, b')) : Resized b b' ∧
    Piece b b' pc code g g := by
  unfold compileDefault at h
  cases default with
  | none =>
    obtain ⟨rfl, rfl⟩ := Build.pure_ok h
    exact ⟨.refl _, .nil hb⟩
  | some body => exact Compiles.scope (hbody body rfl) _ hb ho h

/-- The cell of a new local is written, outside of what the expressions of the instruction keep. -/
theorem store_typed {b₁ b' : Builder} {g : Shapes} {kind : SlotKind} {c : Compiled}
    {slot state pc size : Nat} {x : Extent} (hb : b₁.Holds g) (hslot : slot < b₁.slots.mark)
    (hx : Build.Stepped b₁ b' none state x)
    (ht : ∀ place, ∃ table, c.Touches (g · ≠ .free) (keepIn x.memo x.high table) place)
    (hs : b'.slots.size ≤ size) :
    Typed size pc [{ op := .store slot kind c, extent := some x }] g (g.set slot .any) := by
  have hsize : slot < size :=
    Nat.lt_of_lt_of_le hslot (Nat.le_trans hb.slots.size (Nat.le_trans hx.resized.size hs))
  refine stepped_typed hb hx hs (by rw [← hx.low] at hslot; exact hslot) (ht [])
    fun st types hg hnext hle _ => ?_
  exact ⟨hsize, hle, by rw [hg]; exact hnext⟩

theorem switch_ok {subject : Expr} {cases : List (List Expr × List Plan)}
    {default : Option (List Plan)}
    (hcases : ∀ slot, CompilesSegments r (· = slot) fun out pc => compileCases out slot pc cases)
    (hdefault : ∀ body, default = some body → Compiles r fun out pc => compileBlock out pc body) :
    Compiles r fun out pc => compilePlan out pc (.switch subject cases default) := by
  intro out pc b b' g code hb ho h
  unfold compilePlan at h
  obtain ⟨check, h, hcheck⟩ := check_ok hb h
  refine ⟨g, (Piece.scope hb h fun b₂ hin h => ?_).2⟩
  obtain ⟨slot, b₃, hslot, h⟩ := Build.bind_ok h
  obtain ⟨⟨c, state, x⟩, b₄, hstep, h⟩ := Build.bind_ok h
  obtain ⟨segments, b₅, hsegments, h⟩ := Build.bind_ok h
  obtain ⟨last, b₆, hlast, h⟩ := Build.bind_ok h
  obtain ⟨rfl, rfl⟩ := Build.pure_ok h
  obtain ⟨hsyn, hl₃⟩ := Build.onSlots_ok hslot
  obtain ⟨hi, hm, hg⟩ := hb.slots.synthetic "switch" .value
  injection hsyn with hsyn
  change Slots.synthetic b.slots.enter "switch" .value = (slot, b₃.slots) at hsyn
  rw [hsyn] at hi hm hg
  have hb₃ := hin.grow hg hl₃
  have hfree := hb.free (Nat.le_of_eq hi.symm)
  have hlt : slot < b₃.slots.mark := by change slot = _ at hi; change b₃.slots.mark = _ at hm; omega
  obtain ⟨hx, ht⟩ := step_expr_ok hb₃ hstep
  have hb₄ := hx.resized.holds (hb₃.set (s := .any) hlt (by simp))
  have hw := Shapes.within_set (s := .any) hfree
  obtain ⟨hr₅, hsegs⟩ :=
    hcases slot hb₄ (ho.mono hw) (by rintro i rfl; rw [Shapes.set_self]; simp) hsegments
  obtain ⟨hr₆, hp⟩ := default_ok hdefault (hr₅.holds hb₄) (ho.mono hw) hlast
  have hgrows := hg.trans ((hx.resized.trans (hr₅.trans hr₆)).grows hb₃.slots)
  refine Piece.closed ⟨hp.holds, hgrows, hw, fun size hs => ?_⟩
  have hs₅ := Nat.le_trans hr₆.size hs
  refine (hcheck _ size pc (Nat.le_trans hgrows.size hs)).cons ?_
  refine (store_typed hb₃ hlt hx ht (Nat.le_trans hr₅.size hs₅)).cons ?_
  exact Segment.typed_all (hsegs size hs₅) (hp.typed size hs)

/-! ## Loops -/

theorem loopCheck_ok {source : List Stmt} {b b' : Builder} {g : Shapes} {code : List Instr}
    (hb : b.Holds g) (h : Build.loopCheck source r b = .ok (code, b')) :
    b' = b ∧ ∀ size pc, b.slots.size ≤ size → Typed size pc code g g := by
  obtain ⟨b₁, b₂, hget, h⟩ := Build.bind_ok h
  cases hget
  obtain ⟨r', b₃, hread, h⟩ := Build.bind_ok h
  cases hread
  split at h
  · obtain ⟨check, h, hcheck⟩ := check_ok hb h
    obtain ⟨rfl, rfl⟩ := Build.pure_ok h
    exact ⟨rfl, fun size pc hs => hcheck [] size pc hs⟩
  · obtain ⟨rfl, rfl⟩ := Build.pure_ok h
    exact ⟨rfl, fun _ _ _ => .nil (.refl g)⟩

/-- One round of a loop. -/
theorem round_ok {source : List Stmt} {body : List Plan}
    (hbody : Compiles r fun out pc => compileBlock out pc body) {out : Out} (pc : Nat)
    {b b₁ b₂ : Builder} {g : Shapes} {pause code : List Instr} (hb : b.Holds g) (ho : out.Fits g)
    (hpause : Build.loopCheck source r b = .ok (pause, b₁))
    (hcode : Build.inScope (compileBlock out (pc + pause.length) body) r b₁ = .ok (code, b₂)) :
    Resized b b₂ ∧ Piece b b₂ pc (pause ++ code) g g := by
  obtain ⟨rfl, hchecked⟩ := loopCheck_ok hb hpause
  obtain ⟨hr, hp⟩ := hbody.scope _ hb ho hcode
  refine ⟨hr, .ofResized hb hr fun size hs => ?_⟩
  exact (hchecked size pc (Nat.le_trans hr.size hs)).append (hp.typed size hs)

/-- The slots of a loop: its variable, and two cells more. -/
theorem loopSlots_ok {b b₁ b₂ : Builder} {g : Shapes} {var : String} {kind : SlotKind}
    {base i : Nat} (hb : b.Holds g) (hvar : Build.alloc var kind r b = .ok (base, b₁))
    (hblock : Build.onSlots (·.block "" .int 2) r b₁ = .ok (i, b₂)) :
    b₂.Holds g ∧ b₂.Holds (g.loop base) ∧ b.slots.Grows b₂.slots ∧ base + 2 < b₂.slots.mark ∧
      g.Within (g.loop base) := by
  obtain ⟨hbase, hm₁, hg₁, hl₁⟩ := Build.alloc_ok hb.slots hvar
  obtain ⟨hs, hl₂⟩ := Build.onSlots_ok hblock
  obtain ⟨hi, hm₂, hg₂⟩ := hg₁.wf.block hs
  have hg := hg₁.trans hg₂
  have hb₂ := hb.grow hg (hl₂.trans hl₁)
  have hlt : base + 2 < b₂.slots.mark := by omega
  refine ⟨hb₂, hb₂.loop hlt, hg, hlt, ?_⟩
  have h₀ := Shapes.within_set (s := .any) (hb.free (Nat.le_of_eq hbase.symm))
  have h₁ : (g.set base .any) (base + 1) = .free := by
    rw [Shapes.set_of_ne g (by omega)]
    exact hb.free (by omega)
  have h₂ : ((g.set base .any).set (base + 1) .any) (base + 2) = .free := by
    rw [Shapes.set_of_ne _ (by omega), Shapes.set_of_ne g (by omega)]
    exact hb.free (by omega)
  exact (h₀.trans (Shapes.within_set h₁ .any)).trans (Shapes.within_set h₂ .any)

/-- The code of a loop, from the instruction that looks for the next round to the one that goes back
there. -/
theorem loop_typed {g : Shapes} {size pc stop : Nat} {next step : Instr} {body : List Instr}
    (hnext : TypedTo [(pc, g), (stop, g)] size pc [next] g g) (hbody : Typed size (pc + 1) body g g)
    (hstep : TypedTo [(pc, g), (stop, g)] size (pc + 1 + body.length) [step] g g) :
    TypedTo [(stop, g)] size pc (next :: body ++ [step]) g g := by
  refine TypedTo.closeStart ?_
  refine hnext.cons ?_
  exact (hbody.weakenExits fun _ h => by cases h).append hstep

/-- A loop over numbers. What is known in it is known where it goes back and where it ends. -/
theorem rangeLoop_typed {b : Builder} {g : Shapes} {size pc base stop : Nat} {round : List Instr}
    (hb : b.Holds (g.loop base)) (hs : b.slots.size ≤ size)
    (hround : Typed size (pc + 1) round (g.loop base) (g.loop base)) :
    TypedTo [(stop, g.loop base)] size pc
      ({ op := .rangeNext base stop } :: round ++ [{ op := .rangeStep base pc }]) (g.loop base)
      (g.loop base) := by
  refine loop_typed ?_ hround ?_
  · refine plain_typed hb hs rfl fun st types hg hnext hle hexits => ?_
    obtain ⟨hstop, hw⟩ := hexits _ (List.mem_cons_of_mem _ List.mem_cons_self)
    rw [← hg] at hw hnext
    refine ⟨⟨?_, ?_⟩, ⟨hstop, hw⟩, hle, hnext⟩
    · rw [hg, Shapes.loop_first]; simp
    · rw [hg, Shapes.loop_second]; simp
  · refine plain_typed hb hs rfl fun st types hg _ _ hexits => ?_
    obtain ⟨hstop, hw⟩ := hexits _ List.mem_cons_self
    refine ⟨⟨?_, ?_, ?_⟩, hstop, ?_⟩
    · rw [hg, Shapes.loop_first]; simp
    · rw [hg, Shapes.loop_second]; simp
    · rw [hg, Shapes.loop_third]; simp
    · rw [hg, Shapes.set_same (g.loop_first base)]
      exact hw

/-- A loop over the items of a list. -/
theorem eachLoop_typed {b : Builder} {g : Shapes} {size pc base : Nat}
    {round : List Instr} (stop : Nat) (hb : b.Holds (g.loop base)) (hs : b.slots.size ≤ size)
    (hround : Typed size (pc + 1) round (g.loop base) (g.loop base)) :
    TypedTo [(stop, g.loop base)] size pc
      ({ op := .eachNext base stop } :: round ++ [{ op := .eachStep base pc }]) (g.loop base)
      (g.loop base) := by
  refine loop_typed ?_ hround ?_
  · refine plain_typed hb hs rfl fun st types hg hnext hle hexits => ?_
    obtain ⟨hstop, hw⟩ := hexits _ (List.mem_cons_of_mem _ List.mem_cons_self)
    rw [← hg] at hw hnext
    refine ⟨⟨?_, ?_⟩, ⟨hstop, hw⟩, hle, hnext⟩
    · rw [hg, Shapes.loop_second]; simp
    · rw [hg, Shapes.loop_third]; simp
  · refine plain_typed hb hs rfl fun st types hg _ _ hexits => ?_
    obtain ⟨hstop, hw⟩ := hexits _ List.mem_cons_self
    refine ⟨?_, hstop, ?_⟩
    · rw [hg, Shapes.loop_second]; simp
    · rw [hg, Shapes.set_same (g.loop_second base)]
      exact hw

/-- The bounds and step of a range, compiled. -/
theorem rangeParts_ok {b b' : Builder} {g : Shapes} {start : Option Expr} {stop : Expr}
    {stride : Option Expr} {cs : Option Compiled × Compiled × Option Compiled} {state : Nat}
    {x : Extent} (hb : b.Holds g) (h : Build.step none (fun _ => do
      let start ← Build.optional start
      let stop ← Build.expr stop
      let stride ← Build.optional stride
      return (start, stop, stride)) r b = .ok ((cs, state, x), b')) :
    Build.Stepped b b' none state x ∧ ∀ _ : List Nat, ∃ table,
      touchOption (g · ≠ .free) (keepIn x.memo x.high table) [0] cs.1 ∧
      cs.2.1.Touches (g · ≠ .free) (keepIn x.memo x.high table) [1] ∧
      touchOption (g · ≠ .free) (keepIn x.memo x.high table) [2] cs.2.2 := by
  obtain ⟨cstart, cstop, cstride⟩ := cs
  refine Build.step_ok (P := fun keep _ => touchOption (g · ≠ .free) keep [0] cstart ∧
    cstop.Touches (g · ≠ .free) keep [1] ∧ touchOption (g · ≠ .free) keep [2] cstride) hb.slots h ?_
  intro b₁ b₂ hw hl h
  obtain ⟨c₁, b₃, hc₁, h⟩ := Build.bind_ok h
  obtain ⟨c₂, b₄, hc₂, h⟩ := Build.bind_ok h
  obtain ⟨c₃, b₅, hc₃, h⟩ := Build.bind_ok h
  obtain ⟨hpair, rfl⟩ := Build.pure_ok h
  cases hpair
  have hseen : b₁.locals.Seen (g · ≠ .free) := by rw [hl]; exact hb.locals
  have h₁ := Build.optional_ok hw hseen hc₁
  have h₂ := Build.expr_ok h₁.grows.wf (by rw [h₁.locals]; exact hseen) hc₂
  have h₃ := Build.optional_ok h₂.grows.wf (by rw [h₂.locals, h₁.locals]; exact hseen) hc₃
  exact h₁.and (h₂.and h₃ (fun _ => [1]) fun _ => [2]) (fun _ => [0]) fun _ => []

theorem forRange_ok {var : String} {start : Option Expr} {stop : Expr} {stride : Option Expr}
    {source : List Stmt} {body : List Plan}
    (hbody : Compiles r fun out pc => compileBlock out pc body) :
    Compiles r fun out pc => compilePlan out pc (.forRange var start stop stride source body) := by
  intro out pc b b' g code hb ho h
  unfold compilePlan at h
  obtain ⟨check, h, hcheck⟩ := check_ok hb h
  refine ⟨g, (Piece.scope hb h fun b₁ hin h => ?_).2⟩
  obtain ⟨base, b₂, hbase, h⟩ := Build.bind_ok h
  obtain ⟨i, b₃, hblock, h⟩ := Build.bind_ok h
  obtain ⟨⟨⟨cstart, cstop, cstride⟩, state, x⟩, b₄, hstep, h⟩ := Build.bind_ok h
  obtain ⟨u, b₅, hbind, h⟩ := Build.bind_ok h
  obtain ⟨pause, b₆, hpause, h⟩ := Build.bind_ok h
  obtain ⟨inner, b₇, hinner, h⟩ := Build.bind_ok h
  obtain ⟨rfl, rfl⟩ := Build.pure_ok h
  obtain ⟨hb₃, hb₃', hg₃, hlt, hw⟩ := loopSlots_ok hin hbase hblock
  obtain ⟨hx, ht⟩ := rangeParts_ok hb₃ hstep
  cases hbind
  have hb₅ := (hx.resized.holds hb₃').bind var (x := { slot := base, kind := .int })
    (Binding.seen_of_slot _ (by rw [Shapes.loop_first]; simp))
  obtain ⟨hr₇, hp⟩ := round_ok hbody (pc + 2 + 1) hb₅ (ho.mono hw) hpause hinner
  have hgrows := hg₃.trans ((hx.resized.grows hb₃.slots).trans hp.grows)
  refine Piece.closed ⟨hp.holds, hgrows, hw, fun size hs => ?_⟩
  have hs₄ : b₄.slots.size ≤ size := Nat.le_trans hr₇.size hs
  have hsize : base + 2 < size :=
    Nat.lt_of_lt_of_le hlt (Nat.le_trans hb₃.slots.size (Nat.le_trans hx.resized.size hs₄))
  refine (hcheck _ size pc (Nat.le_trans hgrows.size hs)).cons ?_
  have hinit : Typed size (pc + 1)
      [{ op := .rangeInit base cstart cstop cstride, extent := some x }] g (g.loop base) := by
    refine stepped_typed hb₃ hx hs₄ (by rw [← hx.low] at hlt; exact hlt) (ht [])
      fun st types hg hnext hle _ => ?_
    exact ⟨hsize, hle, by rw [hg]; exact hnext⟩
  refine hinit.cons ?_
  refine (rangeLoop_typed hb₅ hs₄ (hp.typed size hs)).closeEnd _ ?_ (.refl _)
  simp only [List.length_append, List.length_cons, List.length_nil]
  omega

theorem forEach_ok {var : String} {list : Expr} {source : List Stmt} {body ifEmpty : List Plan}
    (hbody : Compiles r fun out pc => compileBlock out pc body)
    (hempty : Compiles r fun out pc => compileBlock out pc ifEmpty) :
    Compiles r fun out pc => compilePlan out pc (.forEach var list source body ifEmpty) := by
  intro out pc b b' g code hb ho h
  unfold compilePlan at h
  obtain ⟨check, h, hcheck⟩ := check_ok hb h
  refine ⟨g, (Piece.scope hb h fun b₁ hin h => ?_).2⟩
  obtain ⟨base, b₂, hbase, h⟩ := Build.bind_ok h
  obtain ⟨i, b₃, hblock, h⟩ := Build.bind_ok h
  obtain ⟨⟨c, state, x⟩, b₄, hstep, h⟩ := Build.bind_ok h
  obtain ⟨u, b₅, hbind, h⟩ := Build.bind_ok h
  obtain ⟨pause, b₆, hpause, h⟩ := Build.bind_ok h
  obtain ⟨inner, b₇, hinner, h⟩ := Build.bind_ok h
  obtain ⟨last, b₈, hlast, h⟩ := Build.bind_ok h
  obtain ⟨rfl, rfl⟩ := Build.pure_ok h
  obtain ⟨hb₃, hb₃', hg₃, hlt, hw⟩ := loopSlots_ok hin hbase hblock
  obtain ⟨hx, ht⟩ := step_expr_ok hb₃ hstep
  cases hbind
  have hb₅ := (hx.resized.holds hb₃').bind var
    (x := { slot := base, kind := .value, loop := some (base + 1, base + 2) }) <| by
      refine ⟨by rw [Shapes.loop_first]; simp, ?_⟩
      rintro i l ⟨⟩
      exact ⟨by rw [Shapes.loop_second]; simp, by rw [Shapes.loop_third]; simp⟩
  obtain ⟨hr₇, hp⟩ := round_ok hbody (pc + 2 + 1) hb₅ (ho.mono hw) hpause hinner
  obtain ⟨hr₈, hp'⟩ := orNothing_ok hempty _ hp.holds (ho.mono hw) hlast
  have hgrows := hg₃.trans ((hx.resized.grows hb₃.slots).trans (hp.grows.trans hp'.grows))
  refine Piece.closed ⟨hp'.holds, hgrows, hw, fun size hs => ?_⟩
  have hs₇ := Nat.le_trans hr₈.size hs
  have hs₄ : b₄.slots.size ≤ size := Nat.le_trans hr₇.size hs₇
  have hsize : base + 2 < size :=
    Nat.lt_of_lt_of_le hlt (Nat.le_trans hb₃.slots.size (Nat.le_trans hx.resized.size hs₄))
  refine (hcheck _ size pc (Nat.le_trans hgrows.size hs)).cons ?_
  have hinit : ∀ emptyAt exits, TypedTo ((emptyAt, g.loop base) :: exits) size (pc + 1)
      [{ op := .eachInit base c emptyAt, extent := some x }] g (g.loop base) := by
    intro emptyAt exits
    refine stepped_typed hb₃ hx hs₄ (by rw [← hx.low] at hlt; exact hlt) (ht [0])
      fun st types hg hnext hle hexits => ?_
    obtain ⟨hstop, hw⟩ := hexits _ List.mem_cons_self
    exact ⟨hsize, ⟨hstop, by rw [hg]; exact hw⟩, hle, by rw [hg]; exact hnext⟩
  -- The loop stands before the block for no items; both, and the start, end at the same place.
  have hloop := eachLoop_typed (pc + 2 + 1 + pause.length + inner.length + 1 + last.length) hb₅ hs₄
    (hp.typed size hs₇)
  have hboth := ((hinit (pc + 2 + 1 + pause.length + inner.length + 1) _).cons
    (hloop.addExit _)).append_at ((hp'.typed size hs).addExit _)
    (by simp [Nat.add_assoc, Nat.add_comm, Nat.add_left_comm]) (.refl _) (.refl _)
  refine TypedTo.closeEnd (h := g.loop base)
    (pc + 2 + 1 + pause.length + inner.length + 1 + last.length) ?_ ?_ (.refl _)
  · simpa using hboth
  · simp [Nat.add_assoc, Nat.add_comm, Nat.add_left_comm]

/-! ## Locals -/

/-- A new slot is put to use under a name. -/
theorem local_ok {b b₁ b₂ : Builder} {g : Shapes} {name : String} {kind : SlotKind}
    {slot : Nat} {s : Shape} (hb : b.Holds g) (halloc : Build.alloc name kind r b = .ok (slot, b₁))
    (hr : Resized b₁ b₂) (hs : s ≠ .free) :
    b₁.Holds g ∧ slot < b₁.slots.mark ∧ g slot = .free ∧ b.slots.Grows b₂.slots ∧
    b₂.Holds (g.set slot s) ∧
    ∀ kind', Builder.Holds { b₂ with locals := b₂.locals.bind name { slot, kind := kind' } }
      (g.set slot s) := by
  obtain ⟨hslot, hm, hg, hl⟩ := Build.alloc_ok hb.slots halloc
  have hb₁ := hb.grow hg hl
  have hlt : slot < b₁.slots.mark := by omega
  have hset := hr.holds (hb₁.set hlt hs)
  refine ⟨hb₁, hlt, hb.free (Nat.le_of_eq hslot.symm), hg.trans (hr.grows hb₁.slots), hset,
    fun kind' => ?_⟩
  exact hset.bind name (Binding.seen_of_slot _ (by rw [Shapes.set_self]; exact hs))

theorem eager_ok {name : String} {e : Expr} : Compiles r fun out pc =>
    compilePlan out pc (.eager name e) := by
  intro out pc b b' g code hb ho h
  unfold compilePlan at h
  obtain ⟨slot, b₁, halloc, h⟩ := Build.bind_ok h
  obtain ⟨⟨c, state, x⟩, b₂, hstep, h⟩ := Build.bind_ok h
  obtain ⟨u, b₃, hbind, h⟩ := Build.bind_ok h
  obtain ⟨rfl, rfl⟩ := Build.pure_ok h
  cases hbind
  obtain ⟨hb₁, hlt, hfree, -⟩ := local_ok (s := .any) hb halloc (.refl b₁) (by simp)
  obtain ⟨hx, ht⟩ := step_expr_ok hb₁ hstep
  obtain ⟨-, -, -, hgrows, -, hholds⟩ := local_ok (s := .any) hb halloc hx.resized (by simp)
  refine ⟨_, hholds _, hgrows, Shapes.within_set hfree .any, fun size hs => ?_⟩
  exact store_typed hb₁ hlt hx ht hs

theorem deferred_ok {name : String} {e : Expr} : Compiles r fun out pc =>
    compilePlan out pc (.deferred name e) := by
  intro out pc b b' g code hb ho h
  unfold compilePlan at h
  obtain ⟨slot, b₁, halloc, h⟩ := Build.bind_ok h
  obtain ⟨r', b₂, hread, h⟩ := Build.bind_ok h
  cases hread
  obtain ⟨b₃, b₄, hget, h⟩ := Build.bind_ok h
  cases hget
  obtain ⟨thunk, b₅, hlift, h⟩ := Build.bind_ok h
  obtain ⟨u, b₆, hbind, h⟩ := Build.bind_ok h
  obtain ⟨rfl, rfl⟩ := Build.pure_ok h
  cases hbind
  obtain ⟨hb₁, hlt, hfree, hgrows, -, hholds⟩ := local_ok (s := .any) hb halloc (.refl b₁) (by simp)
  cases hcode : ThunkCode.compile { analyzer := r, locals := b₁.locals } e with
  | error err => rw [hcode] at hlift; cases hlift
  | ok thunk' =>
    rw [hcode] at hlift
    cases hlift
    refine ⟨_, hholds _, hgrows, Shapes.within_set hfree .any, fun size hs => ?_⟩
    refine plain_typed hb₁ hs rfl fun stop types hg hnext hle _ => ?_
    refine ⟨Nat.lt_of_lt_of_le hlt (Nat.le_trans hb₁.slots.size hs), ?_, hle,
      by rw [hg]; exact hnext⟩
    rw [hg]
    exact ThunkCode.compile_fits hb₁.locals hcode

/-! ## Content -/

/-- A body that writes into a cell of its own, between an instruction that prepares the cell and one
that gives it up: the cell is new, and still of that shape after the body. -/
structure Enclosed (b b₁ b₂ b₃ : Builder) (slot pc : Nat) (s : Shape) (code : List Instr)
    (g g' : Shapes) : Prop where
  fresh : slot = b.slots.mark
  lt : slot < b₁.slots.mark
  free : g slot = .free
  before : b₁.Holds g
  after : b₃.Holds g'
  size : b₂.slots.size ≤ b₃.slots.size
  grows : b.slots.Grows b₃.slots
  within : g.Within g'
  shape : g' slot = s
  typed : ∀ size, b₃.slots.size ≤ size → Typed size pc code (g.set slot s) g'

theorem enclosed_ok {body : Out → Nat → Build (List Instr)} (hbody : Compiles r body)
    {b b₁ b₂ b₃ : Builder} {g : Shapes} {kind : SlotKind} {slot pc : Nat} {s : Shape}
    {code : List Instr} (hb : b.Holds g) (hs : s = .buffer ∨ s = .wrap)
    (halloc : Build.alloc "" kind r b = .ok (slot, b₁)) (hr : Resized b₁ b₂)
    (hcode : body (.cell slot) pc r b₂ = .ok (code, b₃)) :
    ∃ g', Enclosed b b₁ b₂ b₃ slot pc s code g g' := by
  have hne : s ≠ .free := by rcases hs with rfl | rfl <;> simp
  obtain ⟨hslot, -⟩ := Build.alloc_ok hb.slots halloc
  obtain ⟨hb₁, hlt, hfree, hgrows, hset, -⟩ := local_ok (s := s) hb halloc hr hne
  have hout : Out.Fits (g.set slot s) (.cell slot) := by
    change g.set slot s slot = .buffer ∨ g.set slot s slot = .wrap
    rw [Shapes.set_self]
    exact hs
  obtain ⟨g', hp⟩ := hbody hset hout hcode
  exact ⟨g', hslot, hlt, hfree, hb₁, hp.holds, hp.grows.size, hgrows.trans hp.grows,
    (Shapes.within_set hfree s).trans hp.within,
    hp.within.eq (Shapes.set_self ..) hne (by rcases hs with rfl | rfl <;> simp), hp.typed⟩

theorem beginBuffer_typed {b : Builder} {g : Shapes} {slot size : Nat} (pc : Nat) (hb : b.Holds g)
    (hs : b.slots.size ≤ size) (hlt : slot < b.slots.mark) :
    Typed size pc [{ op := .beginBuffer slot }] g (g.set slot .buffer) :=
  plain_typed hb hs rfl fun _ _ hg hnext hle _ =>
    ⟨Nat.lt_of_lt_of_le hlt (Nat.le_trans hb.slots.size hs), hle, by rw [hg]; exact hnext⟩

theorem buffered_ok {body : Out → Nat → Build (List Instr)} (hbody : Compiles r body)
    {b b' : Builder} {g : Shapes} {pc dst : Nat} {kind : ContentKind} {code : List Instr}
    (hb : b.Holds g) (hd : dst < b.slots.mark)
    (h : Build.buffered pc dst kind body r b = .ok (code, b')) :
    Resized b b' ∧ ∀ size, b'.slots.size ≤ size → Typed size pc code g (g.set dst .value) := by
  obtain ⟨b₃, h, hexit⟩ := Build.inScope_ok h
  obtain ⟨slot, b₁, halloc, h⟩ := Build.bind_ok h
  obtain ⟨inner, b₂, hcode, h⟩ := Build.bind_ok h
  obtain ⟨rfl, rfl⟩ := Build.pure_ok h
  obtain ⟨g', hin⟩ := enclosed_ok hbody (s := .buffer) hb.inner (.inl rfl) halloc (.refl b₁) hcode
  have hne : slot ≠ dst := by
    have hslot : slot = b.slots.mark := hin.fresh
    omega
  obtain ⟨hr, hsize⟩ := hexit hin.grows
  refine ⟨hr, fun size hs => ?_⟩
  have hs₃ : b₃.slots.size ≤ size := by rw [← hsize]; exact hs
  have hdst : dst < size :=
    Nat.lt_of_lt_of_le hd (Nat.le_trans hb.slots.size (Nat.le_trans hin.grows.size hs₃))
  have hend : Typed size (pc + 1 + inner.length) [{ op := .endBuffer slot dst kind }] g'
      ((g'.set dst .value).set slot .free) :=
    plain_typed hin.after hs₃ rfl fun _ _ hg hnext hle _ =>
      ⟨hdst, hne, by rw [hg]; exact hin.shape, hle, by rw [hg]; exact hnext⟩
  have hbegin := beginBuffer_typed pc hin.before (Nat.le_trans hin.size hs₃) hin.lt
  have hall : Typed size pc _ g ((g'.set dst .value).set slot .free) :=
      (hbegin.cons (hin.typed size hs₃)).append <| by
    rw [List.length_cons, Nat.add_comm inner.length 1, ← Nat.add_assoc]
    exact hend
  refine hall.forget ((hin.within.set dst .value).set_free ?_)
  rw [Shapes.set_of_ne g hne]
  exact hin.free

theorem content_ok {name : String} {kind : ContentKind} {body : List Plan}
    (hbody : Compiles r fun out pc => compileBlock out pc body) :
    Compiles r fun out pc => compilePlan out pc (.content name kind body) := by
  intro out pc b b' g code hb ho h
  unfold compilePlan at h
  obtain ⟨slot, b₁, halloc, h⟩ := Build.bind_ok h
  obtain ⟨inner, b₂, hcode, h⟩ := Build.bind_ok h
  obtain ⟨u, b₃, hbind, h⟩ := Build.bind_ok h
  obtain ⟨rfl, rfl⟩ := Build.pure_ok h
  cases hbind
  obtain ⟨hb₁, hlt, hfree, -⟩ := local_ok (s := .value) hb halloc (.refl b₁) (by simp)
  obtain ⟨hr, htyped⟩ := buffered_ok hbody hb₁ hlt hcode
  obtain ⟨-, -, -, hgrows, -, hholds⟩ := local_ok (s := .value) hb halloc hr (by simp)
  exact ⟨_, hholds _, hgrows, Shapes.within_set hfree .value, htyped⟩

theorem stream_ok {kind : ContentKind} {body : List Plan} {ds : List Directive}
    (hbody : Compiles r fun out pc => compileBlock out pc body) :
    Compiles r fun out pc => compilePlan out pc (.stream kind body ds) := by
  intro out pc b b' g code hb ho h
  unfold compilePlan at h
  refine ⟨g, (Piece.scope hb h fun b₄ hin h => ?_).2⟩
  obtain ⟨slot, b₁, halloc, h⟩ := Build.bind_ok h
  obtain ⟨⟨fs, state, x⟩, b₂, hstep, h⟩ := Build.bind_ok h
  obtain ⟨inner, b₃, hcode, h⟩ := Build.bind_ok h
  obtain ⟨rfl, rfl⟩ := Build.pure_ok h
  obtain ⟨hb₁, -⟩ := local_ok (s := .wrap) hin halloc (.refl b₁) (by simp)
  obtain ⟨hx, ht⟩ := Build.step_ok hb₁.slots hstep fun b₂ b₃ hw hl hc =>
    have hseen : b₂.locals.Seen (g · ≠ .free) := by rw [hl]; exact hb₁.locals
    Build.filters_ok hw hseen hc
  obtain ⟨g', he⟩ := enclosed_ok hbody (s := .wrap) hin (.inr rfl) halloc hx.resized hcode
  have hw : g.Within (g'.set slot .free) := he.within.set_free he.free
  refine ⟨he.grows, fun size hs => ?_⟩
  have hs₂ := Nat.le_trans he.size hs
  have hlt := he.lt
  have hbegin : Typed size pc [{ op := .beginWrap out slot kind fs, extent := some x }] g
      (g.set slot .wrap) :=
    stepped_typed hb₁ hx hs₂ (by rw [← hx.low] at hlt; exact hlt) (ht []) fun _ _ hg hnext hle _ =>
      ⟨by rw [hg]; exact ho, Nat.lt_of_lt_of_le he.lt
        (Nat.le_trans hb₁.slots.size (Nat.le_trans hx.resized.size hs₂)), hle,
        by rw [hg]; exact hnext⟩
  have hend : Typed size (pc + 1 + inner.length) [{ op := .endWrap slot }] g' (g'.set slot .free) :=
    plain_typed he.after hs rfl fun _ _ hg hnext hle _ =>
      ⟨by rw [hg]; exact he.shape, hle, by rw [hg]; exact hnext⟩
  have hall : Typed size pc _ g (g'.set slot .free) := (hbegin.cons (he.typed size hs)).append <| by
    rw [List.length_cons, Nat.add_comm inner.length 1, ← Nat.add_assoc]
    exact hend
  exact hall.forget hw

theorem log_ok {body : List Plan} (hbody : Compiles r fun out pc => compileBlock out pc body) :
    Compiles r fun out pc => compilePlan out pc (.log body) := by
  intro out pc b b' g code hb ho h
  unfold compilePlan at h
  refine ⟨g, (Piece.scope hb h fun b₃ hin h => ?_).2⟩
  obtain ⟨slot, b₁, halloc, h⟩ := Build.bind_ok h
  obtain ⟨inner, b₂, hcode, h⟩ := Build.bind_ok h
  obtain ⟨rfl, rfl⟩ := Build.pure_ok h
  obtain ⟨g', he⟩ := enclosed_ok hbody (s := .buffer) hin (.inl rfl) halloc (.refl b₁) hcode
  refine ⟨he.grows, fun size hs => ?_⟩
  have hbegin := beginBuffer_typed pc he.before (Nat.le_trans he.size hs) he.lt
  have hend : Typed size (pc + 1 + inner.length) [{ op := .log slot }] g' (g'.set slot .free) :=
    plain_typed he.after hs rfl fun _ _ hg hnext hle _ =>
      ⟨by rw [hg]; exact he.shape, hle, by rw [hg]; exact hnext⟩
  have hall : Typed size pc _ g (g'.set slot .free) := (hbegin.cons (he.typed size hs)).append <| by
    rw [List.length_cons, Nat.add_comm inner.length 1, ← Nat.add_assoc]
    exact hend
  exact hall.forget (he.within.set_free he.free)

/-! ## Calls -/

/-- The content params of a call are in cells for which `P` holds. -/
def SlotsFit (P : Nat → Prop) : List (CallParam (List Plan)) → List (Option Nat) → Prop
  | .content .. :: rest, slot :: slots => P (slot.getD 0) ∧ SlotsFit P rest slots
  | .value .. :: rest, _ :: slots => SlotsFit P rest slots
  | _, _ => True

/-- Compiling the content params of a call gives typed code after which they are in their cells. -/
def CompilesContents (r : Analyzer) (params : List (CallParam (List Plan))) : Prop :=
  ∀ {pc : Nat} {b b' : Builder} {g : Shapes} {slots : List (Option Nat)} {code : List Instr},
    b.Holds g → compileContents pc params r b = .ok ((slots, code), b') →
    ∃ g', Piece b b' pc code g g' ∧ SlotsFit (g' · = .value) params slots

theorem contentParam_ok {name : String} {kind : ContentKind} {body : List Plan}
    {rest : List (CallParam (List Plan))}
    (hbody : Compiles r fun out pc => compileBlock out pc body) (hrest : CompilesContents r rest) :
    CompilesContents r (.content name kind body :: rest) := by
  intro pc b b' g slots code hb h
  unfold compileContents at h
  obtain ⟨slot, b₁, halloc, h⟩ := Build.bind_ok h
  obtain ⟨inner, b₂, hcode, h⟩ := Build.bind_ok h
  obtain ⟨⟨later, laterCode⟩, b₃, hlater, h⟩ := Build.bind_ok h
  obtain ⟨hpair, rfl⟩ := Build.pure_ok h
  cases hpair
  obtain ⟨hb₁, hlt, hfree, -⟩ := local_ok (s := .value) hb halloc (.refl b₁) (by simp)
  obtain ⟨hr, htyped⟩ := buffered_ok hbody hb₁ hlt hcode
  obtain ⟨-, -, -, hgrows, hset, -⟩ := local_ok (s := .value) hb halloc hr (by simp)
  obtain ⟨g', hp, hslots⟩ := hrest hset hlater
  have hfirst : Piece b b₂ pc inner g (g.set slot .value) :=
    ⟨hset, hgrows, Shapes.within_set hfree .value, htyped⟩
  exact ⟨g', hfirst.append hp, hp.within.eq (Shapes.set_self ..) (by simp) (by simp), hslots⟩

theorem valueParam_ok {name : String} {e : Expr} {rest : List (CallParam (List Plan))}
    (hrest : CompilesContents r rest) : CompilesContents r (.value name e :: rest) := by
  intro pc b b' g slots code hb h
  unfold compileContents at h
  obtain ⟨⟨later, laterCode⟩, b₁, hlater, h⟩ := Build.bind_ok h
  obtain ⟨hpair, rfl⟩ := Build.pure_ok h
  cases hpair
  exact hrest hb hlater

theorem noArguments_ok {g : Shapes} {b b' : Builder} {args : List Argument} (hw : b.slots.Wf)
    (h : (pure [] : Build (List Argument)) r b = .ok (args, b')) :
    Part b b' (fun keep place => touchArguments (g · ≠ .free) keep place args) ∧ ∀ a ∈ args,
    a.Fits g := by
  obtain ⟨rfl, rfl⟩ := Build.pure_ok h
  exact ⟨.done hw (fun _ _ _ _ => trivial) fun _ _ => trivial, fun a ha => by cases ha⟩

theorem arguments_ok {g : Shapes} : (params : List (CallParam (List Plan))) →
    (slots : List (Option Nat)) → {b b' : Builder} → {args : List Argument} → b.slots.Wf →
    b.locals.Seen (g · ≠ .free) → SlotsFit (g · = .value) params slots →
    compileArguments params slots r b = .ok (args, b') →
    Part b b' (fun keep place => touchArguments (g · ≠ .free) keep place args) ∧
    ∀ a ∈ args, a.Fits g
  | .content name kind body :: rest, slot :: slots, b, b', args, hw, hs, hp, h => by
    unfold compileArguments at h
    obtain ⟨later, b₁, hlater, h⟩ := Build.bind_ok h
    obtain ⟨rfl, rfl⟩ := Build.pure_ok h
    obtain ⟨hpart, hfit⟩ := arguments_ok rest slots hw hs hp.2 hlater
    refine ⟨(hpart.placed (1 :: ·)).imp (fun _ _ _ hk h => touchArguments_mono (fun _ h => h) hk h)
      fun _ _ h => ⟨?_, h⟩, ?_⟩
    · change g (slot.getD 0) ≠ .free
      rw [hp.1]
      simp
    · intro a ha
      rcases List.mem_cons.1 ha with rfl | ha
      · exact hp.1
      · exact hfit a ha
  | .value name e :: rest, _ :: slots, b, b', args, hw, hs, hp, h => by
    unfold compileArguments at h
    obtain ⟨arg, b₁, harg, h⟩ := Build.bind_ok h
    obtain ⟨later, b₂, hlater, h⟩ := Build.bind_ok h
    obtain ⟨rfl, rfl⟩ := Build.pure_ok h
    obtain ⟨h₁, hfirst⟩ := Build.argument_ok hw hs harg
    obtain ⟨h₂, hfit⟩ := arguments_ok rest slots h₁.grows.wf (by rw [h₁.locals]; exact hs) hp hlater
    refine ⟨(h₁.and h₂ id (1 :: ·)).imp (fun _ _ _ hk h => touchArguments_mono (fun _ h => h) hk h)
      ?_, ?_⟩
    · intro keep place h
      cases arg with
      | content name slot => exact ⟨h.1.1, h.2⟩
      | forward name param => exact h.2
      | value name c => exact ⟨h.1.1, h.2⟩
    · intro a ha
      rcases List.mem_cons.1 ha with rfl | ha
      · exact hfirst g
      · exact hfit a ha
  | [], _, _, _, _, hw, _, _, h => noArguments_ok hw (by unfold compileArguments at h; exact h)
  | .content .. :: _, [], _, _, _, hw, _, _, h =>
    noArguments_ok hw (by unfold compileArguments at h; exact h)
  | .value .. :: _, [], _, _, _, hw, _, _, h =>
    noArguments_ok hw (by unfold compileArguments at h; exact h)

/-- What a call evaluates, compiled. -/
theorem callParts_ok {g : Shapes} {name : String} {target : CallTarget} {data : CallData}
    {params : List (CallParam (List Plan))} {slots : List (Option Nat)} {ds : List Directive}
    {b b' : Builder} {site : CallSite} {fs : List FilterCall} (hw : b.slots.Wf)
    (hseen : b.locals.Seen (g · ≠ .free)) (hslots : SlotsFit (g · = .value) params slots)
    (h : (do
      let whom ← Build.callee target
      let passed ← Build.passed data
      let args ← compileArguments params slots
      let fs ← Build.filters ds
      return ({ name, callee := whom, passed, args : CallSite }, fs)) r b = .ok ((site, fs), b')) :
    Part b b' fun keep _ => site.Touches (g · ≠ .free) keep fs ∧ ∀ a ∈ site.args, a.Fits g := by
  obtain ⟨whom, b₃, hwhom, h⟩ := Build.bind_ok h
  obtain ⟨what, b₄, hwhat, h⟩ := Build.bind_ok h
  obtain ⟨args, b₅, hargs, h⟩ := Build.bind_ok h
  obtain ⟨fs', b₆, hfs, h⟩ := Build.bind_ok h
  obtain ⟨hpair, rfl⟩ := Build.pure_ok h
  cases hpair
  have h₁ := Build.callee_ok hw hseen hwhom
  have h₂ := Build.passed_ok h₁.grows.wf (by rw [h₁.locals]; exact hseen) hwhat
  have h₃ := arguments_ok params slots h₂.grows.wf (by rw [h₂.locals, h₁.locals]; exact hseen)
    hslots hargs
  have h₄ := Build.filters_ok h₃.1.grows.wf (by rw [h₃.1.locals, h₂.locals, h₁.locals]; exact hseen)
    hfs
  refine (h₁.and (h₂.and (h₃.1.and h₄ (fun _ => [2]) fun _ => [3]) id id) id id).imp ?_ fun _ _ h =>
    ⟨⟨h.1, h.2.1, h.2.2.1, h.2.2.2⟩, h₃.2⟩
  exact fun _ _ _ hk h => ⟨h.1.mono (fun _ h => h) hk, h.2⟩

theorem call_ok {name : String} {target : CallTarget} {data : CallData}
    {params : List (CallParam (List Plan))} {ds : List Directive}
    (hparams : CompilesContents r params) :
    Compiles r fun out pc => compilePlan out pc (.call name target data params ds) := by
  intro out pc b b' g code hb ho h
  unfold compilePlan at h
  obtain ⟨check, h, hcheck⟩ := check_ok hb h
  refine ⟨g, (Piece.scope hb h fun b₁ hin h => ?_).2⟩
  obtain ⟨⟨slots, contents⟩, b₂, hcontents, h⟩ := Build.bind_ok h
  obtain ⟨⟨⟨site, fs⟩, slot, x⟩, b₃, hstep, h⟩ := Build.bind_ok h
  obtain ⟨rfl, rfl⟩ := Build.pure_ok h
  obtain ⟨g', hp, hslots⟩ := hparams hin hcontents
  obtain ⟨hx, ht⟩ := Build.step_ok (P := fun keep _ => site.Touches (g' · ≠ .free) keep fs ∧
      ∀ a ∈ site.args, a.Fits g') hp.holds.slots hstep fun _ _ hw hl h =>
    callParts_ok hw (by rw [hl]; exact hp.holds.locals) hslots h
  obtain ⟨table, ht, hfit⟩ := ht []
  obtain ⟨hslot, hmemo⟩ := hx.state rfl
  have hgrows := hp.grows.trans (hx.resized.grows hp.holds.slots)
  refine Piece.closed ⟨hx.resized.holds hp.holds, hgrows, hp.within, fun size hs => ?_⟩
  have hs₂ := Nat.le_trans hx.resized.size hs
  refine (hcheck _ size pc (Nat.le_trans hp.grows.size hs₂)).cons ((hp.typed size hs₂).append ?_)
  refine stepped_typed hp.holds hx hs ⟨Nat.le_of_eq hslot.symm, by rw [hslot]; exact hmemo⟩
    ⟨table, ht⟩ ?_
  intro st types hg hnext hle _
  refine ⟨by rw [hg]; exact ho.mono hp.within, ?_, by rw [hg]; exact hfit, hle, by
    rw [hg]; exact hnext⟩
  rw [hslot]
  exact Nat.lt_of_lt_of_le hmemo (Nat.le_trans hx.memo_le (Nat.le_trans hx.high hs))

/-! ## Blocks -/

theorem noPlan_ok : Compiles r fun out pc => compileBlock out pc [] := by
  intro out pc b b' g code hb ho h
  unfold compileBlock at h
  obtain ⟨rfl, rfl⟩ := Build.pure_ok h
  exact ⟨g, .nil hb⟩

theorem plans_ok {p : Plan} {rest : List Plan} (hp : Compiles r fun out pc => compilePlan out pc p)
    (hrest : Compiles r fun out pc => compileBlock out pc rest) :
    Compiles r fun out pc => compileBlock out pc (p :: rest) := by
  intro out pc b b' g code hb ho h
  unfold compileBlock at h
  obtain ⟨first, b₁, hfirst, h⟩ := Build.bind_ok h
  obtain ⟨later, b₂, hlater, h⟩ := Build.bind_ok h
  obtain ⟨rfl, rfl⟩ := Build.pure_ok h
  obtain ⟨g₁, hp₁⟩ := hp hb ho hfirst
  obtain ⟨g₂, hp₂⟩ := hrest hp₁.holds (ho.mono hp₁.within) hlater
  exact ⟨g₂, hp₁.append hp₂⟩

theorem noBranch_ok (more : Bool) :
    CompilesSegments r (fun _ => False) fun out pc => compileBranches out more pc [] := by
  intro out pc b b' g segments hb ho hsee h
  unfold compileBranches at h
  obtain ⟨rfl, rfl⟩ := Build.pure_ok h
  exact ⟨.refl _, fun _ _ _ => Segment.typed_nil⟩

theorem noCase_ok (slot : Nat) : CompilesSegments r (· = slot) fun out pc =>
    compileCases out slot pc [] := by
  intro out pc b b' g segments hb ho hsee h
  unfold compileCases at h
  obtain ⟨rfl, rfl⟩ := Build.pure_ok h
  exact ⟨.refl _, fun _ _ _ => Segment.typed_nil⟩

theorem noParam_ok : CompilesContents r [] := by
  intro pc b b' g slots code hb h
  unfold compileContents at h
  obtain ⟨hpair, rfl⟩ := Build.pure_ok h
  cases hpair
  exact ⟨g, .nil hb, trivial⟩

mutual

/-- Every block compiles to typed code. -/
theorem compileBlock_ok : (ps : List Plan) → Compiles r fun out pc => compileBlock out pc ps
  | [] => noPlan_ok
  | p :: rest => plans_ok (compilePlan_ok p) (compileBlock_ok rest)

theorem compilePlan_ok : (p : Plan) → Compiles r fun out pc => compilePlan out pc p
  | .text t => text_ok t
  | .print e ds => print_ok e ds
  | .cond branches otherwise => cond_ok (compileBranches_ok _ branches) (compileBlock_ok otherwise)
  | .switch _ cases none => switch_ok (compileCases_ok · cases) fun _ h => by cases h
  | .switch _ cases (some body) =>
    switch_ok (compileCases_ok · cases) fun _ h => by cases h; exact compileBlock_ok body
  | .forRange _ _ _ _ _ body => forRange_ok (compileBlock_ok body)
  | .forEach _ _ _ body ifEmpty => forEach_ok (compileBlock_ok body) (compileBlock_ok ifEmpty)
  | .eager .. => eager_ok
  | .deferred .. => deferred_ok
  | .content _ _ body => content_ok (compileBlock_ok body)
  | .stream _ body _ => stream_ok (compileBlock_ok body)
  | .call _ _ _ params _ => call_ok (compileContents_ok params)
  | .log body => log_ok (compileBlock_ok body)

theorem compileBranches_ok (more : Bool) : (branches : List (Expr × List Plan)) →
    CompilesSegments r (fun _ => False) fun out pc => compileBranches out more pc branches
  | [] => noBranch_ok more
  | (_, body) :: rest => branch_ok (compileBlock_ok body) (compileBranches_ok more rest)

theorem compileCases_ok (slot : Nat) : (cases : List (List Expr × List Plan)) →
    CompilesSegments r (· = slot) fun out pc => compileCases out slot pc cases
  | [] => noCase_ok slot
  | (_, body) :: rest => case_ok (compileBlock_ok body) (compileCases_ok slot rest)

theorem compileContents_ok : (params : List (CallParam (List Plan))) → CompilesContents r params
  | [] => noParam_ok
  | .value .. :: rest => valueParam_ok (compileContents_ok rest)
  | .content _ _ body :: rest => contentParam_ok (compileBlock_ok body) (compileContents_ok rest)

end

end Program

end Interlude
