import Interlude.Proofs.Program.Shape
/-!
# Building instructions

What the steps of compilation do to slots and locals, and where the expressions they compile keep
results. The cells of one instruction lie behind the slots in use and are given back with it
(`step_ok`).
-/

namespace Interlude

namespace Program

/-- Slots and locals agree with what is known: locals are in use, and what is in use is taken. -/
structure Builder.Holds (b : Builder) (g : Shapes) : Prop where
  slots : b.slots.Wf
  locals : b.locals.Seen (g · ≠ .free)
  bound : ∀ i, g i ≠ .free → i < b.slots.mark

/-- Behind the slots taken nothing is in use. -/
theorem Builder.Holds.free {b : Builder} {g : Shapes} (h : b.Holds g) {i : Nat}
    (hi : b.slots.mark ≤ i) :
    g i = .free := by
  cases hs : g i with
  | free => rfl
  | _ =>
    have := h.bound i (by rw [hs]; simp)
    omega

/-- A scope is opened. -/
def Builder.inner (b : Builder) : Builder := { slots := b.slots.enter, locals := b.locals.push }

theorem Builder.Holds.inner {b : Builder} {g : Shapes} (h : b.Holds g) : b.inner.Holds g where
  slots := h.slots.enter
  locals := h.locals.push
  bound := h.bound

/-- Nothing has changed but the greatest number of slots ever in use. -/
structure Resized (b b' : Builder) : Prop where
  size : b.slots.size ≤ b'.slots.size
  eq : b' = { b with slots := { b.slots with size := b'.slots.size } }

theorem Resized.refl (b : Builder) : Resized b b := ⟨Nat.le_refl _, rfl⟩

theorem Resized.mark {b b' : Builder} (h : Resized b b') : b'.slots.mark = b.slots.mark := by
  rw [h.eq]
  rfl

theorem Resized.locals {b b' : Builder} (h : Resized b b') : b'.locals = b.locals := by rw [h.eq]

theorem Resized.grows {b b' : Builder} (h : Resized b b') (hw : b.slots.Wf) :
    b.slots.Grows b'.slots := by
  rw [h.eq]
  exact .resize hw h.size

theorem Resized.holds {b b' : Builder} (h : Resized b b') {g : Shapes} (hb : b.Holds g) :
    b'.Holds g where
  slots := (h.grows hb.slots).wf
  locals := by rw [h.locals]; exact hb.locals
  bound i hi := by rw [h.mark]; exact hb.bound i hi

theorem Resized.trans {b b' b'' : Builder} (h : Resized b b') (h' : Resized b' b'') :
    Resized b b'' where
  size := Nat.le_trans h.size h'.size
  eq := by rw [h'.eq, h.eq]

/-- Parts of an instruction are compiled: slots are taken for what they keep, and locals stay. `P`
says which cells the parts touch, at a place and with a way of keeping. -/
structure Part (b b' : Builder) (P : Keeping → List Nat → Prop) : Prop where
  grows : b.slots.Grows b'.slots
  locals : b'.locals = b.locals
  mono : ∀ keep keep' place, (∀ p i x, keep p i x → keep' p i x) → P keep place → P keep' place
  touches : ∀ place, ∃ table, P (keepIn b.slots.mark b'.slots.mark table) place

namespace Part

variable {b b' b'' : Builder} {P Q : Keeping → List Nat → Prop}

/-- Parts that keep nothing. -/
theorem done (hw : b.slots.Wf) (hm : ∀ keep keep' place, P keep place → P keep' place)
    (hp : ∀ keep place, P keep place) : Part b b P :=
  ⟨.refl hw, rfl, fun keep keep' place _ => hm keep keep' place, fun place =>
    ⟨fun _ => none, hp _ place⟩⟩

/-- Parts after parts, each at a place of its own. -/
theorem and (hp : Part b b' P) (hq : Part b' b'' Q) (f k : List Nat → List Nat) :
    Part b b'' fun keep place => P keep (f place) ∧ Q keep (k place) where
  grows := hp.grows.trans hq.grows
  locals := hq.locals.trans hp.locals
  mono _ _ _ hk h := ⟨hp.mono _ _ _ hk h.1, hq.mono _ _ _ hk h.2⟩
  touches place := by
    obtain ⟨s, hs⟩ := hp.touches (f place)
    obtain ⟨t, ht⟩ := hq.touches (k place)
    exact ⟨joined s t b'.slots.mark, hp.mono _ _ _ (keepIn.left hq.grows.mark) hs,
      hq.mono _ _ _ (keepIn.right hp.grows.mark) ht⟩

/-- Parts at a place that depends on where all of them stand. -/
theorem placed (hp : Part b b' P) (f : List Nat → List Nat) : Part b b' fun keep place =>
    P keep (f place) where
  grows := hp.grows
  locals := hp.locals
  mono _ _ _ hk h := hp.mono _ _ _ hk h
  touches place := hp.touches (f place)

theorem imp (hp : Part b b' P) (hm : ∀ keep keep' place, (∀ p i x, keep p i x → keep' p i x) →
    Q keep place → Q keep' place) (h : ∀ keep place, P keep place → Q keep place) :
    Part b b' Q where
  grows := hp.grows
  locals := hp.locals
  mono := hm
  touches place := by
    obtain ⟨table, ht⟩ := hp.touches place
    exact ⟨table, h _ _ ht⟩

end Part

namespace Build

variable {r : Analyzer} {b b' : Builder}

/-- The end of a compilation in two steps that succeeds. -/
theorem bind_ok {α β : Type} {x : Build α} {f : α → Build β} {c : β}
    (h : (x >>= f) r b = .ok (c, b')) :
    ∃ a b₁, x r b = .ok (a, b₁) ∧ f a r b₁ = .ok (c, b') :=
  StateT.bind_ok (x := x r) (f := fun a => f a r) h

theorem pure_ok {α : Type} {a c : α} (h : (pure a : Build α) r b = .ok (c, b')) :
    c = a ∧ b' = b := by
  cases h
  exact ⟨rfl, rfl⟩

theorem onSlots_ok {α : Type} {f : Slots → Except Failure (α × Slots)} {a : α}
    (h : onSlots f r b = .ok (a, b')) : f b.slots = .ok (a, b'.slots) ∧ b'.locals = b.locals := by
  obtain ⟨b₁, b₂, hget, h⟩ := bind_ok h
  cases hget
  obtain ⟨r', b₃, hlift, h⟩ := bind_ok h
  cases hf : f b.slots with
  | error e => rw [hf] at hlift; cases hlift
  | ok s =>
    rw [hf] at hlift
    cases hlift
    cases h
    exact ⟨rfl, rfl⟩

theorem alloc_ok {name : String} {kind : SlotKind} {i : Nat} (hw : b.slots.Wf)
    (h : alloc name kind r b = .ok (i, b')) :
    i = b.slots.mark ∧ b'.slots.mark = b.slots.mark + 1 ∧ b.slots.Grows b'.slots ∧
    b'.locals = b.locals := by
  obtain ⟨hs, hl⟩ := onSlots_ok h
  obtain ⟨hi, hm, hg⟩ := hw.alloc hs
  exact ⟨hi, hm, hg, hl⟩

/-- A scope of its own gives back what was taken in it. -/
theorem inScope_ok {α : Type} {act : Build α} {a : α} (h : inScope act r b = .ok (a, b')) :
    ∃ b₁, act r b.inner = .ok (a, b₁) ∧
      (b.slots.enter.Grows b₁.slots → Resized b b' ∧ b'.slots.size = b₁.slots.size) := by
  obtain ⟨outer, b₂, hget, h⟩ := bind_ok h
  cases hget
  obtain ⟨u, b₃, henter, h⟩ := bind_ok h
  cases henter
  obtain ⟨a', b₁, hact, h⟩ := bind_ok h
  obtain ⟨u', b₄, hexit, h⟩ := bind_ok h
  cases hexit
  cases h
  refine ⟨b₁, hact, fun hg => ?_⟩
  have hexit := Slots.exit_of_enter hg
  refine ⟨⟨?_, ?_⟩, ?_⟩
  · change b.slots.size ≤ b₁.slots.exit.size
    rw [hexit]
    exact hg.size
  · change ({ slots := b₁.slots.exit, locals := b.locals } : Builder) =
      { b with slots := { b.slots with size := b₁.slots.exit.size } }
    rw [hexit]
  · change b₁.slots.exit.size = b₁.slots.size
    rw [hexit]

/-! ## Expressions -/

variable {see : Seeing}

theorem expr_ok {e : Expr} {c : Compiled} (hw : b.slots.Wf) (hs : b.locals.Seen see)
    (h : expr e r b = .ok (c, b')) : Part b b' fun keep place => c.Touches see keep place := by
  obtain ⟨r', b₁, hread, h⟩ := bind_ok h
  cases hread
  obtain ⟨b₂, b₃, hget, h⟩ := bind_ok h
  cases hget
  obtain ⟨hc, hl⟩ := onSlots_ok h
  obtain ⟨hg, hf⟩ := Expr.compile_fits hw hs hc
  exact ⟨hg, hl, fun _ _ _ hk h => Lowered.Touches.mono (fun _ h => h) hk h, hf.touches⟩

theorem exprs_ok {es : List Expr} {cs : List Compiled} (hw : b.slots.Wf) (hs : b.locals.Seen see)
    (h : exprs es r b = .ok (cs, b')) : Part b b' fun keep place => touchAll see keep place cs := by
  induction es generalizing b cs with
  | nil =>
    obtain ⟨rfl, rfl⟩ := pure_ok h
    exact .done hw (fun _ _ _ _ => trivial) fun _ _ => trivial
  | cons e rest ih =>
    obtain ⟨c, b₁, hc, h⟩ := bind_ok h
    obtain ⟨later, b₂, hrest, h⟩ := bind_ok h
    obtain ⟨rfl, rfl⟩ := pure_ok h
    have h₁ := expr_ok hw hs hc
    have h₂ := ih h₁.grows.wf (by rw [h₁.locals]; exact hs) hrest
    exact h₁.and h₂ (0 :: ·) (1 :: ·)

theorem optional_ok {e : Option Expr} {c : Option Compiled} (hw : b.slots.Wf)
    (hs : b.locals.Seen see) (h : optional e r b = .ok (c, b')) : Part b b' fun keep place =>
    touchOption see keep place c := by
  cases e with
  | none =>
    obtain ⟨rfl, rfl⟩ := pure_ok h
    exact .done hw (fun _ _ _ _ => trivial) fun _ _ => trivial
  | some e =>
    obtain ⟨c, b₁, hc, h⟩ := bind_ok h
    obtain ⟨rfl, rfl⟩ := pure_ok h
    exact expr_ok hw hs hc

theorem filters_ok {ds : List Directive} {fs : List FilterCall} (hw : b.slots.Wf)
    (hs : b.locals.Seen see) (h : filters ds r b = .ok (fs, b')) : Part b b' fun keep place =>
    touchFilters see keep place fs := by
  induction ds generalizing b fs with
  | nil =>
    obtain ⟨rfl, rfl⟩ := pure_ok h
    exact .done hw (fun _ _ _ _ => trivial) fun _ _ => trivial
  | cons d rest ih =>
    obtain ⟨f, b₀, hf, h⟩ := bind_ok h
    cases hres : Filter.resolve d.name d.args.length with
    | error e => rw [hres] at hf; cases hf
    | ok f' =>
      rw [hres] at hf
      cases hf
      obtain ⟨args, b₁, hargs, h⟩ := bind_ok h
      obtain ⟨later, b₂, hrest, h⟩ := bind_ok h
      obtain ⟨rfl, rfl⟩ := pure_ok h
      have h₁ := exprs_ok hw hs hargs
      have h₂ := ih h₁.grows.wf (by rw [h₁.locals]; exact hs) hrest
      exact h₁.and h₂ (0 :: ·) (1 :: ·)

theorem print_ok {e : Expr} {ds : List Directive} {c : Compiled} {fs : List FilterCall}
    {b₁ : Builder} (hw : b.slots.Wf) (hs : b.locals.Seen see) (hc : expr e r b = .ok (c, b₁))
    (hfs : filters ds r b₁ = .ok (fs, b')) : Part b b' fun keep _ => touchPrint see keep c fs := by
  have h₁ := expr_ok hw hs hc
  have h₂ := filters_ok h₁.grows.wf (by rw [h₁.locals]; exact hs) hfs
  cases fs with
  | nil =>
    exact (h₁.and h₂ (fun _ => []) fun _ => []).imp (fun _ _ _ hk h =>
      touchPrint_mono (fun _ h => h) hk h) fun _ _ h => h.1
  | cons f rest =>
    exact (h₁.and h₂ (fun _ => [0]) fun _ => [1]).imp (fun _ _ _ hk h =>
      touchPrint_mono (fun _ h => h) hk h) fun _ _ h => h

/-! ## Calls -/

theorem callee_ok {target : CallTarget} {whom : Callee} (hw : b.slots.Wf) (hs : b.locals.Seen see)
    (h : callee target r b = .ok (whom, b')) : Part b b' fun keep _ => whom.Touches see keep := by
  cases target with
  | template =>
    obtain ⟨rfl, rfl⟩ := pure_ok h
    exact .done hw (fun _ _ _ _ => trivial) fun _ _ => trivial
  | delegate variant allowEmpty =>
    obtain ⟨c, b₁, hc, h⟩ := bind_ok h
    obtain ⟨rfl, rfl⟩ := pure_ok h
    exact (optional_ok hw hs hc).placed fun _ => [0]

theorem passed_ok {data : CallData} {what : Passed} (hw : b.slots.Wf) (hs : b.locals.Seen see)
    (h : passed data r b = .ok (what, b')) : Part b b' fun keep _ => what.Touches see keep := by
  cases data with
  | none =>
    obtain ⟨rfl, rfl⟩ := pure_ok h
    exact .done hw (fun _ _ _ _ => trivial) fun _ _ => trivial
  | all =>
    obtain ⟨rfl, rfl⟩ := pure_ok h
    exact .done hw (fun _ _ _ _ => trivial) fun _ _ => trivial
  | expr e =>
    obtain ⟨c, b₁, hc, h⟩ := bind_ok h
    obtain ⟨rfl, rfl⟩ := pure_ok h
    exact (expr_ok hw hs hc).placed fun _ => [1]

theorem argument_ok {name : String} {e : Expr} {arg : Argument} (hw : b.slots.Wf)
    (hs : b.locals.Seen see) (h : argument name e r b = .ok (arg, b')) :
    Part b b' (fun keep place => touchArguments see keep place [arg]) ∧ ∀ g, arg.Fits g := by
  have hvalue : ∀ {c : Compiled} {b₁ : Builder}, expr e r b = .ok (c, b₁) →
      Part b b₁ fun keep place => touchArguments see keep place [.value name c] := fun hc =>
    ((expr_ok hw hs hc).placed (0 :: ·)).imp (fun _ _ _ hk h =>
      touchArguments_mono (fun _ h => h) hk h)
      fun _ _ h => ⟨h, trivial⟩
  unfold argument at h
  split at h
  · obtain ⟨rfl, rfl⟩ := pure_ok h
    exact ⟨.done hw (fun _ _ _ _ => trivial) fun _ _ => trivial, fun _ => trivial⟩
  · obtain ⟨c, b₁, hc, h⟩ := bind_ok h
    obtain ⟨rfl, rfl⟩ := pure_ok h
    exact ⟨hvalue hc, fun _ => trivial⟩

/-! ## One instruction -/

theorem site_ok {x : SaveSite} (hw : b.slots.Wf) (h : site r b = .ok (x, b')) :
    x.slots = List.range b.slots.mark ∧ b' = b := by
  cases h
  exact ⟨hw.index, rfl⟩

theorem checkLimit_ok {i : Instr} (hw : b.slots.Wf) (h : checkLimit r b = .ok (i, b')) :
    ∃ site : SaveSite, i = { op := .checkLimit, extent := some { site } } ∧
      site.slots = List.range b.slots.mark ∧ b' = b := by
  cases h
  exact ⟨_, rfl, hw.index, rfl⟩

theorem stateSlot_ok {kind : Option SlotKind} {i : Nat} (hw : b.slots.Wf)
    (h : stateSlot kind r b = .ok (i, b')) :
    b.slots.Grows b'.slots ∧ b'.locals = b.locals ∧
      (kind.isSome = true → i = b.slots.mark ∧ b'.slots.mark = b.slots.mark + 1) := by
  cases kind with
  | none =>
    obtain ⟨rfl, rfl⟩ := pure_ok h
    exact ⟨.refl hw, rfl, fun h => by cases h⟩
  | some kind =>
    obtain ⟨hi, hm, hg, hl⟩ := alloc_ok hw h
    exact ⟨hg, hl, fun _ => ⟨hi, hm⟩⟩

/-- One instruction is compiled: its cells lie behind the slots in use and are given back, and up to
their end everything is saved. -/
structure Stepped (b b' : Builder) (state : Option SlotKind) (slot : Nat) (x : Extent) : Prop where
  resized : Resized b b'
  low : x.low = b.slots.mark
  low_le : x.low ≤ x.memo
  memo_le : x.memo ≤ x.high
  state : state.isSome = true → slot = x.low ∧ x.low < x.memo
  site : x.site.slots = List.range x.high
  high : x.high ≤ b'.slots.size

theorem step_ok {α : Type} {state : Option SlotKind} {parts : Nat → Build α} {a : α}
    {slot : Nat} {x : Extent} {P : Keeping → List Nat → Prop} (hw : b.slots.Wf)
    (h : step state parts r b = .ok ((a, slot, x), b'))
    (hp : ∀ b₁ b₂, b₁.slots.Wf → b₁.locals = b.locals → parts slot r b₁ = .ok (a, b₂) →
      Part b₁ b₂ P) :
    Stepped b b' state slot x ∧ ∀ place, ∃ table, P (keepIn x.memo x.high table) place := by
  obtain ⟨u, b₁, henter, h⟩ := bind_ok h
  cases henter
  obtain ⟨low, b₂, hget, h⟩ := bind_ok h
  cases hget
  obtain ⟨slot', b₃, hstate, h⟩ := bind_ok h
  obtain ⟨memo, b₄, hget, h⟩ := bind_ok h
  cases hget
  obtain ⟨a', b₅, hparts, h⟩ := bind_ok h
  obtain ⟨high, b₆, hget, h⟩ := bind_ok h
  cases hget
  obtain ⟨site, b₇, hsite, h⟩ := bind_ok h
  obtain ⟨u', b₈, hexit, h⟩ := bind_ok h
  cases hexit
  obtain ⟨hres, rfl⟩ := pure_ok h
  cases hres
  obtain ⟨hg₃, hl₃, hs₃⟩ := stateSlot_ok hw.enter hstate
  have hpart := hp b₃ b₅ hg₃.wf hl₃ hparts
  obtain ⟨hrange, rfl⟩ := site_ok hpart.grows.wf hsite
  have hg := hg₃.trans hpart.grows
  have hexit := Slots.exit_of_enter hg
  refine ⟨⟨⟨?_, ?_⟩, rfl, hg₃.mark, hpart.grows.mark, ?_, hrange, ?_⟩, hpart.touches⟩
  · change b.slots.size ≤ b₇.slots.exit.size
    rw [hexit]
    exact hg.size
  · change ({ slots := b₇.slots.exit, locals := b₇.locals } : Builder) =
      { b with slots := { b.slots with size := b₇.slots.exit.size } }
    rw [hexit, hpart.locals, hl₃]
  · intro hsome
    obtain ⟨hi, hm⟩ := hs₃ hsome
    exact ⟨hi, by change b.slots.mark < b₃.slots.mark; rw [hm]; exact Nat.lt_succ_self _⟩
  · change b₇.slots.mark ≤ b₇.slots.exit.size
    rw [hexit]
    exact hpart.grows.wf.size

end Build

/-- The cells of an instruction fit behind what is in use. -/
theorem Build.Stepped.fits {b b' : Builder} {state : Option SlotKind} {slot : Nat} {x : Extent}
    (h : Stepped b b' state slot x) {g : Shapes} (hb : b.Holds g) {size : Nat}
    (hsize : b'.slots.size ≤ size) :
    x.Fits size g where
  low_le := h.low_le
  memo_le := h.memo_le
  scratch i hi _ := hb.free (by rw [← h.low]; exact hi)
  site := by
    refine ⟨x.high, h.site, Nat.le_refl _, Nat.le_trans h.high hsize, fun i hi => ?_⟩
    have hlow := hb.bound i hi
    rw [← h.low] at hlow
    exact Nat.lt_of_lt_of_le hlow (Nat.le_trans h.low_le h.memo_le)

end Program

end Interlude
