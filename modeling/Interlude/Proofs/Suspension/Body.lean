import Mathlib
import Interlude.Proofs.Program.Build
import Interlude.Proofs.Suspension.Instr
import Interlude.Proofs.Suspension.Plan
/-!
# Bodies that cannot suspend

Whatever is bound while a safe plan is compiled, the locals that are known where it begins keep
their cells. So all expressions of its instructions are safe where they are compiled, no instruction
of it waits, and a render that waits stands somewhere else (`Analyzer.conservative_sound`).
-/

namespace Interlude

/-- All known names are locals with known values. -/
def Locals.Knows (known : String → Bool) (ls : Locals) : Prop := ∀ name, known name = true →
    ls.settled name = true

theorem Locals.Knows.bind {known : String → Bool} {ls : Locals} (h : ls.Knows known) {name : String}
    (hname : known name = false) (b : Binding) : (ls.bind name b).Knows known := by
  intro n hn
  have hne : (n == name) = false := by
    refine beq_eq_false_iff_ne.2 fun heq => ?_
    rw [heq, hname] at hn
    cases hn
  unfold Locals.settled
  rw [Locals.lookup_bind, hne]
  exact h n hn

theorem Locals.Knows.push {known : String → Bool} {ls : Locals} (h : ls.Knows known) :
    ls.push.Knows known := by
  intro n hn
  unfold Locals.settled
  rw [Locals.lookup_push]
  exact h n hn

namespace Program

/-- Compilation where all known names are locals with known values: they stay so, and `Q` tells what
is compiled. -/
def Build.Yields {α : Type} (known : String → Bool) (act : Build α) (Q : α → Prop) : Prop :=
  ∀ ⦃r : Analyzer⦄ ⦃b : Builder⦄ ⦃a : α⦄ ⦃b' : Builder⦄, b.locals.Knows known →
    act r b = .ok (a, b') → b'.locals.Knows known ∧ Q a

/-- Instructions none of which waits. -/
def PromptCode (code : List Instr) : Prop := ∀ i ∈ code, i.op.Prompt

/-- Tests with their bodies, none of which waits. -/
def PromptSegments (segments : List Segment) : Prop := ∀ s ∈ segments, s.test.op.Prompt ∧
    PromptCode s.body

theorem PromptCode.cons {i : Instr} {code : List Instr} (hi : i.op.Prompt) (h : PromptCode code) :
    PromptCode (i :: code) :=
  List.forall_mem_cons.2 ⟨hi, h⟩

theorem PromptCode.append {code code' : List Instr} (h : PromptCode code) (h' : PromptCode code') :
    PromptCode (code ++ code') :=
  List.forall_mem_append.2 ⟨h, h'⟩

theorem promptCode_nil : PromptCode [] := fun _ hi => by cases hi

theorem PromptSegments.code {segments : List Segment} (h : PromptSegments segments) (stop : Nat) :
    PromptCode (Segment.code stop segments) := by
  intro i hi
  obtain ⟨s, hs, hi⟩ := List.mem_flatMap.1 hi
  refine PromptCode.append (PromptCode.cons (h s hs).1 (h s hs).2) ?_ i hi
  split
  · exact .cons trivial promptCode_nil
  · exact promptCode_nil

namespace Build.Yields

variable {α β : Type} {known : String → Bool} {P Q : α → Prop}

theorem pure {a : α} (h : Q a) : Yields known (Pure.pure a) Q := fun _ _ _ _ hb hrun => by
  obtain ⟨rfl, rfl⟩ := pure_ok hrun
  exact ⟨hb, h⟩

theorem bind {act : Build α} {f : α → Build β} {R : β → Prop} (h : Yields known act P)
    (hf : ∀ a, P a → Yields known (f a) R) : Yields known (act >>= f) R := fun _ _ _ _ hb hrun => by
  obtain ⟨a, b₁, hact, hrest⟩ := bind_ok hrun
  obtain ⟨hb₁, ha⟩ := h hb hact
  exact hf a ha hb₁ hrest

/-- What only fails, or comes to a result, without looking at slots and locals. -/
theorem lift {x : Except Failure α} : Yields known (liftM x : Build α) fun _ =>
    True := fun _ _ _ _ hb hrun => by
  cases x with
  | error e => cases hrun
  | ok a => cases hrun; exact ⟨hb, trivial⟩

theorem builder : Yields known (get : Build Builder) (·.locals.Knows known) :=
    fun _ _ _ _ hb hrun => by
  cases hrun
  exact ⟨hb, hb⟩

theorem analyzer : Yields known (read : Build Analyzer) fun _ => True := fun _ _ _ _ hb hrun => by
  cases hrun
  exact ⟨hb, trivial⟩

theorem modified {f : Builder → Builder}
    (hf : ∀ b, b.locals.Knows known → (f b).locals.Knows known) :
    Yields known (modify f : Build Unit) fun _ => True := fun _ b _ _ hb hrun => by
  cases hrun
  exact ⟨hf b hb, trivial⟩

theorem onSlots (f : Slots → Except Failure (α × Slots)) :
    Yields known (Build.onSlots f) fun a => ∃ slots slots', f slots = .ok (a, slots') :=
    fun _ b _ b' hb hrun => by
  obtain ⟨hslots, hlocals⟩ := onSlots_ok hrun
  exact ⟨by rw [hlocals]; exact hb, b.slots, b'.slots, hslots⟩

theorem alloc (name : String) (kind : SlotKind) : Yields known (Build.alloc name kind) fun _ =>
    True :=
  fun _ _ _ _ hb hrun => ⟨(onSlots _ hb hrun).1, trivial⟩

theorem bound {name : String} (h : known name = false) (c : Binding) :
    Yields known (Build.bind name c) fun _ => True :=
  modified fun _ hb => hb.bind h c

/-- A scope of its own gives the locals back. -/
theorem inScope {act : Build α} (h : Yields known act Q) : Yields known (Build.inScope act) Q := by
  refine builder.bind fun outer houter => bind (modified fun _ hb => hb.push) fun _ _ =>
    h.bind fun a ha => ?_
  exact bind (modified fun _ _ => houter) fun _ _ => pure ha

/-! ## Expressions -/

theorem expr {e : Expr} (he : e.maySuspend known = false) :
    Yields known (Build.expr e) Compiled.Prompt := by
  refine analyzer.bind fun a _ => builder.bind fun b hb => ?_
  intro r b₁ c b₂ hb₁ hrun
  obtain ⟨hb₂, slots, slots', hc⟩ := onSlots _ hb₁ hrun
  exact ⟨hb₂, Expr.compile_prompt hc (Expr.maySuspend_mono hb e he)⟩

theorem exprs {es : List Expr} (he : ∀ e ∈ es, e.maySuspend known = false) :
    Yields known (Build.exprs es) fun cs => ∀ c ∈ cs, c.Prompt := by
  induction es with
  | nil => exact pure fun _ hc => by cases hc
  | cons e rest ih =>
    obtain ⟨hfirst, hrest⟩ := List.forall_mem_cons.1 he
    exact (expr hfirst).bind fun c hc => (ih hrest).bind fun cs hcs =>
      pure (List.forall_mem_cons.2 ⟨hc, hcs⟩)

theorem optional {e : Option Expr} (he : ∀ d ∈ e, d.maySuspend known = false) :
    Yields known (Build.optional e) fun c => ∀ d ∈ c, d.Prompt := by
  cases e with
  | none => exact pure fun _ hd => by cases hd
  | some e =>
    refine (expr (he e rfl)).bind fun c hc => pure fun d hd => ?_
    cases hd
    exact hc

theorem filters {ds : List Directive} (hds : Plan.SafeArgs known ds) :
    Yields known (Build.filters ds) fun fs => ∀ f ∈ fs, ∀ c ∈ f.args, c.Prompt := by
  induction ds with
  | nil => exact pure fun _ hf => by cases hf
  | cons d rest ih =>
    obtain ⟨hfirst, hrest⟩ := List.forall_mem_cons.1 hds
    exact lift.bind fun filter _ => (exprs hfirst).bind fun args hargs =>
        (ih hrest).bind fun fs hfs =>
      pure (List.forall_mem_cons.2 ⟨hargs, hfs⟩)

/-! ## Instructions -/

theorem site : Yields known Build.site fun _ => True := builder.bind fun _ _ => pure trivial

theorem step {state : Option SlotKind} {parts : Nat → Build α}
    (h : ∀ slot, Yields known (parts slot) Q) :
    Yields known (Build.step state parts) fun r => Q r.1 := by
  have hstate : Yields known (Build.stateSlot state) fun _ => True := by
    cases state with
    | none => exact pure trivial
    | some kind => exact alloc "" kind
  refine bind (modified fun _ hb => hb) fun _ _ => builder.bind fun _ _ =>
    hstate.bind fun slot _ => ?_
  refine builder.bind fun _ _ => (h slot).bind fun a ha => builder.bind fun _ _ =>
    site.bind fun _ _ => ?_
  exact bind (modified fun _ hb => hb) fun _ _ => pure ha

theorem checkLimit : Yields known Build.checkLimit (·.op.Prompt) :=
    site.bind fun _ _ => pure trivial

theorem loopCheck (source : List Stmt) : Yields known (Build.loopCheck source) PromptCode := by
  refine builder.bind fun b _ => analyzer.bind fun a _ => ?_
  split
  · exact checkLimit.bind fun check hcheck => pure (.cons hcheck promptCode_nil)
  · exact pure promptCode_nil

theorem orNothing (isMissing : Bool) {act : Build (List Instr)} (h : Yields known act PromptCode) :
    Yields known (Build.orNothing isMissing act) PromptCode := by
  cases isMissing with
  | true => exact pure promptCode_nil
  | false => exact h.inScope

theorem buffered (pc dst : Nat) (kind : ContentKind) {body : Out → Nat → Build (List Instr)}
    (h : ∀ out pc, Yields known (body out pc) PromptCode) :
    Yields known (Build.buffered pc dst kind body) PromptCode := by
  refine inScope ((alloc _ _).bind fun slot _ => (h _ _).bind fun code hcode => pure ?_)
  exact .append (.cons trivial hcode) (.cons trivial promptCode_nil)

end Build.Yields

/-! ## Plans -/

open Build (Yields)

variable {known : String → Bool}

theorem print_prompt {e : Expr} {ds : List Directive} (h : (Plan.print e ds).Safe known)
    (out : Out) (pc : Nat) :
    Yields known (compilePlan out pc (.print e ds)) PromptCode := by
  unfold compilePlan
  refine (Yields.step (Q := fun r : Compiled × List FilterCall => r.1.Prompt ∧ ∀ f ∈ r.2,
    ∀ c ∈ f.args, c.Prompt)
    fun _ => (Yields.expr h.1).bind fun c hc => (Yields.filters h.2).bind fun fs hfs =>
      .pure ⟨hc, hfs⟩).bind ?_
  rintro ⟨⟨c, fs⟩, slot, x⟩ hc
  exact .pure (.cons hc promptCode_nil)

mutual

/-- The instructions of a safe block never wait. -/
theorem compileBlock_prompt (ps : List Plan) (h : Plan.SafeAll known ps) (out : Out) (pc : Nat) :
    Yields known (compileBlock out pc ps) PromptCode := by
  match ps with
  | [] =>
    unfold compileBlock
    exact .pure promptCode_nil
  | p :: rest =>
    unfold compileBlock
    exact (compilePlan_prompt p h.1 out pc).bind fun code hcode =>
      (compileBlock_prompt rest h.2 out _).bind fun later hlater => .pure (hcode.append hlater)

theorem compilePlan_prompt (p : Plan) (h : p.Safe known) (out : Out) (pc : Nat) :
    Yields known (compilePlan out pc p) PromptCode := by
  match p with
  | .text s =>
    unfold compilePlan
    refine .pure ?_
    split
    · exact promptCode_nil
    · exact .cons trivial promptCode_nil
  | .print e ds => exact print_prompt h out pc
  | .cond branches otherwise =>
    unfold compilePlan
    refine Yields.checkLimit.bind fun check hcheck =>
      (compileBranches_prompt branches h.1 out _ _).bind fun segments hseg => ?_
    refine (Yields.orNothing _ (compileBlock_prompt otherwise h.2 out _)).bind fun last hlast =>
      .pure ?_
    exact .append (.cons hcheck (hseg.code _)) hlast
  | .switch subject cases default =>
    unfold compilePlan
    refine Yields.checkLimit.bind fun check hcheck =>
      Yields.inScope ((Yields.onSlots _).bind fun slot _ => ?_)
    refine (Yields.step fun _ => Yields.expr h.1).bind ?_
    rintro ⟨e, slot', x⟩ he
    refine (compileCases_prompt cases h.2.1 out slot _).bind fun segments hseg => ?_
    refine (compileDefault_prompt default h.2.2 out _).bind fun last hlast => .pure ?_
    exact .append (.cons hcheck (.cons he (hseg.code _))) hlast
  | .forRange var start stop stride source body =>
    unfold compilePlan
    obtain ⟨hvar, hstart, hstop, hstride, hbody⟩ := h
    refine Yields.checkLimit.bind fun check hcheck =>
      Yields.inScope ((Yields.alloc _ _).bind fun base _ => ?_)
    refine (Yields.onSlots _).bind fun _ _ => ?_
    refine (Yields.step (Q := fun r : Option Compiled × Compiled × Option Compiled =>
      (∀ c ∈ r.1, c.Prompt) ∧ r.2.1.Prompt ∧ ∀ c ∈ r.2.2, c.Prompt) fun _ => ?_).bind ?_
    · exact (Yields.optional hstart).bind fun _ ha => (Yields.expr hstop).bind fun _ hb =>
        (Yields.optional hstride).bind fun _ hc => .pure ⟨ha, hb, hc⟩
    rintro ⟨⟨first, last, step⟩, slot, x⟩ ⟨hfirst, hlast, hstep⟩
    refine (Yields.bound hvar _).bind fun _ _ => (Yields.loopCheck source).bind fun pause hpause =>
      ?_
    refine (Yields.inScope (compileBlock_prompt body hbody out _)).bind fun code hcode => .pure ?_
    have hinit : (Op.rangeInit base first (some last) step).Prompt :=
      ⟨hfirst, fun c hc => by cases hc; exact hlast, hstep⟩
    exact .append (.append (.cons hcheck (.cons hinit (.cons trivial hpause))) hcode)
      (.cons trivial promptCode_nil)
  | .forEach .. => exact h.elim
  | .eager name e =>
    unfold compilePlan
    refine (Yields.alloc _ _).bind fun slot _ => (Yields.step fun _ => Yields.expr h.2).bind ?_
    rintro ⟨c, slot', x⟩ hc
    exact (Yields.bound h.1 _).bind fun _ _ => .pure (.cons hc promptCode_nil)
  | .deferred name e =>
    unfold compilePlan
    refine (Yields.alloc _ _).bind fun slot _ => Yields.analyzer.bind fun a _ =>
      Yields.builder.bind fun b _ => ?_
    exact Yields.lift.bind fun code _ => (Yields.bound h _).bind fun _ _ =>
      .pure (.cons trivial promptCode_nil)
  | .content name kind body =>
    unfold compilePlan
    refine (Yields.alloc _ _).bind fun slot _ =>
      (Yields.buffered pc slot kind fun out pc => ?_).bind fun code hcode => ?_
    · exact compileBlock_prompt body h.2 out pc
    · exact (Yields.bound h.1 _).bind fun _ _ => .pure hcode
  | .stream kind body ds =>
    unfold compilePlan
    refine Yields.inScope ((Yields.alloc _ _).bind fun slot _ =>
      (Yields.step fun _ => Yields.filters h.2).bind ?_)
    rintro ⟨fs, slot', x⟩ hfs
    refine (compileBlock_prompt body h.1 _ _).bind fun code hcode => .pure ?_
    exact .append (.cons hfs hcode) (.cons trivial promptCode_nil)
  | .call .. => exact h.elim
  | .log body =>
    unfold compilePlan
    refine Yields.inScope ((Yields.alloc _ _).bind fun slot _ => ?_)
    refine (compileBlock_prompt body h _ _).bind fun code hcode => .pure ?_
    exact .append (.cons trivial hcode) (.cons trivial promptCode_nil)

theorem compileBranches_prompt (branches : List (Expr × List Plan))
    (h : Plan.SafeBranches known branches) (out : Out) (more : Bool) (pc : Nat) :
    Yields known (compileBranches out more pc branches) PromptSegments := by
  match branches with
  | [] =>
    unfold compileBranches
    exact .pure fun _ hs => by cases hs
  | (c, body) :: rest =>
    unfold compileBranches
    refine (Yields.step fun _ => Yields.expr h.1).bind ?_
    rintro ⟨e, slot, x⟩ he
    refine (Yields.inScope (compileBlock_prompt body h.2.1 out _)).bind fun code hcode => ?_
    exact (compileBranches_prompt rest h.2.2 out more _).bind fun later hlater =>
      .pure (List.forall_mem_cons.2 ⟨⟨he, hcode⟩, hlater⟩)

theorem compileCases_prompt (cases : List (List Expr × List Plan))
    (h : Plan.SafeCases known cases) (out : Out) (slot pc : Nat) :
    Yields known (compileCases out slot pc cases) PromptSegments := by
  match cases with
  | [] =>
    unfold compileCases
    exact .pure fun _ hs => by cases hs
  | (values, body) :: rest =>
    unfold compileCases
    refine (Yields.step fun _ => Yields.exprs h.1).bind ?_
    rintro ⟨vs, slot', x⟩ hvs
    refine (Yields.inScope (compileBlock_prompt body h.2.1 out _)).bind fun code hcode => ?_
    exact (compileCases_prompt rest h.2.2 out slot _).bind fun later hlater =>
      .pure (List.forall_mem_cons.2 ⟨⟨hvs, hcode⟩, hlater⟩)

theorem compileDefault_prompt (default : Option (List Plan)) (h : Plan.SafeDefault known default)
    (out : Out) (pc : Nat) :
    Yields known (compileDefault out pc default) PromptCode := by
  match default with
  | none =>
    unfold compileDefault
    exact .pure promptCode_nil
  | some body =>
    unfold compileDefault
    exact Yields.inScope (compileBlock_prompt body h out pc)

end

end Program

/-- The instructions of a body that is judged safe never wait. -/
theorem Program.safe_body_prompt {analyzer : Analyzer} {body : List Stmt} {out : Out} {pc : Nat}
    {b b' : Program.Builder} {code : List Instr}
    (hsafe : Stmt.maySuspend b.locals.settled body = false)
    (h : Program.compileBlock out pc (Plan.ofBlock body) analyzer b = .ok (code, b')) :
    Program.PromptCode code := by
  have hknows : b.locals.Knows (Stmt.known b.locals.settled body) := fun name hname =>
    (Bool.and_eq_true_iff.1 hname).2
  have hplan := Plan.ofBlock_safe body (Stmt.safe_of_body hsafe)
  exact (Program.compileBlock_prompt _ hplan out pc hknows h).2

/-- **Suspension analysis is sound.** An expression that is judged safe where it is compiled never
waits, in whatever form its result is asked for, whatever data, cells and futures are like. No
instruction of a body that is judged safe where it is compiled ever waits, and a render of a program
with that body in it that waits stands outside of the body. -/
theorem Analyzer.conservative_sound (analyzer : Analyzer) :
    (∀ (locals : Locals) (e : Expr) (slots slots' : Slots) (c : Compiled),
      Analyzer.conservative.expr locals.settled e = false →
      e.compile ⟨analyzer, locals⟩ slots = .ok (c, slots') →
      ∀ (force : ThunkId → Eval Value) (p : List Nat), (c.value (.keeping force) p).NeverWaits ∧
      (c.int (.keeping force) p).NeverWaits ∧ (c.float (.keeping force) p).NeverWaits ∧
      (c.bool (.keeping force) p).NeverWaits ∧ (c.str (.keeping force) p).NeverWaits) ∧
    ∀ (b b' : Program.Builder) (body : List Stmt) (out : Out) (pc : Nat) (code : List Instr),
      Analyzer.conservative.body b.locals.settled body = false →
      Program.compileBlock out pc (Plan.ofBlock body) analyzer b = .ok (code, b') →
      (∀ i ∈ code, ∀ invoke here, (Exec.instr invoke here i).NeverWaits) ∧
      ∀ (reg : Registry) (context : Context) (fuel : Nat) (s t : Store) (id : RenderId)
      (r r' : Render) (f : FutureId) (frame : SavedFrame), s.renders[id]? = some r →
        (∀ k i, code[k]? = some i → r.program.code[pc + k]? = some i) →
        s.invoke reg context fuel id = (.waiting f, t) → t.renders[id]? = some r' →
    r'.status = .suspended frame → frame.state < pc ∨ pc + code.length ≤ frame.state := by
  refine ⟨fun locals e slots slots' c hsafe hc force p =>
    ?_, fun b b' body out pc code hsafe hcode => ?_⟩
  · have hprompt := Expr.compile_prompt hc hsafe
    exact ⟨Regime.Gives.neverWaits fun env => hprompt env force p,
      Regime.Gives.neverWaits fun env => (hprompt env force).int p,
      Regime.Gives.neverWaits fun env => (hprompt env force).float p,
        Regime.Gives.neverWaits fun env => (hprompt env force).bool p,
      Regime.Gives.neverWaits fun env => (hprompt env force).str p⟩
  · have hprompt := Program.safe_body_prompt hsafe hcode
    have hnever : ∀ i ∈ code, ∀ invoke here, (Exec.instr invoke here i).NeverWaits :=
      fun i hi invoke here => .instr invoke here (hprompt i hi)
    refine ⟨hnever, fun reg context fuel s t id r r' f frame hr hplaced hinvoke hr' hframe => ?_⟩
    obtain ⟨stop, i, hi, ⟨invoke, sur, m, m', hwaits⟩, hstate⟩ := Store.invoke_waits hr hinvoke
    rw [hstate r' frame hr' hframe]
    by_contra hinside
    obtain ⟨hle, hlt⟩ : pc ≤ stop ∧ stop < pc + code.length := by omega
    -- the instruction at which the render stands would be one of the body
    have hget : code[stop - pc]? = some code[stop - pc] := List.getElem?_eq_getElem (by omega)
    have hsame := hplaced _ _ hget
    rw [Nat.add_sub_cancel' hle, hi] at hsame
    cases hsame
    exact hnever _ (List.getElem_mem _) invoke stop sur m f m' hwaits

namespace Sample

/-- The double of a number that is known already. -/
def double : Expr := .binary .int .mul (.var .int "n") (.lit .int (.int 2))

/-- A loop that prints the double over and over. -/
def table : List Stmt := [.forRange "i" none (.var .int "n") none [.print double [], .text " "]]

/-- The scope of the loop. -/
def numbered : Program.Builder := { locals := ⟨[[("n", { slot := 0, kind := .int })]]⟩ }

end Sample

/-- The loop and what it prints never wait. -/
theorem Sample.table_never_waits :
    (∃ code b', Program.compileBlock .sink 0 (Plan.ofBlock Sample.table)
      .conservative Sample.numbered = .ok (code, b') ∧ code.length = 6 ∧ ∀ i ∈ code, ∀ invoke here,
      (Exec.instr invoke here i).NeverWaits) ∧ ∃ c slots,
    double.compile ⟨.conservative, numbered.locals⟩ Slots.new = .ok (c, slots) ∧ ∀ force p,
    (c.int (.keeping force) p).NeverWaits := by
  obtain ⟨hexpr, hbody⟩ := Analyzer.conservative_sound .conservative
  constructor
  · have hsize : ((Program.compileBlock .sink 0 (Plan.ofBlock Sample.table)
        .conservative Sample.numbered).toOption.map (·.1.length)) = some 6 := by cbv
    obtain ⟨⟨code, b'⟩, hcode, hlength⟩ := Option.map_eq_some_iff.1 hsize
    cases hrun : Program.compileBlock .sink 0 (Plan.ofBlock Sample.table)
        .conservative Sample.numbered with
    | error e => rw [hrun] at hcode; cases hcode
    | ok result =>
      rw [hrun] at hcode
      cases hcode
      exact ⟨code, b', rfl, hlength, (hbody _ _ _ _ _ _ (by cbv) hrun).1⟩
  · refine ⟨_, _, rfl, fun force p => ?_⟩
    exact (hexpr numbered.locals double Slots.new _ _ (by cbv) rfl force p).2.1

end Interlude
