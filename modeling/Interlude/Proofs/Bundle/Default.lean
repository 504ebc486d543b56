import Interlude.Proofs.Direct.Start
import Interlude.Proofs.Resume.Schedule
import Interlude.Proofs.Source.Made
/-!
# Defaults of params

A default is read in a scope without params and locals, so it sees literals and the injected params
that are declared before it (`defaults_injectable`). Binding params fails because a required param
is not given or because a default fails itself; it does not fail because of a value that is pending,
unless one was given for an injected param (`Bundle.start_refused`).
-/

namespace Interlude

/-! ## What a default reads -/

namespace Expr

/-- An expression is a part of another, or is it. -/
inductive In (x : Expr) : Expr → Prop where
  | here : In x x
  | part {e c : Expr} (hc : c ∈ e.children) (h : In x c) : In x e

/-- A name is declared in a scope. -/
def Declared (s : Bundle.Scope) : Expr → Prop
  | param _ name injected => ((if injected then s.injected else s.params).lookup name).isSome
  | var _ name => (s.locals.lookup name).isSome
  | _ => True

/-- A name is that of an injected param among some params. -/
def InjectedIn (ps : List Param) : Expr → Prop
  | param _ name injected => injected = true ∧ ∃ q ∈ ps, q.injected = true ∧ q.name = name
  | var .. => False
  | _ => True

/-- All names in an expression are declared in a scope. -/
def Scoped (s : Bundle.Scope) (e : Expr) : Prop := ∀ x : Expr, x.In e → x.Declared s

/-- All names in an expression are those of injected params. -/
def Injectable (ps : List Param) (e : Expr) : Prop := ∀ x : Expr, x.In e → x.InjectedIn ps

/-- What is evaluated as a part of an expression is one of its direct parts. -/
theorem children_of_parts {e c : Expr} (hc : c ∈ e.parts) : c ∈ e.children := by
  unfold parts at hc
  split at hc
  · obtain hc | hc := List.mem_append.1 hc
    all_goals
      obtain ⟨entry, hentry, rfl⟩ := List.mem_map.1 hc
      exact List.mem_flatMap.2 ⟨entry, hentry, by simp⟩
  · split at hc
    · cases hc
    · exact hc
  · exact hc

theorem Injectable.part {ps : List Param} {e : Expr} (h : e.Injectable ps) : ∀ c ∈ e.parts,
    c.Injectable ps :=
  fun _ hc x hx => h x (.part (children_of_parts hc) hx)

end Expr

/-- Every default of a template reads injected params that are declared before it, and no other
names. -/
def Template.Injectable (t : Template) : Prop :=
  ∀ before p after, t.params = before ++ p :: after → ∀ e ∈ p.default, e.Injectable before

namespace Bundle

theorem scoped_inherited : Inherited fun s _ e => e.Scoped s where
  mono h _ := h
  lit _ := by
    rintro x (_ | ⟨hc, _⟩)
    · trivial
    · cases hc
  param ht := by
    rintro x (_ | ⟨hc, _⟩)
    · exact Option.isSome_iff_exists.2 ⟨_, ht⟩
    · cases hc
  var ht := by
    rintro x (_ | ⟨hc, _⟩)
    · exact Option.isSome_iff_exists.2 ⟨_, ht⟩
    · cases hc
  whole := by
    rintro s _ e hleaf h x (_ | ⟨hc, hx⟩)
    · cases e <;> trivial
    · exact h _ hc x hx
  withType := by
    rintro s _ e t h x (_ | ⟨hc, hx⟩)
    · have hname := h e .here
      cases e <;> exact hname
    · cases e <;> exact h x (.part hc hx)

/-- What is injected after some params are declared. -/
theorem injected_foldl {ps : List Param} {s : Scope} {name : String}
    (h : ((ps.foldl declare s).injected.lookup name).isSome) :
    (∃ q ∈ ps, q.injected = true ∧ q.name = name) ∨ (s.injected.lookup name).isSome := by
  induction ps generalizing s with
  | nil => exact .inr h
  | cons p rest ih =>
    obtain ⟨q, hq, hname⟩ | h := ih h
    · exact .inl ⟨q, List.mem_cons_of_mem _ hq, hname⟩
    · unfold declare at h
      split at h
      · next hinjected =>
        by_cases hname : p.name = name
        · exact .inl ⟨p, List.mem_cons_self, hinjected, hname⟩
        · rw [List.lookup_cons, beq_false_of_ne (Ne.symm hname)] at h
          exact .inr h
      · exact .inr h

theorem injectable_of_scoped {source space : String} {ps : List Param} {e : Expr}
    (h : e.Scoped (ps.foldl declare ⟨source, space, [], [], []⟩).bare) : e.Injectable ps := by
  intro x hx
  have hx := h x hx
  cases x with
  | param t name injected =>
    cases injected with
    | false => cases hx
    | true =>
      obtain hq | hx := injected_foldl hx
      · exact ⟨rfl, hq⟩
      · cases hx
  | var => cases hx
  | _ => trivial

theorem templates_injectable : MakesTemplates fun _ => Template.Injectable where
  mono h _ := h
  template := (template_reads scoped_inherited).weaken fun _ _ h before p after hsplit e he =>
    injectable_of_scoped (h.1 before p after hsplit e he)

/-- Defaults only see literals and injected params: in a template of a bundle, a default reads no
local and no param that is given, and of the injected ones only such as are declared before it. -/
theorem defaults_injectable {files : FileTree} {paths : List String} {first made : Identity}
    {ts : List Template} (h : loadAll files paths first = .ok (ts, made)) : ∀ t ∈ ts,
    t.Injectable :=
  (templates_loaded templates_injectable files paths ts made h).2

end Bundle

/-! ## What a default comes to -/

namespace Eval

/-- Memory with other deferred values. -/
def among (thunks : Array Thunk) (m : Memory) : Memory := { m with heap := { m.heap with thunks } }

/-- Two evaluations come to the same end whatever deferred values there are, and leave these
alone. -/
def Blind (env : Env) (α : Type) (x y : Eval α) : Prop :=
  ∀ m thunks, ∃ r m', x env m = ending r m' ∧ y env (among thunks m) = ending r (among thunks m')

namespace Blind

variable {env : Env}

theorem of_ending {α : Type} {x : Eval α} (blurs : Bool) (result : Futures → Except Stop α)
    (reads : Futures → Futures)
    (h : ∀ m, x env m = ending (result m.heap.futures) (touched m (reads m.heap.futures) blurs)) :
    Blind env α x x := fun m thunks => ⟨_, _, h m, h (among thunks m)⟩

theorem compatible (env : Env) : Compatible (Blind env) fun _ => True where
  pure a m thunks := ⟨.ok a, m, rfl, rfl⟩
  bind hx hf m thunks := by
    obtain ⟨r, m', hxm, hyn⟩ := hx m thunks
    rw [bind_apply, bind_apply, hxm, hyn]
    cases r with
    | error e => exact ⟨.error e, m', rfl, rfl⟩
    | ok a => exact hf a m' thunks
  fail e m thunks := ⟨.error (.failed e), m, rfl, rfl⟩
  env m thunks := ⟨.ok env, m, rfl, rfl⟩
  resolve v := of_ending false (fun fs => (fs.resolve v).1.result) (fun fs => (fs.resolve v).2)
    (resolve_apply v env)
  text v := of_ending v.holdsFuture (fun fs => .ok (v.text fs)) id (text_apply v env)
  filtered fs args v := of_ending (Filter.takeText (applied fs args) && v.holdsFuture)
    (fun gs => (Filter.applyAll gs (applied fs args) v).mapError .failed) id
    (filtered_apply fs args v env)
  mapFailure change x y h m thunks := by
    obtain ⟨r, m', hx, hy⟩ := h m thunks
    rw [mapFailure_apply, mapFailure_apply, hx, hy]
    cases r with
    | ok a => exact ⟨.ok a, m', rfl, rfl⟩
    | error e => cases e <;> exact ⟨.error _, m', rfl, rfl⟩
  cell i _ m thunks := ⟨.ok (m.cells.read i), m, rfl, rfl⟩

theorem kept {x y : Eval Value} (h : Blind env Value x y) (i : Nat) :
    Blind env Value (Eval.kept i x) (Eval.kept i y) := by
  refine (compatible env).bind ((compatible env).cell i trivial) fun c => ?_
  cases c.value? with
  | some v => exact (compatible env).pure v
  | none =>
    exact (compatible env).bind h fun v m thunks =>
      ⟨.ok v, { m with cells := m.cells.write i (.value v) }, rfl, rfl⟩

/-- Code that reads no locals does not look at deferred values. -/
theorem congruence (env : Env) :
    Congruence (Blind env) (fun _ => False) (fun _ _ _ => True) .usual .usual where
  toCompatible := (compatible env).weaken fun _ h => h.elim
  binding _ hb := hb.1.elim
  memo _ i _ _ h := h.kept i

end Blind

end Eval

/-- Reading a value leads to a plain value or to a failure. -/
def Futures.Arrived (fs : Futures) (v : Value) : Prop :=
  (∃ w : Value, (fs.resolve v).1.result = .ok w ∧ w.Plain) ∨
    ∃ cause, (fs.resolve v).1.result = .error (.failed cause)

namespace Futures.Arrived

variable {fs gs : Futures} {v : Value}

theorem congr (h : fs.Arrived v) (hs : gs.states = fs.states) : gs.Arrived v := by
  unfold Arrived at *
  rwa [Futures.resolve_congr hs.symm v]

theorem of_plain (fs : Futures) (h : v.Plain) : fs.Arrived v := by
  cases v with
  | future id => cases h
  | _ => exact .inl ⟨_, rfl, h⟩

end Futures.Arrived

/-- Evaluations that come to a result or a failure, while the states of futures stay what they
are. -/
def Regime.settling (fs : Futures) : Regime :=
    { Regime.prompt with holds := fun m => m.states = fs.states }

theorem Regime.gives_arrived {fs : Futures} {v : Value} (h : fs.Arrived v) (env : Env) :
    (Regime.settling fs).Gives env (Eval.resolve v) Value.Plain := by
  intro m hm
  rw [Eval.resolve_apply]
  have hstates : (m.heap.futures.resolve v).2.states = fs.states :=
    (Futures.resolve_states ..).trans hm
  obtain ⟨w, hw, hplain⟩ | ⟨cause, hcause⟩ := h.congr hm
  · rw [hw]
    exact ⟨hstates, hplain⟩
  · rw [hcause]
    exact ⟨hstates, cause, rfl⟩

/-- What is injected for declared params has arrived. -/
def ParamDecl.Arrived (ds : List ParamDecl) (fs : Futures)
    (injected : List (String × Value)) : Prop :=
  ∀ d ∈ ds, d.injected = true → ∀ v, injected.lookup d.name = some v → fs.Arrived v

namespace ParamDecl.Arrived

variable {ds : List ParamDecl} {fs gs : Futures} {injected : List (String × Value)}

theorem congr (h : Arrived ds fs injected) (hs : gs.states = fs.states) : Arrived ds gs injected :=
  fun d hd hi v hv => (h d hd hi v hv).congr hs

theorem cons (h : Arrived ds fs injected) (name : String) {v : Value} (hv : v.Plain) :
    Arrived ds fs ((name, v) :: injected) := by
  intro d hd hi w hw
  rw [List.lookup_cons] at hw
  split at hw
  · cases hw
    exact .of_plain fs hv
  · exact h d hd hi w hw

end ParamDecl.Arrived

theorem Regime.injectable_names {ps : List Param} {fs : Futures} {env : Env}
    (h : ∀ q ∈ ps, q.injected = true → ∀ v, env.injected.lookup q.name = some v → fs.Arrived v)
    (force : ThunkId → Eval Value) :
    (Regime.settling fs).Names env (Locals.empty.reading force) (·.Injectable ps) where
  parts he := he.part
  param he v hv := by
    obtain ⟨rfl, q, hq, hinjected, rfl⟩ := he _ .here
    exact Regime.gives_arrived (h q hq hinjected v hv) env
  var he := (he _ .here).elim
  loop _ := .pure trivial
  check _ _ hv := .pure hv

theorem forall₂_exists {α β : Type} {R : α → β → Prop} {as : List α} {bs : List β}
    (h : List.Forall₂ R as bs) {b : β} (hb : b ∈ bs) : ∃ a ∈ as, R a b := by
  induction h with
  | nil => cases hb
  | cons hr _ ih =>
    obtain rfl | hb := List.mem_cons.1 hb
    · exact ⟨_, List.mem_cons_self, hr⟩
    · obtain ⟨a, ha, hr⟩ := ih hb
      exact ⟨a, List.mem_cons_of_mem _ ha, hr⟩

/-- If what is injected has arrived, the default of a param comes to a plain value or fails. -/
def ParamDecl.Settling (ds : List ParamDecl) (d : ParamDecl) : Prop :=
  ∀ c size, d.default = some (c, size) → ∀ (env : Env) (heap : Heap),
    Arrived ds heap.futures env.injected → ∃ r m, c.value .usual [] env ⟨Cells.cleared size, heap⟩ =
    Eval.ending r m ∧ Stop.Settles r ∧ ∀ v, r = .ok v → v.Plain

namespace Program

theorem paramDefault_settling {a : Analyzer} {e : Expr} {c : Compiled} {size : Nat}
    (h : paramDefault a (some e) = .ok (some (c, size))) {ps : List Param} (he : e.Injectable ps)
    {env : Env} {heap : Heap}
    (hinjected : ∀ q ∈ ps, q.injected = true → ∀ v, env.injected.lookup q.name = some v →
      heap.futures.Arrived v) :
    ∃ r m, c.value .usual [] env ⟨Cells.cleared size, heap⟩ = Eval.ending r m ∧ Stop.Settles r ∧
      ∀ v, r = .ok v → v.Plain := by
  obtain ⟨table, htouch⟩ := paramDefault_fits h rfl
  -- without deferred values the code comes to what it means
  let bare : Memory := Eval.among #[] ⟨Cells.cleared size, heap⟩
  have hsound : bare.heap.Sound #[] := ⟨rfl, fun _ _ _ ht => by cases ht⟩
  have hkeeps : bare.Keeps #[] table env := .of_cleared hsound size env
  have hact : Operand (fun _ => False) (keepIn 0 size table) (fun _ => False) (c.value · []) :=
    fun {_ _ _} hc _ => hc.value htouch
  obtain ⟨r, m, n, _, hbare, hmeans, _⟩ :=
    hkeeps.eval (fun _ _ hg => by cases hg) hact (fun _ hi => hi.elim)
    fun _ _ _ hk => hk.2.2
  obtain ⟨r', n', hplain, hsettles, hv⟩ :=
    paramDefault_settles h (Thunk.meaning #[]) (fun _ hs => hs)
      (Regime.injectable_names hinjected (Thunk.meaning #[])) he
      (show bare.states = heap.futures.states from rfl)
  obtain ⟨rfl, _⟩ := Eval.ending_inj (hmeans.symm.trans hplain)
  -- and with them to the same
  have htouch' := htouch.mono (fun _ h => h) fun _ _ _ _ => trivial
  obtain ⟨r'', m', hx, hy⟩ :=
    (Eval.Blind.congruence env).value htouch' ⟨Cells.cleared size, heap⟩ #[]
  obtain ⟨rfl, _⟩ := Eval.ending_inj (hbare.symm.trans hy)
  exact ⟨_, m', hx, hsettles, hv⟩

/-- The defaults of a template that is compiled. -/
theorem compile_settling {a : Analyzer} {t : Template} {p : Program} (h : compile a t = .ok p)
    (ht : t.Injectable) :
    ∀ d ∈ p.params, d.Settling p.params := by
  unfold compile at h
  cases hp : ofTemplate a t with
  | error e => rw [hp] at h; cases h
  | ok p' =>
    rw [hp] at h
    cases h
    obtain ⟨ds, hds, hp⟩ := Except.bind_ok hp
    obtain ⟨⟨code, b⟩, hcode, hp⟩ := Except.bind_ok hp
    cases hp
    have hdeclares := compileParams_declares hds
    intro d hd c size hdefault env heap hinjected
    obtain ⟨q, hq, hdq⟩ := forall₂_exists hdeclares.flip hd
    obtain ⟨before, after, hsplit⟩ := List.append_of_mem hq
    have hcode := hdq.default
    rw [hdefault] at hcode
    cases he : q.default with
    | none => rw [he] at hcode; cases hcode
    | some e =>
      rw [he] at hcode
      refine paramDefault_settling hcode (ht before q after hsplit e he) fun x hx hxi v hv => ?_
      have hmem : x ∈ t.params := by
        rw [hsplit]
        exact List.mem_append_left _ hx
      obtain ⟨y, hy, hyx⟩ := forall₂_exists hdeclares hmem
      exact hinjected y hy (hyx.injected.trans hxi) v (hyx.name ▸ hv)

end Program

/-! ## Binding params -/

/-- A param is not bound: it is required and was not given, or its default fails. -/
inductive ParamDecl.Refuses (template : String) (d : ParamDecl) : Failure → Prop where
  | missing (hrequired : d.required = true) :
    Refuses template d (Failure.missingParam template d.name)
  | failed {c : Compiled} {size : Nat} {env : Env} {m m' : Memory} {cause : Failure}
      (hdefault : d.default = some (c, size))
      (h : c.value .usual [] env m = .error (.failed cause) m') :
        Refuses template d (cause.within template)

/-- A step of binding params comes to such a value, or to such a failure. -/
def Binding.Step.Binds {α : Type} (P : α → Heap → Prop) (Q : Failure → Prop) :
    EStateM.Result Failure Heap α → Prop
  | .ok a h => P a h
  | .error e _ => Q e

theorem Binding.Step.Binds.bind {α β : Type} {x : Binding.Step α} {f : α → Binding.Step β}
    {h : Heap} {P : α → Heap → Prop} {P' : β → Heap → Prop} {Q Q' : Failure → Prop}
    (hx : Binds P Q (x h)) (hQ : ∀ e, Q e → Q' e) (hf : ∀ a h', P a h' → Binds P' Q' (f a h')) :
    Binds P' Q' ((x >>= f) h) := by
  rw [bind_apply]
  cases hr : x h with
  | ok a h' => rw [hr] at hx; exact hf a h' hx
  | error e h' => rw [hr] at hx; exact hQ e hx

theorem ParamDecl.absent_binds {ds : List ParamDecl} {d : ParamDecl} (hd : d.Settling ds)
    (template : String) {env : Env} {heap : Heap} (h : Arrived ds heap.futures env.injected) :
    Binding.Step.Binds (fun v heap' => v.Plain ∧ heap'.futures.states = heap.futures.states)
      (d.Refuses template) (d.absent template env heap) := by
  have hleaves := d.absent_leaves template env heap
  unfold absent at hleaves ⊢
  split
  · next hrequired => exact .missing hrequired
  next hoptional =>
  rw [if_neg hoptional] at hleaves
  cases hdefault : d.default with
  | none => exact ⟨rfl, rfl⟩
  | some code =>
    obtain ⟨c, size⟩ := code
    obtain ⟨r, m, hx, hr, hv⟩ :=
      hd c size hdefault { env with maker := heap.fresh } { heap with fresh := heap.fresh + 1 } h
    simp only [hdefault, hx] at hleaves ⊢
    cases r with
    | ok v => exact ⟨hv v rfl, hleaves.states⟩
    | error e =>
      cases e with
      | failed cause => exact .failed hdefault hx
      | _ => exact hr.elim

theorem Program.bindParams_binds {all : List ParamDecl} (context : Context) (template : String)
    {ds : List ParamDecl} (hds : ∀ d ∈ ds, d.Settling all) (params : List (String × Value))
    {injected : List (String × Value)} {heap : Heap}
    (h : ParamDecl.Arrived all heap.futures injected) :
    Binding.Step.Binds (fun _ _ => True) (fun e => ∃ d ∈ ds, d.Refuses template e)
      (bindParams context template params injected ds heap) := by
  induction ds generalizing params injected heap with
  | nil => exact trivial
  | cons d rest ih =>
    obtain ⟨hd, hrest⟩ := List.forall_mem_cons.1 hds
    have hlater (params injected heap) (h : ParamDecl.Arrived all heap.futures injected) :
        Binding.Step.Binds (fun _ _ => True) (fun e => ∃ d' ∈ d :: rest, d'.Refuses template e)
          (bindParams context template params injected rest heap) := by
      have hbinds := ih hrest params h
      unfold Binding.Step.Binds at hbinds ⊢
      split at hbinds
      · exact trivial
      · obtain ⟨d', hd', he⟩ := hbinds
        exact ⟨d', List.mem_cons_of_mem _ hd', he⟩
    unfold bindParams
    cases (if d.injected then injected else params).lookup d.name with
    | some _ => exact hlater params injected heap h
    | none =>
      refine (d.absent_binds hd template h).bind (fun e he => ⟨d, List.mem_cons_self, he⟩)
        fun v heap' hv => ?_
      have harrived := h.congr hv.2
      split
      · exact hlater _ _ _ (harrived.cons d.name hv.1)
      · exact hlater _ _ _ harrived

/-- Defaults wait for what is injected only. In a registry that was built from the templates of a
bundle, a render is started whatever values are pending among its params, if what the template
declares as injected has arrived: it is refused because a required param was not given or because a
default fails by itself, and for nothing else. -/
theorem Bundle.start_refused {files : FileTree} {paths : List String} {first made : Identity}
    {ts : List Template} (hload : loadAll files paths first = .ok (ts, made)) {a : Analyzer}
    {reg : Registry} (hbuild : Registry.build a ts = .ok reg) {p : Program} (hp : p ∈ reg.programs)
    (context : Context) (params : List (String × Value)) {injected : List (String × Value)}
    (sink : Sink) {s : Store} (hinjected : ParamDecl.Arrived p.params s.heap.futures injected)
    {e : Failure} (h : (p.start context params injected sink s).1 = .error e) : ∃ d ∈ p.params,
    d.Refuses p.name e := by
  obtain ⟨t, ht, hcompile⟩ := forall₂_exists (Registry.build_compiles hbuild) hp
  have hsettling := Program.compile_settling hcompile (defaults_injectable hload t ht)
  have hbinds := Program.bindParams_binds context p.name hsettling params hinjected
  unfold Program.start at h
  cases hr : Program.bindParams context p.name params injected p.params s.heap with
  | ok r heap => rw [hr] at h; cases h
  | error e' heap =>
    rw [hr] at h hbinds
    cases h
    exact hbinds

namespace Sample

/-- A template whose line is by default made of an injected name. -/
def headed : Template :=
  { name := "headed", kind := .text, source := "", delegate := none
    params := [{ name := "who", type := .any, required := true, injected := true, default := none },
      { name := "line", type := .any, required := false, injected := false
        default := some (.binary .any .add (.param .any "who" true) (.lit .string (.str "!"))) }]
    body := [] }

theorem headed_injectable : headed.Injectable := by
  intro before p after hsplit e he
  match before, hsplit with
  | [], hsplit =>
    cases hsplit
    cases he
  | [who], hsplit =>
    cases hsplit
    cases he
    rintro x (_ | ⟨hc, hx⟩)
    · trivial
    · obtain rfl | hc := List.mem_cons.1 hc
      · cases hx with
        | here => exact ⟨rfl, _, List.mem_cons_self, rfl, rfl⟩
        | part hc => cases hc
      · obtain rfl := List.mem_singleton.1 hc
        cases hx with
        | here => trivial
        | part hc => cases hc
  | _ :: _ :: _, hsplit => simp [headed] at hsplit

/-- What is injected has to have arrived: with a name that is pending, the template cannot be
started. -/
theorem headed_waits : (Program.compile .conservative headed).map (fun p =>
      (p.start {} [] [("who", .future 0)] .root
        (.new .collecting { states := #[.pending], reads := #[0] } 0)).1) =
    .ok (.error ((ParamDecl.pendingDefault "line").within "headed")) := by
  cbv

end Sample

end Interlude
