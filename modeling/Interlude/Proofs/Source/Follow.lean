import Interlude.Proofs.Output.Receive
import Interlude.Proofs.Source.Run
/-!
# Acts that write what runs come to

A run comes to a text, and an act writes to a sink. The act writes what the run comes to
(`Source.Writes`) if both stop, or both come to an end at the same number and the sink has received
the text.

They need not take the same way. An act renders content at its only print, through the filters of
the print; a run renders it where it is bound and filters it as a whole. `Settled.swap` and
`Settled.swap_print` move it from there to the print.
-/

namespace Interlude

open Direct (World Act Setup Scene Handover)

namespace Direct.Act

theorem onSink_ok {α : Type} {f : Streams → Except Failure α × Streams} {w : World} {a : α}
    {streams : Streams} (h : f w.streams = (.ok a, streams)) :
    onSink f w = .ok a { w with streams } := by
  rw [onSink, h]

theorem close_zero (sink : Sink) : close sink 0 = pure () := by
  cases sink <;> rfl

theorem wrap_ok {futures : Futures} {chain : List (Filter × List Value)} {kind : ContentKind}
    {sink : Sink} {stages : List Stage} (h : Filter.stages futures chain kind = .ok stages)
    (w : World) :
    wrap futures chain kind sink w =
      .ok (w.streams.wrap stages sink).1 { w with streams := (w.streams.wrap stages sink).2 } := by
  rw [wrap, h]
  rfl

end Direct.Act

namespace Stmt

/-- Whether a statement binds a local. -/
def isLet : Stmt → Bool
  | letValue .. => true
  | letContent .. => true
  | _ => false

/-- The directives of a statement. -/
def directives : Stmt → List Directive
  | print _ ds => ds
  | call _ _ _ _ ds => ds
  | _ => []

/-- The variable of a loop over a list, with the block for no items. -/
def ifEmpties : Stmt → List (String × List Stmt)
  | forEach var _ _ ifEmpty => [(var, ifEmpty)]
  | _ => []

/-- A statement whose directives are all the same in pieces and as a whole, and whose loop variable
is not read where the loop has no items. -/
structure Regular (s : Stmt) : Prop where
  directives : ∀ d ∈ s.directives, d.name ≠ "lower"
  ifEmpty : ∀ l ∈ s.ifEmpties, references l.2 l.1 = false

instance (s : Stmt) : Decidable s.Regular :=
  decidable_of_iff ((∀ d ∈ s.directives, d.name ≠ "lower") ∧ ∀ l ∈ s.ifEmpties,
    references l.2 l.1 = false) ⟨fun h => ⟨h.1, h.2⟩, fun h => ⟨h.directives, h.ifEmpty⟩⟩

end Stmt

namespace Filter

theorem stages_length {fs : Futures} {chain : List (Filter × List Value)} {kind : ContentKind}
    {stages : List Stage} (h : Filter.stages fs chain kind = .ok stages) :
    stages.length = chain.length := by
  induction chain generalizing kind stages with
  | nil =>
    cases h
    rfl
  | cons d rest ih =>
    obtain ⟨later, hlater, h⟩ := Except.bind_ok h
    split at h
    · cases h
      rw [List.length_cons, List.length_cons, ih hlater]
    · cases h

theorem isPiecewise_of_streams {f : Filter} (hs : f.streams = true) (hl : f ≠ lower) :
    f.isPiecewise = true := by
  cases f with
  | lower => exact absurd rfl hl
  | cleanHtml | truncate | title => cases hs
  | _ => rfl

theorem resolve_ok {name : String} {count : Nat} {f : Filter} (h : resolve name count = .ok f) :
    f.name = name ∧ f.arity.1 ≤ count ∧ count ≤ f.arity.2 := by
  unfold resolve at h
  split at h
  · cases h
  · next g hg =>
    simp only at h
    split at h
    · next hcount =>
      cases h
      rw [Bool.and_eq_true, decide_eq_true_eq, decide_eq_true_eq] at hcount
      exact ⟨eq_of_beq (List.find?_some (p := fun f : Filter => f.name == name) hg), hcount⟩
    · cases h

/-- A filter with a stage takes no arguments. -/
theorem arity_of_streams {f : Filter} (h : f.streams = true) : f.arity = (0, 0) := by
  cases f with
  | truncate => cases h
  | _ => rfl

end Filter

namespace Direct

theorem chain_filters {r : Reading} {place : List Nat} {ds : List Directive} {env : Env}
    {m m' : Memory} {chain : List (Filter × List Value)}
    (h : Direct.chain r place ds env m = .ok chain m') :
    ∀ d ∈ chain, ∃ k ∈ ds, d.1.name = k.name := by
  induction ds generalizing place m chain with
  | nil =>
    cases h
    exact nofun
  | cons k rest ih =>
    obtain ⟨f, m₁, hf, h⟩ := Eval.bind_ok h
    obtain ⟨args, m₂, _, h⟩ := Eval.bind_ok h
    obtain ⟨later, m₃, hlater, h⟩ := Eval.bind_ok h
    cases h
    rintro d (_ | ⟨_, hd⟩)
    · exact ⟨k, List.mem_cons_self, (Filter.resolve_ok (Eval.ofExcept_ok hf)).1⟩
    · obtain ⟨k', hk', hname⟩ := ih hlater d hd
      exact ⟨k', List.mem_cons_of_mem _ hk', hname⟩

/-- Directives whose filters have stages have no arguments to evaluate. -/
theorem chain_of_canStream {ds : List Directive} (h : canStream ds = true) :
    ∃ chain : List (Filter × List Value), (∀ r place, Direct.chain r place ds = pure chain) ∧
    ∀ d ∈ chain, d.1.streams = true ∧ ∃ k ∈ ds, d.1.name = k.name := by
  induction ds with
  | nil => exact ⟨[], fun _ _ => rfl, nofun⟩
  | cons k rest ih =>
    obtain ⟨hk, hrest⟩ := Bool.and_eq_true_iff.1 h
    obtain ⟨later, hlater, hall⟩ := ih hrest
    simp only at hk
    split at hk
    · next f hf =>
      obtain ⟨hname, hargs⟩ := Filter.resolve_ok hf
      rw [Filter.arity_of_streams hk] at hargs
      have hnone : k.args = [] := List.eq_nil_of_length_eq_zero (Nat.le_zero.1 hargs.2)
      refine ⟨(f, []) :: later, fun r place => ?_, ?_⟩
      · rw [Direct.chain, hf]
        simp only [hnone, Expr.evalAll, hlater, Eval.ofExcept, pure_bind]
      · rintro d (_ | ⟨_, hd⟩)
        · exact ⟨hk, k, List.mem_cons_self, hname⟩
        · obtain ⟨hs, k', hk', hname'⟩ := hall d hd
          exact ⟨hs, k', List.mem_cons_of_mem _ hk', hname'⟩
    · cases hk

end Direct

namespace Source

open Direct (Act)

/-! ## Acts that write what runs come to -/

/-- How a run and an act have ended that began at the number `n`: both have stopped, or they are at
the same number and the act has written a text to the sink. Of the result of the run, this text, the
result of the act and the number they are at `R` holds. -/
inductive Wrote {α β : Type} (sink : Sink) (s : Streams) (n : Identity)
    (R : α → String → β → Identity → Prop) :
    Except Stop (α × Identity) → EStateM.Result Stop World β → Prop where
  | ok {a : α} {text : String} {b : β} {w : World} (hR : R a text b w.fresh) (hn : n ≤ w.fresh)
      (hs : s.Received sink text w.streams) : Wrote sink s n R (.ok (a, w.fresh)) (.ok b w)
  | error (e e' : Stop) (w : World) : Wrote sink s n R (.error e) (.error e' w)

/-- An act that writes to a ready sink what a run comes to. -/
def Writes {α β : Type} (sink : Sink) (R : α → String → β → Identity → Prop) (n : Identity)
    (x : Run α) (y : Act β) :
    Prop :=
  ∀ w : World, w.fresh = n → w.streams.Ready sink → Wrote sink w.streams n R (x n) (y w)

/-- The text that a run comes to is what is written. -/
def Told (out : String) (text : String) (_ : Unit) (_ : Identity) : Prop := out = text

/-- Both come to the same, of which `Q` holds, and nothing is written. -/
def Kept {α : Type} (Q : α → Identity → Prop) (a : α) (text : String) (b : α)
    (m : Identity) : Prop :=
  a = b ∧ text = "" ∧ Q a m

/-- Two runs end alike if they stop both, or come to the same at the same number. -/
def Ends {α : Type} (p q : Except Stop (α × Identity)) : Prop := ∀ r, p = .ok r ↔ q = .ok r

theorem Ends.refl {α : Type} (p : Except Stop (α × Identity)) : Ends p p := fun _ => .rfl

theorem Ends.trans {α : Type} {p q o : Except Stop (α × Identity)} (h : Ends p q)
    (h' : Ends q o) : Ends p o :=
  fun r => (h r).trans (h' r)

theorem Ends.stop {α : Type} (e e' : Stop) : Ends (α := α) (.error e) (.error e') := fun _ =>
    ⟨nofun, nofun⟩

theorem Meets.of_ok {α β : Type} {R : α → β → Prop} {n n' : Identity} {a : α} {m : Identity}
    {q : Except Stop (β × Identity)} (h : Meets R n n' (.ok (a, m)) q) :
    ∃ b k, m = n + k ∧ q = .ok (b, n' + k) ∧ R a b := by
  cases h with
  | ok hab k => exact ⟨_, k, rfl, rfl, hab⟩

theorem Meets.of_error {α β : Type} {R : α → β → Prop} {n n' : Identity} {e : Stop}
    {q : Except Stop (β × Identity)} (h : Meets R n n' (.error e) q) : ∃ e', q = .error e' := by
  cases h
  exact ⟨_, rfl⟩

theorem Meets.ends {α : Type} {n : Identity} {p q : Except Stop (α × Identity)}
    (h : Meets Eq n n p q) : Ends p q := by
  cases h with
  | ok hab k =>
    cases hab
    exact fun _ => .rfl
  | error e e' => exact fun _ => ⟨nofun, nofun⟩

namespace Writes

variable {α β γ δ : Type} {sink : Sink} {n : Identity} {R : α → String → β → Identity → Prop}
  {S : γ → String → δ → Identity → Prop} {x x' : Run α} {y : Act β}

theorem pure {a : α} {b : β} (h : R a "" b n) : Writes sink R n (Pure.pure a) (Pure.pure b) := by
  rintro w rfl _
  exact .ok h (Nat.le_refl _) (.nothing sink _)

theorem stop (e e' : Stop) : Writes sink R n (fun _ => .error e) (fun w => .error e' w) :=
    fun _ _ _ => .error ..

theorem weaken {T : α → String → β → Identity → Prop} (h : Writes sink R n x y)
    (hRT : ∀ a t b m, R a t b m → n ≤ m → T a t b m) : Writes sink T n x y := by
  intro w hw hready
  have h := h w hw hready
  generalize x n = p at h
  generalize y w = q at h
  cases h with
  | ok hR hn hs => exact .ok (hRT _ _ _ _ hR hn) hn hs
  | error e e' w' => exact .error ..

theorem congr (he : Ends (x n) (x' n)) (h : Writes sink R n x' y) : Writes sink R n x y := by
  intro w hw hready
  have h := h w hw hready
  generalize x' n = p at h he
  generalize y w = q at h
  cases h with
  | ok hR hn hs =>
    rw [(he _).2 rfl]
    exact .ok hR hn hs
  | error e e' w' =>
    cases hx : x n with
    | ok r => cases (he r).1 hx
    | error e => exact .error ..

theorem bind {f : α → Run γ} {g : β → Act δ} (hx : Writes sink R n x y)
    (hf : ∀ a t b m, R a t b m → n ≤ m →
      Writes sink (fun c t' d k => S c (t ++ t') d k) m (f a) (g b)) :
    Writes sink S n (x >>= f) (y >>= g) := by
  intro w hw hready
  have h := hx w hw hready
  rw [Act.bind_apply]
  change Wrote sink w.streams n S (x n >>= fun r => f r.1 r.2) _
  generalize x n = p at h
  generalize y w = q at h
  cases h with
  | error e e' w' => exact .error ..
  | @ok a t b w' hR hn hs =>
    have h := hf a t b w'.fresh hR hn w' rfl (hs.ready hready)
    change Wrote sink w.streams n S (f a w'.fresh) (g b w')
    generalize f a w'.fresh = p at h
    generalize g b w' = q at h
    cases h with
    | error e e' w'' => exact .error ..
    | ok hS hm hs' => exact .ok hS (Nat.le_trans hn hm) (hs.trans hready hs')

/-- What comes after something of which nothing is written. -/
theorem kept {Q : α → Identity → Prop} {y : Act α} {f : α → Run γ} {g : α → Act δ}
    (hx : Writes sink (Kept Q) n x y) (hf : ∀ a m, Q a m → n ≤ m → Writes sink S m (f a) (g a)) :
    Writes sink S n (x >>= f) (y >>= g) := by
  refine hx.bind ?_
  rintro a _ _ m ⟨rfl, rfl, hQ⟩ hn
  simp only [String.empty_append]
  exact hf a m hQ hn

/-- What comes to the text that is written with one that was written before. -/
theorem followed {x : Run String} {y : Act Unit} (h : Writes sink Told n x y) (text : String) :
    Writes sink (fun c t d k => Told c (text ++ t) d k) n (do let later ← x; return text ++ later)
      y := by
  have hboth := h.bind (S := fun c t d k => Told c (text ++ t) d k) (f := fun later =>
    Pure.pure (text ++ later)) (g := fun _ => Pure.pure ()) ?_
  · simpa only [bind_pure_unit] using hboth
  · rintro later _ _ k rfl _
    exact .pure (by rw [String.append_empty]; rfl)

theorem ofExcept (e : Except Failure α) :
    Writes sink (Kept fun a m => e = .ok a ∧ m = n) n (Run.ofExcept e) (Act.ofExcept e) := by
  cases e with
  | ok a => exact pure ⟨rfl, rfl, rfl, rfl⟩
  | error e => exact stop _ _

/-- An evaluation goes by the same number on both sides. -/
theorem eval {su : Setup} {scene : Scene} {x : Eval α} :
    Writes sink (Kept fun a m => Source.eval su scene x n = .ok (a, m)) n (Source.eval su scene x)
      (scene.eval su x) := by
  rintro w rfl _
  unfold Source.eval Run.eval Scene.eval Act.eval
  cases x { scene.env su with maker := w.fresh }
      { cells := #[], heap := { futures := su.futures } } with
  | ok a m =>
    exact .ok (w := { w with fresh := w.fresh + 1 }) ⟨rfl, rfl, rfl⟩ (Nat.le_succ _)
      (.nothing sink _)
  | error e m => exact .error ..

theorem write (s : String) : Writes sink Told n (Pure.pure s) (Act.write sink s) := by
  rintro w rfl hready
  obtain ⟨hok, hs⟩ := Streams.Received.append sink w.streams hready s
  rw [Act.write, Act.onSink_ok hok]
  exact .ok (w := { w with streams := (w.streams.append sink s).2 }) rfl (Nat.le_refl _) hs

/-- A text is collected in a buffer of its own, and nothing is written. -/
theorem collect {x : Run String} {body : Sink → Act Unit}
    (h : ∀ sink, Writes sink Told n x (body sink)) :
    Writes sink (Kept fun _ _ => True) n x (Act.collect body) := by
  rintro w rfl hready
  let w₁ : World := { w with streams := w.streams.newBuffer.2 }
  have h := h (.buffer w.streams.newBuffer.1) w₁ rfl (Streams.newBuffer_ready _)
  have hrun : Act.collect body w = (body (.buffer w.streams.newBuffer.1) >>= fun _ => do
      return (← get).streams.bufferText w.streams.newBuffer.1 : Act String) w₁ := by
    simp only [Act.collect, Act.gather, bind_assoc, pure_bind]
    rfl
  rw [hrun, Act.bind_apply]
  change Wrote _ _ _ _ (x w₁.fresh) _
  generalize x w₁.fresh = p at h
  generalize body _ w₁ = q at h
  cases h with
  | error e e' w' => exact .error ..
  | ok hR hn hs =>
    obtain ⟨htext, hs⟩ := Streams.Received.newBuffer sink hs
    exact .ok ⟨hR.trans htext.symm, rfl, trivial⟩ hn hs

/-- What goes through stages of filters, which are closed after it, comes out as the filters make
it. -/
theorem through {x : Run String} {body : Sink → Act Unit}
    (h : ∀ sink, Writes sink Told n x (body sink)) (fs : Futures)
    {chain : List (Filter × List Value)} (hc : ∀ d ∈ chain, d.1.isPiecewise) (kind : ContentKind)
    (sink : Sink) :
    Writes sink (fun out t _ _ => ∃ v, Filter.applyAll fs chain (Value.ofContent kind out) = .ok v ∧
      t = v.text fs) n x (do
        let entry ← Act.wrap fs chain kind sink
        body entry
        Act.close entry chain.length) := by
  rintro w rfl hready
  obtain ⟨stages, hstages, hlower, kind', happly⟩ := Filter.stages_ofContent hc fs kind
  obtain ⟨hentry, hclose⟩ := hready.wrap hlower
  let w₁ : World := { w with streams := (w.streams.wrap stages sink).2 }
  have h := h (w.streams.wrap stages sink).1 w₁ rfl hentry
  rw [Act.bind_apply, Act.wrap_ok hstages]
  change Wrote _ _ _ _ (x w₁.fresh) ((body (w.streams.wrap stages sink).1 >>= fun _ =>
    Act.close (w.streams.wrap stages sink).1 chain.length) w₁)
  rw [Act.bind_apply]
  generalize x w₁.fresh = p at h
  generalize body _ w₁ = q at h
  cases h with
  | error e e' w' => exact .error ..
  | @ok out text u w' hR hn hs =>
    obtain ⟨closed, hclosed, hreceived⟩ := hclose hs
    rw [Filter.stages_length hstages] at hclosed
    have hend : Act.close (w.streams.wrap stages sink).1 chain.length w' =
        .ok () { w' with streams := closed } :=
      Act.onSink_ok (f := (·.closeAll _)) hclosed
    simp only [hend]
    refine .ok (w := { w' with streams := closed }) ⟨_, happly out, ?_⟩ hn hreceived
    rw [Filter.text_ofContent, hR]

/-! ### Calls -/

/-- The output of a callee passes its filters on its way, or is collected and filtered as a
whole. -/
theorem carryOut {su : Setup} {call : Caller} {call' : Direct.Caller}
    {injected : List (String × Value)} {d : Handover}
    (hcall : ∀ sink, Writes sink Told n (call d.template d.params injected)
      (call' d.template d.params injected sink)) (hchain : ∀ f ∈ d.chain, f.1 ≠ .lower) :
    Writes sink Told n (Source.carryOut su call injected (some d))
      (Direct.carryOut su call' injected sink (some d)) := by
  have hall : d.chain.all (·.1.streams) = true → ∀ f ∈ d.chain, f.1.isPiecewise = true :=
      fun hs f hf =>
    Filter.isPiecewise_of_streams (List.all_eq_true.1 hs f hf) (hchain f hf)
  unfold Source.carryOut Direct.carryOut Direct.placed
  simp only
  split
  · next hempty =>
    rw [List.isEmpty_iff.1 hempty]
    simp only [Filter.applyAll, Run.ofExcept, Filter.text_ofContent, pure_bind, bind_pure,
      bind_pure_unit, Direct.finished, Act.close_zero]
    exact hcall sink
  · split
    · next hs =>
      have hrun := (through hcall su.futures (hall hs) d.template.kind sink).bind (S := Told)
          (f := fun s => do
        let v ← Run.ofExcept
          (Filter.applyAll su.futures d.chain (Value.ofContent d.template.kind s))
        return v.text su.futures) (g := fun _ => Pure.pure ()) fun s t _ m hv _ => ?_
      · simpa only [bind_assoc, pure_bind, bind_pure_unit, Direct.finished] using hrun
      · obtain ⟨v, hv, rfl⟩ := hv
        rw [hv]
        exact .pure (String.append_empty ..).symm
    · have hcollect : (do
          let place ← (do
            let id ← Act.newBuffer
            return (.buffer id, 0, some id) : Act (Sink × Nat × Option BufferId))
          call' d.template d.params injected place.1
          Direct.finished su d sink place) = (do
          let s ← Act.collect (call' d.template d.params injected)
          let v ← Act.ofExcept
            (Filter.applyAll su.futures d.chain (Value.ofContent d.template.kind s))
          Act.write sink (v.text su.futures)) := by
        simp only [Act.collect, Act.gather, Direct.finished, bind_assoc, pure_bind]
      rw [hcollect]
      exact (collect hcall).kept fun s m _ _ => (ofExcept _).kept fun v m _ _ => write _

end Writes

/-! ## Content that is rendered later

Content that is read by one later print may as well be rendered there: what stands in between does
not read it, and is evaluated before it under other numbers. -/

section

variable {su : Setup} {base n m : Identity} {call : Caller} {scene : Scene} {r r' : Reading}

theorem Run.bind_apply {α β : Type} (x : Run α) (f : α → Run β) (n : Identity) :
    (x >>= f) n = match x n with
    | .ok r => f r.1 r.2
    | .error e => .error e := by
  change (x n >>= fun r => f r.1 r.2) = _
  cases x n <;> rfl

theorem Run.return_ok {α β : Type} {x : Run α} {b : β} {c : α × β}
    (h : (do let a ← x; return (a, b)) n = .ok (c, m)) :
    c.2 = b := by
  obtain ⟨a, k, _, h⟩ := StateT.bind_ok h
  cases h
  rfl

/-- A statement that is no local leaves the locals as they are. -/
theorem stmt_reading {s : Stmt} (hs : s.isLet = false) {rest : List Stmt} {out : String × Reading}
    (h : stmt su call scene r rest s n = .ok (out, m)) : out.2 = r := by
  unfold stmt at h
  cases s with
  | letValue | letContent => cases hs
  | text s =>
    cases h
    rfl
  | print | cond => exact Run.return_ok h
  | switch | forRange =>
    obtain ⟨v, k, _, h⟩ := StateT.bind_ok h
    exact Run.return_ok h
  | forEach =>
    obtain ⟨xs, k, _, h⟩ := StateT.bind_ok h
    split at h <;> exact Run.return_ok h
  | call =>
    obtain ⟨contents, k, _, h⟩ := StateT.bind_ok h
    obtain ⟨found, k', _, h⟩ := StateT.bind_ok h
    exact Run.return_ok h
  | log =>
    obtain ⟨s, k, _, h⟩ := StateT.bind_ok h
    cases h
    rfl

variable (su call scene r) in
/-- Runs the rest of a block with a name for the content that a body comes to. -/
def withContent (name : String) (kind : ContentKind) (body rest : List Stmt) : Run String := do
  let s ← block su call scene r body
  block su call scene (r.bind name (pure (Value.ofContent kind s))) rest

/-- A statement that does not read a name comes to the same where it is bound, and some numbers
later. -/
theorem Settled.cons_bound (h : Settled su base n scene r) (hf : su.futures.MadeBefore base)
    (hu : Uniform su base call) {s : Stmt} (hlet : s.isLet = false)
    (hs : ∀ t ∈ s.flatten, ∀ e ∈ t.exprs, e.MadeBefore base) {name : String}
    (hname : Stmt.references [s] name = false) (x : Eval Value) (rest : List Stmt) (k : Nat) :
    Ends (block su call scene (r.bind name x) (s :: rest) (n + k))
      (match stmt su call scene r rest s n with
      | .ok (out, m) => (do
          let later ← block su call scene (r.bind name x) rest
          return out.1 ++ later) (m + k)
      | .error e => .error e) := by
  have hshift := h.stmt_shift hf hu rest hs k
  have hunread := (h.mono (Nat.le_add_right n k)).stmt_unread hu rest hs hname x 0 0
  rw [block, Run.bind_apply]
  cases hfirst : stmt su call scene r rest s n with
  | error e =>
    rw [hfirst] at hshift
    obtain ⟨e₁, h₁⟩ := hshift.of_error
    rw [h₁] at hunread
    obtain ⟨e₂, h₂⟩ := hunread.of_error
    rw [Reading.bind, h₂]
    exact .stop _ _
  | ok out =>
    obtain ⟨out, m⟩ := out
    rw [hfirst] at hshift
    obtain ⟨⟨out₁, r₁⟩, j, rfl, h₁, hout₁⟩ := hshift.of_ok
    rw [h₁] at hunread
    obtain ⟨⟨out₂, r₂⟩, j', hj, h₂, hout₂⟩ := hunread.of_ok
    obtain rfl : j = j' := Nat.add_left_cancel hj
    obtain rfl := stmt_reading hlet h₂
    cases hout₁
    cases hout₂
    rw [Reading.bind, h₂, Nat.add_right_comm]
    exact .refl _

/-- A statement that does not read the content may be run before it is rendered. -/
theorem Settled.swap (h : Settled su base n scene r) (hf : su.futures.MadeBefore base)
    (hu : Uniform su base call) {body : List Stmt}
    (hbody : Stmt.Every (fun s => ∀ e ∈ s.exprs, e.MadeBefore base) body) {s : Stmt}
    (hlet : s.isLet = false) (hs : ∀ t ∈ s.flatten, ∀ e ∈ t.exprs, e.MadeBefore base)
    {name : String} (hname : Stmt.references [s] name = false) (kind : ContentKind)
    (rest : List Stmt) :
    Ends (withContent su call scene r name kind body (s :: rest) n) ((do
      let out ← stmt su call scene r rest s
      let later ← withContent su call scene r name kind body rest
      return out.1 ++ later) n) := by
  rw [withContent, Run.bind_apply, Run.bind_apply]
  have hshift (k : Nat) := h.block_shift hf hu hbody k
  cases hcontent : block su call scene r body n with
  | error e =>
    cases hfirst : stmt su call scene r rest s n with
    | error e' => exact .stop _ _
    | ok out =>
      obtain ⟨out, m⟩ := out
      have hself := h.stmt_shift hf hu rest hs 0
      rw [hfirst] at hself
      obtain ⟨_, k, rfl, _, _⟩ := hself.of_ok
      have hlater := hshift k
      rw [hcontent] at hlater
      obtain ⟨e', hlater⟩ := hlater.of_error
      simp only [withContent, Run.bind_apply, hlater]
      exact .stop _ _
  | ok c =>
    obtain ⟨c, m⟩ := c
    have hself := hshift 0
    rw [hcontent] at hself
    obtain ⟨_, k, rfl, _, _⟩ := hself.of_ok
    refine (h.cons_bound hf hu hlet hs hname _ rest k).trans ?_
    cases hfirst : stmt su call scene r rest s n with
    | error e' => exact .stop _ _
    | ok out =>
      obtain ⟨out, m⟩ := out
      have hself := h.stmt_shift hf hu rest hs 0
      rw [hfirst] at hself
      obtain ⟨_, j, rfl, _, _⟩ := hself.of_ok
      have hlater := hshift j
      rw [hcontent] at hlater
      obtain ⟨_, k', hk, hlater, rfl⟩ := hlater.of_ok
      obtain rfl : k = k' := Nat.add_left_cancel hk
      simp only [withContent, bind_assoc]
      rw [Run.bind_apply (block su call scene r body), hlater]
      exact .refl _

/-- What the print of a name for content puts out, if its filters take no arguments. -/
theorem Settled.print_content (h : Settled su base n scene r) {ds : List Directive}
    {chain : List (Filter × List Value)} (hchain : ∀ r place, Direct.chain r place ds = pure chain)
    (t : StaticType) (name : String) {c v : Value} (hv : Filter.applyAll su.futures chain c = .ok v)
    (k : Identity) :
    eval su scene (Direct.printed (r.bind name (pure c)) (.var t name) ds) k =
    .ok (v.text su.futures, k + 1) := by
  have hcheck : r.check = fun _ v => pure v :=
    (h.names _ (Renumbering.same_keeps su.futures n)).check
  have hvar (place : List Nat) : (Expr.var t name).eval (r.bind name (pure c)) place = pure c := by
    simp [Expr.eval, Reading.bind, Reading.bindLoop, hcheck]
  have hrun (e : Env) (m : Memory) (hm : m.heap.futures = su.futures) : ∃ m',
      m'.states = su.futures.states ∧ Direct.printed (r.bind name (pure c)) (.var t name) ds e m =
          (Eval.text v) e m' := by
    cases ds with
    | nil =>
      obtain rfl : [] = chain := by
        have hpure := congrFun (congrFun (hchain r []) e) m
        cases hpure
        rfl
      cases hv
      refine ⟨m, by rw [← hm], ?_⟩
      simp only [Direct.printed, Direct.text, hvar, pure_bind]
    | cons d rest =>
      obtain ⟨m', hm', hfiltered⟩ := Renumbering.filtered_ending chain c e m
      rw [hm, hv] at hfiltered
      refine ⟨m', by rw [hm', ← hm], ?_⟩
      simp only [Direct.printed, hvar, hchain, pure_bind]
      rw [Eval.bind_apply, hfiltered]
      rfl
  obtain ⟨m', hm', hprinted⟩ :=
    hrun { scene.env su with maker := k } { cells := #[], heap := { futures := su.futures } } rfl
  rw [Source.eval, Run.eval, hprinted, Eval.text_apply, Value.text_congr hm' v]

/-- Content may be rendered where it is printed, if nothing else reads it. -/
theorem Settled.swap_print (h : Settled su base n scene r) (hf : su.futures.MadeBefore base)
    (hu : Uniform su base call) {body rest : List Stmt}
    (hbody : Stmt.Every (fun s => ∀ e ∈ s.exprs, e.MadeBefore base) body)
    (hrest : Stmt.Every (fun s => ∀ e ∈ s.exprs, e.MadeBefore base) rest) {name : String}
    (hname : Stmt.references rest name = false) {ds : List Directive}
    {chain : List (Filter × List Value)} (hchain : ∀ r place, Direct.chain r place ds = pure chain)
    (hc : ∀ d ∈ chain, d.1.isPiecewise) (kind : ContentKind) (t : StaticType) :
    Ends (withContent su call scene r name kind body (.print (.var t name) ds :: rest) n) ((do
      let chain ← eval su scene (Direct.chain r [] ds)
      let c ← block su call scene r body
      let v ← Run.ofExcept (Filter.applyAll su.futures chain (Value.ofContent kind c))
      let later ← block su call scene r rest
      return v.text su.futures ++ later) n) := by
  obtain ⟨_, _, _, kind', happly⟩ := Filter.stages_ofContent hc su.futures kind
  have hshift := h.block_shift hf hu hbody 1
  have heval : eval su scene (Direct.chain r [] ds) n = .ok (chain, n + 1) := by
    rw [hchain]
    rfl
  rw [withContent, Run.bind_apply, Run.bind_apply, heval]
  simp only
  rw [Run.bind_apply]
  cases hcontent : block su call scene r body n with
  | error e =>
    rw [hcontent] at hshift
    obtain ⟨e', hlater⟩ := hshift.of_error
    rw [hlater]
    exact .stop _ _
  | ok c =>
    obtain ⟨c, m⟩ := c
    rw [hcontent] at hshift
    obtain ⟨_, k, rfl, hlater, rfl⟩ := hshift.of_ok
    have hprint := h.print_content hchain t name (happly c) (n + k)
    have hunread := (h.mono (Nat.le_add_right n (1 + k))).block_unread hu hrest hname
      (pure (Value.ofContent kind c)) 0 0
    rw [hlater]
    simp only [happly, Run.ofExcept, pure_bind, block, stmt, bind_assoc]
    rw [Run.bind_apply, hprint, Run.bind_apply, Nat.add_right_comm, Nat.add_assoc]
    simp only
    rw [Run.bind_apply, Reading.bind]
    cases hrun : block su call scene r rest (n + (1 + k)) with
    | error e =>
      rw [hrun] at hunread
      obtain ⟨e', hbound⟩ := hunread.of_error
      rw [hbound]
      exact .stop _ _
    | ok later =>
      obtain ⟨later, m⟩ := later
      rw [hrun] at hunread
      obtain ⟨_, j, rfl, hbound, rfl⟩ := hunread.of_ok
      rw [hbound]
      exact .refl _

end

end Source

end Interlude
