import Interlude.Proofs.Expr.Prompt
import Interlude.Proofs.Render.Reachable
import Interlude.Proofs.Resume.Run
/-!
# Suspension is invisible

A render may be called many times, be stopped at pending values and by a sink that asks for pauses,
and go on when futures were settled meanwhile. What it puts out and logs on the way is the beginning
of what a single call puts out and logs if all futures were settled before; when it has come to its
end, it is all of that, and the end is the same (`Registry.suspension_invisible`). A render that
waits for a value waits for it, and does nothing else, until it is settled
(`Registry.waiting_stays`).
-/

namespace Interlude

/-! ## Defaults that wait for nothing -/

theorem Regime.prompt_names (env : Env) (force : ThunkId → Eval Value) :
    Regime.prompt.Names env (Locals.empty.reading force) (·.readsParam = false) where
  parts := Expr.readsParam_parts
  param h := by cases h
  var _ := .pure rfl
  loop _ := .pure trivial
  check _ _ hv := .pure hv

/-- The defaults of a template's params read no param. -/
def Template.Closed (t : Template) : Prop := ∀ p ∈ t.params, ∀ e, p.default = some e →
    e.readsParam = false

namespace Program

/-- A default whose names are read as plain values comes to a plain value or to a failure. -/
theorem paramDefault_settles {a : Analyzer} {e : Expr} {c : Compiled} {size : Nat}
    (h : paramDefault a (some e) = .ok (some (c, size))) (force : ThunkId → Eval Value)
    {env : Env} {R : Regime} (hfails : ∀ stop, R.stops stop → ∃ cause, stop = .failed cause)
    {ok : Expr → Prop} (hnames : R.Names env (Locals.empty.reading force) ok) (he : ok e)
    {m : Memory} (hm : R.holds m) :
    ∃ r m', c.value (.plain force) [] env m = Eval.ending r m' ∧ Stop.Settles r ∧ ∀ v, r = .ok v →
    v.Plain := by
  obtain ⟨⟨c', slots⟩, hc, h⟩ := Except.bind_ok h
  cases h
  have hends := hnames.eval e he [] m hm
  have hmeans : c.value (.plain force) [] = e.eval (Locals.empty.reading force) [] :=
    Expr.compile_means hc force []
  rw [← hmeans] at hends
  cases hx : c.value (.plain force) [] env m with
  | ok v m' =>
    rw [hx] at hends
    exact ⟨.ok v, m', rfl, trivial, by rintro _ ⟨⟩; exact hends.2⟩
  | error e m' =>
    rw [hx] at hends
    obtain ⟨cause, rfl⟩ := hfails _ hends.2
    exact ⟨.error (.failed cause), m', rfl, trivial, nofun⟩

theorem paramDefault_prompt {a : Analyzer} {e : Option Expr} {c : Compiled} {size : Nat}
    (h : paramDefault a e = .ok (some (c, size))) (he : ∀ d, e = some d → d.readsParam = false)
    (force : ThunkId → Eval Value) (env : Env) (m : Memory) :
    ∃ r m', c.value (.plain force) [] env m = Eval.ending r m' ∧ Stop.Settles r := by
  cases e with
  | none => cases h
  | some e =>
    obtain ⟨r, m', hx, hr, _⟩ :=
      paramDefault_settles h force (fun _ hs => hs) (Regime.prompt_names env force) (he e rfl)
        (show Regime.prompt.holds m from trivial)
    exact ⟨r, m', hx, hr⟩

theorem compileParams_prompt {a : Analyzer} {seen : List String} {ps : List Param}
    {ds : List ParamDecl} (h : compileParams a seen ps = .ok ds)
    (hps : ∀ p ∈ ps, ∀ e, p.default = some e → e.readsParam = false) :
    ∀ d ∈ ds, d.Prompt := by
  induction ps generalizing seen ds with
  | nil =>
    cases h
    exact fun _ hd => by cases hd
  | cons p rest ih =>
    unfold compileParams at h
    simp only at h
    generalize (if p.injected then "$ij." ++ p.name else p.name) = key at h
    split at h
    · cases h
    · obtain ⟨default, hdefault, h⟩ := Except.bind_ok h
      obtain ⟨later, hlater, h⟩ := Except.bind_ok h
      cases h
      intro d hd
      rcases List.mem_cons.1 hd with rfl | hd
      · rintro c size rfl
        exact paramDefault_prompt hdefault (hps p List.mem_cons_self)
      · exact ih hlater (fun q hq => hps q (List.mem_cons_of_mem _ hq)) d hd

theorem compile_prompt {a : Analyzer} {t : Template} {p : Program} (h : compile a t = .ok p)
    (ht : t.Closed) :
    ∀ d ∈ p.params, d.Prompt := by
  unfold compile at h
  cases hp : ofTemplate a t with
  | error e => rw [hp] at h; cases h
  | ok p' =>
    rw [hp] at h
    cases h
    obtain ⟨params, hparams, hp⟩ := Except.bind_ok hp
    obtain ⟨⟨code, b⟩, hcode, hp⟩ := Except.bind_ok hp
    cases hp
    exact compileParams_prompt hparams ht

end Program

theorem Registry.build_prompt {a : Analyzer} {ts : List Template} {reg : Registry}
    (h : build a ts = .ok reg) (ht : ∀ t ∈ ts, t.Closed) : ∀ p ∈ reg.programs, ∀ d ∈ p.params,
    d.Prompt := by
  have hall : ∀ {ts : List Template} {ps : List Program}, Compiles a ts ps → (∀ t ∈ ts, t.Closed) →
      ∀ p ∈ ps, ∀ d ∈ p.params, d.Prompt := by
    intro ts ps hc
    induction hc with
    | nil => exact fun _ _ hp => by cases hp
    | cons hp _ ih =>
      intro ht p hmem
      rcases List.mem_cons.1 hmem with rfl | hmem
      · exact Program.compile_prompt hp (ht _ List.mem_cons_self)
      · exact ih (fun t hmem => ht t (List.mem_cons_of_mem _ hmem)) p hmem
  exact hall (build_compiles h) ht

/-! ## How far a render has come -/

/-- What was put out and logged in a store the run puts out and logs too. -/
def Course.Shows (x : Course) (s : Store) : Prop :=
  ∃ n, ∀ f, n ≤ f → (∃ more, (x f).2.output = s.output ++ more) ∧ s.messages <+: (x f).2.messages

/-- The run comes to the end `o` with what was put out and logged in a store. -/
def Course.Settles (x : Course) (o : Outcome) (s : Store) : Prop :=
  ∃ n, ∀ f, n ≤ f → (x f).1 = o ∧ (x f).2.output = s.output ∧ (x f).2.messages = s.messages

namespace Course

variable {x : Course} {made : Array Thunk} {s t : Store} {o : Outcome}

theorem Shows.of_grows (ht : s.Twin made t) (h : ∃ n, ∀ f, n ≤ f → t.Grows (x f).2) :
    x.Shows s := by
  obtain ⟨n, hn⟩ := h
  refine ⟨n, fun f hf => ?_⟩
  obtain ⟨_, more, hmore⟩ := (hn f hf).streams ht.streams.sturdy'
  obtain ⟨later, hlater⟩ := (hn f hf).messages
  refine ⟨⟨more, ?_⟩, later, ?_⟩
  · rw [Store.output, hmore, Store.output, ht.streams.output]
  · rw [hlater, ht.messages]

theorem Settles.of_comes (ht : s.Twin made t) (h : x.Comes (o, t)) : x.Settles o s := by
  obtain ⟨n, hn⟩ := h
  refine ⟨n, fun f hf => ?_⟩
  rw [hn f hf]
  exact ⟨rfl, ht.streams.output.symm, ht.messages.symm⟩

theorem Settles.shows (h : x.Settles o s) : x.Shows s := by
  obtain ⟨n, hn⟩ := h
  refine ⟨n, fun f hf => ?_⟩
  obtain ⟨_, hout, hmsg⟩ := hn f hf
  exact ⟨⟨"", by rw [hout, String.append_empty]⟩, hmsg ▸ List.prefix_rfl⟩

end Course

/-- How far the first run has come: it is in the middle of what the second run still has to do, or
at its end. -/
inductive Progress (reg : Registry) (context : Context) (gs : Array Future) (id : RenderId)
    (x : Course) (s : Store) : Prop where
  | under {made : Array Thunk} {depth : Nat} {y : Course} :
      Stands reg context gs made s depth id y → x.Leads y → Progress reg context gs id x s
  | ended {o : Outcome} {r : Render} : o.isFinal = true → x.Settles o s → s.renders[id]? = some r →
      (∀ s' : Store, s'.renders[id]? = some r → ∀ n, s'.invoke reg context (n + 1) id = (o, s')) →
      Progress reg context gs id x s

namespace Progress

variable {reg : Registry} {context : Context} {gs : Array Future} {id : RenderId}
  {x : Course} {s : Store}

theorem shows (h : Progress reg context gs id x s) : x.Shows s := by
  cases h with
  | under hstands hleads =>
    obtain ⟨t, htwin, hgrow⟩ := hstands.shows
    exact .of_grows htwin (hleads.grows ⟨0, fun f _ => hgrow f⟩)
  | ended _ hsettles => exact hsettles.shows

/-- Futures are settled between two calls. -/
theorem settle (h : Progress reg context gs id x s) {fs : Futures} (hb : s.heap.blurred = false)
    (ha : s.heap.futures.Ahead fs) (hg : ∀ hs : Futures, hs.states = gs → fs.Ahead hs) :
    Progress reg context gs id x { s with heap := { s.heap with futures := fs } } := by
  cases h with
  | under hstands hleads =>
    exact .under (hstands.rests (.settled hb ha hg 0) (Nat.zero_le id)) hleads
  | ended ho hsettles hr hstays => exact .ended ho hsettles hr hstays

/-- What the next call comes to. -/
theorem call (hreg : ∀ p ∈ reg.programs, p.Valid)
    (hprompt : ∀ p ∈ reg.programs, ∀ d ∈ p.params, d.Prompt) (hs : s.Safe reg)
    (hid : id < s.renders.size) (h : Progress reg context gs id x s) (fuel : Nat)
    (hclear : (s.invoke reg context fuel id).2.heap.blurred = false) :
    x.Shows (s.invoke reg context fuel id).2 ∧
      ((s.invoke reg context fuel id).1 ≠ .exhausted →
      Progress reg context gs id x (s.invoke reg context fuel id).2) ∧
    ((s.invoke reg context fuel id).1.isFinal = true →
      x.Settles (s.invoke reg context fuel id).1 (s.invoke reg context fuel id).2) := by
  cases h with
  | @under made depth y hstands hleads =>
    have hstays := Store.invoke_stays hreg context fuel hs hid
    have hdue := ((Store.runs_safe hreg context fuel).1 id s hs hid).2.2
    have htell := (Store.runs_tell hreg hprompt context gs fuel).1 s depth id y made hs
      hstands hclear
    generalize s.invoke reg context fuel id = result at hstays hdue htell
    obtain ⟨o, s'⟩ := result
    have hends (made : Array Thunk) (t : Store) (hf : o.isFinal = true) (ho : o ≠ .exhausted)
        (hy : y.Comes (o, t)) (htwin : s'.Twin made t) : x.Shows s' ∧
          (o ≠ .exhausted → Progress reg context gs id x s') ∧
              (o.isFinal = true → x.Settles o s') := by
      have hsettles : x.Settles o s' := .of_comes htwin (hleads.comes hy ho)
      obtain ⟨r, hr, hlater⟩ := hstays hf
      exact ⟨hsettles.shows, fun _ => .ended hf hsettles hr hlater, fun _ => hsettles⟩
    have hstops (made : Array Thunk) (depth : Nat) (z : Course) (hf : o.isFinal = false)
        (hz : Stands reg context gs made s' depth id z) (hyz : y.Leads z) : x.Shows s' ∧
          (o ≠ .exhausted → Progress reg context gs id x s') ∧
              (o.isFinal = true → x.Settles o s') := by
      have hunder : Progress reg context gs id x s' := .under hz (hleads.trans hyz)
      refine ⟨hunder.shows, fun _ => hunder, fun hfinal => ?_⟩
      rw [hf] at hfinal
      cases hfinal
    cases o with
    | done =>
      obtain ⟨made, t, hy, htwin, _⟩ := htell
      exact hends made t rfl (by simp) hy htwin
    | failed e =>
      obtain ⟨made, t, hy, htwin, _⟩ := htell
      exact hends made t rfl (by simp) hy htwin
    | waiting p =>
      obtain ⟨made, d, z, hz, hyz, _⟩ := htell
      exact hstops made d z rfl hz hyz
    | limited =>
      obtain ⟨made, d, z, hz, hyz, _⟩ := htell
      exact hstops made d z rfl hz hyz
    | exhausted =>
      obtain ⟨⟨made, t, htwin, hgrow⟩, _⟩ := htell
      exact ⟨.of_grows htwin (hleads.grows hgrow), fun h => (h rfl).elim, fun h => nomatch h⟩
    | broken => exact hdue.elim
  | @ended o r ho hsettles hr hstays =>
    cases fuel with
    | zero => exact ⟨hsettles.shows, fun h => (h rfl).elim, fun h => nomatch h⟩
    | succ n =>
      rw [hstays s hr n]
      exact ⟨hsettles.shows, fun _ => .ended ho hsettles hr hstays, fun _ => hsettles⟩

end Progress

/-! ## Starting both runs -/

/-- A store without renders. -/
def Store.new (outlet : Outlet) (futures : Futures) (fresh : Identity) : Store :=
  { heap := { futures, fresh }, streams := { outlet } }

theorem Store.new_twin {outlet : Outlet} (ho : outlet.Sturdy) (he : outlet.output = "")
    {fs gs : Futures} (ha : fs.Ahead gs) (fresh : Identity) :
    (Store.new outlet fs fresh).Twin #[] (Store.new .collecting gs fresh) where
  tidy id g hg := by simp at hg
  ahead := ha
  fresh := rfl
  first := ⟨rfl, fun id g t hg => by cases hg⟩
  second := ⟨rfl, fun id g t hg => by cases hg⟩
  streams := ⟨ho, trivial, ⟨rfl, fun w hw => by cases hw⟩, he, rfl, rfl⟩
  messages := rfl
  renders := rfl

namespace Registry

variable {reg : Registry} {context : Context} {name : String}
  {params injected : List (String × Datum)}

/-- The program and the values with which a render is started. -/
theorem start_ok {s s₀ : Store} {id : RenderId}
    (h : reg.start context name params injected .root s = (.ok id, s₀)) :
    ∃ p ∈ reg.programs, ∃ given inj fresh,
    p.start context given inj .root { s with heap := { s.heap with fresh } } = (.ok id, s₀) ∧
      (∀ t : Store, t.heap.fresh = s.heap.fresh → reg.start context name params injected .root t =
        p.start context given inj .root { t with heap := { t.heap with fresh } }) ∧
      (∃ n k, Datum.boxParams params n = .ok (given, k)) ∧
          ∃ n k, Datum.boxParams injected n = .ok (inj, k) := by
  unfold Registry.start at h
  simp only at h
  split at h
  · cases h
  · next p given inj fresh hbox =>
    have hsame (t : Store) (ht : t.heap.fresh = s.heap.fresh) :
        reg.start context name params injected .root t =
            p.start context given inj .root { t with heap := { t.heap with fresh } } := by
      unfold Registry.start
      simp only
      rw [ht, hbox]
    obtain ⟨q, n, hq, hrest⟩ := StateT.bind_ok hbox
    obtain ⟨ps, n', hps, hrest⟩ := StateT.bind_ok hrest
    obtain ⟨is, n'', his, hrest⟩ := StateT.bind_ok hrest
    cases hrest
    cases hfound : reg.template name with
    | error e => rw [hfound] at hq; cases hq
    | ok q' =>
      rw [hfound] at hq
      cases hq
      exact ⟨p, Registry.template_mem hfound, given, inj, fresh, h, hsame, ⟨_, _, hps⟩, _, _, his⟩

/-- A render that is started is there, and no future has changed. -/
theorem start_known {s s₀ : Store} {id : RenderId}
    (h : reg.start context name params injected .root s = (.ok id, s₀)) :
    id < s₀.renders.size ∧ s₀.heap.futures.states = s.heap.futures.states := by
  obtain ⟨p, _, given, inj, fresh, hstart, _⟩ := start_ok h
  obtain ⟨r, hr, _⟩ := Program.start_ready (congrArg Prod.fst hstart)
  have hheap := Program.start_heap p context given inj .root
    { s with heap := { s.heap with fresh } }
  rw [hstart] at hr hheap
  exact ⟨(Array.getElem?_eq_some_iff.1 hr).1, hheap.states⟩

/-- A render that is started stands where the second run begins. -/
theorem start_stands (hreg : ∀ p ∈ reg.programs, p.Valid)
    (hprompt : ∀ p ∈ reg.programs, ∀ d ∈ p.params, d.Prompt) {made : Array Thunk} {s t s₀ : Store}
    {id : RenderId} (htwin : s.Twin made t)
    (h : reg.start context name params injected .root s = (.ok id, s₀))
    (hclear : s₀.heap.blurred = false) :
    ∃ t₀, reg.start context name params injected .root t = (.ok id, t₀) ∧
      Stands reg context t.heap.futures.states made s₀ 0 id fun n =>
    t₀.invoke reg context n id := by
  obtain ⟨p, hp, given, inj, fresh, hstart, hsame, _⟩ := start_ok h
  have htwin' : ({ s with heap := { s.heap with fresh } } : Store).Twin made
      { t with heap := { t.heap with fresh } } :=
    { htwin with fresh := rfl, first := ⟨htwin.first.size, htwin.first.thunks⟩,
                 second := ⟨htwin.second.size, htwin.second.thunks⟩ }
  obtain ⟨hid, htwin₀, hstates⟩ :=
    Program.start_mirrors (hreg p hp) (hprompt p hp) htwin' context given inj .root
      (by rw [hstart]; exact hclear)
  obtain ⟨r, hr, hready⟩ := Program.start_ready (congrArg Prod.fst hstart)
  rw [hstart] at hid hr htwin₀
  obtain ⟨r', hr', hready'⟩ := Program.start_ready hid
  have heq : r' = r := by
    have hstarted := congrArg (·[id]?) htwin₀.renders
    simp only [Array.getElem?_map, hr, hr', Option.map_some, Option.some.injEq] at hstarted
    unfold Render.started at hstarted
    rw [Stands.ready_self hready, Stands.ready_self hready'] at hstarted
    exact hstarted.symm
  subst heq
  refine ⟨(p.start context given inj .root { t with heap := { t.heap with fresh } }).2, ?_,
    .ready hr hready hr' htwin₀ hstates⟩
  rw [hsame t htwin.fresh.symm]
  exact Prod.ext hid rfl

end Registry

/-! ## Schedules -/

/-- Schedules of one render: calls that come back, interleaved with futures that are settled. -/
inductive Store.Scheduled (reg : Registry) (context : Context) (id : RenderId) (s₀ : Store) :
    Store → Prop where
  | start : Scheduled reg context id s₀ s₀
  | call {s : Store} (fuel : Nat) : Scheduled reg context id s₀ s →
      (s.invoke reg context fuel id).1 ≠ .exhausted →
      Scheduled reg context id s₀ (s.invoke reg context fuel id).2
  | settle {s : Store} (f : FutureId) (state : Future) : Scheduled reg context id s₀ s →
      Scheduled reg context id s₀
      { s with heap := { s.heap with futures := (s.heap.futures.settle f state).2 } }

namespace Store.Scheduled

variable {reg : Registry} {context : Context} {id : RenderId} {gs : Array Future} {x : Course}
  {s₀ s : Store}

/-- A schedule settles futures and keeps what was settled; a store that was blurred stays so. -/
theorem later (hreg : ∀ p ∈ reg.programs, p.Valid) (hs₀ : s₀.Safe reg) (hid : id < s₀.renders.size)
    (h : Scheduled reg context id s₀ s) : s.Safe reg ∧ id < s.renders.size ∧
    s₀.heap.futures.Ahead s.heap.futures ∧ (s.heap.blurred = false → s₀.heap.blurred = false) := by
  induction h with
  | start => exact ⟨hs₀, hid, .refl _, fun h => h⟩
  | @call s fuel _ _ ih =>
    obtain ⟨hsafe, hin, hahead, hblur⟩ := ih
    obtain ⟨hsafe', hlater, _⟩ := (Store.runs_safe hreg context fuel).1 id s hsafe hin
    exact ⟨hsafe', Nat.lt_of_lt_of_le hin hlater.size, hahead.trans (.of_states hlater.states.symm),
      hblur ∘ hlater.clear⟩
  | @settle s f state _ ih =>
    obtain ⟨hsafe, hin, hahead, hblur⟩ := ih
    exact ⟨⟨hsafe.programs, hsafe.frames, hsafe.heap⟩, hin,
      hahead.trans (s.heap.futures.settle_ahead f state), hblur⟩

/-- Where a schedule has led to. -/
theorem progress (hreg : ∀ p ∈ reg.programs, p.Valid)
    (hprompt : ∀ p ∈ reg.programs, ∀ d ∈ p.params, d.Prompt) (hs₀ : s₀.Safe reg)
    (hid : id < s₀.renders.size) (hstart : Progress reg context gs id x s₀)
    (h : Scheduled reg context id s₀ s) (hclear : s.heap.blurred = false)
    (hahead : ∀ hs : Futures, hs.states = gs → s.heap.futures.Ahead hs) :
    Progress reg context gs id x s := by
  induction h with
  | start => exact hstart
  | @call s fuel hsched hback ih =>
    obtain ⟨hsafe, hin, _⟩ := hsched.later hreg hs₀ hid
    obtain ⟨_, hlater, _⟩ := (Store.runs_safe hreg context fuel).1 id s hsafe hin
    have hp := ih (hlater.clear hclear) fun hs hgs =>
      (Futures.Ahead.of_states hlater.states.symm).trans (hahead hs hgs)
    exact (hp.call hreg hprompt hsafe hin fuel hclear).2.1 hback
  | @settle s f state _ ih =>
    have hsettle := s.heap.futures.settle_ahead f state
    exact (ih hclear fun hs hgs => hsettle.trans (hahead hs hgs)).settle hclear hsettle hahead

end Store.Scheduled

/-- The store in which a render was started is safe, and knows the render. -/
theorem Registry.started_safe {analyzer : Analyzer} {templates : List Template} {reg : Registry}
    (hbuild : Registry.build analyzer templates = .ok reg) {context : Context} {name : String}
    {params injected : List (String × Datum)} {outlet : Outlet} {fs : Futures} {fresh : Identity}
    {id : RenderId} {s₀ : Store}
    (hstart : reg.start context name params injected .root (.new outlet fs fresh) = (.ok id, s₀)) :
    s₀.Safe reg ∧ id < s₀.renders.size := by
  have hnew : Store.Reachable reg context (Store.new outlet fs fresh) := .init outlet fs fresh
  have hsafe : (reg.start context name params injected .root (Store.new outlet fs fresh)).2.Safe
      reg :=
    (hnew.start name params injected).safe (Registry.build_valid hbuild)
  rw [hstart] at hsafe
  exact ⟨hsafe, (start_known hstart).1⟩

/-- A schedule has led a render to the store `s`. A single call that is made with more futures
settled before, and a sink that never asks for a pause, is in the middle of what the render has
still to do, or at its end. -/
theorem Registry.scheduled_progress {analyzer : Analyzer} {templates : List Template}
    {reg : Registry} (hbuild : Registry.build analyzer templates = .ok reg)
    (hclosed : ∀ t ∈ templates, t.Closed) {context : Context} {name : String}
    {params injected : List (String × Datum)} {outlet : Outlet} (hsturdy : outlet.Sturdy)
    (hempty : outlet.output = "") {fs gs : Futures} {fresh : Identity} {id : RenderId}
    {s₀ s : Store} (hstart : reg.start context name params injected .root (.new outlet fs fresh) =
      (.ok id, s₀)) (hschedule : Store.Scheduled reg context id s₀ s)
    (hsettled : s.heap.futures.Ahead gs) (hclear : s.heap.blurred = false) :
    ∃ t₀, reg.start context name params injected .root (.new .collecting gs fresh) = (.ok id, t₀) ∧
      Progress reg context gs.states id (fun n => t₀.invoke reg context n id) s := by
  have hreg := Registry.build_valid hbuild
  have hprompt := Registry.build_prompt hbuild hclosed
  obtain ⟨hsafe₀, hid⟩ := started_safe hbuild hstart
  obtain ⟨_, _, hlater, hblur⟩ := hschedule.later hreg hsafe₀ hid
  -- both runs start with the futures as they were
  have hfs : fs.Ahead gs :=
    ((Futures.Ahead.of_states (start_known hstart).2.symm).trans hlater).trans hsettled
  obtain ⟨t₀, ht₀, hstands⟩ :=
    start_stands hreg hprompt (Store.new_twin hsturdy hempty hfs fresh) hstart (hblur hclear)
  have hsteady : Course.Steady fun n => t₀.invoke reg context n id := hstands.steady
  exact ⟨t₀, ht₀, hschedule.progress hreg hprompt hsafe₀ hid (.under hstands (.refl hsteady)) hclear
    fun hs hgs => hsettled.trans (.of_states hgs.symm)⟩

/-- What the next call of that render comes to. -/
theorem Registry.scheduled_call {analyzer : Analyzer} {templates : List Template} {reg : Registry}
    (hbuild : Registry.build analyzer templates = .ok reg) (hclosed : ∀ t ∈ templates, t.Closed)
    {context : Context} {name : String} {params injected : List (String × Datum)} {outlet : Outlet}
    (hsturdy : outlet.Sturdy) (hempty : outlet.output = "") {fs gs : Futures} {fresh : Identity}
    {id : RenderId} {s₀ s : Store}
    (hstart : reg.start context name params injected .root (.new outlet fs fresh) = (.ok id, s₀))
    (hschedule : Store.Scheduled reg context id s₀ s) (hsettled : s.heap.futures.Ahead gs)
    {fuel : Nat} (hclear : (s.invoke reg context fuel id).2.heap.blurred = false) :
    ∃ t₀, reg.start context name params injected .root (.new .collecting gs fresh) = (.ok id, t₀) ∧
      Course.Shows (fun n => t₀.invoke reg context n id) (s.invoke reg context fuel id).2 ∧
      ((s.invoke reg context fuel id).1.isFinal = true →
      Course.Settles (fun n => t₀.invoke reg context n id) (s.invoke reg context fuel id).1
      (s.invoke reg context fuel id).2) := by
  have hreg := Registry.build_valid hbuild
  obtain ⟨hsafe₀, hid⟩ := started_safe hbuild hstart
  obtain ⟨hsafe, hin, _⟩ := hschedule.later hreg hsafe₀ hid
  have hclear_s := ((Store.runs_safe hreg context fuel).1 id s hsafe hin).2.1.clear hclear
  obtain ⟨t₀, ht₀, hprogress⟩ :=
    scheduled_progress hbuild hclosed hsturdy hempty hstart hschedule hsettled hclear_s
  obtain ⟨hshows, _, hsettles⟩ :=
    hprogress.call hreg (Registry.build_prompt hbuild hclosed) hsafe hin fuel hclear
  exact ⟨t₀, ht₀, hshows, hsettles⟩

/-- Suspension is invisible. A schedule has led a render to the store `s`, and the render is called
again; no text was taken of a value that holds a future. At every moment of the call, what was put
out and logged so far is the beginning of what a single call puts out and logs that is made with all
those futures settled before and a sink that never asks for a pause. If the call has come to the end
of the render, the single call comes to the same end with the same output and messages. -/
theorem Registry.suspension_invisible {analyzer : Analyzer} {templates : List Template}
    {reg : Registry} (hbuild : Registry.build analyzer templates = .ok reg)
    (hclosed : ∀ t ∈ templates, t.Closed) {context : Context} {name : String}
    {params injected : List (String × Datum)} {outlet : Outlet} (hsturdy : outlet.Sturdy)
    (hempty : outlet.output = "") {fs gs : Futures} {fresh : Identity} {id : RenderId}
    {s₀ s : Store} (hstart : reg.start context name params injected .root (.new outlet fs fresh) =
      (.ok id, s₀)) (hschedule : Store.Scheduled reg context id s₀ s)
    (hsettled : s.heap.futures.Ahead gs) (fuel : Nat)
      (hclear : (s.invoke reg context fuel id).2.heap.blurred = false) :
    ∃ t₀, reg.start context name params injected .root (.new .collecting gs fresh) = (.ok id, t₀) ∧
      (∃ n, ∀ f, n ≤ f →
        (∃ more, (t₀.invoke reg context f id).2.output =
        (s.invoke reg context fuel id).2.output ++ more) ∧
      (s.invoke reg context fuel id).2.messages <+: (t₀.invoke reg context f id).2.messages) ∧
    ((s.invoke reg context fuel id).1.isFinal = true → ∃ n, ∀ f, n ≤ f →
      (t₀.invoke reg context f id).1 = (s.invoke reg context fuel id).1 ∧
      (t₀.invoke reg context f id).2.output = (s.invoke reg context fuel id).2.output ∧
      (t₀.invoke reg context f id).2.messages = (s.invoke reg context fuel id).2.messages) := by
  obtain ⟨t₀, ht₀, hshows, hsettles⟩ :=
    scheduled_call hbuild hclosed hsturdy hempty hstart hschedule hsettled hclear
  exact ⟨t₀, ht₀, hshows, hsettles⟩

/-- Someone to be greeted becomes known after the greeting was called once: the second call puts out
the rest, and a single call with someone known from the start puts out the same. -/
theorem Sample.greeting_resumed :
    let known : Futures := { states := #[.complete (.str "you")], reads := #[0] }
    let s : Store := { Sample.greeted with
      heap := { Sample.greeted.heap with futures := (Sample.greeted.heap.futures.settle 0
        (.complete (.str "you"))).2 } }
    (s.invoke Sample.greetings {} 8 0).1 = .done ∧
      (s.invoke Sample.greetings {} 8 0).2.output = "Hello you" ∧
        ∃ t₀, Sample.greetings.start {} "greeting" [("who", .boxed (.future 0))] [] .root
          (.new .collecting known 0) = (.ok 0, t₀) ∧ ∃ n, ∀ f, n ≤ f →
              (t₀.invoke Sample.greetings {} f 0).1 = .done ∧
                  (t₀.invoke Sample.greetings {} f 0).2.output = "Hello you" := by
  intro known s
  have hdone : (s.invoke Sample.greetings {} 8 0).1 = .done := by decide +kernel
  have hout : (s.invoke Sample.greetings {} 8 0).2.output = "Hello you" := by cbv
  have hschedule : Store.Scheduled Sample.greetings {} 0 Sample.started s :=
    .settle 0 _ (.call 8 .start (by rw [Sample.started_waits]; simp))
  have hsettled : s.heap.futures.Ahead known := .of_states (by cbv)
  have hstart : Sample.greetings.start {} "greeting" [("who", .boxed (.future 0))] [] .root
      (.new .collecting { states := #[.pending], reads := #[0] } 0) = (.ok 0, Sample.started) := rfl
  have hclosed : ∀ t ∈ [Sample.greeting], t.Closed := by
    simp [Template.Closed, Sample.greeting]
  have hsturdy : Outlet.collecting.Sturdy := trivial
  obtain ⟨t₀, ht₀, _, hend⟩ :=
    Registry.suspension_invisible Sample.greetings_built hclosed hsturdy rfl hstart hschedule
      hsettled 8 (by cbv)
  refine ⟨hdone, hout, t₀, ht₀, ?_⟩
  obtain ⟨n, hn⟩ := hend (by rw [hdone]; rfl)
  refine ⟨n, fun f hf => ⟨(hn f hf).1.trans hdone, (hn f hf).2.1.trans hout⟩⟩

/-! ## Waiting is stable -/

namespace Store

/-- Nothing was put into any sink and nothing was logged. -/
structure Silent (s s' : Store) : Prop where
  output : s'.output = s.output
  buffers : s'.streams.buffers = s.streams.buffers
  stages : s'.streams.stages = s.streams.stages
  messages : s'.messages = s.messages

theorem Silent.refl (s : Store) : s.Silent s := ⟨rfl, rfl, rfl, rfl⟩

theorem Silent.trans {s s' s'' : Store} (h : s.Silent s') (h' : s'.Silent s'') : s.Silent s'' :=
  ⟨h'.output.trans h.output, h'.buffers.trans h.buffers, h'.stages.trans h.stages,
    h'.messages.trans h.messages⟩

theorem Twin.silent {made made' : Array Thunk} {s s' t : Store} (h : s.Twin made t)
    (h' : s'.Twin made' t) : s.Silent s' where
  output := h'.streams.output.trans h.streams.output.symm
  buffers := h'.streams.buffers.trans h.streams.buffers.symm
  stages := h'.streams.stages.trans h.streams.stages.symm
  messages := h'.messages.trans h.messages.symm

/-- A render was stopped where a second run with the futures `gs` waits for `p`. -/
def Waits (reg : Registry) (context : Context) (gs : Array Future) (id : RenderId) (p : FutureId)
    (s : Store) : Prop :=
  ∃ made depth y, Stands reg context gs made s depth id y ∧ y.Pauses gs made p s

namespace Waits

variable {reg : Registry} {context : Context} {gs : Array Future} {id : RenderId}
  {p : FutureId} {s : Store}

/-- Other futures are settled. -/
theorem settle (h : s.Waits reg context gs id p) {fs : Futures} (hb : s.heap.blurred = false)
    (ha : s.heap.futures.Ahead fs) (hg : ∀ hs : Futures, hs.states = gs → fs.Ahead hs) :
    ({ s with heap := { s.heap with futures := fs } } : Store).Waits reg context gs id p := by
  obtain ⟨made, depth, y, hstands, t, hawaits, htwin, hgs⟩ := h
  have hrests : s.Rests gs 0 { s with heap := { s.heap with futures := fs } } :=
    Rests.settled hb ha hg 0
  exact ⟨made, depth, y, hstands.rests hrests (Nat.zero_le id), t, hawaits,
    hrests.twin made t hgs htwin, hgs⟩

/-- A call that waits leaves its render where the second run waits. -/
theorem of_call (hreg : ∀ p ∈ reg.programs, p.Valid)
    (hprompt : ∀ p ∈ reg.programs, ∀ d ∈ p.params, d.Prompt) (hs : s.Safe reg) {made : Array Thunk}
    {depth : Nat} {y : Course} (h : Stands reg context gs made s depth id y) {fuel : Nat}
    (hwaits : (s.invoke reg context fuel id).1 = .waiting p)
    (hclear : (s.invoke reg context fuel id).2.heap.blurred = false) {fs : Futures}
    (hfs : fs.states = gs) (hp : fs.get p = .pending) :
    (s.invoke reg context fuel id).2.Waits reg context gs id p := by
  have htell := (runs_tell hreg hprompt context gs fuel).1 s depth id y made hs h hclear
  rw [hwaits] at htell
  obtain ⟨made', depth', z, hz, _, hpause⟩ := htell
  exact ⟨made', depth', z, hz, hpause fs hfs hp⟩

/-- If no other future is settled in the second run, the next call waits again, given enough steps,
and puts nothing into any sink. -/
theorem call (hreg : ∀ p ∈ reg.programs, p.Valid)
    (hprompt : ∀ p ∈ reg.programs, ∀ d ∈ p.params, d.Prompt) (hs : s.Safe reg)
    (hid : id < s.renders.size) (h : s.Waits reg context s.heap.futures.states id p) :
    ∃ n, ∀ fuel, (s.invoke reg context fuel id).2.heap.blurred = false →
      ((s.invoke reg context fuel id).1 = .waiting p ∧ s.Silent (s.invoke reg context fuel id).2) ∨
        ((s.invoke reg context fuel id).1 = .exhausted ∧ fuel ≤ n) := by
  obtain ⟨made, depth, y, hstands, t, hawaits, htwin, _⟩ := h
  refine ⟨depth, fun fuel hclear => ?_⟩
  have hcomes := hawaits.comes hstands.steady
  have htell := (runs_tell hreg hprompt context s.heap.futures.states fuel).1 s depth id y made hs
    hstands hclear
  obtain ⟨_, hlater, hdue⟩ := (runs_safe hreg context fuel).1 id s hs hid
  have hstates := hlater.states
  generalize s.invoke reg context fuel id = result at hdue htell hstates ⊢
  obtain ⟨o, s'⟩ := result
  cases o with
  | done =>
    obtain ⟨_, _, hends, _⟩ := htell
    cases hcomes.unique hends
  | failed e =>
    obtain ⟨_, _, hends, _⟩ := htell
    cases hcomes.unique hends
  | waiting q =>
    -- what is waited for is pending in the second run too, so that waits for nothing else
    obtain ⟨made', _, z, _, hyz, hpause⟩ := htell
    obtain ⟨t', hawaits', htwin', _⟩ := hpause s'.heap.futures hstates hdue
    have hsame : ((.waiting p, t) : Outcome × Store) = (.waiting q, t') :=
      (hyz.awaits hawaits).symm.trans hawaits'
    cases hsame
    exact .inl ⟨rfl, htwin.silent htwin'⟩
  | limited =>
    obtain ⟨_, _, _, _, _, hgo⟩ := htell
    exact (hgo p t hawaits).elim
  | exhausted =>
    obtain ⟨_, ⟨_, hgo⟩ | hlate⟩ := htell
    · exact (hgo hstates p t hawaits).elim
    · refine .inr ⟨rfl, Nat.le_of_not_lt fun hlt => ?_⟩
      have hex := hlate 1 (by omega)
      rw [hawaits] at hex
      cases hex
  | broken => exact hdue.elim

end Waits

/-- A render waits as long as the future is pending. -/
theorem Scheduled.waits {reg : Registry} {context : Context} {id : RenderId} {p : FutureId}
    {s s' : Store} (hreg : ∀ p ∈ reg.programs, p.Valid)
    (hprompt : ∀ p ∈ reg.programs, ∀ d ∈ p.params, d.Prompt) (hs : s.Safe reg)
    (hid : id < s.renders.size)
    (h : ∀ gs : Futures, s.heap.futures.Ahead gs → gs.get p = .pending →
      s.Waits reg context gs.states id p) (hschedule : Scheduled reg context id s s')
    (hclear : s'.heap.blurred = false) (hp : s'.heap.futures.get p = .pending) :
    s.Silent s' ∧ ∀ gs : Futures, s'.heap.futures.Ahead gs → gs.get p = .pending →
      s'.Waits reg context gs.states id p := by
  induction hschedule with
  | start => exact ⟨.refl s, h⟩
  | @call s' fuel hschedule hback ih =>
    obtain ⟨hsafe, hin, _⟩ := hschedule.later hreg hs hid
    obtain ⟨_, hlater, _⟩ := (runs_safe hreg context fuel).1 id s' hsafe hin
    have hp' : s'.heap.futures.get p = .pending := (Futures.get_congr hlater.states p).symm.trans hp
    obtain ⟨hsilent, hwaits⟩ := ih (hlater.clear hclear) hp'
    obtain ⟨n, hcall⟩ := (hwaits _ (.refl _) hp').call hreg hprompt hsafe hin
    rcases hcall fuel hclear with ⟨hagain, hsilent'⟩ | ⟨hex, _⟩
    · refine ⟨hsilent.trans hsilent', fun gs ha hgs => ?_⟩
      obtain ⟨made, depth, y, hstands, _⟩ :=
        hwaits gs ((Futures.Ahead.of_states hlater.states.symm).trans ha) hgs
      exact .of_call hreg hprompt hsafe hstands hagain hclear rfl hgs
    · exact (hback hex).elim
  | @settle s' f state _ ih =>
    have hsettle := s'.heap.futures.settle_ahead f state
    obtain ⟨hsilent, hwaits⟩ := ih hclear (hsettle.pending hp)
    refine ⟨hsilent.trans ⟨rfl, rfl, rfl, rfl⟩, fun gs ha hgs => ?_⟩
    exact (hwaits gs (hsettle.trans ha) hgs).settle hclear hsettle fun hs hstates =>
      ha.trans (.of_states hstates.symm)

end Store

/-- Waiting is stable. A schedule has led a render to the store `s`, where a call waits for `p`.
Then `p` is pending. However often the render is called from there on, and whatever other futures
are settled: as long as `p` is pending, the next call, given enough steps, waits for `p` again, and
since the first that did nothing was put into any sink and nothing was logged. The exception is a
call that takes the text of a value that holds a future. -/
theorem Registry.waiting_stays {analyzer : Analyzer} {templates : List Template} {reg : Registry}
    (hbuild : Registry.build analyzer templates = .ok reg) (hclosed : ∀ t ∈ templates, t.Closed)
    {context : Context} {name : String} {params injected : List (String × Datum)} {outlet : Outlet}
    (hsturdy : outlet.Sturdy) (hempty : outlet.output = "") {fs : Futures} {fresh : Identity}
    {id : RenderId} {s₀ s : Store}
    (hstart : reg.start context name params injected .root (.new outlet fs fresh) = (.ok id, s₀))
    (hschedule : Store.Scheduled reg context id s₀ s) {fuel : Nat} {p : FutureId}
    (hwaits : (s.invoke reg context fuel id).1 = .waiting p) :
    (s.invoke reg context fuel id).2.heap.futures.get p = .pending ∧
      ∀ s', Store.Scheduled reg context id (s.invoke reg context fuel id).2 s' →
    s'.heap.futures.get p = .pending → ∃ n, ∀ f, n ≤ f →
    (s'.invoke reg context f id).2.heap.blurred = false →
    (s'.invoke reg context f id).1 = .waiting p ∧
    (s.invoke reg context fuel id).2.Silent (s'.invoke reg context f id).2 := by
  have hreg := Registry.build_valid hbuild
  have hprompt := Registry.build_prompt hbuild hclosed
  obtain ⟨hsafe₀, hid₀⟩ := started_safe hbuild hstart
  obtain ⟨hsafe, hin, _⟩ := hschedule.later hreg hsafe₀ hid₀
  obtain ⟨hsafe₁, hlater, hdue⟩ := (Store.runs_safe hreg context fuel).1 id s hsafe hin
  have hin₁ := Nat.lt_of_lt_of_le hin hlater.size
  have hpending : (s.invoke reg context fuel id).2.heap.futures.get p = .pending := by
    rw [hwaits] at hdue
    exact hdue
  refine ⟨hpending, fun s' hschedule' hp => ?_⟩
  obtain ⟨hsafe', hin', hahead, hblur⟩ := hschedule'.later hreg hsafe₁ hin₁
  by_cases hclear' : s'.heap.blurred = false
  · have hclear₁ := hblur hclear'
    have hfirst (gs : Futures) (ha : (s.invoke reg context fuel id).2.heap.futures.Ahead gs)
      (hgs : gs.get p = .pending) :
        (s.invoke reg context fuel id).2.Waits reg context gs.states id p := by
      obtain ⟨t₀, _, hprogress⟩ := scheduled_progress hbuild hclosed hsturdy hempty hstart hschedule
        ((Futures.Ahead.of_states hlater.states.symm).trans ha) (hlater.clear hclear₁)
      cases hprogress with
      | under hstands => exact .of_call hreg hprompt hsafe hstands hwaits hclear₁ rfl hgs
      | ended hfinal _ hr hstays =>
        cases fuel with
        | zero => cases hwaits
        | succ n =>
          rw [hstays s hr n] at hwaits
          subst hwaits
          cases hfinal
    obtain ⟨hsilent, hwaits'⟩ := hschedule'.waits hreg hprompt hsafe₁ hin₁ hfirst hclear' hp
    obtain ⟨n, hcall⟩ := (hwaits' _ (.refl _) hp).call hreg hprompt hsafe' hin'
    refine ⟨n + 1, fun f hf hclear => ?_⟩
    rcases hcall f hclear with ⟨hagain, hsilent'⟩ | ⟨_, hle⟩
    · exact ⟨hagain, hsilent.trans hsilent'⟩
    · omega
  · refine ⟨0, fun f _ hclear => (hclear' ?_).elim⟩
    exact ((Store.runs_safe hreg context f).1 id s' hsafe' hin').2.1.clear hclear

/-- A greeting that was stopped is called again while nobody is known: nothing is added to what it
has put out. -/
example : (Sample.greeted.invoke Sample.greetings {} 8 0).1 = .waiting 0 ∧
    (Sample.greeted.invoke Sample.greetings {} 8 0).2.output = "Hello " :=
  ⟨by decide +kernel, by cbv⟩

/-- Further calls leave no trace: two schedules of a render, with the same futures settled in the
end, come to the same end with the same output and messages. -/
theorem Registry.schedules_agree {analyzer : Analyzer} {templates : List Template} {reg : Registry}
    (hbuild : Registry.build analyzer templates = .ok reg) (hclosed : ∀ t ∈ templates, t.Closed)
    {context : Context} {name : String} {params injected : List (String × Datum)} {outlet : Outlet}
    (hsturdy : outlet.Sturdy) (hempty : outlet.output = "") {fs : Futures} {fresh : Identity}
    {id : RenderId} {s₀ s s' : Store}
    (hstart : reg.start context name params injected .root (.new outlet fs fresh) = (.ok id, s₀))
    (hschedule : Store.Scheduled reg context id s₀ s)
    (hschedule' : Store.Scheduled reg context id s₀ s')
    (hsame : s'.heap.futures.states = s.heap.futures.states) {f f' : Nat}
    (hclear : (s.invoke reg context f id).2.heap.blurred = false)
    (hclear' : (s'.invoke reg context f' id).2.heap.blurred = false)
    (hfinal : (s.invoke reg context f id).1.isFinal = true)
    (hfinal' : (s'.invoke reg context f' id).1.isFinal = true) :
    (s'.invoke reg context f' id).1 = (s.invoke reg context f id).1 ∧
      (s'.invoke reg context f' id).2.output = (s.invoke reg context f id).2.output ∧
      (s'.invoke reg context f' id).2.messages = (s.invoke reg context f id).2.messages := by
  -- both come to what a single call with the futures of the first comes to
  obtain ⟨t₀, ht₀, _, hsettles⟩ :=
    scheduled_call hbuild hclosed hsturdy hempty hstart hschedule (.refl _) hclear
  obtain ⟨t₀', ht₀', _, hsettles'⟩ :=
    scheduled_call hbuild hclosed hsturdy hempty hstart hschedule' (.of_states hsame) hclear'
  cases ht₀.symm.trans ht₀'
  obtain ⟨n, hn⟩ := hsettles hfinal
  obtain ⟨n', hn'⟩ := hsettles' hfinal'
  obtain ⟨ho, hout, hmsg⟩ := hn (max n n') (Nat.le_max_left n n')
  obtain ⟨ho', hout', hmsg'⟩ := hn' (max n n') (Nat.le_max_right n n')
  exact ⟨ho'.symm.trans ho, hout'.symm.trans hout, hmsg'.symm.trans hmsg⟩

end Interlude
