import Interlude.Proofs.Direct.Call
import Interlude.Proofs.Render.LifeCycle
import Interlude.Proofs.Resume.Schedule
/-!
# Renders come to what templates come to

By induction on its plans the code of a template plays the run of its body, if the renders it calls
answer the runs of their templates. By induction on the depth of calls all renders do. So what a
render puts out and logs, and how it ends, depends on the templates alone and not on the code they
were compiled to (`Registry.analyzer_invisible`).
-/

namespace Interlude

open Direct (World Act Setup Scene Caller)

/-! ## Bodies -/

namespace Program

variable {su : Setup} {reg : Registry} {depth : Nat} {a : Analyzer} {f : Template → Program}
  {run : Template → Scene → Sink → Act Unit}

mutual

/-- The code of every block plays the block. -/
theorem compileBlock_carries (hc : su.Compiled a f reg) (ha : su.Answers f reg depth run) :
    (ps : List Plan) → Carries su reg depth a (fun out pc => compileBlock out pc ps)
      fun scene r sink => Direct.block su (Direct.start su run) scene r sink ps
  | [] => noPlan_carries
  | p :: rest => plans_carries (compilePlan_performs hc ha p) (compileBlock_carries hc ha rest)

theorem compilePlan_performs (hc : su.Compiled a f reg)
    (ha : su.Answers f reg depth run) : (p : Plan) →
    Performs su reg depth a (fun out pc => compilePlan out pc p) fun scene r sink =>
    Direct.plan su (Direct.start su run) scene r sink p
  | .text s => text_performs s
  | .print e ds => print_performs e ds
  | .cond branches otherwise =>
    cond_performs (compileBranches_carries hc ha _ branches) (compileBlock_carries hc ha otherwise)
  | .switch _ cases none =>
    switch_performs (fun slot v => compileCases_carries hc ha slot v cases) fun _ h => by cases h
  | .switch _ cases (some body) =>
      switch_performs (fun slot v => compileCases_carries hc ha slot v cases) fun _ h => by
    cases h
    exact compileBlock_carries hc ha body
  | .forRange _ _ _ _ _ body => forRange_performs (compileBlock_carries hc ha body)
  | .forEach _ _ _ body ifEmpty =>
    forEach_performs (compileBlock_carries hc ha body) (compileBlock_carries hc ha ifEmpty)
  | .eager .. => eager_performs
  | .deferred .. => deferred_performs
  | .content _ _ body => content_performs (compileBlock_carries hc ha body)
  | .stream _ body _ => stream_performs (compileBlock_carries hc ha body)
  | .call _ _ _ params _ => call_performs hc ha (compileContents_carries hc ha params)
  | .log body => log_performs (compileBlock_carries hc ha body)

theorem compileBranches_carries (hc : su.Compiled a f reg) (ha : su.Answers f reg depth run)
    (more : Bool) :
    (branches : List (Expr × List Plan)) →
    CarriesTests su reg depth a (fun _ _ => True) more (fun out pc =>
      compileBranches out more pc branches) fun scene r sink no =>
    Direct.firstBranch su (Direct.start su run) scene r sink no branches
  | [] => noBranch_carries more
  | (_, body) :: rest =>
    branch_carries (compileBlock_carries hc ha body) (compileBranches_carries hc ha more rest)

theorem compileCases_carries (hc : su.Compiled a f reg) (ha : su.Answers f reg depth run)
    (slot : Nat) (v : Value) :
    (cases : List (List Expr × List Plan)) →
    CarriesTests su reg depth a (fun mark cells => slot < mark ∧ cells.read slot = .value v) true
      (fun out pc => compileCases out slot pc cases)
      fun scene r sink no => Direct.firstCase su (Direct.start su run) scene r sink v no cases
  | [] => noCase_carries
  | (_, body) :: rest =>
    case_carries (compileBlock_carries hc ha body) (compileCases_carries hc ha slot v rest)

theorem compileContents_carries (hc : su.Compiled a f reg) (ha : su.Answers f reg depth run) :
    (params : List (CallParam (List Plan))) →
    CarriesContents su reg depth a (Direct.start su run) params
  | [] => noParam_carries
  | .value .. :: rest => valueParam_carries (compileContents_carries hc ha rest)
  | .content _ _ body :: rest =>
    contentParam_carries (compileBlock_carries hc ha body) (compileContents_carries hc ha rest)

end

/-- A machine at the start of a render stands where the direct run starts. -/
theorem situated_start (su : Setup) {made : Array Thunk} {s : Store} {w : World}
    (h : s.Shows made su.futures.states w) (size : Nat) :
    Situated su made {} { cells := Cells.cleared size, store := s } .none w where
  store := h
  slots := Slots.new_wf
  seen := Locals.seen_empty _
  reads _ := Locals.readAs_empty _ _

/-- The code of a template plays the run of its body, up to the end of the code. -/
theorem body_plays (hc : su.Compiled a f reg) (ha : su.Answers f reg depth run) {t : Template}
    (ht : t ∈ su.templates.all) (id : RenderId) {rd : Render} (hrd : rd.program = f t)
    {made : Array Thunk} {s : Store} {w : World} (h : s.Shows made su.futures.states w) :
    rd.Plays reg su.context id depth
      (rd.course reg su.context id 0 { cells := Cells.cleared rd.program.size, store := s })
      (fun _ => rd.program.code.size)
      (fun _ m' w' => ∃ made', Thunk.Extends made made' ∧ m'.store.Shows made' su.futures.states w')
      (Direct.block su (Direct.start su run) rd.scene .none rd.sink (Plan.ofBlock t.body) w) := by
  have hprogram := hc.programs t ht
  rw [← hrd] at hprogram
  obtain ⟨ds, _, hrest⟩ := Except.bind_ok hprogram
  obtain ⟨⟨code, b⟩, hcode, hpure⟩ := Except.bind_ok hrest
  injection hpure with hpure
  have hcode : compileBody (Plan.ofBlock t.body) a {} = .ok (code, b) := hcode
  unfold compileBody at hcode
  have h₀ := situated_start su h rd.program.size
  obtain ⟨check, hcode, hcheck⟩ := check_plays h₀.slots hcode
  obtain ⟨inner, b₁, hinner, hcode⟩ := Build.bind_ok hcode
  obtain ⟨rfl, rfl⟩ := Build.pure_ok hcode
  have hhas : rd.program.Has 0 (check :: inner) := by
    intro k i hi
    rw [← hpure, Nat.zero_add]
    simpa using hi
  obtain ⟨m₁, hlead, hs₁⟩ := hcheck hhas.head h₀.store 0
  have hcells : b.slots.size ≤ m₁.cells.size := by
    rw [hs₁.cells.size, Cells.size_cleared, ← hpure]
  refine .lead hlead ((compileBlock_carries hc ha _ id hinner hhas.tail hcells
    (h₀.still (.refl made) hs₁) rfl).imp ?_)
  rintro _ m' w' ⟨made', he, hs⟩
  refine ⟨?_, made', he, hs.store⟩
  rw [← hpure]
  simp only [List.size_toArray, List.length_cons]
  omega

end Program

/-! ## Depth -/

theorem Store.Left.setStatus {s : Store} {w : World} (h : s.Left w) (id : RenderId)
    (status : Status) :
    (s.setStatus id status).Left w := ⟨h.streams, h.messages⟩

/-- A message that is not from a template is none of the messages. -/
theorem Store.Left.logged {s : Store} {w : World} (h : s.Left w) {e : Log.Entry}
    (he : e.level ≠ .info) :
    (s.logged e).Left w := by
  refine ⟨h.streams, Eq.trans ?_ h.messages⟩
  simp only [Store.messages, Store.logged, Array.toList_push, List.filter_append, List.filter_cons,
    he, decide_false, List.filter_nil, List.append_nil, Bool.false_eq_true, if_false]

theorem Store.flush_left {s : Store} {w : World} (h : s.Left w) (sink : Sink) :
    s.flush sink = ((w.streams.flush sink).1, { s with streams := (w.streams.flush sink).2 }) := by
  unfold Store.flush
  rw [h.streams]

/-- A render that waits is suspended, or its sink fails. -/
theorem Store.suspend_left (context : Context) (id : RenderId) {rd : Render} {pc : Nat} {i : Instr}
    {m : Machine} {w : World} (p : FutureId) (hi : rd.program.code[pc]? = some i)
    (hx : i.extent.isSome = true) (h : m.store.Left w) :
    match w.streams.flush rd.sink with
    | (.ok _, streams) =>
        ∃ s : Store, Store.suspend context id rd pc m (.waiting p) = (.waiting p, s) ∧
          s.Left { w with streams }
    | (.error e, streams) => ∃ s : Store, Store.suspend context id rd pc m (.waiting p) =
        (.failed ((Failure.sink e).within rd.program.name), s) ∧ s.Left { w with streams } := by
  obtain ⟨x, hx⟩ := Option.isSome_iff_exists.1 hx
  unfold Store.suspend
  simp only [hi, hx]
  rw [Store.flush_left (h.setStatus id _)]
  cases hf : w.streams.flush rd.sink with
  | mk result streams =>
    have hleft (s : Store) (hs : s.Left w) : ({ s with streams } : Store).Left { w with streams } :=
      ⟨rfl, hs.messages⟩
    have hstill := hleft _ (h.setStatus id (.suspended (.save pc m.cells x.site.slots m.maker)))
    cases result with
    | error e => exact ⟨_, rfl, hstill.setStatus id _⟩
    | ok u =>
      simp only
      split
      · exact ⟨_, rfl, hstill.logged (by simp)⟩
      · exact ⟨_, rfl, hstill⟩

namespace Direct.Setup.Answers

variable {su : Setup} {reg : Registry} {depth : Nat} {a : Analyzer} {f : Template → Program}

theorem zero : su.Answers f reg 0 (Direct.run su 0) := by
  intro t id scene sink s made w _ _ _ n hn
  obtain rfl : n = 0 := by omega
  rfl

theorem succ (hc : su.Compiled a f reg) (ha : su.Answers f reg depth (Direct.run su depth)) :
    su.Answers f reg (depth + 1) (Direct.run su (depth + 1)) := by
  intro t id scene sink s made w ht hbegun hs
  obtain ⟨rd, hfound, hrd, hready, rfl, rfl⟩ := hbegun.found
  have hname : rd.program.name =
    t.name := by rw [hrd, (Program.ofTemplate_known (hc.programs t ht)).1]
  let x : Course := fun n => s.invoke reg su.context n id
  let y : Course := rd.course reg su.context id 0
    { cells := Cells.cleared rd.program.size, store := s }
  have hstep (n : Nat) : x (n + 1) = y n := by
    simp only [x, y, Store.invoke, hfound, hready, Store.enter]
    rfl
  have hlead : x.Leads y := .of_step hstep rfl (rd.course_steady reg su.context id 0 _)
  have hplays := Program.body_plays hc ha ht id hrd hs
  rw [Direct.run]
  unfold Act.within
  cases hb : Direct.block su (Direct.start su (Direct.run su depth)) rd.scene .none rd.sink
      (Plan.ofBlock t.body) w with
  | ok _ w' =>
    rw [hb] at hplays
    obtain ⟨m', hm, made', he, hshow⟩ := hplays
    -- at the end of its code a render is done
    have hend : (rd.course reg su.context id rd.program.code.size m').Comes
        (.done, m'.store.setStatus id .done) := by
      refine ⟨1, fun n hn => ?_⟩
      obtain ⟨n, rfl⟩ : ∃ k, n = k + 1 := ⟨n - 1, by omega⟩
      unfold Render.course
      rw [Store.steps, Array.getElem?_size]
    exact ⟨_, made', hlead.comes (hm.comes hend (by simp)) (by simp), he, hshow.setStatus id .done⟩
  | error e w' =>
    rw [hb] at hplays
    cases e with
    | failed e =>
      obtain ⟨s', hcomes, hleft⟩ := hplays
      have hcomes := hlead.comes hcomes (by simp [Store.failRender])
      unfold Store.failRender at hcomes
      rw [hname] at hcomes
      exact ⟨_, hcomes, hleft.setStatus id _⟩
    | waiting p =>
      obtain ⟨pc, i, m', hi, hext, hcomes, hleft⟩ := hplays
      have hcomes := hlead.comes hcomes (Store.suspend_ne_exhausted su.context id rd pc m' p)
      have hsuspend := Store.suspend_left su.context id p hi hext hleft
      simp only
      cases hf : w'.streams.flush rd.sink with
      | mk result streams =>
        rw [hf] at hsuspend
        cases result with
        | ok u =>
          obtain ⟨s', heq, hleft'⟩ := hsuspend
          rw [heq] at hcomes
          exact ⟨s', hcomes, hleft'⟩
        | error e =>
          obtain ⟨s', heq, hleft'⟩ := hsuspend
          rw [heq, hname] at hcomes
          exact ⟨s', hcomes, hleft'⟩
    | exhausted =>
      intro n hn
      cases n with
      | zero => rfl
      | succ n =>
        change (x (n + 1)).1 = .exhausted
        rw [hstep]
        exact hplays n (by omega)
    | broken => exact hplays.elim

/-- Renders answer the runs of their templates, to any depth of calls. -/
theorem all (hc : su.Compiled a f reg) (depth : Nat) :
    su.Answers f reg depth (Direct.run su depth) := by
  induction depth with
  | zero => exact zero
  | succ depth ih => exact succ hc ih

end Direct.Setup.Answers

/-! ## Registries -/

/-- The programs of a registry are those of its templates. -/
theorem Registry.build_compiled {a : Analyzer} {ts : List Template} {reg : Registry}
    (h : Registry.build a ts = .ok reg) (futures : Futures) (context : Context) :
    ∃ f, Direct.Setup.Compiled ⟨Directory.ofTemplates ts, futures, context⟩ a f reg := by
  obtain ⟨f, hmaps, hprograms⟩ := build_maps h
  exact ⟨f, hmaps, fun t ht => Program.ofTemplate_of_compile (hprograms t ht)⟩

namespace Direct

/-- Data from outside, put into the form that templates read. -/
def boxed (params injected : List (String × Datum)) :
    Boxing (List (String × Value) × List (String × Value)) := do
  let params ← Datum.boxParams params
  let injected ← Datum.boxParams injected
  return (params, injected)

/-- Takes the numbers for data from outside. -/
def Act.box (x : Boxing α) : Act α := fun w =>
  match x w.fresh with
  | .error e => .error (.failed e) w
  | .ok (a, fresh) => .ok a { w with fresh }

/-- Renders a basic template with data from outside, to the outlet. -/
def resume (su : Setup) (depth : Nat) (name : String) (params injected : List (String × Datum)) :
    Act Unit := do
  let t ← Act.ofExcept (su.templates.template name)
  let (params, injected) ← Act.box (boxed params injected)
  render su depth t params injected .root

end Direct

theorem Registry.start_eq (reg : Registry) (context : Context) (name : String)
    (params injected : List (String × Datum)) (sink : Sink) (s : Store) :
    reg.start context name params injected sink s =
      match reg.template name with
      | .error e => (.error e, s)
      | .ok p =>
        match Direct.boxed params injected s.heap.fresh with
        | .error e => (.error e, s)
        | .ok ((params, injected), fresh) =>
          p.start context params injected sink { s with heap := { s.heap with fresh } } := by
  unfold Registry.start
  cases reg.template name with
  | error e => rfl
  | ok p =>
    have hboxed : (do
        let p ← liftM (.ok p : Except Failure Program)
        let params ← Datum.boxParams params
        let injected ← Datum.boxParams injected
        return (p, params, injected) : Boxing _) =
          Direct.boxed params injected >>= fun x => pure (p, x.1, x.2) := by
      simp only [Direct.boxed, bind_assoc, pure_bind]
      rfl
    have hrun : (Direct.boxed params injected >>= fun x => pure (p, x.1, x.2) : Boxing _)
        s.heap.fresh = (Direct.boxed params injected s.heap.fresh).map fun x =>
            ((p, x.1.1, x.1.2), x.2) := by
      change (Direct.boxed params injected s.heap.fresh >>= _ : Except Failure _) = _
      cases Direct.boxed params injected s.heap.fresh <;> rfl
    simp only [hboxed, hrun]
    cases Direct.boxed params injected s.heap.fresh <;> rfl

/-- A call from outside comes to what the direct run comes to. -/
theorem Registry.resume_answers {su : Setup} {a : Analyzer} {f : Template → Program}
    {reg : Registry} (hc : su.Compiled a f reg) (depth : Nat) (name : String)
    (params injected : List (String × Datum)) {made : Array Thunk} {s : Store} {w : World}
    (hs : s.Shows made su.futures.states w) :
    Course.Answers su made depth (fun n => (reg.resume su.context n none name params injected s).2)
      (Direct.resume su depth name params injected w) := by
  have hfails {e : Failure} {s' : Store} {w' : World} (hleft : s'.Left w')
      (hstart : reg.start su.context name params injected .root s = (.error e, s')) :
      Course.Answers su made depth (fun n =>
        (reg.resume su.context n none name params injected s).2) (.error (.failed e) w') := by
    refine ⟨s', ⟨0, fun n _ => ?_⟩, hleft⟩
    unfold Registry.resume
    simp only [hstart]
  have hstart := reg.start_eq su.context name params injected .root s
  rw [Registry.template, hc.maps.template] at hstart
  unfold Direct.resume
  rw [Act.bind_apply]
  cases ht : su.templates.template name with
  | error e =>
    rw [ht] at hstart
    exact hfails hs.left hstart
  | ok t =>
  rw [ht] at hstart
  have hmem := Directory.template_mem ht
  simp only [Except.map, hs.fresh] at hstart
  change Course.Answers su made depth _ ((Act.box (Direct.boxed params injected) >>= fun x =>
    Direct.render su depth t x.1 x.2 .root) w)
  rw [Act.bind_apply, Act.box]
  cases hb : Direct.boxed params injected w.fresh with
  | error e =>
    rw [hb] at hstart
    exact hfails hs.left hstart
  | ok x =>
  obtain ⟨⟨vs, js⟩, fresh⟩ := x
  rw [hb] at hstart
  have hs' : ({ s with heap := { s.heap with fresh } } : Store).Shows made su.futures.states
      { w with fresh } :=
    ⟨hs.tidy, ⟨hs.sound.size, hs.sound.thunks⟩, hs.states, rfl, hs.streams, hs.messages,
      hs.unlimited⟩
  have hbind := Program.start_follows (hc.programs t hmem) vs js .root hs'
  simp only [Direct.render, Direct.start] at hstart hbind ⊢
  rw [← hstart] at hbind
  rw [Act.bind_apply]
  cases hr : reg.start su.context name params injected .root s with
  | mk result s' =>
  rw [hr] at hbind
  cases hw : Direct.bindParams su t.name vs js t.params { w with fresh } with
  | error e w' =>
    rw [hw] at hbind
    cases result with
    | ok id => cases e <;> exact hbind.elim
    | error e' =>
      cases e with
      | failed e =>
        obtain ⟨rfl, hleft⟩ := hbind
        exact hfails hleft hr
      | _ => exact hbind.elim
  | ok bound w' =>
    rw [hw] at hbind
    cases result with
    | error e => exact hbind.elim
    | ok id =>
      have hanswer := Direct.Setup.Answers.all hc depth hmem hbind.1 hbind.2
      have hrun : (fun n => (reg.resume su.context n none name params injected s).2) =
          fun n => s'.invoke reg su.context n id := by
        funext n
        unfold Registry.resume
        simp only [hr]
      rw [hrun]
      exact hanswer

theorem Registry.resume_steady (reg : Registry) (context : Context) (name : String)
    (params injected : List (String × Datum)) (s : Store) : Course.Steady fun n =>
    (reg.resume context n none name params injected s).2 := by
  intro n l hle
  unfold Registry.resume
  cases reg.start context name params injected .root s with
  | mk result s' =>
    cases result with
    | error e => exact .refl _
    | ok id => exact Store.invoke_approximates reg context hle id s'

/-! ## Analyzers -/

/-- How a direct run has ended, and the world it left. -/
def Direct.ending : EStateM.Result Stop World Unit → Outcome × World
  | .ok _ w => (.done, w)
  | .error (.failed e) w => (.failed e, w)
  | .error (.waiting p) w => (.waiting p, w)
  | .error .exhausted w => (.exhausted, w)
  | .error .broken w => (.broken, w)

/-- A course that has come to something in `depth` steps comes to what the direct run comes to. -/
theorem Course.Answers.comes {su : Setup} {made : Array Thunk} {depth : Nat} {x : Course}
    {y : EStateM.Result Stop World Unit} (h : x.Answers su made depth y)
    (hend : (Direct.ending y).1 ≠ .exhausted) :
    ∃ s, x.Comes ((Direct.ending y).1, s) ∧ s.Left (Direct.ending y).2 := by
  cases y with
  | ok _ w =>
    obtain ⟨s, _, hcomes, _, hshow⟩ := h
    exact ⟨s, hcomes, hshow.left⟩
  | error e w =>
    cases e with
    | failed e => exact h
    | waiting p => exact h
    | exhausted => exact (hend rfl).elim
    | broken => exact h.elim

theorem Course.Answers.late {su : Setup} {made : Array Thunk} {depth : Nat} {x : Course}
    {y : EStateM.Result Stop World Unit} (h : x.Answers su made depth y)
    (hend : (Direct.ending y).1 = .exhausted) :
    x.Late depth 0 := by
  cases y with
  | ok _ w => cases hend
  | error e w =>
    cases e with
    | exhausted => exact h
    | _ => cases hend

/-- The analyzer is invisible. Two registries of the same templates, each built with an analyzer of
its own, render every template alike to a sink that never asks for a pause: if a call has come to an
end with the one, then with the other a call comes to the same end, with the same output and the
same messages. -/
theorem Registry.analyzer_invisible {a a' : Analyzer} {ts : List Template} {reg reg' : Registry}
    (hbuild : Registry.build a ts = .ok reg) (hbuild' : Registry.build a' ts = .ok reg')
    {outlet : Outlet} (hunlimited : outlet.Unlimited) (context : Context) (futures : Futures)
    (fresh : Identity) (name : String) (params injected : List (String × Datum)) {fuel : Nat}
    (hend : (reg.resume context fuel none name params injected (.new outlet futures fresh)).2.1 ≠
      .exhausted) :
    ∃ n, ∀ fuel', n ≤ fuel' →
      (reg'.resume context fuel' none name params injected (.new outlet futures fresh)).2.1 =
        (reg.resume context fuel none name params injected (.new outlet futures fresh)).2.1 ∧
      (reg'.resume context fuel' none name params injected (.new outlet futures fresh)).2.2.output =
        (reg.resume context fuel none name params injected (.new outlet futures fresh)).2.2.output ∧
      (reg'.resume context fuel' none name params injected
      (.new outlet futures fresh)).2.2.messages =
    (reg.resume context fuel none name params injected
      (.new outlet futures fresh)).2.2.messages := by
  let su : Setup := ⟨Directory.ofTemplates ts, futures, context⟩
  let w : World := { fresh, streams := { outlet }, log := [] }
  have hshows : (Store.new outlet futures fresh).Shows #[] su.futures.states w :=
    ⟨fun _ _ hg => by simp at hg, ⟨rfl, fun _ _ _ hg => by
      cases hg⟩, rfl, rfl, rfl, rfl, hunlimited⟩
  obtain ⟨f, hc⟩ := build_compiled hbuild futures context
  obtain ⟨f', hc'⟩ := build_compiled hbuild' futures context
  -- both answer the same direct run, as deep as the first call has steps
  have hx := resume_answers hc fuel name params injected hshows
  have hx' := resume_answers hc' fuel name params injected hshows
  generalize Direct.resume su fuel name params injected w = y at hx hx'
  by_cases hy : (Direct.ending y).1 = .exhausted
  · exact (hend (hx.late hy fuel (Nat.le_refl fuel))).elim
  · obtain ⟨s, ⟨k, hk⟩, hleft⟩ := hx.comes hy
    obtain ⟨s', ⟨k', hk'⟩, hleft'⟩ := hx'.comes hy
    have hsame := (reg.resume_steady context name params injected (.new outlet futures fresh)
      (Nat.le_max_left fuel k)).eq hend
    have hlast := hsame.symm.trans (hk _ (Nat.le_max_right fuel k))
    refine ⟨k', fun fuel' hle => ?_⟩
    have hlast' := hk' fuel' hle
    simp only at hlast hlast'
    rw [hlast, hlast']
    refine ⟨rfl, ?_, hleft'.messages.trans hleft.messages.symm⟩
    unfold Store.output
    rw [hleft'.streams, hleft.streams]

/-- The registry of the greeting and the letter, built by the analyzer that expects no pending
values. -/
def Sample.plainLetters : Registry := (Registry.build .never [greeting, letter]).toOption.getD ⟨[]⟩

theorem Sample.plainLetters_built :
    Registry.build .never [greeting, letter] = .ok plainLetters :=
  Registry.build_getD (by decide +kernel)

/-- A letter comes out the same from both registries. -/
theorem Sample.letter_alike : ∃ n, ∀ fuel, n ≤ fuel →
    (plainLetters.resume {} fuel none "letter" [("who", .boxed (.str "you"))] []
      (.new .collecting {} 0)).2.1 = .done ∧
    (plainLetters.resume {} fuel none "letter" [("who", .boxed (.str "you"))] []
      (.new .collecting {} 0)).2.2.output = "Hello you!" := by
  have hdone : (letters.resume {} 16 none "letter" [("who", .boxed (.str "you"))] []
      (.new .collecting {} 0)).2.1 = .done := by
    decide +kernel
  have hout : (letters.resume {} 16 none "letter" [("who", .boxed (.str "you"))] []
      (.new .collecting {} 0)).2.2.output = "Hello you!" := by cbv
  have hend : (letters.resume {} 16 none "letter" [("who", .boxed (.str "you"))] []
      (.new .collecting {} 0)).2.1 ≠ .exhausted := by
    rw [hdone]
    simp
  have hunlimited : Outlet.collecting.Unlimited := ⟨rfl, fun _ hw => by cases hw⟩
  obtain ⟨n, hn⟩ := Registry.analyzer_invisible letters_built plainLetters_built hunlimited {}
    {} 0 "letter" [("who", .boxed (.str "you"))] [] hend
  exact ⟨n, fun fuel hle => ⟨(hn fuel hle).1.trans hdone, (hn fuel hle).2.1.trans hout⟩⟩

end Interlude
