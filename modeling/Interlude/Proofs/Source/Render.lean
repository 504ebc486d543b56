import Interlude.Proofs.Resume.Drive
import Interlude.Proofs.Source.Follow
import Interlude.Proofs.Source.Made
/-!
# Renders put out what templates come to

The plans of statements write what the statements come to (`CallsWrite.stmt`), if calls do; so do
bodies, and by induction on their depth calls do (`run_writes`). Compiled templates play their
plans, so what a render puts out is what its template comes to as it is written
(`Bundle.done_iff_comes`).
-/

namespace Interlude

open Direct (World Act Setup Scene Handover)

/-- A statement that is regular, and whose literals were made before `n`. -/
structure Stmt.Fit (n : Identity) (s : Stmt) : Prop where
  regular : s.Regular
  literals : ∀ e ∈ s.exprs, e.MadeBefore n

theorem Stmt.Every.literals {n : Identity} {body : List Stmt} (h : Every (Fit n) body) :
    Every (fun s => ∀ e ∈ s.exprs, e.MadeBefore n) body := h.imp fun _ hs => hs.literals

/-- A body is rendered in place where it is printed first: the print is the only statement that
reads it. -/
theorem streamSite_cons {name : String} {s : Stmt} {rest : List Stmt} {i : Nat}
    (h : streamSite name (s :: rest) = some i) :
    (∃ t ds, s = .print (.var t name) ds ∧ i = 0 ∧ Stmt.references rest name = false ∧
      canStream ds = true) ∨ ∃ j, s.isLet = false ∧ Stmt.references [s] name = false ∧
    streamSite name rest = some j ∧ i = j + 1 := by
  have hlater (hlet : s.isLet = false)
      (h : (if Stmt.references [s] name then none else (streamSite name rest).map (· + 1)) =
        some i) :
      ∃ j, s.isLet = false ∧ Stmt.references [s] name = false ∧ streamSite name rest = some j ∧
          i = j + 1 := by
    split at h
    · cases h
    · next href =>
      obtain ⟨j, hj, rfl⟩ := Option.map_eq_some_iff.1 h
      exact ⟨j, hlet, eq_false_of_ne_true href, hj, rfl⟩
  unfold streamSite at h
  split at h
  · cases h
  · cases h
  · next t n ds =>
    split at h
    · next hn =>
      obtain rfl := eq_of_beq hn
      split at h
      · cases h
      · next hcond =>
        cases h
        simp only [Bool.or_eq_true, not_or, Bool.not_eq_true, Bool.not_eq_eq_eq_not, Bool.not_true,
          Bool.not_eq_false] at hcond
        exact .inl ⟨t, ds, rfl, rfl, hcond.1.2, hcond.2⟩
    · exact .inr (hlater rfl h)
  · next hvalue hcontent _ =>
    refine .inr (hlater ?_ h)
    cases s with
    | letValue name e => exact absurd rfl (hvalue name e)
    | letContent name kind body => exact absurd rfl (hcontent name kind body)
    | _ => rfl

namespace Direct

theorem arguments_ofParams (r : Reading) (place : List Nat) (given : List (String × Value))
    (params : List (CallParam (List Stmt))) (contents : List (Option Value)) :
    Direct.arguments r place given (Plan.ofParams params) contents =
    Direct.arguments r place given params contents := by
  induction params generalizing place given contents with
  | nil => simp only [Plan.ofParams, Direct.arguments]
  | cons p rest ih =>
    cases contents with
    | nil => cases p <;> simp only [Plan.ofParams, Direct.arguments]
    | cons c contents =>
      cases p with
      | content name kind body =>
        simp only [Plan.ofParams, Direct.arguments]
        exact ih ..
      | value name e =>
        by_cases hforward : ∃ t param, e = .param t param false
        · obtain ⟨t, param, rfl⟩ := hforward
          simp only [Plan.ofParams, Direct.arguments, ih]
        · have he : ∀ t param, e ≠ .param t param false := fun t param heq =>
            hforward ⟨t, param, heq⟩
          simp only [Plan.ofParams, Direct.arguments_value he, ih]

theorem dispatch_ofParams (ts : Directory Template) (r : Reading) (data : List (String × Value))
    (name : String) (target : CallTarget) (passes : CallData)
    (params : List (CallParam (List Stmt))) (contents : List (Option Value)) (ds : List Directive) :
    Direct.dispatch ts r data name target passes (Plan.ofParams params) contents ds =
    Direct.dispatch ts r data name target passes params contents ds := by
  simp only [Direct.dispatch, arguments_ofParams]

theorem dispatch_filters {Body : Type} {ts : Directory Template} {r : Reading}
    {data : List (String × Value)} {name : String} {target : CallTarget} {passes : CallData}
    {params : List (CallParam Body)} {contents : List (Option Value)} {ds : List Directive}
    {env : Env} {m m' : Memory} {d : Handover}
    (h : Direct.dispatch ts r data name target passes params contents ds env m = .ok (some d) m') :
    ∀ f ∈ d.chain, ∃ k ∈ ds, f.1.name = k.name := by
  obtain ⟨found, m₁, _, h⟩ := Eval.bind_ok h
  cases found with
  | none => cases h
  | some t =>
    obtain ⟨given, m₂, _, h⟩ := Eval.bind_ok h
    obtain ⟨args, m₃, _, h⟩ := Eval.bind_ok h
    obtain ⟨chain, m₄, hchain, h⟩ := Eval.bind_ok h
    cases h
    exact chain_filters hchain

end Direct

namespace Source

open Direct (Act)

/-- Data in which nothing depends on numbers from `n` on. -/
def Fixed (su : Setup) (n : Identity) (data : List (String × Value)) : Prop :=
  ∀ N : Renumbering, N.Keeps su.futures n → N.data data = data

/-- Calls write what templates come to. -/
structure CallsWrite (su : Setup) (base : Identity) (call : Caller)
    (call' : Direct.Caller) : Prop where
  futures : su.futures.MadeBefore base
  uniform : Uniform su base call
  call : ∀ t ∈ su.templates.all, ∀ n params injected, base ≤ n → Fixed su n params →
    Fixed su n injected →
    ∀ sink, Writes sink Told n (call t params injected) (call' t params injected sink)

/-- The text is written, and the locals are as they were. -/
def Stays (r : Reading) (a : String × Reading) (text : String) (r' : Reading)
    (_ : Identity) : Prop :=
  a = (text, r) ∧ r' = r

/-- The text is written, and the locals are settled. -/
def Leaves (su : Setup) (base : Identity) (scene : Scene) (a : String × Reading) (text : String)
    (r' : Reading) (m : Identity) : Prop :=
  a = (text, r') ∧ Settled su base m scene r'

namespace Writes

variable {sink : Sink} {n : Identity} {r : Reading}

theorem after {x : Run String} {y : Act Unit} (h : Writes sink Told n x y) (r : Reading) :
    Writes sink (Stays r) n (do let s ← x; return (s, r)) (do y; return r) := by
  refine h.bind ?_
  rintro s _ _ m rfl _
  exact .pure ⟨by rw [String.append_empty], rfl⟩

theorem joined {α : Type} {f : α → Run String} {g : α → Act Unit} (as : List α)
    (h : ∀ a m, n ≤ m → Writes sink Told m (f a) (g a)) :
    Writes sink Told n (Run.joined f as) (as.forM g) := by
  induction as generalizing n with
  | nil => exact .pure rfl
  | cons a rest ih =>
    change Writes sink Told n _ (g a >>= fun _ => rest.forM g)
    refine (h a n (Nat.le_refl n)).bind ?_
    rintro s _ _ m rfl hm
    exact (ih fun a k hk => h a k (Nat.le_trans hm hk)).followed s

theorem log (e : Log.Entry) : Writes sink (fun _ t _ _ => t = "") n (Pure.pure ()) (Act.log e) := by
  rintro w rfl _
  exact .ok (w := { w with log := w.log ++ [e] }) rfl (Nat.le_refl _) (.nothing sink _)

end Writes

theorem eval_ok {su : Setup} {scene : Scene} {n m : Identity} {α : Type} {x : Eval α} {a : α}
    (h : eval su scene x n = .ok (a, m)) : ∃ m', x { scene.env su with maker := n }
      { cells := #[], heap := { futures := su.futures } } = .ok a m' := by
  unfold eval Run.eval at h
  split at h
  · next hx =>
    cases h
    exact ⟨_, hx⟩
  · cases h

/-! ## Statements -/

section

variable {su : Setup} {base : Identity} {call : Caller} {call' : Direct.Caller} {sink : Sink}
  {scene : Scene}
  {r : Reading} {n : Identity}

/-- A deferred value is evaluated where it is used. -/
theorem Writes.defer {x : Eval Value} :
    Writes sink (Kept fun y m => Source.defer su scene x n = .ok (y, m)) n (Source.defer su scene x)
      (scene.defer su x) := by
  rintro w rfl _
  exact .ok (w := { w with fresh := w.fresh + 1 }) ⟨rfl, rfl, rfl⟩ (Nat.le_succ _) (.nothing sink _)

/-- A block writes what its statements write, one after another. -/
theorem Writes.cons {s : Stmt} {rest : List Stmt} {p : Plan} {ps : List Plan}
    (hs : Writes sink (Leaves su base scene) n (stmt su call scene r rest s)
      (Direct.plan su call' scene r sink p)) (hrest : ∀ m r', Settled su base m scene r' →
      Writes sink Told m (block su call scene r' rest) (Direct.block su call' scene r' sink ps)) :
    Writes sink Told n (block su call scene r (s :: rest))
      (Direct.block su call' scene r sink (p :: ps)) := by
  rw [block, Direct.block]
  refine hs.bind ?_
  rintro _ text r' m ⟨rfl, hr⟩ _
  exact (hrest m r' hr).followed text

namespace CallsWrite

/-- A plan that a statement has in every block. -/
def Planned (su : Setup) (base : Identity) (call : Caller) (call' : Direct.Caller) (scene : Scene)
    (s : Stmt) (p : Plan) :
    Prop :=
  (∀ rest, Plan.ofBlock (s :: rest) = p :: Plan.ofBlock rest) ∧
    ∀ sink rest n r, Settled su base n scene r →
      Writes sink (Stays r) n (Source.stmt su call scene r rest s)
      (Direct.plan su call' scene r sink p)

mutual

/-- A statement that is no local. -/
theorem stmt (hc : CallsWrite su base call call') (scene : Scene) : (s : Stmt) → s.isLet = false →
    (∀ t ∈ s.flatten, t.Fit base) → ∃ p, Planned su base call call' scene s p
  | .text s, _, _ => by
    refine ⟨.text s, fun _ => by rw [Plan.ofBlock], fun sink rest n r h => ?_⟩
    unfold Source.stmt Direct.plan
    cases hs : s.isEmpty with
    | true =>
      obtain rfl := String.isEmpty_iff.1 hs
      exact .pure ⟨rfl, rfl⟩
    | false => exact (Writes.write s).after r
  | .print e ds, _, _ => by
    refine ⟨.print e ds, fun _ => by rw [Plan.ofBlock], fun sink rest n r h => ?_⟩
    unfold Source.stmt Direct.plan
    exact Writes.eval.kept fun s m _ _ => (Writes.write s).after r
  | .cond branches otherwise, _, h => by
    refine ⟨.cond (Plan.ofBranches branches) (Plan.ofBlock otherwise),
      fun _ => by rw [Plan.ofBlock],
      fun sink rest n r hr => ?_⟩
    unfold Source.stmt Direct.plan
    refine Writes.after (hc.firstBranch scene branches ?_ sink n r hr ?_) r
    · exact fun t ht => h t (List.mem_cons_of_mem _ (List.mem_append_left _ ht))
    · exact fun m hm => hc.block scene otherwise (fun t ht =>
        h t (List.mem_cons_of_mem _ (List.mem_append_right _ ht))) sink m r (hr.mono hm)
  | .switch subject cases default, _, h => by
    refine ⟨.switch subject (Plan.ofCases cases) (Plan.ofDefault default),
      fun _ => by rw [Plan.ofBlock],
      fun sink rest n r hr => ?_⟩
    unfold Source.stmt Direct.plan
    refine Writes.eval.kept fun v m _ hm => ?_
    refine Writes.after (hc.firstCase scene cases ?_ sink m r v (hr.mono hm) ?_) r
    · exact fun t ht => h t (List.mem_cons_of_mem _ (List.mem_append_left _ ht))
    · exact fun k hk => hc.optional scene default
        (fun t ht => h t (List.mem_cons_of_mem _ (List.mem_append_right _ ht))) sink k r
          (hr.mono (Nat.le_trans hm hk))
  | .forRange var start stop step body, _, h => by
    refine ⟨.forRange var start stop step body (Plan.ofBlock body), fun _ => by rw [Plan.ofBlock],
      fun sink rest n r hr => ?_⟩
    unfold Source.stmt Direct.plan
    refine Writes.eval.kept fun bounds m _ hm => ?_
    obtain ⟨start, stop, step⟩ := bounds
    refine Writes.after (.joined _ fun i k hk => ?_) r
    exact hc.block scene body (fun t ht => h t (List.mem_cons_of_mem _ ht)) sink k _
      ((hr.mono (Nat.le_trans hm hk)).bind_int var i)
  | .forEach var list body ifEmpty, _, h => by
    refine ⟨.forEach var list body (Plan.ofBlock body) (Plan.ofBlock ifEmpty),
      fun _ => by rw [Plan.ofBlock],
      fun sink rest n r hr => ?_⟩
    have hown := h _ (Stmt.self_mem_flatten _)
    have hunread := hown.regular.ifEmpty (var, ifEmpty) List.mem_cons_self
    unfold Source.stmt Direct.plan
    refine Writes.eval.kept fun xs m hxs hm => ?_
    obtain ⟨rfl, hitems⟩ := hr.eval_ok (f := fun N => N.values)
      (fun N hN e => (hr.names N hN).items list (hown.literals list List.mem_cons_self)) hxs
    have hr := hr.mono hm
    split
    · have hempty := fun t ht => h t (List.mem_cons_of_mem _ (List.mem_append_right _ ht))
      -- the plan binds the variable where it is not read
      refine Writes.after (.congr ?_
        (hc.block scene ifEmpty hempty sink _ _ (hr.bindItem var hitems 0))) r
      exact (hr.block_unread hc.uniform (Stmt.Every.literals hempty) hunread _ _ _).ends
    · refine Writes.after (.joined _ fun i k hk => ?_) r
      exact hc.block scene body (fun t ht =>
        h t (List.mem_cons_of_mem _ (List.mem_append_left _ ht)))
          sink k _ ((hr.mono hk).bindItem var (fun N hN => hitems N (hN.mono hk)) i)
  | .letValue .., hlet, _ => by cases hlet
  | .letContent .., hlet, _ => by cases hlet
  | .call callee target data params ds, _, h => by
    refine ⟨.call callee target data (Plan.ofParams params) ds, fun _ => by rw [Plan.ofBlock],
      fun sink rest n r hr => ?_⟩
    have hown := h _ (Stmt.self_mem_flatten _)
    unfold Source.stmt Direct.plan
    refine (hc.contents scene params (fun t ht => h t (List.mem_cons_of_mem _ ht)) sink n r hr).kept
      fun contents m hcontents hm => ?_
    rw [Direct.dispatch_ofParams]
    refine Writes.eval.kept fun found k hfound hk => ?_
    have hr := hr.mono hm
    obtain ⟨rfl, hfixed⟩ := hr.eval_ok (f := fun N => Option.map N.handover) (fun N hN e => by
      have hcalled := (hr.names N hN).called su.templates scene.data contents hown.literals (e := e)
      rwa [hcontents N, show N.data scene.data =
        scene.data from congrArg Scene.data (hr.scene N hN)] at hcalled) hfound
    refine Writes.after ?_ r
    cases found with
    | none => exact .pure rfl
    | some d =>
      obtain ⟨m', hd⟩ := eval_ok hfound
      refine .carryOut (fun sink => ?_) fun f hf hlower => ?_
      · refine hc.call d.template (Direct.dispatch_mem hd) _ _ _ ?_ ?_ ?_ sink
        · exact (hr.mono hk).base_le
        · exact fun N hN => congrArg Handover.params (Option.some.inj (hfixed N hN))
        · exact fun N hN => congrArg Scene.injected (hr.scene N (hN.mono hk))
      · obtain ⟨k, hk, hname⟩ := Direct.dispatch_filters hd f hf
        exact hown.regular.directives k hk (by rw [← hname, hlower]; rfl)
  | .log body, _, h => by
    refine ⟨.log (Plan.ofBlock body), fun _ => by rw [Plan.ofBlock], fun sink rest n r hr => ?_⟩
    unfold Source.stmt Direct.plan
    refine Writes.kept (.collect fun sink =>
      hc.block scene body (fun t ht => h t (List.mem_cons_of_mem _ ht)) sink n r hr)
      fun s m _ _ => ?_
    refine Writes.bind (x := pure ()) (f := fun _ => pure ("", r)) (Writes.log _) ?_
    rintro _ _ _ k rfl _
    exact .pure ⟨rfl, rfl⟩

theorem block (hc : CallsWrite su base call call') (scene : Scene) : (body : List Stmt) →
    Stmt.Every (Stmt.Fit base) body → ∀ sink n r, Settled su base n scene r →
      Writes sink Told n (Source.block su call scene r body)
      (Direct.block su call' scene r sink (Plan.ofBlock body))
  | [], _, sink, n, r, _ => by
    rw [Source.block, Plan.ofBlock, Direct.block]
    exact .pure rfl
  | s :: rest, h, sink, n, r, hr => by
    have hrest (m : Identity) (r' : Reading) (hr' : Settled su base m scene r') :=
      hc.block scene rest h.tail sink m r' hr'
    cases hlet : s.isLet with
    | false =>
      obtain ⟨p, hp, hs⟩ := hc.stmt scene s hlet fun t ht => h t (List.mem_append_left _ ht)
      rw [hp]
      refine .cons ((hs sink rest n r hr).weaken ?_) hrest
      rintro _ text _ m ⟨rfl, rfl⟩ hm
      exact ⟨rfl, hr.mono hm⟩
    | true =>
      have hown := h.head
      match s, hlet with
      | .letValue name e, _ =>
        have he : ∀ N : Renumbering, N.Keeps su.futures n →
            ∀ own, N.Turns own N.value (e.eval r []) (e.eval r []) :=
          fun N hN own => (hr.names N hN).eval e (hown.literals e List.mem_cons_self) []
        rw [Plan.ofBlock]
        cases hmode : classifyLet name rest with
        | skip =>
          rw [Source.block, Source.stmt, hmode]
          simpa only [pure_bind, String.empty_append, bind_pure] using hrest n r hr
        | eager =>
          refine .cons ?_ hrest
          rw [Source.stmt, hmode, Direct.plan]
          refine Writes.eval.kept fun v m hv _ => .pure ⟨rfl, ?_⟩
          obtain ⟨rfl, hv⟩ := hr.eval_ok (f := fun N => N.value)
            (fun N hN own => Renumbering.converted_turns (he N hN own) _) hv
          exact (hr.mono (Nat.le_succ n)).bind_value name hv
        | deferred =>
          refine .cons ?_ hrest
          rw [Source.stmt, hmode, Direct.plan]
          exact Writes.defer.kept fun x m hx _ => .pure ⟨rfl, (hr.defer name _ he hx).2⟩
      | .letContent name kind body, _ =>
        have hbody := hc.block scene body (fun t ht =>
          h t (List.mem_append_left _ (List.mem_cons_of_mem _ ht)))
        rw [Plan.ofBlock]
        cases href : Stmt.references rest name with
        | false =>
          rw [Source.block, Source.stmt, href]
          simpa only [Bool.false_eq_true, if_false, Bool.not_false, if_true, pure_bind,
            String.empty_append, bind_pure] using hrest n r hr
        | true =>
          cases hsite : streamSite name rest with
          | none =>
            refine .cons ?_ hrest
            rw [Source.stmt, href, Direct.plan]
            refine Writes.kept (.collect fun sink => hbody sink n r hr) fun s m _ hm =>
              .pure ⟨rfl, ?_⟩
            exact (hr.mono hm).bind_content name kind s
          | some i =>
            have hrun := hc.streamed scene kind (fun t ht =>
              h t (List.mem_append_left _ (List.mem_cons_of_mem _ ht))) hbody rest h.tail i
                hsite sink n r hr
            rw [Source.block, Source.stmt, href]
            simpa only [withContent, if_true, Bool.not_true, Bool.false_eq_true, if_false,
              bind_assoc, pure_bind, String.empty_append, bind_pure] using hrun

/-- Content that is rendered where it is printed. -/
theorem streamed (hc : CallsWrite su base call call') (scene : Scene) {name : String}
    (kind : ContentKind) {body : List Stmt} (hbody : Stmt.Every (Stmt.Fit base) body)
    (hwrites : ∀ sink n r, Settled su base n scene r →
      Writes sink Told n (Source.block su call scene r body)
      (Direct.block su call' scene r sink (Plan.ofBlock body))) :
    (rest : List Stmt) → Stmt.Every (Stmt.Fit base) rest → ∀ i, streamSite name rest = some i →
    ∀ sink n r, Settled su base n scene r →
    Writes sink Told n (withContent su call scene r name kind body rest)
      (Direct.block su call' scene r sink
      ((Plan.ofBlock rest).modify i (Plan.streaming kind (Plan.ofBlock body))))
  | [], _, i, hi, _, _, _, _ => by cases hi
  | s :: rest, h, i, hi, sink, n, r, hr => by
    have hrest (m : Identity) (hm : n ≤ m) := hc.block scene rest h.tail sink m r (hr.mono hm)
    rcases streamSite_cons hi with ⟨t, ds, rfl, rfl, hname, hds⟩ | ⟨j, hlet, hname, hj, rfl⟩
    · obtain ⟨chain, hchain, hstreams⟩ := Direct.chain_of_canStream hds
      have hpiecewise : ∀ d ∈ chain, d.1.isPiecewise = true := fun d hd => by
        obtain ⟨hs, k, hk, hname⟩ := hstreams d hd
        exact Filter.isPiecewise_of_streams hs fun hlower =>
          h.head.regular.directives k hk (by rw [← hname, hlower]; rfl)
      have hdirect : Direct.block su call' scene r sink
          ((Plan.ofBlock (.print (.var t name) ds :: rest)).modify 0
            (Plan.streaming kind (Plan.ofBlock body))) = (do
            let chain ← scene.eval su (Direct.chain r [] ds)
            (do
              let entry ← Act.wrap su.futures chain kind sink
              Direct.block su call' scene r entry (Plan.ofBlock body)
              Act.close entry chain.length)
            Direct.block su call' scene r sink (Plan.ofBlock rest)) := by
        rw [Plan.ofBlock, List.modify_zero_cons, Plan.streaming, Direct.block, Direct.plan,
          Direct.opened]
        simp only [bind_assoc, pure_bind]
      rw [hdirect]
      refine .congr (hr.swap_print hc.futures hc.uniform hbody.literals h.tail.literals hname hchain
        hpiecewise kind t) ?_
      refine Writes.eval.kept fun chain' m hchain' hm => ?_
      obtain rfl : chain = chain' := by
        rw [hchain] at hchain'
        cases hchain'
        rfl
      refine (Writes.through (fun sink => hwrites sink m r (hr.mono hm)) su.futures hpiecewise kind
        sink).bind ?_
      rintro out _ _ k ⟨v, hv, rfl⟩ hk
      rw [hv]
      exact (hrest k (Nat.le_trans hm hk)).followed _
    · -- the statement in between comes first
      have hfit := fun t ht => h t (List.mem_append_left _ ht)
      obtain ⟨p, hp, hs⟩ := hc.stmt scene s hlet hfit
      rw [hp, List.modify_succ_cons, Direct.block]
      refine .congr (hr.swap hc.futures hc.uniform hbody.literals hlet (fun t ht =>
        (hfit t ht).literals) hname kind rest) ?_
      refine (hs sink rest n r hr).bind ?_
      rintro _ text r m ⟨rfl, rfl⟩ hm
      have hlater := hc.streamed scene kind hbody hwrites rest h.tail j hj sink m r (hr.mono hm)
      exact hlater.followed text

theorem firstBranch (hc : CallsWrite su base call call') (scene : Scene) :
    (branches : List (Expr × List Stmt)) → (∀ t ∈ Stmt.flattenBranches branches, t.Fit base) →
    ∀ sink n r, Settled su base n scene r → ∀ {otherwise : Run String} {otherwise' : Act Unit},
    (∀ m, n ≤ m → Writes sink Told m otherwise otherwise') →
    Writes sink Told n (Source.firstBranch su call scene r otherwise branches)
      (Direct.firstBranch su call' scene r sink otherwise' (Plan.ofBranches branches))
  | [], _, sink, n, r, _, _, _, ho => by
    rw [Source.firstBranch, Plan.ofBranches, Direct.firstBranch]
    exact ho n (Nat.le_refl n)
  | (c, body) :: rest, h, sink, n, r, hr, _, _, ho => by
    rw [Source.firstBranch, Plan.ofBranches, Direct.firstBranch]
    refine Writes.eval.kept fun b m _ hm => ?_
    cases b with
    | true =>
      exact hc.block scene body (fun t ht => h t (List.mem_append_left _ ht)) sink m r (hr.mono hm)
    | false =>
      refine hc.firstBranch scene rest (fun t ht => h t (List.mem_append_right _ ht)) sink m r
        (hr.mono hm) ?_
      exact fun k hk => ho k (Nat.le_trans hm hk)

theorem firstCase (hc : CallsWrite su base call call') (scene : Scene) :
    (cases : List (List Expr × List Stmt)) → (∀ t ∈ Stmt.flattenCases cases, t.Fit base) →
    ∀ sink n r v, Settled su base n scene r → ∀ {otherwise : Run String} {otherwise' : Act Unit},
    (∀ m, n ≤ m → Writes sink Told m otherwise otherwise') →
    Writes sink Told n (Source.firstCase su call scene r v otherwise cases)
      (Direct.firstCase su call' scene r sink v otherwise' (Plan.ofCases cases))
  | [], _, sink, n, r, v, _, _, _, ho => by
    rw [Source.firstCase, Plan.ofCases, Direct.firstCase]
    exact ho n (Nat.le_refl n)
  | (values, body) :: rest, h, sink, n, r, v, hr, _, _, ho => by
    rw [Source.firstCase, Plan.ofCases, Direct.firstCase]
    refine Writes.eval.kept fun b m _ hm => ?_
    cases b with
    | true =>
      exact hc.block scene body (fun t ht => h t (List.mem_append_left _ ht)) sink m r (hr.mono hm)
    | false =>
      refine hc.firstCase scene rest (fun t ht => h t (List.mem_append_right _ ht)) sink m r v
        (hr.mono hm) ?_
      exact fun k hk => ho k (Nat.le_trans hm hk)

theorem optional (hc : CallsWrite su base call call') (scene : Scene) :
    (default : Option (List Stmt)) → (∀ t ∈ Stmt.flattenOption default, t.Fit base) → ∀ sink n r,
    Settled su base n scene r → Writes sink Told n (Source.optional su call scene r default)
        (Direct.optional su call' scene r sink (Plan.ofDefault default))
  | none, _, sink, n, r, _ => by
    rw [Source.optional, Plan.ofDefault, Direct.optional]
    exact .pure rfl
  | some body, h, sink, n, r, hr => by
    rw [Source.optional, Plan.ofDefault, Direct.optional]
    exact hc.block scene body h sink n r hr

theorem contents (hc : CallsWrite su base call call') (scene : Scene) :
    (params : List (CallParam (List Stmt))) → (∀ t ∈ Stmt.flattenParams params, t.Fit base) →
    ∀ sink n r, Settled su base n scene r →
    Writes sink (Kept fun contents _ => ∀ N : Renumbering,
      contents.map (Option.map N.value) = contents) n (Source.contents su call scene r params)
      (Direct.contents su call' scene r (Plan.ofParams params))
  | [], _, sink, n, r, _ => by
    rw [Source.contents, Plan.ofParams, Direct.contents]
    exact .pure ⟨rfl, rfl, fun _ => rfl⟩
  | .value .. :: rest, h, sink, n, r, hr => by
    rw [Source.contents, Plan.ofParams, Direct.contents]
    refine (hc.contents scene rest h sink n r hr).kept fun later m hlater _ => ?_
    exact .pure ⟨rfl, rfl, fun N => by rw [List.map_cons, hlater N, Option.map_none]⟩
  | .content _ kind body :: rest, h, sink, n, r, hr => by
    rw [Source.contents, Plan.ofParams, Direct.contents]
    refine Writes.kept (.collect fun sink =>
      hc.block scene body (fun t ht => h t (List.mem_append_left _ ht)) sink n r hr)
      fun s m _ hm => ?_
    refine (hc.contents scene rest (fun t ht => h t (List.mem_append_right _ ht)) sink m r
      (hr.mono hm)).kept
      fun later k hlater _ => ?_
    refine .pure ⟨rfl, rfl, fun N => ?_⟩
    rw [List.map_cons, hlater N, Option.map_some, Renumbering.value, Value.renumber_ofContent]

end

end CallsWrite

end

/-! ## Templates -/

section

variable {su : Setup} {base n m : Identity} {sink : Sink}
  {params injected data : List (String × Value)}

theorem Fixed.mono (h : Fixed su n data) (hle : n ≤ m) : Fixed su m data := fun N hN =>
    h N (hN.mono hle)

theorem Fixed.nil : Fixed su n [] := fun _ _ => rfl

theorem Fixed.cons {name : String} {v : Value}
    (hv : ∀ N : Renumbering, N.Keeps su.futures n → N.value v = v) (h : Fixed su n data) :
    Fixed su n ((name, v) :: data) := fun N hN => by
  rw [Renumbering.data, List.map_cons, show List.map _ data = data from h N hN, Value.renumberField,
    show Value.renumber _ v = v from hv N hN]

/-- A template starts with no locals. -/
theorem Settled.start (template : String) (hn : base ≤ n) (hparams : Fixed su n params)
    (hinjected : Fixed su n injected) (hdata : Fixed su n data) :
    Settled su base n { template, params, injected, data } .none where
  base_le := hn
  scene N hN := by rw [Renumbering.scene, hparams N hN, hinjected N hN, hdata N hN]
  names _ hN := .none (hN.mono hn)

theorem absent_default {template : String} {p : Param} {e : Expr} (hrequired : ¬p.required = true)
    (he : p.default = some e) (w : World) :
    Direct.absent su.futures template p { params, injected, context := su.context } w =
      match Direct.Scene.eval su { template, params, injected, data := [] } (e.eval .none []) w with
      | .ok v w => .ok v w
      | .error (.failed e) w => .error (.failed (e.within template)) w
      | .error _ w => .error (.failed ((ParamDecl.pendingDefault p.name).within template)) w := by
  rw [Direct.absent, if_neg hrequired, he]
  rfl

theorem absent_writes (template : String) {p : Param} (hp : ∀ e ∈ p.default, e.MadeBefore base)
    (hn : base ≤ n) (hparams : Fixed su n params) (hinjected : Fixed su n injected) :
    Writes sink (Kept fun v m => ∀ N : Renumbering, N.Keeps su.futures m → N.value v = v) n
      (absent su.futures template p { params, injected, context := su.context })
      (Direct.absent su.futures template p { params, injected, context := su.context }) := by
  by_cases hrequired : p.required = true
  · rw [absent, Direct.absent, if_pos hrequired, if_pos hrequired]
    exact .stop _ _
  · cases hdefault : p.default with
    | none =>
      rw [absent, Direct.absent, if_neg hrequired, if_neg hrequired, hdefault]
      exact .pure ⟨rfl, rfl, fun _ _ => rfl⟩
    | some e =>
      let scene : Scene := { template, params, injected, data := [] }
      have hr : Settled su base n scene .none := .start template hn hparams hinjected .nil
      have heval : Writes sink (Kept fun v m => ∀ N : Renumbering, N.Keeps su.futures m →
          N.value v = v) n (eval su scene (e.eval .none [])) (scene.eval su (e.eval .none [])) := by
        refine Writes.eval.weaken fun v t u m h _ => ⟨h.1, h.2.1, ?_⟩
        exact (hr.eval_ok (f := fun N => N.value)
          (fun N hN own => (hr.names N hN).eval e (hp e hdefault) []) h.2.2).2
      have habsent : absent su.futures template p { params, injected, context := su.context } =
          eval su scene (e.eval .none []) := by
        rw [absent, if_neg hrequired, hdefault]
        rfl
      intro w hw hready
      have heval := heval w hw hready
      rw [habsent, absent_default hrequired hdefault]
      generalize eval su scene (e.eval .none []) n = x at heval
      generalize scene.eval su (e.eval .none []) w = y at heval
      cases heval with
      | ok hR hn hs => exact .ok hR hn hs
      | error e e' w' => cases e' <;> exact .error ..

theorem bindParams_writes (template : String) (ps : List Param)
    (hps : ∀ p ∈ ps, ∀ e ∈ p.default, e.MadeBefore base) (hn : base ≤ n)
    (hparams : Fixed su n params) (hinjected : Fixed su n injected) :
    Writes sink (Kept fun bound m => Fixed su m bound.1 ∧ Fixed su m bound.2) n
      (bindParams su template params injected ps)
      (Direct.bindParams su template params injected ps) := by
  induction ps generalizing n params injected with
  | nil => exact .pure ⟨rfl, rfl, hparams, hinjected⟩
  | cons p rest ih =>
    obtain ⟨hp, hrest⟩ := List.forall_mem_cons.1 hps
    unfold bindParams Direct.bindParams
    cases (if p.injected then injected else params).lookup p.name with
    | some _ => exact ih hrest hn hparams hinjected
    | none =>
      refine (absent_writes template hp hn hparams hinjected).kept fun v m hv hm => ?_
      have hparams := hparams.mono hm
      have hinjected := hinjected.mono hm
      split
      · exact ih hrest (Nat.le_trans hn hm) hparams (hinjected.cons hv)
      · exact ih hrest (Nat.le_trans hn hm) (hparams.cons hv) hinjected

theorem Writes.within {x : Run String} {y : Act Unit} (h : Writes sink Told n x y)
    (template : String) (out : Sink) :
    Writes sink Told n x (Act.within template out y) := by
  intro w hw hready
  have h := h w hw hready
  unfold Act.within
  generalize x n = p at h
  generalize y w = q at h
  cases h with
  | ok hR hn hs => exact .ok hR hn hs
  | error e e' w' =>
    cases e' with
    | waiting id =>
      simp only
      cases w'.streams.flush out with
      | mk result streams => cases result <;> exact .error ..
    | _ => exact .error ..

theorem start_writes {run : Template → Scene → Run String}
    {run' : Template → Scene → Sink → Act Unit} {t : Template} (ht : t.MadeBefore base)
    (hrun : ∀ n scene, Settled su base n scene .none →
      ∀ sink, Writes sink Told n (run t scene) (run' t scene sink)) (hn : base ≤ n)
    (hparams : Fixed su n params) (hinjected : Fixed su n injected) (sink : Sink) :
    Writes sink Told n (start su run t params injected)
      (Direct.start su run' t params injected sink) := by
  refine (bindParams_writes t.name t.params ht.defaults hn hparams hinjected).kept
    fun bound m hbound hm => ?_
  exact hrun m _ (.start t.name (Nat.le_trans hn hm) hbound.1 hbound.2 (hparams.mono hm)) sink

/-- Calls write what templates come to, however deep they are. -/
theorem run_writes (hf : su.futures.MadeBefore base)
    (hts : ∀ t ∈ su.templates.all, t.MadeBefore base)
    (hregular : ∀ t ∈ su.templates.all, Stmt.Every Stmt.Regular t.body) (depth : Nat) :
    CallsWrite su base (start su (run su depth)) (Direct.start su (Direct.run su depth)) := by
  induction depth with
  | zero =>
    refine ⟨hf, run_uniform hts 0, fun t ht n params injected hn hparams hinjected sink => ?_⟩
    exact start_writes (hts t ht) (fun _ _ _ _ => .stop _ _) hn hparams hinjected sink
  | succ depth ih =>
    refine ⟨hf, run_uniform hts _, fun t ht n params injected hn hparams hinjected sink => ?_⟩
    refine start_writes (hts t ht) (fun n scene hr sink => ?_) hn hparams hinjected sink
    refine Writes.within (ih.block scene t.body (fun s hs => ?_) sink n .none hr) t.name sink
    exact ⟨hregular t ht s hs, (hts t ht).body s hs⟩

end

end Source

/-! ## Renders -/

/-- The outlet takes all texts, one after another. -/
theorem Streams.appendAll_root {s : Streams} (h : s.outlet.Sturdy) (texts : List String) :
    (s.appendAll .root texts).1 = .ok () ∧
      (s.appendAll .root texts).2.outlet.output = s.outlet.output ++ String.join texts := by
  induction texts generalizing s with
  | nil => exact ⟨rfl, by rw [appendAll, String.join_nil, String.append_empty]⟩
  | cons text rest ih =>
    obtain ⟨hok, hsturdy, hout⟩ := Outlet.append_sturdy h text
    have hfirst : s.append .root text = (.ok (), { s with outlet := (s.outlet.append text).2 }) :=
      Prod.ext hok rfl
    rw [appendAll, hfirst]
    obtain ⟨hrest, hlater⟩ := ih (s := { s with outlet := (s.outlet.append text).2 }) hsturdy
    refine ⟨hrest, hlater.trans ?_⟩
    rw [hout, String.join_cons, String.append_assoc]

theorem Streams.Received.root {s t : Streams} {text : String} (h : s.Received .root text t)
    (hs : s.outlet.Sturdy) :
    t.outlet.output = s.outlet.output ++ text := by
  obtain ⟨pieces, rfl, hagree⟩ := h.pieces
  have houtlet : t.outlet = (s.appendAll .root pieces).2.outlet := hagree.outlet
  rw [houtlet, (appendAll_root hs pieces).2]

namespace Source

theorem Writes.box {sink : Sink} {n : Identity} {α : Type} {Q : Identity → α → Prop} {x : Boxing α}
    (hx : Boxing.Makes Q n x) :
    Writes sink (Kept fun a m => Q m a) n (Run.box x) (Act.box x) := by
  rintro w rfl _
  unfold Run.box Act.box
  cases hbox : x w.fresh with
  | error e => exact .error ..
  | ok r =>
    obtain ⟨hle, hQ⟩ := hx r.1 r.2 hbox
    exact .ok (w := { w with fresh := r.2 }) ⟨rfl, rfl, hQ⟩ hle (.nothing sink _)

/-- A direct run writes to the outlet what the template comes to. -/
theorem resume_writes {su : Setup} {fresh : Identity} (hf : su.futures.MadeBefore fresh)
    (hts : ∀ t ∈ su.templates.all, t.MadeBefore fresh)
    (hregular : ∀ t ∈ su.templates.all, Stmt.Every Stmt.Regular t.body) (depth : Nat)
    (name : String) {params injected : List (String × Datum)}
    (hparams : ∀ d ∈ params, d.2.MadeBefore fresh)
    (hinjected : ∀ d ∈ injected, d.2.MadeBefore fresh) :
    Writes .root Told fresh (render su depth name params injected)
      (Direct.resume su depth name params injected) := by
  have hboxed : Boxing.Makes (fun m data => (∀ d ∈ data.1, d.2.MadeBefore m) ∧ ∀ d ∈ data.2,
      d.2.MadeBefore m) fresh (Direct.boxed params injected) :=
    (Datum.boxParams_made params hparams).bind fun ps k hk hps =>
      (Datum.boxParams_made injected fun d hd => (hinjected d hd).mono hk).bind fun js m hm hjs =>
        .pure ⟨fun d hd => (hps d hd).mono hm, hjs⟩
  have hfixed {data : List (String × Value)} {m : Identity} (h : ∀ d ∈ data, d.2.MadeBefore m) :
      Fixed su m data := by
    induction data with
    | nil => exact .nil
    | cons d rest ih =>
      obtain ⟨hd, hrest⟩ := List.forall_mem_cons.1 h
      exact (ih hrest).cons fun N hN => hN.value hd
  unfold render Direct.resume
  refine (Writes.ofExcept _).kept fun t m ht _ => ?_
  obtain ⟨ht, rfl⟩ := ht
  refine (Writes.box hboxed).kept fun data k hdata hle => ?_
  exact (run_writes hf hts hregular depth).call t (Directory.template_mem ht) k _ _ hle
    (hfixed hdata.1) (hfixed hdata.2) .root

/-- What a template comes to on data from outside, with calls as deep as they need to be. -/
def Comes (su : Setup) (name : String) (params injected : List (String × Datum)) (fresh : Identity)
    (out : String) : Prop :=
  ∃ depth n, render su depth name params injected fresh = .ok (out, n)

end Source

/-- A call that has come to an end has ended as the direct run, with as much fuel. -/
theorem Registry.resume_ending {su : Setup} {a : Analyzer} {f : Template → Program} {reg : Registry}
    (hc : su.Compiled a f reg) (name : String) (params injected : List (String × Datum))
    {made : Array Thunk} {s : Store} {w : World} (hs : s.Shows made su.futures.states w)
    {fuel : Nat} (hend : (reg.resume su.context fuel none name params injected s).2.1 ≠
      .exhausted) :
    ∃ t : Store, (reg.resume su.context fuel none name params injected s).2 =
      ((Direct.ending (Direct.resume su fuel name params injected w)).1, t) ∧
      t.Left (Direct.ending (Direct.resume su fuel name params injected w)).2 := by
  have hanswers := resume_answers hc fuel name params injected hs
  generalize Direct.resume su fuel name params injected w = y at hanswers
  by_cases hy : (Direct.ending y).1 = .exhausted
  · exact (hend (hanswers.late hy fuel (Nat.le_refl fuel))).elim
  · obtain ⟨t, ⟨k, hk⟩, hleft⟩ := hanswers.comes hy
    have hsame := (reg.resume_steady su.context name params injected s (Nat.le_max_left fuel k)).eq
      hend
    exact ⟨t, hsame.symm.trans (hk _ (Nat.le_max_right fuel k)), hleft⟩

/-- A call of a render ends with some output if and only if the template comes to this output, as it
is written. -/
theorem Registry.done_iff {a : Analyzer} {ts : List Template} {reg : Registry}
    (hbuild : Registry.build a ts = .ok reg) (hregular : ∀ t ∈ ts, Stmt.Every Stmt.Regular t.body)
    {outlet : Outlet} (hsturdy : outlet.Sturdy) (hunlimited : outlet.Unlimited) (context : Context)
    {futures : Futures} {fresh : Identity} (hts : ∀ t ∈ ts, t.MadeBefore fresh)
    (hfutures : futures.MadeBefore fresh) (name : String) {params injected : List (String × Datum)}
    (hparams : ∀ d ∈ params, d.2.MadeBefore fresh)
    (hinjected : ∀ d ∈ injected, d.2.MadeBefore fresh) (out : String) :
    (∃ fuel, (reg.resume context fuel none name params injected (.new outlet futures fresh)).2.1 =
      .done ∧ (reg.resume context fuel none name params injected
        (.new outlet futures fresh)).2.2.output = outlet.output ++ out) ↔
      Source.Comes ⟨Directory.ofTemplates ts, futures, context⟩ name params injected fresh out := by
  let su : Setup := ⟨Directory.ofTemplates ts, futures, context⟩
  let w : World := { fresh, streams := { outlet }, log := [] }
  have hshows : (Store.new outlet futures fresh).Shows #[] su.futures.states w :=
    ⟨fun _ _ hg => by simp at hg, ⟨rfl, fun _ _ _ hg => by
      cases hg⟩, rfl, rfl, rfl, rfl, hunlimited⟩
  have hready : w.streams.Ready .root :=
    ⟨trivial, fun texts => (Streams.appendAll_root hsturdy texts).1⟩
  obtain ⟨f, hc⟩ := build_compiled hbuild futures context
  have hwrites (depth : Nat) : Source.Wrote .root w.streams fresh Source.Told
      (Source.render su depth name params injected fresh)
          (Direct.resume su depth name params injected w) :=
    Source.resume_writes hfutures hts hregular depth name hparams hinjected w rfl hready
  have houtput {t : Store} {w' : World} {text : String} (hleft : t.Left w')
    (hs : w.streams.Received .root text w'.streams) :
      t.output = outlet.output ++ text := by
    unfold Store.output
    rw [hleft.streams]
    exact hs.root hsturdy
  constructor
  · rintro ⟨fuel, hdone, hout⟩
    have hend : (reg.resume context fuel none name params injected
        (.new outlet futures fresh)).2.1 ≠ .exhausted := by
      rw [hdone]
      nofun
    obtain ⟨t, hresult, hleft⟩ := resume_ending hc name params injected hshows hend
    rw [hresult] at hdone hout
    have hwrites := hwrites fuel
    generalize hrun : Source.render su fuel name params injected fresh = p at hwrites
    generalize Direct.resume su fuel name params injected w = y at hwrites hdone hleft
    cases hwrites with
    | error e e' w' => cases e' <;> cases hdone
    | @ok told text _ w' htold _ hs =>
      have htext : out = text := String.append_right_inj outlet.output
        |>.1 (hout.symm.trans (houtput hleft hs))
      exact ⟨fuel, w'.fresh, by rw [htext, ← htold]; exact hrun⟩
  · rintro ⟨depth, n, hrun⟩
    have hanswers := resume_answers hc depth name params injected hshows
    have hwrites := hwrites depth
    rw [hrun] at hwrites
    generalize Direct.resume su depth name params injected w = y at hwrites hanswers
    cases hwrites with
    | @ok _ text _ w' htold _ hs =>
      obtain ⟨t, ⟨fuel, hcomes⟩, hleft⟩ := hanswers.comes nofun
      refine ⟨fuel, ?_⟩
      have hresult := hcomes fuel (Nat.le_refl fuel)
      simp only at hresult
      rw [hresult]
      exact ⟨rfl, (houtput hleft hs).trans (by rw [htold])⟩

/-- Compilation keeps what templates mean. Take a registry that was built, with any analyzer, from
templates that were loaded, where no directive lowers letters and no loop reads its variable in the
block for no items, and an outlet that refuses nothing and never asks for a pause. Then a render of
a template comes to its end, with some output, if and only if the template comes to this output as
it is written. Numbers from `fresh` on are in nothing that was there before the render. The texts
are made of whole characters: on half a character, which no chunk of text has here, a directive that
works on each chunk by itself would differ from one that sees the whole text. -/
theorem Bundle.done_iff_comes {files : FileTree} {paths : List String} {start made : Identity}
    {ts : List Template} (hload : Bundle.loadAll files paths start = .ok (ts, made)) {a : Analyzer}
    {reg : Registry} (hbuild : Registry.build a ts = .ok reg)
    (hregular : ∀ t ∈ ts, Stmt.Every Stmt.Regular t.body) {outlet : Outlet}
    (hsturdy : outlet.Sturdy) (hunlimited : outlet.Unlimited) (context : Context)
    {futures : Futures} {fresh : Identity} (hmade : made ≤ fresh)
    (hfutures : futures.MadeBefore fresh) (name : String) {params injected : List (String × Datum)}
    (hparams : ∀ d ∈ params, d.2.MadeBefore fresh)
    (hinjected : ∀ d ∈ injected, d.2.MadeBefore fresh) (out : String) :
    (∃ fuel, (reg.resume context fuel none name params injected (.new outlet futures fresh)).2.1 =
      .done ∧ (reg.resume context fuel none name params injected
        (.new outlet futures fresh)).2.2.output = outlet.output ++ out) ↔
      Source.Comes ⟨Directory.ofTemplates ts, futures, context⟩ name params injected fresh out := by
  obtain ⟨-, hts⟩ := loadAll_made files paths ts made hload
  exact reg.done_iff hbuild hregular hsturdy hunlimited context (fun t ht => (hts t ht).mono hmade)
    hfutures name hparams hinjected out

namespace Sample

/-- A bundle with a template that calls another, through a directive, once for every count. -/
def rollFiles : FileTree := .directory [("roll.yaml", .file
  ("templates: [\x7bname: roll, params: [\x7bname: who\x7d], body: [" ++
    "\x7blet: m, value: \x7bop: +, args: [\x7bparam: who\x7d, '.']\x7d\x7d, " ++
    "\x7bfor: i, range: [4], body: [\x7bcall: line, directives: [upper], " ++
    "params: [\x7bname: k, value: \x7bvar: m\x7d\x7d]\x7d]\x7d]\x7d, " ++
    "\x7bname: line, params: [\x7bname: k\x7d], body: [\x7bprint: \x7bparam: k\x7d\x7d]\x7d]"))]

/-- The templates of that bundle. -/
def rollTemplates : List Template :=
  [⟨"roll", .html, "roll.yaml", [⟨"who", .any, true, false, none⟩], none,
    [.letValue "m" (.binary .string .add (.param .any "who" false) (.lit .string (.str "."))),
      .forRange "i" none (.lit .int (.int 4)) none
        [.call "line" .template .none [.value "k" (.var .string "m")] [⟨"upper", []⟩]]]⟩,
    ⟨"line", .html, "roll.yaml", [⟨"k", .any, true, false, none⟩], none,
      [.print (.param .any "k" false) []]⟩]

/-- Whether these templates and nothing else were loaded. -/
def isRoll : Except Failure (List Template × Identity) → Bool
  | .ok ([⟨"roll", .html, "roll.yaml", [⟨"who", .mk .any false [], true, false, none⟩], none,
      [.letValue "m" (.binary (.mk .string false []) .add (.param (.mk .any false []) "who" false)
          (.lit (.mk .string false []) (.str ".") _)),
        .forRange "i" none (.lit (.mk .int false []) (.int 4) _) none
          [.call "line" .template .none [.value "k" (.var (.mk .string false []) "m")]
            [⟨"upper", []⟩]]]⟩,
      ⟨"line", .html, "roll.yaml", [⟨"k", .mk .any false [], true, false, none⟩], none,
        [.print (.param (.mk .any false []) "k" false) []]⟩], 0) => true
  | _ => false

theorem eq_of_isRoll {loaded : Except Failure (List Template × Identity)}
    (h : isRoll loaded = true) : loaded = .ok (rollTemplates, 0) := by
  unfold isRoll at h
  split at h
  · rfl
  · cases h

theorem roll_loaded : Bundle.loadAll rollFiles ["roll.yaml"] 0 = .ok (rollTemplates, 0) :=
  eq_of_isRoll (by decide +kernel)

/-- The registry of these templates. -/
def rolls : Registry := (Registry.build .conservative rollTemplates).toOption.getD ⟨[]⟩

theorem rolls_built : Registry.build .conservative rollTemplates = .ok rolls :=
  Registry.build_getD (by decide +kernel)

/-- The roll comes to what its render puts out: the name, in capital letters, at every count. -/
theorem roll_comes : Source.Comes ⟨Directory.ofTemplates rollTemplates, {}, {}⟩ "roll"
    [("who", .str "you")] [] 0 "YOU.YOU.YOU.YOU." := by
  have hregular : ∀ t ∈ rollTemplates, Stmt.Every Stmt.Regular t.body := by decide
  have hfutures : Futures.MadeBefore 0 {} := nofun
  have hwho : Datum.MadeBefore 0 (.str "you") := nofun
  have hparams : ∀ d ∈ [("who", Datum.str "you")], d.2.MadeBefore 0 :=
    List.forall_mem_singleton.2 hwho
  have hinjected : ∀ d ∈ ([] : List (String × Datum)), d.2.MadeBefore 0 := nofun
  have hsturdy : Outlet.collecting.Sturdy := trivial
  have hunlimited : Outlet.collecting.Unlimited := ⟨rfl, fun _ hw => by cases hw⟩
  refine (Bundle.done_iff_comes roll_loaded rolls_built hregular hsturdy hunlimited {}
    (Nat.le_refl 0) hfutures "roll" hparams hinjected "YOU.YOU.YOU.YOU.").1 ⟨32, ?_, ?_⟩
  · decide +kernel
  · cbv

end Sample

end Interlude
