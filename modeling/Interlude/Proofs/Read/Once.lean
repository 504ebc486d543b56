import Mathlib
import Interlude.Proofs.Eval.Paired
import Interlude.Proofs.Read.Access
import Interlude.Proofs.Read.Term
/-!
# Completed reads are not repeated

An expression that may wait is evaluated again and again on the same cells, while futures are
completed. Over all of these evaluations no node of its code asks a future twice, nor does any in
the code of the deferred values it needs, and what was passed over once is never read. Every
evaluation that comes to an end comes to that of a single evaluation with the futures completed
before (`Expr.reads_once`).
-/

namespace Interlude

/-! ## A history of evaluations -/

/-- What happens to an expression that is waited for. -/
inductive Turn where
  | eval
  | complete (id : FutureId) (v : Value)

/-- A future that is pending completes. -/
def Memory.complete (m : Memory) (id : FutureId) (v : Value) : Memory :=
  { m with heap := { m.heap with futures := (m.heap.futures.settle id (.complete v)).2 } }

/-- What an evaluation comes to. -/
def Eval.result {α : Type} : EStateM.Result Stop Memory α → Except Stop α
  | .ok a _ => .ok a
  | .error e _ => .error e

theorem Eval.left_ending {α : Type} (r : Except Stop α) (m : Memory) : left (ending r m) = m := by
  cases r <;> rfl

theorem Eval.result_ending {α : Type} (r : Except Stop α) (m : Memory) :
    result (ending r m) = r := by
  cases r <;> rfl

/-- An evaluation: the futures it found and what it came to. -/
structure Attempt where
  futures : Futures
  result : Except Stop Value

/-- Evaluations on the same cells, what they visited one after the other, and the memory they
leave. -/
structure History where
  attempts : List Attempt
  visits : List Visit
  memory : Memory

/-- The history of an expression that is evaluated at some turns, while futures complete at
others. -/
def Compiled.retry (c : Compiled) (place : List Nat) (env : Env) : List Turn → Memory → History
  | [], m => ⟨[], [], m⟩
  | .complete id v :: turns, m => c.retry place env turns (m.complete id v)
  | .eval :: turns, m =>
    let r := c.value .usual place env m
    let later := c.retry place env turns (Eval.left r)
    { attempts := ⟨m.heap.futures, Eval.result r⟩ :: later.attempts
      visits := c.visits place env m ++ later.visits
      memory := later.memory }

/-! ## Futures complete -/

namespace Futures

theorem Shallow.settle {fs : Futures} (h : fs.Shallow) (id : FutureId) {v : Value}
    (hv : ∀ j, v ≠ .future j) :
    (fs.settle id (.complete v)).2.Shallow := by
  unfold Futures.settle
  split
  · refine ⟨by simpa using h.counted, fun other => ?_⟩
    unfold get
    rw [Array.getElem?_setIfInBounds]
    split
    · split
      · exact .inr ⟨v, rfl, hv⟩
      · exact .inl rfl
    · exact h.settled other
  · exact h

theorem readsOf_settle (fs : Futures) (id : FutureId) (state : Future) (other : FutureId) :
    (fs.settle id state).2.readsOf other = fs.readsOf other := by
  unfold settle
  split <;> rfl

theorem Shallow.not_endless {fs : Futures} (h : fs.Shallow) : ¬fs.Endless := by
  rintro ⟨v, hv⟩
  rcases h.read v with ⟨_, hr⟩ | ⟨_, _, hr⟩ | ⟨_, _, _, hr, _⟩ <;> rw [hr] at hv <;> cases hv

end Futures

section

variable {g : Guard} {reach : ThunkId → Prop} {ways : Ways} {visits : List Visit} {m : Memory}

/-- The code around does nothing with the result of an evaluation. -/
theorem Account.finish {α : Type} {r : EStateM.Result Stop Memory α}
    (h : Account g reach false ways visits m r) :
    Account g reach false ways visits m (.ok () (Eval.left r) : EStateM.Result Stop Memory Unit) :=
  { h with done := fun v hv => .inl <| (h.done v hv).resolve_right fun h => Bool.noConfusion h.1 }

theorem Account.complete (hm : m.Ready g) (id : FutureId) {v : Value} (hv : ∀ j, v ≠ .future j) :
    Account g reach false ways [] m (.ok () (m.complete id v) : EStateM.Result Stop Memory Unit)
      where
  retains := .of_heap (.refl _) rfl
  ready := hm.retains (.of_heap (.refl _) rfl) (hm.futures.settle id hv)
  reach _ hv := by cases hv
  agree := .nil
  due _ hv := by cases hv
  done _ hv := by cases hv
  counts other := m.heap.futures.readsOf_settle id (.complete v) other

end

/-! ## Histories -/

namespace Compiled

variable {c : Compiled} {g : Guard} {turns : List Turn} {m : Memory}

/-- The visits of a whole history account for it. -/
theorem account_retry (hc : c.root.toBoxed.Shielded g.see g.size false)
    (hturns : ∀ id v, .complete id v ∈ turns → ∀ j, v ≠ .future j) (hm : m.Ready g)
    (place : List Nat) (env : Env) :
    Account g (fun _ => True) false c.root.toBoxed.ways (c.retry place env turns m).visits m
      (.ok () (c.retry place env turns m).memory : EStateM.Result Stop Memory Unit) := by
  have he := c.root.toBoxed.ways_extend
  induction turns generalizing m with
  | nil => exact .nothing hm rfl rfl rfl
  | cons turn turns ih =>
    have hlater := fun id v h => hturns id v (List.mem_cons_of_mem _ h)
    cases turn with
    | eval =>
      have hfirst := (accounts hc place env m hm).finish
      exact hfirst.append he (ih hlater hfirst.ready)
    | complete id v =>
      have hfirst : Account g (fun _ => True) false c.root.toBoxed.ways [] m _ :=
        .complete hm id (hturns id v List.mem_cons_self)
      exact hfirst.append he (ih hlater hfirst.ready)

/-- An evaluation stops for a reason only. -/
theorem value_leaves (c : Compiled) (place : List Nat) (env : Env) (m : Memory) :
    Eval.Leaves (fun _ => True) m (c.value .usual place env m) := by
  have hcong : Congruence (Eval.Tame (fun _ => True) (fun _ => False) env) (fun _ => True)
      (fun _ _ _ => True) .usual .usual := Eval.Tame.usual _ _ _ fun _ _ _ _ => trivial
  exact hcong.value (c.root.touches_everywhere place) m fun _ h => h.elim

/-- An evaluation settles no future, and memory that is blurred stays so. -/
theorem value_later (c : Compiled) (place : List Nat) (env : Env) (m : Memory) :
    m.heap.Later (Eval.left (c.value .usual place env m)).heap := by
  have hleaves := c.value_leaves place env m
  cases hr : c.value .usual place env m with
  | ok v m' =>
    rw [hr] at hleaves
    exact hleaves.heap
  | error e m' =>
    rw [hr] at hleaves
    exact hleaves.2.heap

/-- A history asks where the code reads. -/
theorem retry_within {codes : ThunkId → Compiled → Prop} (hm : m.heap.Codes codes)
    (place : List Nat) (env : Env) :
    ∀ v ∈ (c.retry place env turns m).visits, v.resolves = true →
    v.At codes c.root.toBoxed.accesses := by
  induction turns generalizing m with
  | nil => exact fun v hv => by cases hv
  | cons turn turns ih =>
    cases turn with
    | complete id v => exact ih hm
    | eval =>
      intro v hv hr
      rcases List.mem_append.1 hv with hv | hv
      · exact c.visits_within place env m hm v hv hr
      · exact ih (hm.later (c.value_later place env m)) v hv hr

/-- A history keeps what is settled, and memory that is blurred stays so. -/
theorem retry_later (c : Compiled) (place : List Nat) (env : Env) (turns : List Turn) (m : Memory) :
    m.heap.futures.Ahead (c.retry place env turns m).memory.heap.futures ∧
      ((c.retry place env turns m).memory.blurred = false → m.blurred = false) := by
  induction turns generalizing m with
  | nil => exact ⟨.refl _, id⟩
  | cons turn turns ih =>
    cases turn with
    | eval =>
      have hlater := c.value_later place env m
      obtain ⟨hahead, hclear⟩ := ih (Eval.left (c.value .usual place env m))
      refine ⟨hahead.congr hlater.states.symm rfl, fun hb => ?_⟩
      exact Bool.eq_false_iff.2 fun hm => Bool.eq_false_iff.1 (hclear hb) (hlater.blurred hm)
    | complete id v =>
      obtain ⟨hahead, hclear⟩ := ih (m.complete id v)
      exact ⟨(m.heap.futures.settle_ahead id _).trans hahead, hclear⟩

/-- An evaluation that comes to no end waits for a future that is pending. -/
theorem retry_waits (hc : c.root.toBoxed.Shielded g.see g.size false)
    (hturns : ∀ id v, .complete id v ∈ turns → ∀ j, v ≠ .future j) (hm : m.Ready g)
    (place : List Nat) (env : Env) :
    ∀ a ∈ (c.retry place env turns m).attempts,
      Stop.Settles a.result ∨ ∃ id, a.result = .error (.waiting id) ∧
    a.futures.get id = .pending := by
  induction turns generalizing m with
  | nil => exact fun a ha => by cases ha
  | cons turn turns ih =>
    have hlater := fun id v h => hturns id v (List.mem_cons_of_mem _ h)
    cases turn with
    | complete id v =>
      refine ih hlater (hm.retains (.of_heap (.refl _) rfl) ?_)
      exact hm.futures.settle id (hturns id v List.mem_cons_self)
    | eval =>
      intro a ha
      rcases List.mem_cons.1 ha with rfl | ha
      · have hleaves := c.value_leaves place env m
        simp only
        cases hr : c.value .usual place env m with
        | ok v m' => exact .inl trivial
        | error e m' =>
          rw [hr] at hleaves
          cases e with
          | failed cause => exact .inl trivial
          | waiting id => exact .inr ⟨id, rfl, hleaves.1⟩
          | exhausted => exact (hm.futures.not_endless hleaves.1).elim
          | broken => exact hleaves.1.elim
      · exact ih hlater (accounts hc place env m hm).ready a ha

/-- An evaluation of a history that comes to an end comes to the same end as one in another memory
whose futures are settled further. -/
theorem retry_settles {made : Array Thunk} {table : Table} {see : Seeing}
    {keep : Keeping} {k : Memory} {place : List Nat} {env : Env}
    (hcode : c.Touches see keep place) (hs : ∀ i, see i → table i = none)
    (hk : ∀ p i x, keep p i x → table i = some (p, x)) (h : Paired made table see env m k)
    (hclear : (c.retry place env turns m).memory.blurred = false)
    (hahead : (c.retry place env turns m).memory.heap.futures.Ahead k.heap.futures) :
    ∀ a ∈ (c.retry place env turns m).attempts, Stop.Settles a.result →
      ∃ k', c.value .usual place env k = Eval.ending a.result k' := by
  induction turns generalizing m with
  | nil => exact fun a ha => by cases ha
  | cons turn turns ih =>
    have hlater := c.retry_later place env (turn :: turns) m
    cases turn with
    | complete id v =>
      have hnext := c.retry_later place env turns (m.complete id v)
      refine ih ?_ hclear hahead
      exact { h with
        ahead := hnext.1.trans hahead
        first := h.first.ahead h.tidy (hlater.2 hclear) (m.heap.futures.settle_ahead id _) }
    | eval =>
      intro a ha hend
      have hoperand : Operand see keep (fun _ => False) fun s => c.value s place :=
        fun {_ _ _} hc _ => hc.value hcode
      obtain ⟨r, m', hx, _, hpaired, hsettled⟩ := h.eval hoperand hs hk
      have hm' : Eval.left (c.value .usual place env m) = m' := by rw [hx, Eval.left_ending]
      have hclear' : (c.retry place env turns m').memory.blurred =
        false := by rw [← hm']; exact hclear
      rcases List.mem_cons.1 ha with rfl | ha
      · have hr : Eval.result (c.value .usual place env m) = r := by rw [hx, Eval.result_ending]
        simp only [hr] at hend ⊢
        obtain ⟨k', hk', _⟩ :=
          hsettled ((c.retry_later place env turns m').2 hclear') (hend.stays _ _)
        exact ⟨k', hk'⟩
      · refine ih hpaired hclear' ?_ a ?_ hend
        · rw [← hm']
          exact hahead
        · rw [← hm']
          exact ha

end Compiled

/-! ## The deferred values of an expression -/

/-- The cells of the locals that an expression reads. -/
def Expr.ReadsCell (s : Expr.Scope) (e : Expr) : Seeing := fun i =>
  ∃ name ∈ e.reads, ∃ b, s.locals.lookup name = some b ∧ b.slot = i

/-- The deferred values that code needs which reads these cells: those in the cells, and those that
are captured by deferred values it needs. -/
inductive Memory.Needs (m : Memory) (see : Seeing) : ThunkId → Prop where
  | read {i : Nat} {id : ThunkId} (hi : see i) (h : m.cells.read i = .thunk id) : Needs m see id
  | captured {id other : ThunkId} {t : Thunk} {i : Nat} (hn : Needs m see id)
      (ht : m.heap.thunks[id]? = some t) (h : t.cells.read i = .thunk other) : Needs m see other

/-- A deferred value as it is made of an expression under the conservative analyzer. -/
def Thunk.Of (e : Expr) (t : Thunk) : Prop :=
  ∃ s code, s.analyzer = .conservative ∧ ThunkCode.compile s e = .ok code ∧ t.code = code.code ∧
    t.cells.size = code.size

/-- The code of a deferred value reads where the expression does that it was made of. -/
def Thunk.MadeAs (made : Array Thunk) (id : ThunkId) (code : Compiled) : Prop :=
  ∃ t d, made[id]? = some t ∧ t.Of d ∧ t.code = code ∧ code.ReadsAs d

/-- Memory in which an expression is about to be evaluated at first. Its memo cells, which begin
behind the slots that were taken before, are empty. Deferred values are as they were `made`, or as
attempts to evaluate them have left them, and those that the expression needs call no `join`.
Futures are pending or have completed with values that are no futures. -/
structure Expr.Ready (s : Expr.Scope) (slots slots' : Slots) (e : Expr) (made : Array Thunk)
    (m : Memory) : Prop where
  size : slots'.size ≤ m.cells.size
  memos : ∀ i, slots.mark ≤ i → i < slots'.mark → ∀ v, m.cells.read i ≠ .value v
  locals : ∀ i id, i < slots.mark → m.cells.read i = .thunk id → id < made.size
  lets : ∀ (id : ThunkId) (t : Thunk), made[id]? = some t →
    ∃ d, t.Of d ∧ (m.Needs (e.ReadsCell s) id → ¬d.Calls "join")
  sound : m.heap.Sound made
  later : ∀ (id : ThunkId) (t u : Thunk), made[id]? = some t →
    m.heap.thunks[id]? = some u → t.Later u
  futures : m.heap.futures.Shallow

namespace Expr.Ready

variable {s : Expr.Scope} {slots slots' : Slots} {e : Expr} {made : Array Thunk} {m : Memory}

theorem tidy (h : e.Ready s slots slots' made m) : Thunk.AllTidy made := by
  intro id t ht
  obtain ⟨d, ⟨s', code, _, hcode, htcode, _⟩, _⟩ := h.lets id t ht
  rw [htcode]
  exact (ThunkCode.compile_fits (seen_everywhere s'.locals) hcode).tidy

/-- Deferred values are as they were made. -/
theorem made_of (h : e.Ready s slots slots' made m) {id : ThunkId} {u : Thunk}
    (hu : m.heap.thunks[id]? = some u) :
    ∃ t d, made[id]? = some t ∧ t.Of d ∧ t.Later u ∧
    (m.Needs (e.ReadsCell s) id → ¬d.Calls "join") := by
  have hlt : id < made.size := by
    rw [← h.sound.size]
    exact (Array.getElem?_eq_some_iff.1 hu).1
  have hmade := Array.getElem?_eq_getElem hlt
  obtain ⟨d, hof, hj⟩ := h.lets id _ hmade
  exact ⟨_, d, hmade, hof, h.later id _ u hmade hu, hj⟩

theorem guarded (h : e.Ready s slots slots' made m) :
    m.Ready ⟨slots'.size, e.ReadsCell s, m.Needs (e.ReadsCell s)⟩ where
  size := h.size
  locals _ _ hi hid := .read hi hid
  thunks id u hneeds hu hn := by
    refine ⟨?_, fun i j hj => .captured hneeds hu hj⟩
    obtain ⟨t, d, _, ⟨s', code, ha, hcode, htcode, hsize⟩, hlater, hj⟩ := h.made_of hu
    rw [hlater.code, htcode, (hlater.pending hn).2, hsize]
    exact ThunkCode.compile_shielded ha (hj hneeds) hcode
  futures := h.futures

theorem codes (h : e.Ready s slots slots' made m) : m.heap.Codes (Thunk.MadeAs made) := by
  intro id u hu
  obtain ⟨t, d, hmade, hof, hlater, _⟩ := h.made_of hu
  refine ⟨t, d, hmade, hof, hlater.code.symm, ?_⟩
  obtain ⟨s', code, _, hcode, htcode, _⟩ := hof
  rw [hlater.code, htcode]
  exact ThunkCode.compile_reads hcode

end Expr.Ready

/-- Completed reads are not repeated. Under the conservative analyzer an expression is evaluated any
number of times on the same cells, while futures complete with values that are no futures; neither
it nor the deferred values it needs call `join`. Futures are asked at nodes of the code that stand
for reads of the expression, or of the expressions that deferred values were made of, each for one.
No node asks twice, and these are all the requests there are. No operand is read that was or will be
passed over. Each evaluation comes to an end or waits for a future that is pending, and if no text
was taken of a value that holds a future, each that comes to an end comes to that of a single
evaluation with these and perhaps more futures completed before. -/
theorem Expr.reads_once {s : Expr.Scope} (ha : s.analyzer = .conservative) {e : Expr}
    (hj : ¬e.Calls "join") {slots slots' : Slots} (hw : slots.Wf)
    (hs : s.locals.Seen (· < slots.mark)) {c : Compiled} (hc : e.compile s slots = .ok (c, slots'))
    {made : Array Thunk} {m : Memory} (hm : e.Ready s slots slots' made m) {turns : List Turn}
    (hturns : ∀ id v, .complete id v ∈ turns → ∀ j, v ≠ .future j) (place : List Nat) (env : Env) :
    let h := c.retry place env turns m
    (c.ReadsAs e ∧ ∀ v ∈ h.visits, v.resolves = true →
      v.At (Thunk.MadeAs made) c.root.toBoxed.accesses) ∧
    ((h.visits.filter (·.resolves)).map (·.site)).Nodup ∧
    (∀ id, h.memory.heap.futures.readsOf id = m.heap.futures.readsOf id +
      h.visits.countP (·.kind = .resolved id)) ∧
    (∀ u ∈ h.visits, ∀ v ∈ h.visits, ¬u.Trespasses v) ∧
    (∀ a ∈ h.attempts, Stop.Settles a.result ∨ ∃ id, a.result = .error (.waiting id) ∧
      a.futures.get id = .pending) ∧
    (h.memory.blurred = false → ∀ fs, h.memory.heap.futures.Ahead fs → ∀ a ∈ h.attempts,
      Stop.Settles a.result →
          ∃ m', c.value .usual place env { m with heap := { m.heap with futures := fs } } =
              Eval.ending a.result m') := by
  have hshield : c.root.toBoxed.Shielded (e.ReadsCell s) slots'.size false :=
    compile_shielded ha hj (fun name hname b hb => ⟨name, hname, b, hb, rfl⟩) hw hc (Nat.le_refl _)
  have haccount := Compiled.account_retry
    (g := ⟨slots'.size, e.ReadsCell s, m.Needs (e.ReadsCell s)⟩) hshield hturns hm.guarded place env
  refine ⟨⟨compile_reads hc, Compiled.retry_within hm.codes place env⟩, ?_, haccount.counts, ?_,
    Compiled.retry_waits hshield hturns hm.guarded place env, fun hclear fs hahead => ?_⟩
  · refine List.pairwise_map.2 (List.pairwise_filter.2 (haccount.agree.imp ?_))
    exact fun hagree hu hv => hagree.once hu hv
  · exact (haccount.agree.imp (·.left)).forall_of_forall_of_flip (fun u _ => u.not_trespasses_self)
      (haccount.agree.imp (·.right))
  · obtain ⟨table, htouch, hrange⟩ := compile_table hw hs hc place
    have hlow (i : Nat) (hi : i < slots.mark) : table i = none :=
      Classical.byContradiction fun hne => Nat.not_le.2 hi (hrange i hne).1
    have hclean (i : Nat) (v : Value) (hi : table i ≠ none) : m.cells.read i ≠ .value v :=
      hm.memos i (hrange i hi).1 (hrange i hi).2 v
    have hlater := c.retry_later place env turns m
    have hkeeps : m.Keeps made table env := .of_clean hm.sound hclean env
    have hpaired : Paired made table (· < slots.mark) env m
        { m with heap := { m.heap with futures := fs } } :=
      { tidy := hm.tidy
        ahead := hlater.1.trans hahead
        first := hkeeps
        second := hkeeps.ahead hm.tidy (hlater.2 hclear) (hlater.1.trans hahead)
        cells := fun _ _ => rfl
        thunks := hm.locals }
    exact Compiled.retry_settles htouch hlow (fun _ _ _ h => h) hpaired hclear hahead

/-! ## A sum with a deferred value -/

namespace Sample

/-- The code of a deferred value reads one param, and keeps it in the only cell it has. -/
def partCode : ThunkCode :=
  { code := { type := .int, maySuspend := true, start := 0, width := 1,
              root := .boxed (.memo 0 (.param "part" false)) }
    copies := []
    size := 1
    captured := [] }

/-- One local, whose value is deferred. -/
def lateScope : Expr.Scope :=
    ⟨.conservative, Locals.empty.bind "part" { slot := 0, kind := .thunk }⟩

/-- A sum. What is added to a param is a deferred value or another param. -/
def late : Expr :=
  .binary .int .add (.param .int "count" false)
    (.cond .int (.param .bool "split" false) (.var .int "part") (.param .int "rest" false))

def lateSlots : Slots := Slots.new.extend "part" .thunk 1

def lateCode : Compiled :=
  { type := .int, maySuspend := true, start := 1, width := 6
    root := .boxed (.memo 6 (.boxInt (.arithInt .add (.unboxInt (.memo 1 (.param "count" false)))
      (.unboxInt (.memo 5 (.cond (.truthy (.memo 2 (.param "split" false)))
        (.memo 3 (.local { slot := 0, kind := .thunk })) (.memo 4 (.param "rest" false)))))))) }

/-- All but one param are futures. -/
def lateEnv : Env :=
  { params := [("count", .int 40), ("split", .future 0), ("part", .future 1), ("rest", .future 2)]
    injected := []
    context := {} }

def latePart : Thunk := { code := partCode.code, cells := Cells.cleared 1, env := lateEnv }

/-- No future has completed, and nothing was kept yet. -/
def lateMemory : Memory :=
  { cells := (Cells.cleared 7).write 0 (.thunk 0)
    heap := { futures := { states := #[.pending, .pending, .pending], reads := #[0, 0, 0] },
              thunks := #[latePart] } }

/-- Two of the futures complete between evaluations, and there is one evaluation more than
needed. -/
def lateTurns : List Turn :=
    [.eval, .complete 0 (.bool true), .eval, .complete 1 (.int 2), .eval, .eval]

theorem part_compiled : ThunkCode.compile ⟨.conservative, .empty⟩ (.param .int "part" false) =
    .ok partCode := by cbv

theorem late_compiled :
    late.compile lateScope lateSlots = .ok (lateCode, (lateSlots.anonymous .memo 6).2) := by cbv

theorem late_calls_no_join : ¬late.Calls "join" := by
  have hparam (t : StaticType) (name : String) : ¬(Expr.param t name false).Calls "join" := by
    rintro (_ | ⟨hc, _⟩)
    cases hc
  have hvar (t : StaticType) (name : String) : ¬(Expr.var t name).Calls "join" := by
    rintro (_ | ⟨hc, _⟩)
    cases hc
  rintro (_ | ⟨hc, h⟩)
  simp only [late, Expr.children, List.mem_cons, List.not_mem_nil, or_false] at hc
  rcases hc with rfl | rfl
  · exact hparam _ _ h
  · rcases h with _ | ⟨hc, h⟩
    simp only [Expr.children, List.mem_cons, List.not_mem_nil, or_false] at hc
    rcases hc with rfl | rfl | rfl
    · exact hparam _ _ h
    · exact hvar _ _ h
    · exact hparam _ _ h

theorem late_turns : ∀ id v, .complete id v ∈ lateTurns → ∀ j, v ≠ .future j := by
  intro id v h
  simp only [lateTurns, List.mem_cons, List.not_mem_nil, or_false, reduceCtorEq, false_or,
    Turn.complete.injEq] at h
  rcases h with ⟨_, rfl⟩ | ⟨_, rfl⟩ <;> exact fun j hj => by cases hj

theorem late_ready :
    late.Ready lateScope lateSlots (lateSlots.anonymous .memo 6).2 #[latePart] lateMemory where
  size := by decide
  memos i h₁ _ v hv := by
    have hne : (0 : Nat) ≠ i := Nat.ne_of_lt h₁
    rw [lateMemory, Cells.read_write_of_ne _ hne, Cells.read_cleared] at hv
    cases hv
  locals i id hi hid := by
    obtain rfl : i = 0 := Nat.lt_one_iff.1 hi
    cases hid
    exact Nat.one_pos
  lets id t ht := by
    obtain ⟨hid, rfl⟩ := Array.getElem?_eq_some_iff.1 ht
    obtain rfl : id = 0 := Nat.lt_one_iff.1 hid
    refine ⟨.param .int "part" false, ⟨_, partCode, rfl, part_compiled, rfl, rfl⟩, fun _ => ?_⟩
    rintro (_ | ⟨hc, _⟩)
    cases hc
  sound := by
    have hempty : ({ lateMemory.heap with thunks := #[] } : Heap).Sound #[] :=
      ⟨rfl, fun id t g ht => by simp at ht⟩
    refine hempty.push rfl (fun i v _ hv => ?_) 0
    rw [latePart, Cells.read_cleared] at hv
    cases hv
  later id t u ht hu := by
    have heq : t = u := Option.some.inj (ht.symm.trans hu)
    rw [heq]
    exact .refl u
  futures := by
    refine ⟨rfl, fun id => .inl ?_⟩
    match id with
    | 0 | 1 | 2 => rfl
    | _ + 3 => rfl

end Sample

/-- The sum comes to its end after two waits, and the last evaluation finds it. The futures that
were waited for are asked once each, and the param that is not needed is never asked for. -/
theorem Sample.late_read_once :
    let h := lateCode.retry [] lateEnv lateTurns lateMemory
    (lateCode.ReadsAs late ∧
      ∀ v ∈ h.visits, v.resolves = true →
      v.At (Thunk.MadeAs #[latePart]) lateCode.root.toBoxed.accesses) ∧
    ((h.visits.filter (·.resolves)).map (·.site)).Nodup ∧
    (∀ id, h.memory.heap.futures.readsOf id =
      lateMemory.heap.futures.readsOf id + h.visits.countP (·.kind = .resolved id)) ∧
    (∀ u ∈ h.visits, ∀ v ∈ h.visits, ¬u.Trespasses v) ∧
    (∀ a ∈ h.attempts, Stop.Settles a.result ∨ ∃ id, a.result = .error (.waiting id) ∧
      a.futures.get id = .pending) ∧
    (h.memory.blurred = false → ∀ fs, h.memory.heap.futures.Ahead fs → ∀ a ∈ h.attempts,
      Stop.Settles a.result →
        ∃ m', lateCode.value .usual [] lateEnv
            { lateMemory with heap := { lateMemory.heap with futures := fs } } =
                Eval.ending a.result m') :=
  Expr.reads_once rfl late_calls_no_join (Slots.new_wf.extend _ _ _).wf
    ((Locals.seen_empty _).bind (Binding.seen_of_slot _ (by decide)) _) late_compiled late_ready
    late_turns [] lateEnv

example : (Sample.lateCode.retry [] Sample.lateEnv Sample.lateTurns Sample.lateMemory).attempts.map
      (·.result) = [.error (.waiting 0), .error (.waiting 1), .ok (.int 42), .ok (.int 42)] := rfl

end Interlude
