import Interlude.Proofs.Render.Fuel
import Interlude.Proofs.Resume.Twin
/-!
# One instruction in two runs

Every instruction that makes no call: what it evaluates comes to the same in both runs, and so does
what it does then (`instr_mirrors`).
-/

namespace Interlude

/-- The futures are as they were. -/
def Machine.SameFutures (k k' : Machine) : Prop :=
    k'.store.heap.futures.states = k.store.heap.futures.states

theorem Machine.Like.sameFutures {m₀ k₀ m k : Machine} {g : Shapes} (h : m₀.Like k₀ g m k) :
    k₀.SameFutures k := by
  unfold Machine.SameFutures
  rw [h.heap']

/-- Effects keep stores twins. -/
theorem Store.Twin.like {made : Array Thunk} {m k m' k' : Machine} {g : Shapes}
    (h : m.store.Twin made k.store) (hl : m.Like k g m' k') : m'.store.Twin made k'.store where
  tidy := h.tidy
  ahead := by rw [hl.heap, hl.heap']; exact h.ahead
  fresh := by rw [hl.heap, hl.heap']; exact h.fresh
  first := by rw [hl.heap]; exact h.first
  second := by rw [hl.heap']; exact h.second
  streams := hl.streams
  messages := hl.messages
  renders := by rw [hl.renders, hl.renders']; exact h.renders

namespace Machine.Primed

variable {made : Array Thunk} {sur : Surroundings} {pc : Nat} {i : Instr} {m k : Machine}

theorem like (h : m.Primed made sur pc i k) : m.Like k (sur.render.program.types pc) m k :=
  ⟨rfl, rfl, rfl, rfl, rfl, rfl, h.store.streams, h.store.messages, rfl, rfl, h.size, h.cells⟩

theorem env (h : m.Primed made sur pc i k) : Exec.env sur k = Exec.env sur m := by
  unfold Exec.env
  rw [h.maker]

/-- What is evaluated is evaluated in paired memories. -/
theorem paired {reg : Registry} {id : RenderId} (h : m.Primed made sur pc i k)
    (hs : m.Safe reg id sur.render (sur.render.program.types pc)) :
    Paired made (i.table (sur.render.program.types pc)) (sur.render.program.types pc · ≠ .free)
      (Exec.env sur m) m.memory k.memory where
  tidy := h.store.tidy
  ahead := h.store.ahead
  first := h.keeps
  second := h.keeps'
  cells := h.cells
  thunks j t _ hc := by
    have hrefers := hs.cells.refers j
    have hc : m.cells.read j = .thunk t := hc
    rw [hc] at hrefers
    rw [← h.store.first.size]
    exact hrefers

end Machine.Primed

namespace Exec

/-- A part of an instruction that waits for a value. -/
def Awaits {α : Type} (y : EStateM.Result Interrupt Machine α) : Prop :=
    ∃ p k', y = .error (.waiting p) k'

/-- What becomes of a part of an instruction in the second run, told from what became of it in the
first. One that is stopped in the first has not yet been run in the second. There it waits for a
value that the first run waits for, if that is still pending, and for none if the first run was
stopped for another reason. -/
def Reflects {α : Type} (made : Array Thunk) (sur : Surroundings) (pc : Nat) (i : Instr)
    (k : Machine) (ok : α → Machine → Machine → Prop)
    (x y : EStateM.Result Interrupt Machine α) : Prop :=
  (left x).store.heap.blurred = false →
    match x with
    | .ok a m' => ∃ k', y = .ok a k' ∧ ok a m' k'
    | .error (.failed e) m' =>
      ∃ k', y = .error (.failed e) k' ∧ k.SameFutures k' ∧ ∃ made', m'.store.Twin made' k'.store
    | .error (.waiting p) m' => m'.Primed made sur pc i k ∧ (k.store.heap.futures.get p = .pending →
        ∃ k', y = .error (.waiting p) k' ∧ k.SameFutures k' ∧ m'.store.Twin made k'.store)
    | .error .limited m' => m'.Primed made sur pc i k ∧ ¬ Awaits y
    | .error .exhausted m' =>
      m'.store.Twin made k.store ∧ m'.store.heap.futures.Endless ∧ (m'.SameFutures k → ¬ Awaits y)
    | .error .broken _ => True

/-- What becomes of an instruction in the second run. -/
abbrev Mirrors (made : Array Thunk) (sur : Surroundings) (pc : Nat) (i : Instr) (k : Machine)
    (x y : EStateM.Result Interrupt Machine Nat) : Prop :=
  Reflects made sur pc i k (fun next m' k' => k.SameFutures k' ∧
    ∃ made', m'.Twin made' sur.render next k') x y

variable {made : Array Thunk} {reg : Registry} {sur : Surroundings} {id : RenderId} {pc : Nat}
  {i : Instr} {m k : Machine}

/-- Where an effect ends, the cells known at the next instruction are the same. -/
def Lands (r : Render) (m₀ k₀ : Machine) (next : Nat) (m k : Machine) : Prop :=
    m₀.Like k₀ (r.program.types next) m k

/-- An effect after which stores are twins again. -/
theorem Mirrors.of_effect {k₀ : Machine} (hk : k₀.SameFutures k) (h : m.store.Twin made k.store)
    (hmaker : m.maker = k.maker) {f : Exec Nat}
    (hf : Agrees sur m k (Lands sur.render m k) (Fell m k) f) :
    Mirrors made sur pc i k₀ (f sur m) (f sur k) := by
  intro _
  unfold Agrees at hf
  cases hx : f sur m with
  | ok next m' =>
    rw [hx] at hf
    obtain ⟨k', hy, hl⟩ := hf
    exact ⟨k', hy, hl.sameFutures.trans hk, made,
      ⟨by rw [hl.maker, hl.maker', hmaker], hl.sizes, hl.cells⟩, h.like hl⟩
  | error e m' =>
    rw [hx] at hf
    cases e with
    | failed e =>
      obtain ⟨k', hy, hl⟩ := hf
      exact ⟨k', hy, hl.sameFutures.trans hk, made, h.like hl⟩
    | broken => trivial
    | _ => cases hf

/-- An effect leaves what was evaluated alone, whatever the second run has evaluated. -/
theorem Agrees.heap {α : Type} {f : Exec α} {g : Shapes} {l : α → Shapes}
    (hm : m.store.streams.Alike k.store.streams) (hl : m.store.messages = k.store.messages)
    (hf : ∀ k', m.Like k' g m k' →
      Agrees sur m k' (fun a m' k'' => m.Like k' (l a) m' k'') (Fell m k') f) :
    (∃ m', f sur m = .error .broken m') ∨ (left (f sur m)).store.heap = m.store.heap := by
  have hrun := hf { k with cells := m.cells } ⟨rfl, rfl, rfl, rfl, rfl, rfl, hm, hl, rfl, rfl, rfl,
    fun _ _ => rfl⟩
  unfold Agrees at hrun
  cases hx : f sur m with
  | ok next m' =>
    rw [hx] at hrun
    obtain ⟨k', _, hl⟩ := hrun
    exact .inr hl.heap
  | error e m' =>
    rw [hx] at hrun
    cases e with
    | failed e =>
      obtain ⟨k', _, hl⟩ := hrun
      exact .inr hl.heap
    | broken => exact .inl ⟨m', rfl⟩
    | _ => cases hrun

/-- How an evaluation ends for its instruction. -/
def ended {α : Type} (m : Machine) : Except Stop α → EStateM.Result Interrupt Machine α
  | .ok a => .ok a m
  | .error e => .error e.interrupt m

theorem eval_ending {α : Type} {act : Eval α} {r : Except Stop α} {mem : Memory}
    (h : act (env sur m) m.memory = Eval.ending r mem) :
    Exec.eval act sur m = ended (after m mem) r := by
  have h : act (env sur m) ⟨m.cells, m.store.heap⟩ = Eval.ending r mem := h
  rw [eval_apply, h]
  cases r <;> rfl

/-- Stores after an evaluation in both runs. -/
theorem twin_after {table : Table} {see : Seeing} {e : Env} {mem mem' : Memory}
    (h : m.store.Twin made k.store) (hp : Paired made table see e mem mem')
    (hm : mem.heap.fresh = m.store.heap.fresh) (hk : mem'.heap.fresh = k.store.heap.fresh) :
    (after m mem).store.Twin made (after k mem').store :=
  { h with
    ahead := hp.ahead
    fresh := hm.trans (h.fresh.trans hk.symm)
    first := hp.first.heap
    second := hp.second.heap }

/-- What an instruction evaluates comes to the same in the second run, if it came to an end that
stays. Either way both machines are still within the instruction. -/
theorem eval_primed {α : Type} (h : m.Primed made sur pc i k)
    (hrun : Running reg id sur.render pc i m) (act : Strategy → Eval α) (valued : Nat → Prop)
    (hs : i.op.stops = true) (hv : ∀ j, valued j → sur.render.program.types pc j = .value)
    (ha : ∀ keep, i.op.Touches (sur.render.program.types pc · ≠ .free) keep →
      Operand (sur.render.program.types pc · ≠ .free) keep valued act) :
    ∃ r mem, Exec.eval (act .usual) sur m = ended (after m mem) r ∧
    (after m mem).Primed made sur pc i k ∧ (r = .error .exhausted → mem.heap.futures.Endless) ∧
      (mem.blurred = false → Stop.Stays mem.heap.futures k.store.heap.futures r →
      ∃ mem', Exec.eval (act .usual) sur k = ended (after k mem') r ∧
      (after m mem).Primed made sur pc i (after k mem') ∧ k.SameFutures (after k mem')) := by
  have hsee (j : Nat) (hj : sur.render.program.types pc j ≠ .free) :
      i.table (sur.render.program.types pc) j = none :=
    Classical.byContradiction fun hne => hj (hrun.own_free (Instr.table_own hne))
  have hstate (x : Extent) (hx : i.extent = some x) (j : Nat) (hhigh : j < x.memo) :
      i.table (sur.render.program.types pc) j = none := by
    refine Classical.byContradiction fun hne => ?_
    obtain ⟨y, hy, hj, _⟩ := Instr.table_own hne
    rw [hx] at hy
    cases hy
    omega
  obtain ⟨r, mem, hx, hmove, hpair, hlater⟩ :=
    (h.paired hrun.safe).eval (ha _ (hrun.fits.touches_table hs)) hsee fun _ _ _ hk => hk
  refine ⟨r, mem, eval_ending hx,
    { store := twin_after (k := k) h.store hpair hmove.fresh rfl
      maker := h.maker
      size := hmove.size.trans h.size
      cells := hpair.cells
      state := fun x hx j hlow hhigh =>
        (hmove.rest j (hstate x hx j hhigh)).trans (h.state x hx j hlow hhigh)
      keeps := hpair.first
      keeps' := h.keeps' }, fun hr => ?_, fun hclear hr => ?_⟩
  · subst hr
    have hvalued : Eval.Valued valued m.cells := fun j hj => by
      have := hrun.safe.cells.shape j
      rwa [hv j hj] at this
    have hmeets : Meets sur m _ _ (eval (act .usual)) :=
      eval_meets (fun _ => True) (ha _ (hrun.fits.touches_table hs)) (fun _ _ _ _ =>
        trivial) hvalued
    unfold Meets at hmeets
    rw [eval_ending hx] at hmeets
    exact hmeets.1
  obtain ⟨mem', hy, hmove', hpair'⟩ := hlater hclear (hr.congr hmove.states.symm)
  have hy : act .usual (env sur k) k.memory = Eval.ending r mem' := by rw [h.env]; exact hy
  refine ⟨mem', eval_ending hy,
    { store := twin_after h.store hpair' hmove.fresh hmove'.fresh
      maker := h.maker
      size := hmove.size.trans (h.size.trans hmove'.size.symm)
      cells := hpair'.cells
      state := fun x hx j hlow hhigh => ?_
      keeps := hpair'.first
      keeps' := hpair'.second }, hmove'.states⟩
  exact (hmove.rest j (hstate x hx j hhigh)).trans
    ((h.state x hx j hlow hhigh).trans (hmove'.rest j (hstate x hx j hhigh)).symm)

/-- An instruction that evaluates its operands and then has its effect. -/
theorem Mirrors.of_eval {α : Type} (h : m.Primed made sur pc i k)
    (hrun : Running reg id sur.render pc i m) (act : Strategy → Eval α) (hs : i.op.stops = true)
    (ha : ∀ keep, i.op.Touches (sur.render.program.types pc · ≠ .free) keep →
      Operand (sur.render.program.types pc · ≠ .free) keep (fun _ => False) act) {f : α → Exec Nat}
    (hf : ∀ a m' k', m'.Like k' (sur.render.program.types pc) m' k' →
      Agrees sur m' k' (Lands sur.render m' k') (Fell m' k') (f a)) :
    Mirrors made sur pc i k ((Exec.eval (act .usual) >>= f) sur m)
      ((Exec.eval (act .usual) >>= f) sur k) := by
  obtain ⟨r, mem, hx, hstop, hendless, hlater⟩ :=
    eval_primed h hrun act _ hs (fun _ hf => hf.elim) ha
  rw [bind_apply, hx, bind_apply]
  intro hclear
  cases r with
  | error e =>
    cases e with
    | failed e =>
      obtain ⟨mem', hy, hprimed, hsame⟩ := hlater hclear trivial
      rw [hy]
      exact ⟨_, rfl, hsame, made, hprimed.store⟩
    | waiting p =>
      refine ⟨hstop, fun hp => ?_⟩
      obtain ⟨mem', hy, hprimed, hsame⟩ := hlater hclear hp
      rw [hy]
      exact ⟨_, rfl, hsame, hprimed.store⟩
    | exhausted =>
      refine ⟨hstop.store, hendless rfl, fun hsame => ?_⟩
      obtain ⟨mem', hy, _⟩ := hlater hclear hsame.symm
      rw [hy]
      rintro ⟨p, k', ⟨⟩⟩
    | broken => trivial
  | ok a =>
    have hheap := Agrees.heap (m := after m mem) (k := k) (l := sur.render.program.types)
      h.store.streams h.store.messages (hf a (after m mem))
    rcases hheap with ⟨m', hbroken⟩ | hheap
    · simp only [ended, hbroken]
    · simp only [ended] at hclear ⊢
      obtain ⟨mem', hy, hprimed, hsame⟩ := hlater (by rw [hheap] at hclear; exact hclear) trivial
      rw [hy]
      have hmirror : Mirrors made sur pc i k (f a sur (after m mem)) (f a sur (after k mem')) :=
        .of_effect hsame hprimed.store hprimed.maker
          (hf a _ _ hprimed.like)
      exact hmirror hclear

/-! ## Instructions without calls -/

/-- Results of expressions are cleared, and the next instruction is told. -/
theorem land {m₀ k₀ : Machine} {g : Shapes} {next : Nat} (h : m₀.Like k₀ g m k)
    (hg : Goes sur.render.program.code.size sur.render.program.types g next) (i : Instr) :
    Agrees sur m k (Lands sur.render m₀ k₀) (Fell m₀ k₀)
      (do
        modify fun m => { m with cells := i.clearMemo m.cells }
        pure next) :=
  (clearMemo_agrees h i).bind fun _ _ _ h' => .pure (h'.within hg.2)

section

variable {invoke : RenderId → Store → Outcome × Store} {extent : Option Extent}

theorem text_mirrors {out : Out} {s : String}
    (h : m.Primed made sur pc { op := .text out s, extent } k)
    (hrun : Running reg id sur.render pc { op := .text out s, extent } m) :
    Mirrors made sur pc { op := .text out s, extent } k
      (instr invoke pc { op := .text out s, extent } sur m)
          (instr invoke pc { op := .text out s, extent } sur k) := by
  obtain ⟨ho, hgo⟩ := hrun.fits.flows
  refine .of_effect rfl h.store h.maker ?_
  refine (write_agrees h.like ho s).bind fun _ m' k' h' => ?_
  exact .pure (h'.within hgo.2)

theorem print_mirrors {out : Out} {e : Compiled} {fs : List FilterCall}
    (h : m.Primed made sur pc { op := .print out e fs, extent } k)
    (hrun : Running reg id sur.render pc { op := .print out e fs, extent } m) :
    Mirrors made sur pc { op := .print out e fs, extent } k
      (instr invoke pc { op := .print out e fs, extent } sur m)
      (instr invoke pc { op := .print out e fs, extent } sur k) := by
  obtain ⟨ho, hgo⟩ := hrun.fits.flows
  refine .of_eval h hrun (Eval.printed · e fs) rfl (fun _ => Operand.printed) fun s m' k' hl => ?_
  refine (write_agrees hl ho s).bind fun _ m' k' h' => ?_
  exact land h' hgo _

/-- The first run may be told to pause, the second never is. -/
theorem checkLimit_mirrors (h : m.Primed made sur pc { op := .checkLimit, extent } k)
    (hrun : Running reg id sur.render pc { op := .checkLimit, extent } m) :
    Mirrors made sur pc { op := .checkLimit, extent } k
      (instr invoke pc { op := .checkLimit, extent } sur m)
          (instr invoke pc { op := .checkLimit, extent } sur k) := by
  have hgo : Goes _ _ _ _ := hrun.fits.flows
  have hstep (l : Machine) : instr invoke pc { op := .checkLimit, extent } sur l =
      (if (l.store.streams.isLimited sur.render.sink).1 then throw .limited
        else pure (pc + 1) : Exec Nat) sur
            { l with store := { l.store with
                                  streams := (l.store.streams.isLimited sur.render.sink).2 } } := by
    change (do
      if (l.store.streams.isLimited sur.render.sink).1 then throw .limited
      pure (pc + 1) : Exec Nat) sur
        { l with store := { l.store with streams := (l.store.streams.isLimited sur.render.sink).2 }
                   } = _
    cases (l.store.streams.isLimited sur.render.sink).1 <;> rfl
  have hstreams := h.store.streams.isLimited sur.render.sink
  rw [hstep, hstep, h.store.streams.isLimited' sur.render.sink]
  cases (m.store.streams.isLimited sur.render.sink).1 with
  | true =>
    intro _
    refine ⟨{ h with store := { h.store with streams := hstreams },
                     keeps := ⟨h.keeps.heap, h.keeps.kept⟩ }, ?_⟩
    rintro ⟨p, k', ⟨⟩⟩
  | false =>
    intro _
    refine ⟨k, rfl, rfl, made, ⟨h.maker, h.size, fun j hj => ?_⟩,
      { h.store with streams := hstreams }⟩
    exact h.cells j (hgo.2.used hj)

theorem jump_mirrors {target : Nat} (h : m.Primed made sur pc { op := .jump target, extent } k)
    (hrun : Running reg id sur.render pc { op := .jump target, extent } m) :
    Mirrors made sur pc { op := .jump target, extent } k
      (instr invoke pc { op := .jump target, extent } sur m)
          (instr invoke pc { op := .jump target, extent } sur k) := by
  have hgo : Goes _ _ _ _ := hrun.fits.flows
  exact .of_effect rfl h.store h.maker (.pure (h.like.within hgo.2))

theorem jumpIfFalse_mirrors {e : Compiled} {target : Nat}
    (h : m.Primed made sur pc { op := .jumpIfFalse e target, extent } k)
    (hrun : Running reg id sur.render pc { op := .jumpIfFalse e target, extent } m) :
    Mirrors made sur pc { op := .jumpIfFalse e target, extent } k
      (instr invoke pc { op := .jumpIfFalse e target, extent } sur m)
      (instr invoke pc { op := .jumpIfFalse e target, extent } sur k) := by
  obtain ⟨hgo, hgo'⟩ := hrun.fits.flows
  refine .of_eval h hrun (e.bool · []) rfl (fun _ => Operand.bool) fun b m' k' hl => ?_
  cases b with
  | true => exact land hl hgo' _
  | false => exact land hl hgo _

theorem caseMatch_mirrors {slot : Nat} {values : List Compiled} {target : Nat}
    (h : m.Primed made sur pc { op := .caseMatch slot values target, extent } k)
    (hrun : Running reg id sur.render pc { op := .caseMatch slot values target, extent } m) :
    Mirrors made sur pc { op := .caseMatch slot values target, extent } k
      (instr invoke pc { op := .caseMatch slot values target, extent } sur m)
      (instr invoke pc { op := .caseMatch slot values target, extent } sur k) := by
  obtain ⟨hgo, hgo'⟩ := hrun.fits.flows
  refine .of_eval h hrun (Eval.matchesCase · slot values) rfl
    (fun _ ht => Operand.matchesCase ⟨ht.1, ht.2⟩) fun b m' k' hl => ?_
  cases b with
  | true => exact land hl hgo' _
  | false => exact land hl hgo _

theorem store_mirrors {slot : Nat} {kind : SlotKind} {e : Compiled}
    (h : m.Primed made sur pc { op := .store slot kind e, extent } k)
    (hrun : Running reg id sur.render pc { op := .store slot kind e, extent } m) :
    Mirrors made sur pc { op := .store slot kind e, extent } k
      (instr invoke pc { op := .store slot kind e, extent } sur m)
      (instr invoke pc { op := .store slot kind e, extent } sur k) := by
  obtain ⟨_, hgo⟩ := hrun.fits.flows
  refine .of_eval h hrun (Eval.cellOf · kind e) rfl (fun _ => Operand.cellOf) fun c m' k' hl => ?_
  refine (setCell_agrees hl slot c .any).bind fun _ m' k' h' => ?_
  exact land h' hgo _

theorem rangeInit_mirrors {base : Nat} {start stop step : Option Compiled}
    (h : m.Primed made sur pc { op := .rangeInit base start stop step, extent } k)
    (hrun : Running reg id sur.render pc { op := .rangeInit base start stop step, extent } m) :
    Mirrors made sur pc { op := .rangeInit base start stop step, extent } k
      (instr invoke pc { op := .rangeInit base start stop step, extent } sur m)
      (instr invoke pc { op := .rangeInit base start stop step, extent } sur k) := by
  obtain ⟨_, hgo⟩ := hrun.fits.flows
  refine .of_eval h hrun (Eval.range · start stop step) rfl (fun _ => Operand.range)
    fun bounds m' k' hl => ?_
  refine (setLoop_agrees hl base _ _ _).bind fun _ m' k' h' => ?_
  exact land h' hgo _

theorem rangeNext_mirrors {base target : Nat}
    (h : m.Primed made sur pc { op := .rangeNext base target, extent } k)
    (hrun : Running reg id sur.render pc { op := .rangeNext base target, extent } m) :
    Mirrors made sur pc { op := .rangeNext base target, extent } k
      (instr invoke pc { op := .rangeNext base target, extent } sur m)
      (instr invoke pc { op := .rangeNext base target, extent } sur k) := by
  obtain ⟨⟨hb, hb'⟩, hgo, hgo'⟩ := hrun.fits.flows
  refine .of_effect rfl h.store h.maker ?_
  refine (cell_agrees h.like hb').bind fun stop m' k' ⟨_, hm, hk⟩ => ?_
  subst hm hk
  refine (cell_agrees h.like hb).bind fun current m' k' ⟨_, hm, hk⟩ => ?_
  subst hm hk
  refine .pure ?_
  split
  · exact h.like.within hgo.2
  · exact h.like.within hgo'.2

theorem rangeStep_mirrors {base target : Nat}
    (h : m.Primed made sur pc { op := .rangeStep base target, extent } k)
    (hrun : Running reg id sur.render pc { op := .rangeStep base target, extent } m) :
    Mirrors made sur pc { op := .rangeStep base target, extent } k
      (instr invoke pc { op := .rangeStep base target, extent } sur m)
      (instr invoke pc { op := .rangeStep base target, extent } sur k) := by
  obtain ⟨⟨hb, hb', hb''⟩, hgo⟩ := hrun.fits.flows
  refine .of_effect rfl h.store h.maker ?_
  refine (cell_agrees h.like hb).bind fun current m' k' ⟨_, hm, hk⟩ => ?_
  subst hm hk
  refine (cell_agrees h.like hb').bind fun stop m' k' ⟨_, hm, hk⟩ => ?_
  subst hm hk
  refine (cell_agrees h.like hb'').bind fun step m' k' ⟨_, hm, hk⟩ => ?_
  subst hm hk
  refine (setCell_agrees h.like base _ .any).bind fun _ m' k' h' => ?_
  exact .pure (h'.within hgo.2)

theorem eachInit_mirrors {base target : Nat} {e : Compiled}
    (h : m.Primed made sur pc { op := .eachInit base e target, extent } k)
    (hrun : Running reg id sur.render pc { op := .eachInit base e target, extent } m) :
    Mirrors made sur pc { op := .eachInit base e target, extent } k
      (instr invoke pc { op := .eachInit base e target, extent } sur m)
      (instr invoke pc { op := .eachInit base e target, extent } sur k) := by
  obtain ⟨_, hgo, hgo'⟩ := hrun.fits.flows
  refine .of_eval h hrun (Eval.items · e) rfl (fun _ => Operand.items) fun found m' k' hl => ?_
  refine (setLoop_agrees hl base _ _ _).bind fun _ m' k' h' => ?_
  change Agrees sur m' k' _ _ (do
    modify fun m => { m with cells := Instr.clearMemo { op := .eachInit base e target,
                                                        extent } m.cells }
    pure (if found.2 = 0 then target else pc + 1))
  split
  · exact land h' hgo _
  · exact land h' hgo' _

theorem eachNext_mirrors {base target : Nat}
    (h : m.Primed made sur pc { op := .eachNext base target, extent } k)
    (hrun : Running reg id sur.render pc { op := .eachNext base target, extent } m) :
    Mirrors made sur pc { op := .eachNext base target, extent } k
      (instr invoke pc { op := .eachNext base target, extent } sur m)
      (instr invoke pc { op := .eachNext base target, extent } sur k) := by
  obtain ⟨⟨hb, hb'⟩, hgo, hgo'⟩ := hrun.fits.flows
  refine .of_effect rfl h.store h.maker ?_
  refine (cell_agrees h.like hb').bind fun length m' k' ⟨_, hm, hk⟩ => ?_
  subst hm hk
  refine (cell_agrees h.like hb).bind fun index m' k' ⟨_, hm, hk⟩ => ?_
  subst hm hk
  refine .pure ?_
  split
  · exact h.like.within hgo.2
  · exact h.like.within hgo'.2

theorem eachStep_mirrors {base target : Nat}
    (h : m.Primed made sur pc { op := .eachStep base target, extent } k)
    (hrun : Running reg id sur.render pc { op := .eachStep base target, extent } m) :
    Mirrors made sur pc { op := .eachStep base target, extent } k
      (instr invoke pc { op := .eachStep base target, extent } sur m)
      (instr invoke pc { op := .eachStep base target, extent } sur k) := by
  obtain ⟨hb, hgo⟩ := hrun.fits.flows
  refine .of_effect rfl h.store h.maker ?_
  refine (cell_agrees h.like hb).bind fun index m' k' ⟨_, hm, hk⟩ => ?_
  subst hm hk
  refine (setCell_agrees h.like (base + 1) _ .any).bind fun _ m' k' h' => ?_
  exact .pure (h'.within hgo.2)

theorem beginBuffer_mirrors {slot : Nat}
    (h : m.Primed made sur pc { op := .beginBuffer slot, extent } k)
    (hrun : Running reg id sur.render pc { op := .beginBuffer slot, extent } m) :
    Mirrors made sur pc { op := .beginBuffer slot, extent } k
      (instr invoke pc { op := .beginBuffer slot, extent } sur m)
      (instr invoke pc { op := .beginBuffer slot, extent } sur k) := by
  obtain ⟨_, hgo⟩ := hrun.fits.flows
  refine .of_effect rfl h.store h.maker ?_
  refine (newBuffer_agrees h.like).bind fun b m' k' h' => ?_
  refine (setCell_agrees h' slot _ .buffer).bind fun _ m' k' h' => ?_
  exact .pure (h'.within hgo.2)

theorem endBuffer_mirrors {slot dst : Nat} {kind : ContentKind}
    (h : m.Primed made sur pc { op := .endBuffer slot dst kind, extent } k)
    (hrun : Running reg id sur.render pc { op := .endBuffer slot dst kind, extent } m) :
    Mirrors made sur pc { op := .endBuffer slot dst kind, extent } k
      (instr invoke pc { op := .endBuffer slot dst kind, extent } sur m)
      (instr invoke pc { op := .endBuffer slot dst kind, extent } sur k) := by
  obtain ⟨_, _, hshape, hgo⟩ := hrun.fits.flows
  refine .of_effect rfl h.store h.maker ?_
  refine (buffer_agrees h.like (by rw [hshape]; simp)).bind fun b m' k' ⟨hm, hk⟩ => ?_
  subst hm hk
  refine (bufferText_agrees h.like b).bind fun t m' k' ⟨_, hm, hk⟩ => ?_
  subst hm hk
  refine (setCell_agrees h.like dst _ .value).bind fun _ m' k' h' => ?_
  refine (setCell_agrees h' slot _ .free).bind fun _ m' k' h' => ?_
  exact .pure (h'.within hgo.2)

theorem log_mirrors {slot : Nat} (h : m.Primed made sur pc { op := .log slot, extent } k)
    (hrun : Running reg id sur.render pc { op := .log slot, extent } m) :
    Mirrors made sur pc { op := .log slot, extent } k
      (instr invoke pc { op := .log slot, extent } sur m)
          (instr invoke pc { op := .log slot, extent } sur k) := by
  obtain ⟨hshape, hgo⟩ := hrun.fits.flows
  refine .of_effect rfl h.store h.maker ?_
  refine (buffer_agrees h.like (by rw [hshape]; simp)).bind fun b m' k' ⟨hm, hk⟩ => ?_
  subst hm hk
  refine (bufferText_agrees h.like b).bind fun t m' k' ⟨_, hm, hk⟩ => ?_
  subst hm hk
  refine surroundings_agrees.bind fun _ m' k' ⟨hm, hk⟩ => ?_
  subst hm hk
  refine (logged_agrees h.like _).bind fun _ m' k' h' => ?_
  refine (setCell_agrees h' slot _ .free).bind fun _ m' k' h' => ?_
  exact .pure (h'.within hgo.2)

/-- A deferred value is made alike in both runs. -/
theorem storeThunk_mirrors {slot : Nat} {code : ThunkCode}
    (h : m.Primed made sur pc { op := .storeThunk slot code, extent } k)
    (hrun : Running reg id sur.render pc { op := .storeThunk slot code, extent } m) :
    Mirrors made sur pc { op := .storeThunk slot code, extent } k
      (instr invoke pc { op := .storeThunk slot code, extent } sur m)
      (instr invoke pc { op := .storeThunk slot code, extent } sur k) := by
  obtain ⟨_, hcode, hgo⟩ := hrun.fits.flows
  have hcells : code.own m.cells = code.own k.cells :=
    code.own_congr fun c hc => h.cells c.1 (hcode.copies c hc).1
  let deferred (l : Machine) : Thunk :=
    { code := code.code, cells := code.own l.cells,
      env := { (env sur l) with maker := l.store.heap.fresh } }
  have hthunk : deferred k = deferred m := by
    simp only [deferred, hcells, h.env, h.store.fresh]
  let t := deferred m
  let grown (l : Machine) : Machine := after l ⟨l.cells, { l.store.heap with
    thunks := l.store.heap.thunks.push t, fresh := l.store.heap.fresh + 1 }⟩
  have hstep : instr invoke pc { op := .storeThunk slot code, extent } sur m =
      (setCell slot (.thunk made.size) >>= fun _ => pure (pc + 1)) sur (grown m) := by
    rw [← h.store.first.size]
    rfl
  have hstep' : instr invoke pc { op := .storeThunk slot code, extent } sur k =
      (setCell slot (.thunk made.size) >>= fun _ => pure (pc + 1)) sur (grown k) := by
    rw [← h.store.second.size]
    simp only [grown, t, ← hthunk]
    rfl
  have hclean (j : Nat) (v : Value) (hj : t.code.table j ≠ none) : t.cells.read j ≠ .value v := by
    have hempty : t.cells.read j = Cell.empty := code.read_own m.cells fun c hc hcj =>
      hj (by rw [← hcj]; exact hcode.apart c hc)
    rw [hempty]
    exact fun hv => by cases hv
  have htwin : (grown m).store.Twin (made.push t) (grown k).store :=
    { h.store with
      tidy := fun j g hg => by
        rw [Array.getElem?_push] at hg
        split at hg
        · cases hg
          exact hcode.tidy
        · exact h.store.tidy j g hg
      fresh := congrArg (· + 1) h.store.fresh
      first := h.store.first.push rfl hclean _
      second := h.store.second.push rfl hclean _ }
  have hlike : (grown m).Like (grown k) (sur.render.program.types pc) (grown m) (grown k) :=
    ⟨rfl, rfl, rfl, rfl, rfl, rfl, h.store.streams, h.store.messages, rfl, rfl, h.size, h.cells⟩
  have hmirror : Mirrors (made.push t) sur pc { op := .storeThunk slot code, extent } k
      ((setCell slot (.thunk made.size) >>= fun _ => pure (pc + 1)) sur (grown m))
      ((setCell slot (.thunk made.size) >>= fun _ => pure (pc + 1)) sur (grown k)) := by
    refine .of_effect (show k.SameFutures (grown k) from rfl) htwin h.maker ?_
    refine (setCell_agrees hlike slot _ .any).bind fun _ m' k' h' => ?_
    exact .pure (h'.within hgo.2)
  rw [hstep, hstep']
  exact hmirror

theorem beginWrap_mirrors {out : Out} {slot : Nat} {kind : ContentKind} {fs : List FilterCall}
    (h : m.Primed made sur pc { op := .beginWrap out slot kind fs, extent } k)
    (hrun : Running reg id sur.render pc { op := .beginWrap out slot kind fs, extent } m) :
    Mirrors made sur pc { op := .beginWrap out slot kind fs, extent } k
      (instr invoke pc { op := .beginWrap out slot kind fs, extent } sur m)
      (instr invoke pc { op := .beginWrap out slot kind fs, extent } sur k) := by
  obtain ⟨ho, _, hgo⟩ := hrun.fits.flows
  refine .of_eval h hrun (Eval.filterArgs · [] fs) rfl (fun _ => Operand.filterArgs)
    fun args m' k' hl => ?_
  refine (target_agrees hl ho).bind fun sink m'' k'' ⟨hm, hk⟩ => ?_
  subst hm hk
  refine (wrap_agrees hl fs args kind sink).bind fun entry m' k' h' => ?_
  refine (setCell_agrees h' slot _ .wrap).bind fun _ m' k' h' => ?_
  exact land h' hgo _

theorem endWrap_mirrors {slot : Nat} (h : m.Primed made sur pc { op := .endWrap slot, extent } k)
    (hrun : Running reg id sur.render pc { op := .endWrap slot, extent } m) :
    Mirrors made sur pc { op := .endWrap slot, extent } k
      (instr invoke pc { op := .endWrap slot, extent } sur m)
          (instr invoke pc { op := .endWrap slot, extent } sur k) := by
  obtain ⟨hshape, hgo⟩ := hrun.fits.flows
  refine .of_effect rfl h.store h.maker ?_
  refine (cell_agrees h.like (by rw [hshape]; simp)).bind fun c m' k' ⟨_, hm, hk⟩ => ?_
  subst hm hk
  cases c with
  | wrap entry stages =>
    refine (setCell_agrees h.like slot _ .free).bind fun _ m' k' h' => ?_
    refine (close_agrees h' entry stages).bind fun _ m' k' h' => ?_
    exact .pure (h'.within hgo.2)
  | _ => exact .broken

/-- An instruction that makes no call. -/
theorem instr_mirrors (h : m.Primed made sur pc i k) (hrun : Running reg id sur.render pc i m)
    (hc : ∀ out slot site fs, i.op ≠ .call out slot site fs)
    (invoke invoke' : RenderId → Store → Outcome × Store) :
    Mirrors made sur pc i k (instr invoke pc i sur m) (instr invoke' pc i sur k) := by
  obtain ⟨op, extent⟩ := i
  cases op with
  | text => exact text_mirrors h hrun
  | print => exact print_mirrors h hrun
  | checkLimit => exact checkLimit_mirrors h hrun
  | jump => exact jump_mirrors h hrun
  | jumpIfFalse => exact jumpIfFalse_mirrors h hrun
  | caseMatch => exact caseMatch_mirrors h hrun
  | store => exact store_mirrors h hrun
  | storeThunk => exact storeThunk_mirrors h hrun
  | rangeInit => exact rangeInit_mirrors h hrun
  | rangeNext => exact rangeNext_mirrors h hrun
  | rangeStep => exact rangeStep_mirrors h hrun
  | eachInit => exact eachInit_mirrors h hrun
  | eachNext => exact eachNext_mirrors h hrun
  | eachStep => exact eachStep_mirrors h hrun
  | beginBuffer => exact beginBuffer_mirrors h hrun
  | endBuffer => exact endBuffer_mirrors h hrun
  | call out slot site fs => exact (hc out slot site fs rfl).elim
  | log => exact log_mirrors h hrun
  | beginWrap => exact beginWrap_mirrors h hrun
  | endWrap => exact endWrap_mirrors h hrun

end

end Exec

end Interlude
