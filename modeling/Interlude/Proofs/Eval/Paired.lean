import Interlude.Proofs.Eval.Lasting
import Interlude.Proofs.Render.Step
/-!
# Evaluating now and with settled futures

The same code is evaluated in two memories. The second has settled more futures than the first, and
neither keeps anything but what its code means. An evaluation in the first that comes to a result or
a failure, or waits for what is pending in the second too, comes to the same in the second, unless
it took the text of a value that holds a future (`Paired.eval`). What is kept in the first stays
sound when more of its futures are settled, and when more deferred values are made.
-/

namespace Interlude

namespace Thunk

theorem Extends.refl (made : Array Thunk) : Extends made made := fun _ _ => rfl

theorem Extends.push (made : Array Thunk) (t : Thunk) : Extends made (made.push t) := by
  intro id hid
  rw [Array.getElem?_push, if_neg (Nat.ne_of_lt hid)]

/-- Deferred values that are made later do not change what the earlier ones mean. -/
theorem meaningBelow_extends {made later : Array Thunk} (he : Extends made later) {count : Nat}
    (hc : count ≤ made.size) : meaningBelow later count = meaningBelow made count := by
  induction count with
  | zero => rfl
  | succ count ih =>
    funext id
    unfold meaningBelow
    rw [ih (Nat.le_of_succ_le hc)]
    split
    · next hid =>
      subst hid
      rw [he id hc]
    · rfl

theorem meaning_extends {made later : Array Thunk} (he : Extends made later) {id : ThunkId}
    (hid : id < made.size) :
    meaning later id = meaning made id := by
  unfold meaning
  rw [meaningBelow_extends he hid]

end Thunk

/-! ## What is kept lasts -/

/-- The same cells, all of them seen, and futures settled in between. -/
def Sequel.whole (old new : Futures) (env : Env) (base : Cells) : Sequel :=
  { made := #[], later := #[], old, new, env, base, see := fun _ => True }

/-- Code that depends on cells, environment and futures alone, and whose end lasts when futures are
settled. -/
def Eval.Lasts (old new : Futures) (d : Eval Value) : Prop :=
  ∀ env base, (Sequel.whole old new env base).Outlasts Value d d

section Lasts

variable {old new : Futures}

theorem Thunk.meaningBelow_lasts (ha : old.Ahead new) {made : Array Thunk} (ht : AllTidy made)
    {count : Nat} (hc : count ≤ made.size) (id : ThunkId) :
    (meaningBelow made count id).Lasts old new :=
  fun _ _ => outlasts_meaningBelow ht (.refl made) ha count hc _ rfl rfl id

theorem Thunk.meaning_lasts (ha : old.Ahead new) {made : Array Thunk} (ht : AllTidy made)
    (id : ThunkId) :
    (meaning made id).Lasts old new := by
  by_cases hid : id < made.size
  · exact meaningBelow_lasts ha ht hid id
  · rw [meaning_of_none (Array.getElem?_eq_none (Nat.le_of_not_lt hid))]
    exact fun _ _ => (Sequel.compatible ha).pure _

/-- What the cells of a table may keep lasts, if deferred values do. -/
theorem Table.meanings_lasts (ha : old.Ahead new) {table : Table} {force : ThunkId → Eval Value}
    (hf : ∀ id, (force id).Lasts old new) {i : Nat} {d : Eval Value}
    (hd : table.meanings force i = some d) : d.Lasts old new := by
  obtain ⟨⟨place, x⟩, _, rfl⟩ := Option.map_eq_some_iff.1 hd
  exact fun env base => (Sequel.congruence ha fun _ id _ _ => hf id env base).term x place
    (Term.touches_everywhere x place)

/-- A value that code comes to without blurring stays what it comes to. -/
theorem Eval.Lasts.value {d : Eval Value} (hd : d.Lasts old new) (env : Env)
    (v : Value) (n : Memory)
    (h : ∀ fs, fs.states = old.states →
      let n := { n with heap := { n.heap with futures := fs, blurred := false } }
      ∃ b k, d env n = .ok v k ∧ Calm b n k ∧ (false || b) = false)
    (hn : n.states = new.states) : ∃ k, d env n = .ok v k ∧ Calm false n k := by
  obtain ⟨b, k, hk, hc, hb⟩ := h old rfl
  obtain ⟨r, b', k', hx, hc', hy⟩ :=
    hd env n.cells { n with heap := { n.heap with futures := old, blurred := false } }
      ⟨rfl, fun _ _ => rfl⟩
  have hx : EStateM.Result.ok v k = ending r k' := hk.symm.trans hx
  cases r with
  | error e => cases hx
  | ok w =>
    cases hx
    have hb' : b' = false := by
      have h₁ := hc.blurred
      have h₂ := hc'.blurred
      simp_all
    obtain ⟨l, hl, hcl⟩ := hy n ⟨hn, fun _ _ => rfl⟩ (.inr hb') trivial
    rw [hb'] at hcl
    exact ⟨l, hl, hcl⟩

theorem Setting.Sure.ahead {S : Setting} {d : Eval Value} {v : Value} (hs : S.states = old.states)
    (hd : d.Lasts old new) (h : S.Sure d false v) :
    ({ S with states := new.states } : Setting).Sure d false v := by
  intro n hn
  obtain ⟨k, hk, hc⟩ :=
    hd.value S.env v n (fun fs hfs => h _ ⟨hfs.trans hs.symm, hn.base⟩) hn.states
  exact ⟨false, k, hk, hc, rfl⟩

theorem Setting.Kept.ahead {S : Setting} {cells : Cells} (hs : S.states = old.states)
    (hd : ∀ i d, S.kept i = some d → d.Lasts old new) (h : S.Kept false cells) :
    ({ S with states := new.states } : Setting).Kept false cells :=
  ⟨h.base, fun i d v hi hv => (h.sure i d v hi hv).ahead hs (hd i d hi)⟩

/-- A heap that keeps nothing but what its deferred values mean still does after futures were
settled. -/
theorem Heap.Sound.ahead (ha : old.Ahead new) {made : Array Thunk} {h : Heap}
    (ht : Thunk.AllTidy made) (hs : h.Sound made) (ho : h.futures.states = old.states)
    (hb : h.blurred = false) : ({ h with futures := new } : Heap).Sound made where
  size := hs.size
  thunks id t g hid hg := by
    have hlt : id < made.size := (Array.getElem?_eq_some_iff.1 hg).1
    have hsound := hs.thunks id t g hid hg
    rw [hb] at hsound
    change Thunk.Sound made new.states h.blurred id g t
    rw [hb]
    refine ⟨hsound.code, hsound.env, fun v hv env n hn => ?_, fun hr => ?_⟩
    · obtain ⟨k, hk, hc⟩ :=
        (Thunk.meaning_lasts ha ht id).value env v n (fun fs hfs =>
          hsound.result v hv env _ (hfs.trans ho.symm)) hn
      exact ⟨false, k, hk, hc, rfl⟩
    · exact (hsound.cells hr).ahead ho fun i d hd =>
        Table.meanings_lasts ha (Thunk.meaningBelow_lasts ha ht (Nat.le_of_lt hlt)) hd

end Lasts

/-- What may be kept is told by cells, environment and states of futures. -/
theorem Setting.Kept.congr {S T : Setting} {blurred : Bool} {cells : Cells}
    (h : S.Kept blurred cells) (hs : T.states = S.states) (he : T.env = S.env)
    (hb : T.base = S.base) (hk : T.kept = S.kept) :
    T.Kept blurred cells := by
  obtain ⟨made, states, env, base, kept⟩ := T
  subst hs he hb hk
  exact ⟨h.base, fun i d v hi hv n hn => h.sure i d v hi hv n ⟨hn.states, hn.base⟩⟩

/-- A deferred value is made. -/
theorem Heap.Sound.push {made : Array Thunk} {h : Heap} (hs : h.Sound made) {t : Thunk}
    (hr : t.result = none) (hc : ∀ i v, t.code.table i ≠ none → t.cells.read i ≠ .value v)
    (fresh : Identity) :
    ({ h with thunks := h.thunks.push t, fresh } : Heap).Sound (made.push t) where
  size := by simp [hs.size]
  thunks id u g hu hg := by
    have he := Thunk.Extends.push made t
    rw [Array.getElem?_push] at hu hg
    rw [hs.size] at hu
    split at hu
    · next hid =>
      subst hid
      rw [if_pos rfl] at hg
      cases hu
      cases hg
      refine ⟨rfl, rfl, fun v hv => ?_, fun _ => ⟨fun _ _ => rfl, fun i d v hi hv => ?_⟩⟩
      · rw [hr] at hv
        cases hv
      · refine (hc i v (fun hnone => ?_) hv).elim
        have hi : (t.code.table i).map _ = some d := hi
        rw [hnone] at hi
        cases hi
    · next hid =>
      rw [if_neg hid] at hg
      have hlt : id < made.size := (Array.getElem?_eq_some_iff.1 hg).1
      have hsound := hs.thunks id u g hu hg
      refine ⟨hsound.code, hsound.env, ?_, fun hn => (hsound.cells hn).congr rfl rfl rfl ?_⟩
      · rw [Thunk.meaning_extends he hlt]
        exact hsound.result
      · simp only [Setting.ofThunk]
        rw [Thunk.meaningBelow_extends he (Nat.le_of_lt hlt)]

/-! ## Two memories -/

/-- An end that lasts: a result or a failure. -/
def Stop.Settles {α : Type} : Except Stop α → Prop
  | .ok _ => True
  | .error (.failed _) => True
  | _ => False

theorem Stop.Settles.stays {α : Type} {r : Except Stop α} (h : Settles r) (old new : Futures) :
    Stays old new r := by
  cases r with
  | ok a => trivial
  | error e =>
    cases e with
    | failed cause => trivial
    | _ => exact h.elim

/-- Memory after an evaluation that kept results in the cells of a table. -/
structure Memory.Moves (table : Table) (m m' : Memory) : Prop where
  states : m'.states = m.states
  fresh : m'.heap.fresh = m.heap.fresh
  size : m'.cells.size = m.cells.size
  rest : ∀ i, table i = none → m'.cells.read i = m.cells.read i

/-- The setting of code whose cells are as a table says. -/
def Setting.ofMemory (made : Array Thunk) (table : Table) (env : Env) (m : Memory) : Setting :=
  { made, states := m.states, env, base := m.cells, kept := table.meanings (Thunk.meaning made) }

/-- Memory keeps nothing but what deferred values and the code at hand mean. -/
structure Memory.Keeps (made : Array Thunk) (table : Table) (env : Env) (m : Memory) : Prop where
  heap : m.heap.Sound made
  kept : (Setting.ofMemory made table env m).Kept m.blurred m.cells

/-- Memory whose cells keep nothing yet. -/
theorem Memory.Keeps.of_clean {made : Array Thunk} {table : Table} {m : Memory}
    (h : m.heap.Sound made) (hc : ∀ j v, table j ≠ none → m.cells.read j ≠ .value v) (env : Env) :
    m.Keeps made table env := by
  refine ⟨h, fun _ _ => rfl, fun j d v hd hv => (hc j v (fun hnone => ?_) hv).elim⟩
  have hd : (table j).map _ = some d := hd
  rw [hnone] at hd
  cases hd

/-- Code starts on cells that are empty. -/
theorem Memory.Keeps.of_cleared {made : Array Thunk} {table : Table} {heap : Heap}
    (h : heap.Sound made) (size : Nat) (env : Env) :
    (⟨Cells.cleared size, heap⟩ : Memory).Keeps made table env := by
  refine .of_clean h (fun j v _ hv => ?_) env
  have hempty : (Cells.cleared size).read j = Cell.empty := Cells.read_cleared ..
  rw [hempty] at hv
  cases hv

/-- What memory keeps lasts when futures are settled, unless it was blurred. -/
theorem Memory.Keeps.ahead {made : Array Thunk} {table : Table} {env : Env} {m : Memory}
    {fs : Futures} (h : m.Keeps made table env) (ht : Thunk.AllTidy made) (hb : m.blurred = false)
    (ha : m.heap.futures.Ahead fs) :
    ({ m with heap := { m.heap with futures := fs } } : Memory).Keeps made table env := by
  refine ⟨h.heap.ahead ha ht rfl hb, ?_⟩
  have hkept := h.kept
  rw [hb] at hkept
  change Setting.Kept _ m.blurred m.cells
  rw [hb]
  have hold : (Setting.ofMemory made table env m).states = m.heap.futures.states := rfl
  exact hkept.ahead hold fun i d hd => Table.meanings_lasts ha (Thunk.meaning_lasts ha ht) hd

/-- Two memories of which the second has settled more futures, and in which the cells that are seen
are the same. -/
structure Paired (made : Array Thunk) (table : Table) (see : Seeing) (env : Env)
    (m k : Memory) : Prop where
  tidy : Thunk.AllTidy made
  ahead : m.heap.futures.Ahead k.heap.futures
  first : m.Keeps made table env
  second : k.Keeps made table env
  cells : ∀ i, see i → m.cells.read i = k.cells.read i
  thunks : ∀ i id, see i → m.cells.read i = .thunk id → id < made.size

theorem Eval.ending_inj {α : Type} {r r' : Except Stop α} {m m' : Memory}
    (h : ending r m = ending r' m') :
    r = r' ∧ m = m' := by
  cases r <;> cases r' <;> cases h <;> exact ⟨rfl, rfl⟩

/-- The cells as they are now may be taken for the cells before the code ran. -/
theorem Setting.Kept.rebase {S : Setting} {blurred : Bool} {cells : Cells}
    (h : S.Kept blurred cells) :
    ({ S with base := cells } : Setting).Kept blurred cells :=
  ⟨fun _ _ => rfl, fun i d v hi hv n hn =>
    h.sure i d v hi hv n ⟨hn.states, fun j hj => (hn.base j hj).trans (h.base j hj)⟩⟩

/-- What is kept does not depend on cells that no code reads. -/
theorem Memory.Keeps.reframe {made : Array Thunk} {table : Table} {see : Seeing}
    {env : Env} {m : Memory} (ht : Thunk.AllTidy made) (h : m.Keeps made table env)
    (hb : m.blurred = false) (hs : ∀ i, see i → table i = none)
    (htouch : ∀ i p x, table i = some (p, x) → x.Touches see (fun _ _ _ => True) p)
    (hthunks : ∀ i id, see i → m.cells.read i = .thunk id → id < made.size) {cells : Cells}
    (hsee : ∀ i, see i → cells.read i = m.cells.read i)
    (htable : ∀ i, table i ≠ none → cells.read i = m.cells.read i) :
    ({ m with cells } : Memory).Keeps made table env := by
  refine ⟨h.heap, fun _ _ => rfl, fun i d v hd hv n hn => ?_⟩
  obtain ⟨⟨p, x⟩, hx, rfl⟩ := Option.map_eq_some_iff.1 hd
  have hold := h.kept.sure i _ v hd ((htable i (by rw [hx]; simp)).symm.trans hv)
  let clear : Memory := ⟨m.cells, { n.heap with blurred := false }⟩
  obtain ⟨b, k, hk, hc, hbk⟩ := hold clear ⟨hn.states, fun _ _ => rfl⟩
  -- the term reads no cell that differs
  let Q : Sequel :=
    { made, later := made, old := n.heap.futures, new := n.heap.futures, env, base := m.cells, see }
  have hlast : Congruence Q.Outlasts Q.see (fun _ _ _ => True) (.meaning made) (.meaning made) :=
    Q.meaning ht (.refl made) (.refl _) hthunks
  obtain ⟨r, b', k', hk', hc', hlater⟩ :=
    hlast.term x p (htouch i p x hx) clear ⟨rfl, fun _ _ => rfl⟩
  have hk : Term.eval (.meaning made) p x env clear = .ok v k := hk
  have hr : Eval.ending (.ok v) k = Eval.ending r k' := hk.symm.trans hk'
  obtain ⟨rfl, rfl⟩ := Eval.ending_inj hr
  have hclear : b' = false := by
    have h₁ : k.blurred = (false || b) := hc.blurred
    have h₂ : k.blurred = (false || b') := hc'.blurred
    rw [hb] at hbk
    simp_all
  have hcells (j : Nat) (hj : see j) : n.cells.read j = m.cells.read j := by
    have hnone : table.meanings (Thunk.meaning made) j = none := by
      change (table j).map _ = none
      rw [hs j hj]
      rfl
    exact (hn.base j hnone).trans (hsee j hj)
  obtain ⟨l, hl, hcl⟩ := hlater n ⟨rfl, hcells⟩ (.inr hclear) trivial
  refine ⟨b', l, hl, hcl, ?_⟩
  rw [hclear]
  exact Bool.or_false _

section

variable {made : Array Thunk} {table : Table} {see : Seeing} {env : Env} {m k : Memory}
  {keep : Keeping}
  {valued : Nat → Prop} {α : Type} {act : Strategy → Eval α}

/-- What an evaluation comes to is what its code means, and it leaves memory that keeps nothing
else. -/
theorem Memory.Keeps.eval (ht : Thunk.AllTidy made) (h : m.Keeps made table env)
    (ha : Operand see keep valued act) (hs : ∀ i, see i → table i = none)
    (hk : ∀ p i x, keep p i x → table i = some (p, x)) :
    ∃ r m' n b, act .usual env m = Eval.ending r m' ∧ act (.meaning made) env m = Eval.ending r n ∧
      m.Moves table m' ∧ m'.Keeps made table env ∧ m'.blurred = (m.blurred || b) ∧ Calm b m n := by
  let S := Setting.ofMemory made table env m
  have hcong : Congruence S.Tracks see keep .usual (.meaning made) :=
    (S.usual ht rfl).weaken hs hk
  have hcontent (i : Nat) (hi : see i) : S.Tracks Value (Eval.content i) (Eval.content i) := by
    refine hcong.bind (hcong.cell i hi) fun c => ?_
    cases c with
    | value v => exact hcong.pure v
    | _ => exact fun m hm n _ => ⟨rfl, Setting.Step.refl hm n⟩
  have hrun := ha hcong (fun i _ => hcontent i) m ⟨rfl, h.heap, h.kept⟩ m ⟨rfl, fun _ _ => rfl⟩
  have hstep {m' n : Memory} (hstep : S.Step m m m' n) : m.Moves table m' ∧
      m'.Keeps made table env ∧ ∃ b, m'.blurred = (m.blurred || b) ∧ Calm b m n := by
    have hkept := hstep.sound.kept.rebase
    refine ⟨⟨hstep.sound.states, hstep.fresh, hstep.size, fun i hi => ?_⟩,
      ⟨hstep.sound.heap, ?_⟩, hstep.calm⟩
    · refine hstep.sound.kept.base i ?_
      change (table i).map _ = none
      rw [hi]
      rfl
    · exact hkept.congr hstep.sound.states rfl rfl rfl
  change S.Follows m m (act .usual env m) (act (.meaning made) env m) at hrun
  cases hx : act .usual env m with
  | ok a m' =>
    cases hy : act (.meaning made) env m with
    | ok b n =>
      rw [hx, hy] at hrun
      obtain ⟨rfl, hs⟩ := hrun
      obtain ⟨hmove, hkeeps, b, hb, hc⟩ := hstep hs
      exact ⟨.ok a, m', n, b, rfl, rfl, hmove, hkeeps, hb, hc⟩
    | error f n =>
      rw [hx, hy] at hrun
      exact hrun.elim
  | error e m' =>
    cases hy : act (.meaning made) env m with
    | ok b n =>
      rw [hx, hy] at hrun
      exact hrun.elim
    | error f n =>
      rw [hx, hy] at hrun
      obtain ⟨rfl, hs⟩ := hrun
      obtain ⟨hmove, hkeeps, b, hb, hc⟩ := hstep hs
      exact ⟨.error e, m', n, b, rfl, rfl, hmove, hkeeps, hb, hc⟩

/-- Code that is evaluated in two memories comes in the second to what it came to in the first, if
that stays and nothing was blurred. -/
theorem Paired.eval (h : Paired made table see env m k) (ha : Operand see keep valued act)
    (hs : ∀ i, see i → table i = none) (hk : ∀ p i x, keep p i x → table i = some (p, x)) :
    ∃ r m', act .usual env m = Eval.ending r m' ∧ m.Moves table m' ∧
    Paired made table see env m' k ∧
    (m'.blurred = false → Stop.Stays m.heap.futures k.heap.futures r →
      ∃ k', act .usual env k = Eval.ending r k' ∧ k.Moves table k' ∧
      Paired made table see env m' k') := by
  obtain ⟨r, m', n, b, hx, hy, hmove, hkeeps, hb, hc⟩ := h.first.eval h.tidy ha hs hk
  have hcells (i : Nat) (hi : see i) : m'.cells.read i = m.cells.read i := hmove.rest i (hs i hi)
  have hahead : m'.heap.futures.Ahead k.heap.futures := h.ahead.congr hmove.states rfl
  have hthunks (i : Nat) (id : ThunkId) (hi : see i) (hc : m'.cells.read i = .thunk id) :
      id < made.size :=
    h.thunks i id hi ((hcells i hi).symm.trans hc)
  refine ⟨r, m', hx, hmove,
    ⟨h.tidy, hahead, hkeeps, h.second, fun i hi => (hcells i hi).trans (h.cells i hi), hthunks⟩,
    fun hclear hr => ?_⟩
  -- the meaning of the code lasts
  let Q : Sequel := { made, later := made, old := m.heap.futures, new := k.heap.futures, env,
                      base := m.cells, see }
  have hlast : Congruence Q.Outlasts Q.see (fun _ _ _ => True) (.meaning made) (.meaning made) :=
    Q.meaning h.tidy (.refl made) h.ahead h.thunks
  have hcontent (i : Nat) (hi : see i) : Q.Outlasts Value (Eval.content i) (Eval.content i) := by
    refine hlast.bind (hlast.cell i hi) fun c => ?_
    cases c with
    | value v => exact hlast.pure v
    | _ => exact Sequel.Outlasts.of_result (.error .broken) (fun _ _ _ => rfl) fun _ _ _ => rfl
  obtain ⟨r₁, b₁, n₁, hy₁, hc₁, hlater⟩ :=
    ha (hlast.weaken (fun _ hi => hi) fun _ _ _ _ => trivial) (fun i _ => hcontent i) m
      ⟨rfl, fun _ _ => rfl⟩
  obtain ⟨rfl, rfl⟩ := Eval.ending_inj (hy.symm.trans hy₁)
  have hb₁ : b₁ = false := by
    have h₁ := hc.blurred
    have h₂ := hc₁.blurred
    rw [hclear] at hb
    simp_all
  obtain ⟨n', hyk, _⟩ := hlater k ⟨rfl, fun i hi => (h.cells i hi).symm⟩ (.inr hb₁) hr
  obtain ⟨r₂, k', _, _, hxk, hyk', hmove', hkeeps', _⟩ := h.second.eval h.tidy ha hs hk
  obtain ⟨rfl, _⟩ := Eval.ending_inj (hyk.symm.trans hyk')
  refine ⟨k', hxk, hmove', h.tidy, hahead.congr rfl hmove'.states, hkeeps, hkeeps',
    fun i hi => ?_, hthunks⟩
  rw [hcells i hi, h.cells i hi, hmove'.rest i (hs i hi)]

end

end Interlude
