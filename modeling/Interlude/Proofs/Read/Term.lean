import Interlude.Proofs.Read.Account
/-!
# Guarded code is accounted for

The visits of guarded terms account for their evaluation, and so do those of deferred values with
guarded code (`Compiled.accounts`).
-/

namespace Interlude

/-! ## Code that reads nothing -/

/-- Operands are passed over, and nothing else happens. -/
def Trace.Calm (tr : Trace) : Prop := ∀ env m, ∀ v ∈ tr env m, v.kind = .skipped

namespace Trace.Calm

variable {tr : Trace} {α : Type}

theorem silent : Trace.silent.Calm := fun _ _ _ h => by cases h

theorem skip (i : Nat) : (Trace.skip i).Calm := fun _ _ v h => by
  rw [List.mem_singleton.1 h]

theorem operand (h : tr.Calm) (i : Nat) : (Trace.operand i tr).Calm := by
  intro env m v hv
  obtain ⟨u, hu, rfl⟩ := List.mem_map.1 hv
  rw [Visit.kind_inOperand]
  exact h env m u hu

theorem andThen (h : tr.Calm) (x : Eval α) {next : α → Trace} (hn : ∀ a, (next a).Calm) :
    (tr.andThen x next).Calm := by
  intro env m v hv
  rcases List.mem_append.1 hv with hv | hv
  · exact h env m v hv
  · cases hr : x env m with
    | error e m' => rw [hr] at hv; cases hv
    | ok a m' => rw [hr] at hv; exact hn a env m' v hv

theorem instead (h : tr.Calm) (i j : Nat) : (Trace.instead i j tr).Calm := fun env m v hv =>
  (List.mem_append.1 hv).elim (skip i env m v) (h.operand j env m v)

theorem kept (h : tr.Calm) (slot : Nat) : (Trace.kept slot tr).Calm := by
  intro env m v hv
  unfold Trace.kept at hv
  split at hv
  · cases hv
  · exact h.operand 0 env m v hv

theorem call {f : Function} (hf : f ≠ .join) (args : List Value) : (Trace.call f args).Calm := by
  unfold Trace.call
  split
  · exact (hf rfl).elim
  · exact silent

end Trace.Calm

/-- A term that reads nothing visits nothing. -/
theorem Term.visits_calm (force : ThunkId → Eval Value) (forced : ThunkId → Trace) {see : Seeing}
    {n : Nat} {f : Form} (x : Term f) : ∀ p, x.Guarded see n true →
    (x.visits force forced p).Calm := by
  induction x with
  | const | constInt | constFloat | constBool | constStr | cellInt | cellFloat | cellBool | cellStr
  | isFirst | isLast | nil | noEntries => exact fun _ _ => .silent
  | param | field | item => exact fun _ h => by simp [Guarded] at h
  | «local» b =>
    intro p h env m v hv
    obtain ⟨hl, hk⟩ := h.2 rfl
    simp only [visits, Binding.visits, hl] at hv
    split at hv
    · exact (hk ‹_›).elim
    · cases hv
  | boxInt x ih | boxFloat x ih | boxBool x ih | boxStr x ih | unboxInt x ih | unboxFloat x ih
  | widen x ih | truthy x ih | textOfInt x ih | textOfFloat x ih | textOfBool x ih | text x ih
  | not x ih | negInt x ih | negFloat x ih | neg x ih | list x ih | map x ih | record _ x ih =>
    exact fun p h => (ih _ h.2).operand 0
  | arithInt _ x y ihx ihy | arithFloat _ x y ihx ihy | arith _ x y ihx ihy | concat x y ihx ihy
  | compareInt _ x y ihx ihy | compareFloat _ x y ihx ihy | compareStr _ x y ihx ihy
  | compare _ x y ihx ihy | cons x y ihx ihy =>
    exact fun p h => ((ihx _ h.1.2).operand 0).andThen _ fun _ => (ihy _ h.2.2).operand 1
  | both x y ihx ihy | either x y ihx ihy | coalesce x y ihx ihy =>
    intro p h
    refine ((ihx _ h.1.2).operand 0).andThen _ fun a => ?_
    split
    · first | exact (ihy _ h.2.2).operand 1 | exact .skip 1
    · first | exact (ihy _ h.2.2).operand 1 | exact .skip 1
  | cond c x y ihc ihx ihy =>
    intro p h
    refine ((ihc _ h.1.2).operand 0).andThen _ fun a => ?_
    split
    · exact (ihx _ h.2.1.2).instead 2 1
    · exact (ihy _ h.2.2.2).instead 1 2
  | call g args ih => exact fun p h => ((ih _ h.2.2).operand 0).andThen _ fun vs => .call h.1 vs
  | memo slot x ih => exact fun p h => (ih p h.2.2).kept slot
  | entry k x r ihk ihx ihr =>
    intro p h
    refine ((ihk _ h.1.2).operand 0).andThen _ fun key =>
      ((ihx _ h.2.1.2).operand 1).andThen _ fun _ => ?_
    split
    · exact .silent
    · exact (ihr _ h.2.2.2).operand 2

/-! ## Decisions -/

theorem Term.ways_nil {f : Form} (x : Term f) : x.ways [] = [] := by
  cases x <;> rfl

theorem Eval.read_of_kept {slot : Nat} {x : Eval Value} {env : Env} {m m' : Memory} {v : Value}
    (h : Eval.kept slot x env m = .ok v m') (hs : slot < m'.cells.size) :
    m'.cells.read slot = .value v := by
  have hcell : Eval.cell slot env m = .ok (m.cells.read slot) m := rfl
  unfold Eval.kept at h
  rw [Eval.bind_apply, hcell] at h
  simp only at h
  cases hc : m.cells.read slot with
  | value w =>
    rw [hc] at h
    cases h
    exact hc
  | _ =>
    rw [hc] at h
    simp only [Cell.value?] at h
    rw [Eval.bind_apply] at h
    cases hx : x env m with
    | error e k => rw [hx] at h; cases h
    | ok w k =>
      rw [hx] at h
      cases h
      have hsize : slot < k.cells.size := by simpa [Cells.size_write] using hs
      rw [Cells.read_write]
      exact if_pos ⟨rfl, hsize⟩

/-- A cell that is not an evaluation's own stays as it was. -/
theorem Eval.Leaves.read {own : Nat → Prop} {m : Memory} {α : Type}
    {r : EStateM.Result Stop Memory α} (h : Eval.Leaves own m r) {i : Nat} (hi : ¬own i) :
    (left r).cells.read i = m.cells.read i := by
  cases r with
  | ok a m' => exact Memory.Later.rest h i hi
  | error e m' => exact h.2.rest i hi

namespace Term

variable {force : ThunkId → Eval Value} {see : Seeing} {n slot : Nat} {calm : Bool} {p : List Nat}
  {env : Env} {m m' : Memory}

/-- What a decision is made by is in the cell that holds it. -/
theorem read_of_held {x : Term .boxed} (h : x.held = some slot)
    (hg : x.Guarded see n calm) {v : Value} (hr : x.eval (.keeping force) p env m = .ok v m')
    (hn : n ≤ m'.cells.size) : m'.cells.read slot = .value v := by
  cases x with
  | memo s y =>
    cases h
    exact Eval.read_of_kept hr (Nat.lt_of_lt_of_le hg.1 hn)
  | _ => cases h

theorem truthy_of_held {x : Term .bool} (h : x.held = some slot)
    (hg : x.Guarded see n calm) {b : Bool} (hr : x.eval (.keeping force) p env m = .ok b m')
    (hn : n ≤ m'.cells.size) :
    ∃ v, m'.cells.read slot = .value v ∧ v.truthy = b := by
  cases x with
  | truthy y =>
    cases y with
    | memo s z =>
      cases h
      change (Term.eval (.keeping force) p (.memo slot z) >>= fun v : Value => pure v.truthy)
        env m = .ok b m' at hr
      rw [Eval.bind_apply] at hr
      cases hy : Term.eval (.keeping force) p (.memo slot z) env m with
      | error e k => rw [hy] at hr; cases hr
      | ok v k =>
        rw [hy] at hr
        cases hr
        exact ⟨v, Eval.read_of_kept hy (Nat.lt_of_lt_of_le hg.2.1 hn), rfl⟩
    | _ => cases h
  | _ => cases h

/-- Live deferred values are accounted for, whatever code reads them, and leave alone what is not
theirs. -/
structure Defers (live reach : ThunkId → Prop) (force : ThunkId → Eval Value)
    (forced : ThunkId → Trace) : Prop where
  accounts : ∀ size see ways id, live id →
    (forced id).Accounts ⟨size, see, live⟩ reach false ways (force id)
  tame : ∀ own valued env id, Eval.Tame own valued env Value (force id) (force id)

variable {g : Guard} {reach : ThunkId → Prop} {forced : ThunkId → Trace}

/-- The visits of a local that is read in a cell. -/
theorem accounts_local (hf : Defers g.live reach force forced) {b : Binding}
    (hb : b.loop = none → b.kind = .thunk → g.see b.slot) :
    (b.visits forced).Accounts g reach b.loop.isSome (Term.local b).ways (b.eval force) := by
  intro env m hm
  have hcell (i : Nat) : Eval.cell i env m = .ok (m.cells.read i) m := rfl
  unfold Binding.visits Binding.eval
  rw [Eval.bind_apply, hcell]
  obtain ⟨slot, kind, loop⟩ := b
  cases loop with
  | some il =>
    cases m.cells.read slot with
    | value v =>
      cases v with
      | list o items => exact .read hm (ways_nil _) _ env
      | _ => exact .nothing hm rfl rfl rfl
    | _ => exact .nothing hm rfl rfl rfl
  | none =>
    cases kind with
    | thunk =>
      cases hc : m.cells.read slot with
      | thunk id =>
        have hlive : g.live id := hm.locals slot id (hb rfl rfl) hc
        have hneed : Account g reach false (Term.local ⟨slot, .thunk, none⟩).ways
            [{ kind := .forced id }] m (.ok () m : EStateM.Result Stop Memory Unit) :=
            .force hm rfl (ways_nil _) id
        exact hneed.append (ways_extend _) (hf.accounts _ _ _ id hlive env m hm)
      | _ => exact .nothing hm rfl rfl rfl
    | _ => exact .nothing hm rfl rfl rfl

section

variable {f f' : Form} {x : Term f} {y : Term f'} {q : List Nat} {bare : Bool} {ways : Ways}

/-- The visits to an operand. -/
theorem accounts_operand (hb : x.bare = false)
    (hx : (x.visits force forced p).Accounts g reach x.bare x.ways (x.eval (.keeping force) p))
    {i : Nat} (hw : ∀ path, ways (i :: path) = x.ways path) :
    (Trace.operand i (x.visits force forced p)).Accounts g reach bare ways
      (x.eval (.keeping force) p) := by
  rw [hb] at hx
  exact hx.operand hw

/-- The visits to two operands that are evaluated one after the other. -/
theorem accounts_pair (he : ways.Extend) (hbx : x.bare = false) (hby : y.bare = false)
    (hx : (x.visits force forced p).Accounts g reach x.bare x.ways (x.eval (.keeping force) p))
    (hy : (y.visits force forced q).Accounts g reach y.bare y.ways (y.eval (.keeping force) q))
    (hw₀ : ∀ path, ways (0 :: path) = x.ways path) (hw₁ : ∀ path, ways (1 :: path) = y.ways path)
    {α : Type} {op : f.carrier → f'.carrier → Eval α} (ho : ∀ a b, (op a b).Quiet) :
    ((Trace.operand 0 (x.visits force forced p)).andThen (x.eval (.keeping force) p) fun _ =>
      .operand 1 (y.visits force forced q)).Accounts g reach bare ways
        (x.eval (.keeping force) p >>= fun a => y.eval (.keeping force) q >>= fun b => op a b) :=
  .andThen he (accounts_operand hbx hx hw₀) fun env _ a m' _ _ hm' =>
    (Trace.Accounts.bind he (accounts_operand hby hy hw₁) (ho a)) env m' hm'

/-- The visits to an operand over which a decision is made. -/
theorem accounts_gated (hb : y.bare = false) {c : Option Nat}
    (hg : y.Guarded g.see g.size (calm || c.isNone))
    (hy : (y.visits force forced q).Accounts g reach y.bare y.ways (y.eval (.keeping force) q))
    {i : Nat} {opens : Value → Bool} (hw : ∀ path, ways (i :: path) = .gate c opens :: y.ways path)
    (hm : m.Ready g) (ho : ∀ s, c = some s → ∃ v, m.cells.read s = .value v ∧ opens v = true) :
    Account g reach bare ways (Trace.operand i (y.visits force forced q) env m) m
      (y.eval (.keeping force) q env m) := by
  have h := hy env m hm
  rw [hb] at h
  refine h.gated hw ho (fun hn => ?_) bare
  rw [hn] at hg
  exact visits_calm force forced y q (by simpa using hg) env m

end

theorem visits_param (name : String) (injected : Bool) (p : List Nat) (env : Env) (m : Memory) :
    (param name injected).visits force forced p env m =
      match (if injected then env.injected else env.params).lookup name with
      | some v => Trace.read v env m
      | none => [] := rfl

theorem eval_param (s : Strategy) (name : String) (injected : Bool) (p : List Nat) (env : Env)
    (m : Memory) :
    (param name injected).eval s p env m =
      match (if injected then env.injected else env.params).lookup name with
      | some v => Eval.resolve v env m
      | none => .ok .undefined m := by
  change (match (if injected then env.injected else env.params).lookup name with
    | some v => Eval.resolve v
    | none => pure Value.undefined : Eval Value) env m = _
  cases (if injected then env.injected else env.params).lookup name <;> rfl

/-- The visits of a guarded term account for its evaluation. -/
theorem accounts (hf : Defers g.live reach force forced) {f : Form} (x : Term f) :
    ∀ {calm : Bool} (p : List Nat), x.Guarded g.see g.size calm →
    (x.visits force forced p).Accounts g reach x.bare x.ways (x.eval (.keeping force) p) := by
  induction x with
  | const | constInt | constFloat | constBool | constStr | nil | noEntries =>
    exact fun p _ => .quiet (.pure _)
  | cellInt i | cellFloat i | cellBool i | cellStr i | isFirst i =>
    exact fun p _ => .quiet ((Eval.Quiet.cell i).bind fun _ => .pure _)
  | isLast i l =>
    exact fun p _ => .quiet ((Eval.Quiet.cell i).bind fun _ =>
      (Eval.Quiet.cell l).bind fun _ => .pure _)
  | param name injected =>
    intro calm p _ env m hm
    rw [visits_param, eval_param]
    cases (if injected then env.injected else env.params).lookup name with
    | some v => exact .read hm (ways_nil _) v env
    | none => exact .nothing hm rfl rfl rfl
  | «local» b => exact fun p h => accounts_local hf h.1
  | boxInt x ih | boxFloat x ih | boxBool x ih | boxStr x ih | widen x ih | truthy x ih
  | textOfInt x ih | textOfFloat x ih | textOfBool x ih | not x ih | negInt x ih | negFloat x ih =>
    exact fun p h => .bind (ways_extend _) (accounts_operand h.1 (ih p h.2) fun _ => rfl) fun _ =>
      .pure _
  | unboxInt x ih | unboxFloat x ih | neg x ih =>
    exact fun p h => .bind (ways_extend _) (accounts_operand h.1 (ih p h.2) fun _ => rfl) fun _ =>
      .ofExcept _
  | text x ih =>
    exact fun p h => .bind (ways_extend _) (accounts_operand h.1 (ih p h.2) fun _ => rfl) fun v =>
      .text v
  | arithInt op x y ihx ihy | compare op x y ihx ihy =>
    exact fun p h => accounts_pair (ways_extend _) h.1.1 h.2.1 (ihx _ h.1.2) (ihy _ h.2.2) (fun _ =>
      rfl) (fun _ => rfl)
      fun _ _ => .ofExcept _
  | arithFloat op x y ihx ihy | concat x y ihx ihy | compareInt op x y ihx ihy
  | compareFloat op x y ihx ihy
  | compareStr op x y ihx ihy | cons x y ihx ihy =>
    exact fun p h => accounts_pair (ways_extend _) h.1.1 h.2.1 (ihx _ h.1.2) (ihy _ h.2.2) (fun _ =>
      rfl) (fun _ => rfl)
      fun _ _ => .pure _
  | arith op x y ihx ihy =>
    exact fun p h => accounts_pair (ways_extend _) h.1.1 h.2.1 (ihx _ h.1.2) (ihy _ h.2.2) (fun _ =>
      rfl) (fun _ => rfl)
      fun _ _ => .arith op _ _
  | both x y ihx ihy =>
    intro calm p h
    refine .andThen (ways_extend _) (accounts_operand h.1.1 (ihx _ h.1.2) fun _ => rfl)
      fun env m a m' _ hr hm' => ?_
    have held (s : Nat) (hs : x.held = some s) := truthy_of_held hs h.1.2 hr hm'.size
    cases a with
    | true => exact accounts_gated h.2.1 h.2.2 (ihy _ h.2.2) (fun _ => rfl) hm' held
    | false => exact .skip hm' rfl List.mem_cons_self held _
  | either x y ihx ihy =>
    intro calm p h
    refine .andThen (ways_extend _) (accounts_operand h.1.1 (ihx _ h.1.2) fun _ => rfl)
      fun env m a m' _ hr hm' => ?_
    have held (s : Nat) (hs : x.held = some s) : ∃ v, m'.cells.read s = .value v ∧
        (!v.truthy) = !a := by
      obtain ⟨v, hv, ha⟩ := truthy_of_held hs h.1.2 hr hm'.size
      exact ⟨v, hv, congrArg _ ha⟩
    cases a with
    | true => exact .skip hm' rfl List.mem_cons_self held _
    | false => exact accounts_gated h.2.1 h.2.2 (ihy _ h.2.2) (fun _ => rfl) hm' held
  | coalesce x y ihx ihy =>
    intro calm p h
    refine .andThen (ways_extend _) (accounts_operand h.1.1 (ihx _ h.1.2) fun _ => rfl)
      fun env m a m' _ hr hm' => ?_
    have held (s : Nat) (hs : x.held = some s) : ∃ v, m'.cells.read s = .value v ∧
        v.isNullish = Value.isNullish a :=
      ⟨a, read_of_held hs h.1.2 hr hm'.size, rfl⟩
    split
    · next hn =>
      rw [hn] at held
      exact accounts_gated h.2.1 h.2.2 (ihy _ h.2.2) (fun _ => rfl) hm' held
    · next hn =>
      rw [Bool.not_eq_true] at hn
      rw [hn] at held
      exact .skip hm' rfl List.mem_cons_self held _
  | cond c x y ihc ihx ihy =>
    intro calm p h
    refine .andThen (ways_extend _) (accounts_operand h.1.1 (ihc _ h.1.2) fun _ => rfl)
      fun env m a m' _ hr hm' => ?_
    have held (s : Nat) (hs : c.held = some s) := truthy_of_held hs h.1.2 hr hm'.size
    have unheld (s : Nat) (hs : c.held = some s) : ∃ v, m'.cells.read s = .value v ∧
        (!v.truthy) = !a := by
      obtain ⟨v, hv, ha⟩ := held s hs
      exact ⟨v, hv, congrArg _ ha⟩
    cases a with
    | true =>
      have hskip : Account g reach false (cond c x y).ways [{ kind := .skipped, path := [2] }] m'
          (.ok () m' : EStateM.Result Stop Memory Unit) := .skip hm' rfl List.mem_cons_self unheld _
      exact hskip.append (ways_extend _)
        (accounts_gated h.2.1.1 h.2.1.2 (ihx _ h.2.1.2) (fun _ => rfl) hm' held)
    | false =>
      have hskip : Account g reach false (cond c x y).ways [{ kind := .skipped, path := [1] }] m'
          (.ok () m' : EStateM.Result Stop Memory Unit) := .skip hm' rfl List.mem_cons_self held _
      exact hskip.append (ways_extend _)
        (accounts_gated h.2.2.1 h.2.2.2 (ihy _ h.2.2.2) (fun _ => rfl) hm' unheld)
  | field x name nullSafe ih =>
    intro calm p h
    exact .andThen (ways_extend _) (accounts_operand h.2.1 (ih _ h.2.2) fun _ => rfl)
        fun env m v m' _ _ hm' =>
      Trace.Accounts.field (ways_nil _) v name nullSafe env m' hm'
  | item x key nullSafe ihx ihk =>
    intro calm p h
    refine .andThen (ways_extend _) (accounts_operand h.2.1.1 (ihx _ h.2.1.2) fun _ => rfl)
      fun env m v m' _ hr hm' => ?_
    have held (s : Nat) (hs : x.held = some s) :
        ∃ w, m'.cells.read s = .value w ∧ (!w.isNullish) = !Value.isNullish v :=
      ⟨v, read_of_held hs h.2.1.2 hr hm'.size, rfl⟩
    split
    · next hn =>
      rw [hn] at held
      cases nullSafe with
      | true => exact .skip hm' rfl List.mem_cons_self held _
      | false => exact .skip hm' rfl List.mem_cons_self held _
    · next hn =>
      rw [Bool.not_eq_true] at hn
      rw [hn] at held
      have hkey : Account g reach false (item x key nullSafe).ways
          (Trace.operand 1 (key.visits force forced (1 :: p)) env m') m'
              (key.eval (.keeping force) (1 :: p) env m') :=
        accounts_gated h.2.2.1 h.2.2.2 (ihk _ h.2.2.2) (fun _ => rfl) hm' held
      exact hkey.andThen (ways_extend _) fun k m'' _ hm'' =>
        Trace.Accounts.item (ways_nil _) v k env m'' hm''
  | list items ih =>
    exact fun p h => .bind (ways_extend _) (accounts_operand h.1 (ih _ h.2) fun _ => rfl) fun vs =>
      .newList p vs
  | map entries ih =>
    exact fun p h => .bind (ways_extend _) (accounts_operand h.1 (ih _ h.2) fun _ => rfl) fun _ =>
      (Eval.Quiet.origin p).bind fun _ => .pure _
  | record names values ih =>
    exact fun p h => .bind (ways_extend _) (accounts_operand h.1 (ih _ h.2) fun _ => rfl) fun _ =>
      (Eval.Quiet.origin p).bind fun _ => .pure _
  | call fn args ih =>
    intro calm p h
    refine .andThen (ways_extend _) (accounts_operand h.2.1 (ih _ h.2.2) fun _ => rfl)
      fun env m vs m' _ _ hm' => ?_
    have hsilent : Trace.call fn vs = .silent := by
      unfold Trace.call
      split
      · exact (h.1 rfl).elim
      · rfl
    rw [hsilent]
    exact Trace.Accounts.quiet (.call p h.1 vs) env m' hm'
  | memo slot x ih =>
    intro calm p h
    refine .kept h.1 (fun _ => rfl) (ways_nil x) (ih p h.2.2) fun env m => ?_
    have hcong : Congruence (Eval.Tame (· ≠ slot) (fun _ => False) env) (fun _ => True)
        (fun _ i _ => i ≠ slot) (.keeping force) (.keeping force) :=
        Eval.Tame.congruence (fun _ _ _ h => h) (hf.tame _ _ env)
    exact (hcong.term x p (h.2.1 p) m (fun _ h => h.elim)).read (fun hne => hne rfl)
  | entry key x rest ihk ihx ihr =>
    intro calm p h
    refine .andThen (ways_extend _) (accounts_operand h.1.1 (ihk _ h.1.2) fun _ => rfl)
      fun env _ k m' _ _ hm' => ?_
    refine (Trace.Accounts.andThen (ways_extend _)
      (accounts_operand h.2.1.1 (ihx _ h.2.1.2) fun _ => rfl)
      fun env _ v m' _ _ hm' => ?_) env m' hm'
    cases MapKey.ofValue? k with
    | none => exact .nothing hm' rfl rfl rfl
    | some _ =>
      exact (Trace.Accounts.bind (ways_extend _) (accounts_operand h.2.2.1 (ihr _ h.2.2.2) fun _ =>
        rfl)
        fun _ => .pure _) env m' hm'

end Term

/-! ## Deferred values -/

namespace Thunk

/-- What becomes of the deferred values when one of them was attempted. -/
theorem of_attempted {h : Heap} {id : ThunkId} {cells : Cells} {result : Option Value}
    {j : ThunkId} {t' : Thunk} (ht : (attempted h id cells result).thunks[j]? = some t')
    (hr : t'.result = none) :
    ∃ t, h.thunks[j]? = some t ∧ t.result = none ∧ t'.code = t.code ∧
      (j = id ∧ t'.cells = cells ∨ j ≠ id ∧ t'.cells = t.cells) := by
  simp only [attempted, Array.getElem?_modify] at ht
  split at ht
  · next hj =>
    obtain ⟨t, hget, rfl⟩ := Option.map_eq_some_iff.1 ht
    cases result with
    | none => exact ⟨t, hget, hr, rfl, .inl ⟨hj.symm, rfl⟩⟩
    | some v => cases hr
  · next hj => exact ⟨t', ht, hr, rfl, .inr ⟨fun h => hj h.symm, rfl⟩⟩

variable {g : Guard} {bare : Bool} {ways : Ways} {visits : List Visit} {m : Memory} {α : Type}
  {r r' : EStateM.Result Stop Memory α}

/-- Visits to the code of a deferred value, seen from outside. The value itself is not visited by
its code. -/
theorem account_attempt {id : ThunkId} {t : Thunk} (ht : m.heap.thunks[id]? = some t)
    (hr : t.result = none)
    (h : Account ⟨t.cells.size, fun _ => True, g.live⟩ (· < id) false t.code.root.toBoxed.ways
      visits { m with cells := t.cells } r) (hm : m.Ready g) {result : Option Value}
    (hl : Eval.left r' = ⟨m.cells, attempted (Eval.left r).heap id (Eval.left r).cells result⟩) :
    Account g (· < id + 1) bare ways (visits.map (·.inThunk id)) m r' := by
  have hretains : m.Retains (Eval.left r') := by
    rw [hl]
    refine ⟨.refl _, fun j t' ht' hr' => ?_⟩
    obtain ⟨u, hu, hur, hcode, hcells⟩ := of_attempted ht' hr'
    obtain ⟨s, hs, hsr, hscode, hscells⟩ := h.retains.thunks j u hu hur
    refine ⟨s, hs, hsr, hscode.trans hcode.symm, ?_⟩
    rcases hcells with ⟨rfl, hcells⟩ | ⟨-, hcells⟩
    · rw [show m.heap.thunks[j]? = some s from hs] at ht
      cases ht
      rw [hcells]
      exact h.retains.cells
    · rw [hcells]
      exact hscells
  have hfutures : (Eval.left r').heap.futures = (Eval.left r).heap.futures := by rw [hl]; rfl
  have hbelow (v : Visit) (hv : v ∈ visits) : v.frame ≠ some id := fun hf =>
    Nat.lt_irrefl id (h.reach v hv id hf)
  refine ⟨hretains, hm.retains hretains (by rw [hfutures]; exact h.ready.futures), ?_,
    ?_, ?_, ?_, ?_⟩
  · intro v hv j hj
    obtain ⟨⟨kind, path, frame⟩, hu, rfl⟩ := List.mem_map.1 hv
    cases frame with
    | none => cases hj; exact Nat.lt_succ_self id
    | some i => exact Nat.lt_succ_of_lt (h.reach _ hu j hj)
  · refine List.pairwise_map.2 (h.agree.imp_of_mem fun hu hv hagree => ?_)
    exact hagree.inThunk (hbelow _ hu) (hbelow _ hv)
  · intro v hv
    obtain ⟨⟨kind, path, frame⟩, hu, rfl⟩ := List.mem_map.1 hv
    obtain ⟨w, cells, hruns, hdue⟩ := h.due _ hu
    cases hruns with
    | own => exact ⟨_, _, .thunk ht hr, hdue⟩
    | thunk hj hjr => exact ⟨_, _, .thunk hj hjr, hdue⟩
  · intro v hv
    left
    obtain ⟨⟨kind, path, frame⟩, hu, rfl⟩ := List.mem_map.1 hv
    have hdone := (h.done _ hu).resolve_right fun h => Bool.noConfusion h.1
    intro w cells hruns
    rw [hl] at hruns
    cases frame with
    | none =>
      cases hruns with
      | thunk ht' hr' =>
        obtain ⟨u, hget, hur, hcode, hcells⟩ := of_attempted ht' hr'
        obtain ⟨s, hs, -, hscode, -⟩ := h.retains.thunks id u hget hur
        rw [show m.heap.thunks[id]? = some s from hs] at ht
        cases ht
        rcases hcells with ⟨-, hcells⟩ | ⟨hne, -⟩
        · rw [hcells, hcode, ← hscode]
          exact hdone _ _ .own
        · exact (hne rfl).elim
    | some j =>
      cases hruns with
      | thunk ht' hr' =>
        obtain ⟨u, hget, hur, hcode, hcells⟩ := of_attempted ht' hr'
        rcases hcells with ⟨rfl, -⟩ | ⟨-, hcells⟩
        · exact (hbelow _ hu rfl).elim
        · rw [hcells, hcode]
          exact hdone _ _ (.thunk hget hur)
  · intro i
    rw [hfutures, List.countP_map, h.counts i]
    congr 2
    funext v
    simp

/-- A deferred value is accounted for, if those made before it are. -/
theorem accounts_evaluate {id : ThunkId} {force : ThunkId → Eval Value} {forced : ThunkId → Trace}
    (hlive : g.live id) (hf : Term.Defers g.live (· < id) force forced) :
    (Thunk.visits force forced id).Accounts g (· < id + 1) bare ways
      (evaluate (.keeping force) id) := by
  intro env m hm
  unfold Thunk.visits
  rw [evaluate_apply]
  cases ht : m.heap.thunks[id]? with
  | none => exact .nothing hm rfl rfl rfl
  | some t =>
    simp only
    cases hr : t.result with
    | some v => exact .nothing hm rfl rfl rfl
    | none =>
      simp only
      obtain ⟨hshield, hclosed⟩ := hm.thunks id t hlive ht hr
      have hrun := Term.accounts (g := ⟨t.cells.size, fun _ => True, g.live⟩)
        hf t.code.root.toBoxed [] hshield.guarded t.env { m with cells := t.cells }
        ⟨Nat.le_refl _, fun i j _ => hclosed i j, hm.thunks, hm.futures⟩
      rw [hshield.bare] at hrun
      cases hx : t.code.root.toBoxed.eval (.keeping force) [] t.env { m with cells := t.cells } with
      | ok v k =>
        rw [hx] at hrun
        exact account_attempt ht hr hrun hm rfl
      | error e k =>
        rw [hx] at hrun
        exact account_attempt ht hr hrun hm rfl

/-- Each of the first `count` deferred values is accounted for, if it is live. -/
theorem defers_below (live : ThunkId → Prop) (count : Nat) :
    Term.Defers live (· < count) (forceBelow count) (visitsBelow count) := by
  refine ⟨?_, fun _ _ _ id => tame_forceBelow count id⟩
  induction count with
  | zero => exact fun size see ways id _ => .quiet (.pure _)
  | succ count ih =>
    intro size see ways id hlive
    unfold visitsBelow forceBelow
    split
    · next hid =>
      subst hid
      exact accounts_evaluate hlive ⟨ih, fun _ _ _ j => tame_forceBelow id j⟩
    · intro env m hm
      have h := ih size see ways id hlive env m hm
      exact { h with reach := fun v hv j hj => Nat.lt_succ_of_lt (h.reach v hv j hj) }

end Thunk

/-- The visits of an expression account for its evaluation. -/
theorem Compiled.accounts {c : Compiled} {g : Guard}
    (h : c.root.toBoxed.Shielded g.see g.size false) (place : List Nat) :
    (c.visits place).Accounts g (fun _ => True) false c.root.toBoxed.ways
      (c.value .usual place) := by
  have hf : Term.Defers g.live (fun _ => True) Thunk.force fun id =>
      Thunk.visitsBelow (id + 1) id :=
    { accounts := fun size see ways id hlive env m hm =>
        have h := (Thunk.defers_below g.live (id + 1)).accounts size see ways id hlive env m hm
        { h with reach := fun _ _ _ _ => trivial }
      tame := fun _ _ _ id => Thunk.tame_forceBelow (id + 1) id }
  have h' := Term.accounts hf c.root.toBoxed place h.guarded
  rw [h.bare] at h'
  exact h'

end Interlude
