import Mathlib.Data.Finset.Card
import Mathlib.Data.Finset.Range
import Mathlib.Logic.Relation
import Mathlib.Order.WellFounded
import Interlude.Proofs.Eval.Paired
import Interlude.Proofs.Read.Account
/-!
# Chains of futures

A future may complete with another, and that one again with another. A read follows such a chain to
its end: the first value that is no future, or the first future that is pending or has failed. It
comes there if no future is completed with itself, directly or through others, and only then does
every read come to an end (`acyclic_iff_not_endless`). An end that is a value or a failure stays,
whatever happens to the futures later. All of this is `Eval.resolve_follows_chain`.
-/

namespace Interlude

namespace Futures

/-! ## One future of a chain -/

/-- A read passes from a completed future to the value it was completed with. -/
def Passes (fs : Futures) (v w : Value) : Prop := ∃ f, v = .future f ∧ fs.get f = .complete w

/-- No future is completed with itself, directly or through others. -/
def Acyclic (fs : Futures) : Prop := ∀ f, ¬Relation.TransGen fs.Passes (.future f) (.future f)

/-- What a read comes to at the end of a chain: the value there if that is no future, a wait for the
future there if that is pending, and a failure because of that future's if it failed. -/
inductive Delivers (fs : Futures) : Value → Except Stop Value → Prop where
  | value {v : Value} : (∀ f, v ≠ .future f) → Delivers fs v (.ok v)
  | waiting {f : FutureId} : fs.get f = .pending → Delivers fs (.future f) (.error (.waiting f))
  | failed {f : FutureId} {cause : Failure} : fs.get f = .failed cause →
      Delivers fs (.future f)
      (.error (.failed (.because (Failure.data .futureFailed "pending value failed") cause)))

variable {fs gs : Futures} {v w : Value} {f : FutureId}

theorem Passes.unique {w' : Value} (h : fs.Passes v w) (h' : fs.Passes v w') : w = w' := by
  obtain ⟨f, rfl, hf⟩ := h
  obtain ⟨g, hg, hf'⟩ := h'
  cases hg
  rw [hf] at hf'
  exact Future.complete.inj hf'

theorem Passes.lt (h : fs.Passes (.future f) w) : f < fs.states.size := by
  obtain ⟨g, hg, hf⟩ := h
  cases hg
  exact lt_of_settled (by rw [hf]; exact Future.noConfusion)

/-- The end of a chain is not passed. -/
theorem Delivers.not_passes {r : Except Stop Value} (h : fs.Delivers v r) : ¬fs.Passes v w := by
  rintro ⟨f, hv, hf⟩
  cases h with
  | value hne => exact hne f hv
  | waiting hp => cases hv; rw [hp] at hf; cases hf
  | failed hc => cases hv; rw [hc] at hf; cases hf

theorem Delivers.congr {r : Except Stop Value} (h : gs.Delivers v r) (hs : fs.states = gs.states) :
    fs.Delivers v r := by
  cases h with
  | value hv => exact .value hv
  | waiting hf => exact .waiting ((get_congr hs _).trans hf)
  | failed hf => exact .failed ((get_congr hs _).trans hf)

/-! ## Reads that end -/

/-- A read that ends follows the chain to its end. -/
theorem delivers_resolveFrom (fs : Futures) (fuel : Nat) (v : Value)
    (h : (fs.resolveFrom fuel v).1 ≠ .endless) :
    ∃ w, Relation.ReflTransGen fs.Passes v w ∧ fs.Delivers w (fs.resolveFrom fuel v).1.result := by
  fun_induction Futures.resolveFrom fs fuel v with
  | case1 => exact (h rfl).elim
  | case2 fs fuel f hp => exact ⟨_, .refl, .waiting hp⟩
  | case3 fs fuel f v hc ih =>
    obtain ⟨w, hpath, hend⟩ := ih h
    exact ⟨w, .head ⟨f, rfl, hc⟩ hpath, hend.congr (countRead_states fs f).symm⟩
  | case4 fs fuel f cause hc => exact ⟨_, .refl, .failed hc⟩
  | case5 fuel fs v hz hs =>
    refine ⟨v, .refl, .value fun f hf => ?_⟩
    subst hf
    cases fuel with
    | zero => exact hz f rfl rfl
    | succ n => exact hs n f rfl rfl

/-- There is no way to follow a chain for ever that has an end: from each of its values it goes on
in one way only. -/
theorem Delivers.acc {r : Except Stop Value} (h : fs.Delivers w r)
    (hpath : Relation.ReflTransGen fs.Passes v w) :
    Acc (fun w u => fs.Passes u w) v := by
  induction hpath using Relation.ReflTransGen.head_induction_on with
  | refl => exact ⟨_, fun u hu => (h.not_passes hu).elim⟩
  | head hpass _ ih =>
    refine ⟨_, fun u hu => ?_⟩
    obtain rfl := hpass.unique hu
    exact ih

/-- Following chains comes to an end if all reads do. -/
theorem wellFounded_passes (h : ∀ v, (fs.resolve v).1 ≠ .endless) : WellFounded fun w u =>
    fs.Passes u w := by
  refine ⟨fun v => ?_⟩
  obtain ⟨w, hpath, hend⟩ := fs.delivers_resolveFrom _ v (h v)
  exact hend.acc hpath

/-! ## Chains that do not turn back -/

/-- A read that has left the futures `seen` behind never meets one of them again, so it needs no
more fuel than there are others. -/
theorem Acyclic.resolveFrom_ne_endless (h : fs.Acyclic) (fuel : Nat) (v : Value)
    (seen : Finset FutureId)
    (hseen : ∀ s ∈ seen, s < fs.states.size ∧ Relation.TransGen fs.Passes (.future s) v)
    (hfuel : fs.states.size < fuel + seen.card) : (fs.resolveFrom fuel v).1 ≠ .endless := by
  fun_induction Futures.resolveFrom fs fuel v generalizing seen with
  | case1 fs f =>
    have hcard : seen.card ≤ fs.states.size := by
      simpa using Finset.card_le_card fun s hs => Finset.mem_range.2 (hseen s hs).1
    omega
  | case2 => exact Read.noConfusion
  | case3 fs fuel f v hc ih =>
    have hpass : fs.Passes (.future f) v := ⟨f, rfl, hc⟩
    have hnew : f ∉ seen := fun hf => h f (hseen f hf).2
    refine ih h (insert f seen) (fun s hs => ?_) ?_
    · rcases Finset.mem_insert.1 hs with rfl | hs
      · exact ⟨hpass.lt, .single hpass⟩
      · exact ⟨(hseen s hs).1, (hseen s hs).2.tail hpass⟩
    · rw [Finset.card_insert_of_notMem hnew]
      simp only [countRead_states]
      omega
  | case4 => exact Read.noConfusion
  | case5 => exact Read.noConfusion

theorem Acyclic.resolve_ne_endless (h : fs.Acyclic) (v : Value) : (fs.resolve v).1 ≠ .endless :=
  h.resolveFrom_ne_endless _ v ∅ (fun _ hs => (Finset.notMem_empty _ hs).elim) (by simp)

/-- A read of chains that do not turn back follows them to their end. -/
theorem Acyclic.delivers (h : fs.Acyclic) (v : Value) :
    ∃ w, Relation.ReflTransGen fs.Passes v w ∧ fs.Delivers w (fs.resolve v).1.result :=
  fs.delivers_resolveFrom _ v (h.resolve_ne_endless v)

/-- All reads come to an end exactly if no future is completed with itself, directly or through
others. -/
theorem acyclic_iff_not_endless : fs.Acyclic ↔ ¬fs.Endless := by
  constructor
  · rintro h ⟨v, hv⟩
    exact h.resolve_ne_endless v hv
  · intro h f hcycle
    have hends : WellFounded fun w u => fs.Passes u w := wellFounded_passes fun v hv => h ⟨v, hv⟩
    exact hends.transGen.irrefl.irrefl _ (Relation.transGen_swap.2 hcycle)

/-- A read that never ends starts at a future that was made. -/
theorem endless_iff : fs.Endless ↔ ∃ f < fs.states.size, (fs.resolve (.future f)).1 = .endless := by
  constructor
  · rintro ⟨v, hv⟩
    cases v with
    | future f =>
      refine ⟨f, lt_of_settled fun hp => ?_, hv⟩
      simp only [Futures.resolve, Futures.resolveFrom, hp, reduceCtorEq] at hv
    | _ => cases hv
  · rintro ⟨f, _, hf⟩
    exact ⟨_, hf⟩

instance (r : Read) : Decidable (r = .endless) :=
  match r with
  | .endless => .isTrue rfl
  | .value _ => .isFalse nofun
  | .waiting _ => .isFalse nofun
  | .failed _ => .isFalse nofun

instance (fs : Futures) : Decidable fs.Endless := decidable_of_iff' _ endless_iff

instance (fs : Futures) : Decidable fs.Acyclic := decidable_of_iff' _ acyclic_iff_not_endless

example : ¬Acyclic { states := #[.complete (.future 1), .complete (.list ⟨0, []⟩ []),
        .complete (.future 3), .complete (.future 2)] } := by decide

/-! ## What happens later -/

theorem push_ahead (fs : Futures) (state : Future) : fs.Ahead (fs.push state).2 := by
  refine ⟨by simp [push], fun f hf => ?_⟩
  have hlt : f < fs.states.size := lt_of_settled fun hp => by rw [hp] at hf; cases hf
  simp only [get, push, Array.getElem?_push_lt hlt, Array.getElem?_eq_getElem hlt]

/-- What may become of futures: more are made, some are settled, and values are read through
them. -/
inductive Onward (fs : Futures) : Futures → Prop where
  | refl : Onward fs fs
  | push {gs : Futures} (state : Future) : Onward fs gs → Onward fs (gs.push state).2
  | settle {gs : Futures} (f : FutureId) (state : Future) : Onward fs gs →
    Onward fs (gs.settle f state).2
  | resolve {gs : Futures} (v : Value) : Onward fs gs → Onward fs (gs.resolve v).2

theorem Onward.ahead (h : fs.Onward gs) : fs.Ahead gs := by
  induction h with
  | refl => exact .refl fs
  | push state _ ih => exact ih.trans (push_ahead _ state)
  | settle f state _ ih => exact ih.trans (settle_ahead _ f state)
  | resolve v _ ih => exact ih.trans (.of_states (resolve_states _ v).symm)

/-- An end that is a value or a failure stays. -/
theorem Onward.resolve_of_settles (h : fs.Onward gs) (hr : Stop.Settles (fs.resolve v).1.result) :
    (gs.resolve v).1 = (fs.resolve v).1 := by
  refine h.ahead.resolve ?_
  cases hread : (fs.resolve v).1 with
  | value w => exact trivial
  | failed cause => exact trivial
  | waiting f => rw [hread] at hr; exact hr.elim
  | endless => rw [hread] at hr; exact hr.elim

end Futures

/-- If no future is completed with itself, directly or through others, then following futures ends
from every value. A read of `v` passes through completed futures to the end of the chain, gives what
is found there, and changes neither cells nor the states of futures. If it gives a value or a
failure, then every later read of `v` gives the same. -/
theorem Eval.resolve_follows_chain {m : Memory} (h : m.heap.futures.Acyclic) (v : Value)
    (env : Env) :
    (WellFounded fun w u => m.heap.futures.Passes u w) ∧
    ∃ w r m', Relation.ReflTransGen m.heap.futures.Passes v w ∧ m.heap.futures.Delivers w r ∧
      resolve v env m = ending r m' ∧ m'.cells = m.cells ∧ m'.states = m.states ∧
      (Stop.Settles r → ∀ env' n, m.heap.futures.Onward n.heap.futures →
      ∃ n', resolve v env' n = ending r n') := by
  obtain ⟨w, hpath, hend⟩ := h.delivers v
  refine ⟨Futures.wellFounded_passes h.resolve_ne_endless, w, _, _, hpath, hend,
    resolve_apply v env m, rfl, Futures.resolve_states _ v, ?_⟩
  intro hr env' n hlater
  have hn := resolve_apply v env' n
  rw [hlater.resolve_of_settles hr] at hn
  exact ⟨_, hn⟩

namespace Sample

/-- Futures that lead one to another: the first to a list that holds a pending one, the last to a
failure. -/
def relay : Memory where
  cells := .cleared 0
  heap := { futures := {
    states := #[.complete (.future 1), .complete (.future 2), .complete (.list ⟨0, []⟩ [.future 3]),
      .pending, .complete (.future 3), .failed (.plain "no route"), .complete (.future 5)]
    reads := Array.replicate 7 0 } }

def relayEnv : Env := { params := [("first", .future 0)], injected := [], context := {} }

end Sample

/-- The first of the futures leads to the list, and that stays: what becomes of the one in it does
not matter. -/
theorem Sample.relay_followed :
    relay.heap.futures.Acyclic ∧ (WellFounded fun w u => relay.heap.futures.Passes u w) ∧
    ∃ w r m', Relation.ReflTransGen relay.heap.futures.Passes (.future 0) w ∧
    relay.heap.futures.Delivers w r ∧ Eval.resolve (.future 0) relayEnv relay = Eval.ending r m' ∧
    m'.cells = relay.cells ∧ m'.states = relay.states ∧
    (Stop.Settles r → ∀ env' n, relay.heap.futures.Onward n.heap.futures →
      ∃ n', Eval.resolve (.future 0) env' n = Eval.ending r n') :=
  ⟨by decide, Eval.resolve_follows_chain (by decide) (.future 0) relayEnv⟩

example : [0, 4, 6].map (fun f => (Sample.relay.heap.futures.resolve (.future f)).1) =
    [.value (.list ⟨0, []⟩ [.future 3]), .waiting 3, .failed (.plain "no route")] := rfl

end Interlude
