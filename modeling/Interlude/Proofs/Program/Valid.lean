import Interlude.Proofs.Program.Compile
import Interlude.Registry
/-!
# Valid programs

What is known of every compiled template: shapes of its cells at which all of its instructions fit,
and defaults of params that keep to their own cells. All programs of a registry are valid
(`Registry.build_valid`).
-/

namespace Interlude

/-- Shapes at all instructions of a program at which they fit. Nothing is known at the first. -/
structure Program.Typing (p : Program) (types : Nat → Shapes) : Prop where
  start : ∀ i, types 0 i = .free
  fits : ∀ (pc : Nat) (i : Instr), p.code[pc]? = some i → i.Fits p.size p.code.size types pc

/-- The default of a param reads no cell and keeps results in its own cells only. -/
def ParamDecl.Fits (d : ParamDecl) : Prop :=
  ∀ c size, d.default = some (c, size) →
    ∃ table, c.Touches (fun _ => False) (keepIn 0 size table) []

structure Program.Valid (p : Program) : Prop where
  typing : ∃ types, p.Typing types
  defaults : ∀ d ∈ p.params, d.Fits

open Classical in
/-- The shapes at the instructions of a valid program. -/
noncomputable def Program.types (p : Program) : Nat → Shapes :=
  if h : ∃ types, p.Typing types then h.choose else fun _ _ => .free

theorem Program.Valid.types {p : Program} (h : p.Valid) : p.Typing p.types := by
  unfold Program.types
  rw [dif_pos h.typing]
  exact h.typing.choose_spec

namespace Program

theorem paramDefault_fits {a : Analyzer} {e : Option Expr} {r : Option (Compiled × Nat)}
    (h : paramDefault a e = .ok r) {c : Compiled} {size : Nat} (hr : r = some (c, size)) :
    ∃ table, c.Touches (fun _ => False) (keepIn 0 size table) [] := by
  cases e with
  | none =>
    cases h
    cases hr
  | some e =>
    obtain ⟨⟨c', slots⟩, hc, h⟩ := Except.bind_ok h
    cases h
    cases hr
    obtain ⟨hg, hfit⟩ := Expr.compile_fits Slots.new_wf (Locals.seen_empty fun _ => False) hc
    obtain ⟨table, ht⟩ := hfit.touches []
    refine ⟨table, ht.mono (fun _ h => h) ?_⟩
    rintro p i x ⟨h₁, h₂, h₃⟩
    exact ⟨h₁, Nat.lt_of_lt_of_le h₂ hg.wf.size, h₃⟩

theorem compileParams_fits {a : Analyzer} {seen : List String} {ps : List Param}
    {ds : List ParamDecl} (h : compileParams a seen ps = .ok ds) : ∀ d ∈ ds, d.Fits := by
  induction ps generalizing seen ds with
  | nil =>
    cases h
    exact fun _ hd => by cases hd
  | cons p rest ih =>
    unfold compileParams at h
    simp only at h
    generalize (if p.injected then "$ij." ++ p.name else p.name) = key at h
    split at h
    · cases h
    · obtain ⟨default, hdefault, h⟩ := Except.bind_ok h
      obtain ⟨later, hlater, h⟩ := Except.bind_ok h
      cases h
      intro d hd
      rcases List.mem_cons.1 hd with rfl | hd
      · exact fun c size hc => paramDefault_fits hdefault hc
      · exact ih hlater d hd

theorem compileBody_typed {a : Analyzer} {body : List Plan} {code : List Instr} {b : Builder}
    (h : compileBody body a {} = .ok (code, b)) :
    ∃ g', Typed b.slots.size 0 code (fun _ => .free) g' := by
  have hb : Builder.Holds {} fun _ => .free :=
    ⟨Slots.new_wf, Locals.seen_empty _, fun i hi => (hi rfl).elim⟩
  obtain ⟨check, h, hcheck⟩ := check_ok hb h
  obtain ⟨rest, b₁, hrest, h⟩ := Build.bind_ok h
  obtain ⟨rfl, rfl⟩ := Build.pure_ok h
  obtain ⟨g', hp⟩ := compileBlock_ok (r := a) body hb (show Out.sink.Fits _ from trivial) hrest
  exact ⟨g', (hcheck [] _ 0 hp.grows.size).cons (hp.typed _ (Nat.le_refl _))⟩

theorem compile_valid {a : Analyzer} {t : Template} {p : Program} (h : compile a t = .ok p) :
    p.Valid := by
  unfold compile at h
  cases hp : ofTemplate a t with
  | error e => rw [hp] at h; cases h
  | ok p' =>
    rw [hp] at h
    cases h
    obtain ⟨params, hparams, hp⟩ := Except.bind_ok hp
    obtain ⟨⟨code, b⟩, hcode, hp⟩ := Except.bind_ok hp
    cases hp
    refine ⟨?_, compileParams_fits hparams⟩
    obtain ⟨g', htyped⟩ := compileBody_typed hcode
    obtain ⟨types, hstart, hfits⟩ := htyped.assign
    refine ⟨types, fun i => ?_, fun pc i hi => ?_⟩
    · rcases hstart i with h | h | h
      · exact h
      · exact h
      · exact (h.2 rfl).elim
    · have := hfits pc i (by simpa using hi)
      simpa using this

end Program

namespace Registry

theorem Draft.add_valid {a : Analyzer} {d : Draft} {t : Template} (hd : ∀ p ∈ d.programs, p.Valid) :
    ∀ p ∈ (d.add a t).programs, p.Valid := by
  unfold Draft.add
  simp only
  split
  · exact hd
  · next p hp =>
    split
    · exact hd
    · intro q hq
      rcases List.mem_append.1 hq with hq | hq
      · exact hd q hq
      · rw [List.mem_singleton.1 hq]
        exact Program.compile_valid hp

/-- All programs of a registry are valid. -/
theorem build_valid {a : Analyzer} {ts : List Template} {r : Registry} (h : build a ts = .ok r) :
    ∀ p ∈ r.programs, p.Valid := by
  have hall : ∀ (ts : List Template) (d : Draft), (∀ p ∈ d.programs, p.Valid) →
      ∀ p ∈ (ts.foldl (Draft.add a) d).programs, p.Valid := by
    intro ts
    induction ts with
    | nil => exact fun _ hd => hd
    | cons t rest ih => exact fun d hd => ih _ (Draft.add_valid hd)
  unfold build at h
  simp only at h
  split at h
  · cases h
  · cases h
    exact hall ts {} fun p hp => by cases hp

end Registry

end Interlude
