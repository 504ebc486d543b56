import Mathlib.Data.List.Find
import Mathlib.Data.List.Forall2
import Interlude.Proofs.Term.Lower
import Interlude.Registry
/-!
# Finding templates

Looking up a template and choosing the implementation of a delegate find one of the templates there
are, and do not depend on the form the templates are in. A registry holds the programs of its
templates in their order (`build_maps`).
-/

namespace Interlude

namespace Directory

variable {α β : Type} {d : Directory α}

theorem template_mem {name : String} {a : α} (h : d.template name = .ok a) : a ∈ d.all := by
  unfold template find? at h
  split at h
  · next b hb =>
    cases h
    exact List.mem_of_find?_eq_some hb
  · cases h

theorem variants_mem {name variant : String} {x : Delegate × α} (h : x ∈ d.variants name variant) :
    x.2 ∈ d.all := by
  unfold variants implementations at h
  rw [List.mem_mergeSort] at h
  obtain ⟨a, ha, hx⟩ := List.mem_filterMap.1 (List.mem_filter.1 h).1
  unfold implementation? at hx
  split at hx
  · obtain ⟨e, _, rfl⟩ := Option.map_eq_some_iff.1 hx
    exact ha
  · cases hx

theorem active_mem {context : Context} {name variant : String} {a : α}
    (h : d.active? context name variant = .ok (some a)) : a ∈ d.all := by
  unfold active? at h
  have hmem : ∀ x ∈ (d.variants name variant).filter (fun x => context.isActive x.1.package),
      x.2 ∈ d.all :=
    fun x hx => variants_mem (List.mem_filter.1 hx).1
  split at h
  · cases h
  · next best hbest =>
    cases h
    exact hmem best (by rw [hbest]; exact List.mem_cons_self)
  · next best next rest hbest =>
    split at h
    · cases h
      exact hmem best (by rw [hbest]; exact List.mem_cons_self)
    · cases h

theorem select_mem {context : Context} {name variant : String} {allowEmpty : Bool} {a : α}
    (h : d.select context name variant allowEmpty = .ok (some a)) : a ∈ d.all := by
  obtain ⟨found, hfound, h⟩ := Except.bind_ok h
  cases found with
  | some b =>
    cases h
    exact active_mem hfound
  | none =>
    have hnone {x y : Except Failure (Option α)} {c : Bool} (hx : x ≠ .ok (some a))
        (hy : y ≠ .ok (some a)) (h : (if c then x else y) = .ok (some a)) : False := by
      cases c with
      | true => exact hx h
      | false => exact hy h
    simp only at h
    split at h
    · exact (hnone (by rintro ⟨⟩) (by rintro ⟨⟩) h).elim
    · obtain ⟨fallback, hfallback, h⟩ := Except.bind_ok h
      cases fallback with
      | some b =>
        cases h
        exact active_mem hfallback
      | none => exact (hnone (by rintro ⟨⟩) (by rintro ⟨⟩) h).elim

/-! ## Templates in another form -/

/-- The second directory has the templates of the first in another form. -/
structure Maps (f : α → β) (d : Directory α) (e : Directory β) : Prop where
  all : e.all = d.all.map f
  name : ∀ a ∈ d.all, e.name (f a) = d.name a
  delegate : ∀ a ∈ d.all, e.delegate (f a) = d.delegate a

namespace Maps

variable {f : α → β} {e : Directory β} (h : Maps f d e)

include h

theorem template (name : String) : e.template name = (d.template name).map f := by
  have hfind : e.find? name = (d.find? name).map f := by
    unfold find?
    rw [h.all, List.find?_map]
    congr 1
    refine List.find?_congr fun a ha => ?_
    simp only [Function.comp_apply, h.name a ha, h.delegate a ha]
  unfold Directory.template
  rw [hfind]
  cases d.find? name <;> rfl

theorem implementations (name : String) :
    e.implementations name = (d.implementations name).map (Prod.map id f) := by
  have hstep (xs : List α) (hx : ∀ a ∈ xs, a ∈ d.all) :
      (xs.map f).filterMap (e.implementation? name) = (xs.filterMap (d.implementation? name)).map
          (Prod.map id f) := by
    rw [List.filterMap_map, List.map_filterMap]
    refine List.filterMap_congr fun a ha => ?_
    simp only [Function.comp_apply, implementation?, h.name a (hx a ha), h.delegate a (hx a ha)]
    split
    · cases d.delegate a <;> rfl
    · rfl
  unfold Directory.implementations
  rw [h.all]
  exact hstep d.all fun _ ha => ha

theorem variants (name variant : String) :
    e.variants name variant = (d.variants name variant).map (Prod.map id f) := by
  unfold Directory.variants
  rw [h.implementations, List.filter_map, List.map_mergeSort]
  · rfl
  · exact fun _ _ _ _ => rfl

theorem active (context : Context) (name variant : String) :
    e.active? context name variant = (d.active? context name variant).map (Option.map f) := by
  have hfilter : ((d.variants name variant).map (Prod.map id f)).filter (fun x =>
      context.isActive x.1.package) =
        ((d.variants name variant).filter fun x => context.isActive x.1.package).map
        (Prod.map id f) := List.filter_map
  unfold active?
  rw [h.variants, hfilter]
  generalize (d.variants name variant).filter (fun x => context.isActive x.1.package) = xs
  rcases xs with _ | ⟨best, _ | ⟨next, rest⟩⟩
  · rfl
  · rfl
  · simp only [List.map_cons, Prod.map_fst, Prod.map_snd, id_eq]
    split <;> rfl

theorem select (context : Context) (name variant : String) (allowEmpty : Bool) :
    e.select context name variant allowEmpty = (d.select context name variant allowEmpty).map
      (Option.map f) := by
  unfold Directory.select
  rw [h.active, h.active]
  cases d.active? context name variant with
  | error _ => rfl
  | ok found =>
    cases found with
    | some a => rfl
    | none =>
      cases variant.isEmpty with
      | true => cases allowEmpty <;> rfl
      | false =>
        cases d.active? context name "" with
        | error _ => rfl
        | ok fallback =>
          cases fallback with
          | some a => rfl
          | none => cases allowEmpty <;> rfl

end Maps

end Directory

namespace Registry

variable {reg : Registry}

theorem template_mem {name : String} {p : Program} (h : reg.template name = .ok p) :
    p ∈ reg.programs :=
  Directory.template_mem h

theorem select_mem {context : Context} {name variant : String} {allowEmpty : Bool} {p : Program}
    (h : reg.select context name variant allowEmpty = .ok (some p)) : p ∈ reg.programs :=
  Directory.select_mem h

end Registry

/-! ## Registries of templates -/

theorem Collector.failure_add (c : Collector) {i : Issue} (h : i.severity = .error) :
    (c.add i).failure? ≠ none := by
  unfold failure? add
  rw [List.filter_append]
  have hi : [i].filter (·.severity.fails) = [i] := by simp [h, Severity.fails, Severity.error]
  rw [hi]
  cases c.issues.filter (·.severity.fails) with
  | nil => simp
  | cons j rest => cases rest <;> simp

namespace Program

variable {a : Analyzer} {t : Template} {p : Program}

/-- A program goes by the name of its template, puts out what the template puts out, and stands in
for the same delegate. -/
theorem ofTemplate_known (h : ofTemplate a t = .ok p) :
    p.name = t.name ∧ p.kind = t.kind ∧ p.delegate = t.delegate := by
  obtain ⟨ds, _, hrest⟩ := Except.bind_ok h
  obtain ⟨⟨code, b⟩, _, hpure⟩ := Except.bind_ok hrest
  cases hpure
  exact ⟨rfl, rfl, rfl⟩

theorem ofTemplate_of_compile (h : compile a t = .ok p) : ofTemplate a t = .ok p := by
  unfold compile at h
  cases ho : ofTemplate a t with
  | error e => rw [ho] at h; cases h
  | ok p' => rw [ho] at h; cases h; rfl

end Program

/-- The directory of templates as they are declared. -/
def Directory.ofTemplates (ts : List Template) : Directory Template :=
  { all := ts, name := (·.name), delegate := (·.delegate) }

namespace Registry

/-- Programs that were compiled from templates, each from the one at its place. -/
def Compiles (a : Analyzer) (ts : List Template) (ps : List Program) : Prop :=
  List.Forall₂ (fun t p => Program.compile a t = .ok p) ts ps

/-- A template that is no issue compiles, has a key of its own, and is added last. -/
theorem add_failure {a : Analyzer} {d : Draft} {t : Template}
    (h : (d.add a t).issues.failure? = none) :
    ∃ p, Program.compile a t = .ok p ∧ d.seen.lookup (keyOf t) = none ∧
      d.add a t = { d with programs := d.programs ++ [p],
                           seen := (keyOf t, t.source) :: d.seen } := by
  unfold Draft.add at h ⊢
  simp only at h ⊢
  cases hp : Program.compile a t with
  | error e =>
    rw [hp] at h
    exact absurd h (Collector.failure_add _ rfl)
  | ok p =>
    rw [hp] at h
    simp only at h ⊢
    cases hs : d.seen.lookup (keyOf t) with
    | some first =>
      rw [hs] at h
      exact absurd h (Collector.failure_add _ rfl)
    | none => exact ⟨p, rfl, rfl, rfl⟩

/-- An issue is never forgotten. -/
theorem failure_of_foldl {a : Analyzer} {ts : List Template} {d : Draft}
    (h : (ts.foldl (Draft.add a) d).issues.failure? = none) : d.issues.failure? = none := by
  induction ts generalizing d with
  | nil => exact h
  | cons t rest ih =>
    have hadd := ih h
    obtain ⟨p, _, _, hd⟩ := add_failure hadd
    rw [hd] at hadd
    exact hadd

theorem build_compiles {a : Analyzer} {ts : List Template} {reg : Registry}
    (h : build a ts = .ok reg) :
    Compiles a ts reg.programs := by
  have hall : ∀ (ts : List Template) (d : Draft),
      (ts.foldl (Draft.add a) d).issues.failure? = none →
          ∃ ps, (ts.foldl (Draft.add a) d).programs = d.programs ++ ps ∧ Compiles a ts ps := by
    intro ts
    induction ts with
    | nil => exact fun d hd => ⟨[], by simp, .nil⟩
    | cons t rest ih =>
      intro d hd
      obtain ⟨ps, hps, hrest⟩ := ih (d.add a t) hd
      obtain ⟨p, hp, _, hadd⟩ := add_failure (failure_of_foldl hd)
      refine ⟨p :: ps, ?_, .cons hp hrest⟩
      rw [List.foldl_cons, hps, hadd, List.append_assoc]
      rfl
  unfold build at h
  simp only at h
  split at h
  · cases h
  · next hnone =>
    cases h
    obtain ⟨ps, hps, hcomp⟩ := hall ts {} hnone
    rw [hps]
    exact hcomp

/-- Templates that build at all build the registry that their result holds. -/
theorem build_getD {a : Analyzer} {ts : List Template} {d : Registry}
    (h : (build a ts).toOption.isSome = true) :
    build a ts = .ok ((build a ts).toOption.getD d) := by
  cases hbuild : build a ts with
  | error e => rw [hbuild] at h; cases h
  | ok reg => rfl

/-- The programs of a registry are those of its templates, each found as its template is. -/
theorem build_maps {a : Analyzer} {ts : List Template} {reg : Registry} (h : build a ts = .ok reg) :
    ∃ f, Directory.Maps f (Directory.ofTemplates ts) reg.directory ∧ ∀ t ∈ ts,
    Program.compile a t = .ok (f t) := by
  let f (t : Template) : Program := match Program.compile a t with
    | .ok p => p
    | .error _ =>
      { name := "", kind := .html, source := "", delegate := none, params := [],
        code := #[], size := 0 }
  have hall : ∀ {ts : List Template} {ps : List Program}, Compiles a ts ps →
      ps = ts.map f ∧ ∀ t ∈ ts, Program.compile a t = .ok (f t) := by
    intro ts ps hts
    induction hts with
    | nil => exact ⟨rfl, fun t ht => by cases ht⟩
    | @cons t p ts ps hp _ ih =>
      have hf : f t = p := by simp only [f, hp]
      refine ⟨by rw [List.map_cons, hf, ← ih.1], fun t' ht' => ?_⟩
      rcases List.mem_cons.1 ht' with rfl | ht'
      · rw [hf]
        exact hp
      · exact ih.2 t' ht'
  obtain ⟨hmap, hprograms⟩ := hall (build_compiles h)
  have hknown {t : Template} (ht : t ∈ ts) :=
    Program.ofTemplate_known (Program.ofTemplate_of_compile (hprograms t ht))
  exact ⟨f, ⟨hmap, fun t ht => (hknown ht).1, fun t ht => (hknown ht).2.2⟩, hprograms⟩

end Registry

end Interlude
