import Mathlib.Data.List.Basic
import Mathlib.Data.List.Nodup
import Interlude.Proofs.Registry
/-!
# The keys of a registry

Templates build exactly when each of them compiles and no two of them have one key, whatever their
order, and then every one of them is found (`build_exact`). A key joins a name, a variant and a
package by marks that may stand in them as well, so two templates that differ in all of these can
still clash; where no name has a colon and no variant an at sign, only templates of one name,
variant and package do.
-/

namespace Interlude

/-! ## Drafts without issues -/

namespace Registry

variable {a : Analyzer} {ts : List Template} {reg : Registry}

/-- A draft of templates that all compiled and have distinct keys. -/
structure Draft.Sound (a : Analyzer) (ts : List Template) (d : Draft) : Prop where
  programs : Compiles a ts d.programs
  seen : d.seen.map (·.1) = (ts.map keyOf).reverse
  nodup : (ts.map keyOf).Nodup
  issues : d.issues.failure? = none

theorem Draft.sound_nil : Draft.Sound a [] {} :=
  ⟨.nil, rfl, List.nodup_nil, rfl⟩

/-- Only a key of an earlier template is looked up. -/
theorem Draft.Sound.lookup_eq_none {d : Draft} (hd : d.Sound a ts) (key : String) :
    d.seen.lookup key = none ↔ key ∉ ts.map keyOf := by
  rw [List.lookup_eq_none_iff, ← List.mem_reverse, ← hd.seen]
  constructor
  · intro h hmem
    obtain ⟨entry, hentry, rfl⟩ := List.mem_map.1 hmem
    simpa using h entry hentry
  · intro h entry hentry
    rw [bne_iff_ne]
    rintro rfl
    exact h (List.mem_map_of_mem hentry)

theorem Draft.Sound.push {d : Draft} {t : Template} {p : Program} (hd : d.Sound a ts)
    (hp : Program.compile a t = .ok p) (hkey : keyOf t ∉ ts.map keyOf) :
    Draft.Sound a (ts ++ [t]) { d with programs := d.programs ++ [p],
                                       seen := (keyOf t, t.source) :: d.seen } where
  programs := List.rel_append hd.programs (.cons hp .nil)
  seen := by simp [hd.seen]
  nodup := by
    rw [List.map_append]
    exact hd.nodup.append (List.nodup_singleton _) (by simpa using hkey)
  issues := hd.issues

theorem Draft.Sound.add {d : Draft} {t : Template} {p : Program} (hd : d.Sound a ts)
    (hp : Program.compile a t = .ok p) (hkey : keyOf t ∉ ts.map keyOf) :
    (d.add a t).Sound a (ts ++ [t]) := by
  have hnone := (hd.lookup_eq_none _).2 hkey
  unfold Draft.add
  simp only [hp, hnone]
  exact hd.push hp hkey

/-- Adding templates leaves no issue exactly when they compile and bring new keys. -/
theorem Draft.Sound.foldl {d : Draft} {before : List Template} (hd : d.Sound a before)
    (ts : List Template) :
    (ts.foldl (Draft.add a) d).issues.failure? = none ↔
      (∃ ps, Compiles a ts ps) ∧ ((before ++ ts).map keyOf).Nodup := by
  induction ts generalizing before d with
  | nil => simpa [hd.issues, Compiles] using hd.nodup
  | cons t rest ih =>
    have hassoc : before ++ t :: rest = (before ++ [t]) ++ rest := by simp
    rw [List.foldl_cons, hassoc]
    constructor
    · intro h
      obtain ⟨p, hp, hkey, hadd⟩ := add_failure (failure_of_foldl h)
      rw [hadd] at h
      obtain ⟨⟨ps, hps⟩, hnodup⟩ := (ih (hd.push hp ((hd.lookup_eq_none _).1 hkey))).1 h
      exact ⟨⟨p :: ps, .cons hp hps⟩, hnodup⟩
    · rintro ⟨⟨ps, hps⟩, hnodup⟩
      cases hps with
      | cons hp hrest =>
        have hkey : keyOf t ∉ before.map keyOf := by
          rw [List.map_append, List.map_append] at hnodup
          intro hmem
          exact List.disjoint_of_nodup_append hnodup.of_append_left hmem (by simp)
        exact (ih (hd.add hp hkey)).2 ⟨⟨_, hrest⟩, hnodup⟩

theorem Compiles.unique {ps qs : List Program} (hp : Compiles a ts ps) (hq : Compiles a ts qs) :
    ps = qs := by
  induction hp generalizing qs with
  | nil => cases hq; rfl
  | cons h _ ih =>
    cases hq with
    | cons h' hrest =>
      rw [h] at h'
      cases h'
      rw [ih hrest]

/-- Templates build exactly when each of them compiles and no two have one key. -/
theorem build_ok_iff : build a ts = .ok reg ↔ Compiles a ts reg.programs ∧
    (ts.map keyOf).Nodup := by
  have hfold := Draft.sound_nil.foldl (a := a) ts
  rw [List.nil_append] at hfold
  constructor
  · intro h
    refine ⟨build_compiles h, ?_⟩
    unfold build at h
    simp only at h
    split at h
    · cases h
    · next hnone => exact (hfold.1 hnone).2
  · rintro ⟨hcomp, hnodup⟩
    have hnone := hfold.2 ⟨⟨_, hcomp⟩, hnodup⟩
    have hbuild : build a ts = .ok ⟨(ts.foldl (Draft.add a) {}).programs⟩ := by
      unfold build
      simp only [hnone]
    have hsame := (build_compiles hbuild).unique hcomp
    simp only at hsame
    rw [hbuild, hsame]

theorem Compiles.of_mem {ps : List Program} (h : Compiles a ts ps) {t : Template} (ht : t ∈ ts) :
    ∃ p, Program.compile a t = .ok p := by
  induction h with
  | nil => cases ht
  | cons hp _ ih =>
    rcases List.mem_cons.1 ht with rfl | ht
    · exact ⟨_, hp⟩
    · exact ih ht

theorem Compiles.of_all (h : ∀ t ∈ ts, ∃ p, Program.compile a t = .ok p) :
    ∃ ps, Compiles a ts ps := by
  induction ts with
  | nil => exact ⟨[], .nil⟩
  | cons t rest ih =>
    obtain ⟨p, hp⟩ := h t List.mem_cons_self
    obtain ⟨ps, hps⟩ := ih fun u hu => h u (List.mem_cons_of_mem t hu)
    exact ⟨p :: ps, .cons hp hps⟩

/-- Templates build in any order or in none. -/
theorem build_perm {ts' : List Template} (h : build a ts = .ok reg) (hperm : ts.Perm ts') :
    ∃ reg', build a ts' = .ok reg' := by
  obtain ⟨hcomp, hnodup⟩ := build_ok_iff.1 h
  obtain ⟨ps, hps⟩ := Compiles.of_all fun t ht => hcomp.of_mem (hperm.mem_iff.2 ht)
  exact ⟨⟨ps⟩, build_ok_iff.2 ⟨hps, (hperm.map keyOf).nodup_iff.1 hnodup⟩⟩

/-! ## Every template is found -/

theorem build_template (h : build a ts = .ok reg) {t : Template} (ht : t ∈ ts)
    (hbasic : t.delegate = none) :
    ∃ p, Program.compile a t = .ok p ∧ reg.template t.name = .ok p := by
  obtain ⟨f, hmaps, hprograms⟩ := build_maps h
  refine ⟨f t, hprograms t ht, ?_⟩
  have hfind : (Directory.ofTemplates ts).find? t.name = some t := by
    have hsome : ((Directory.ofTemplates ts).find? t.name).isSome :=
      List.find?_isSome.2 ⟨t, ht, by simp [Directory.ofTemplates, hbasic]⟩
    obtain ⟨u, hu⟩ := Option.isSome_iff_exists.1 hsome
    have hmem : u ∈ ts := List.mem_of_find?_eq_some hu
    have hsame : u.delegate = none ∧ u.name = t.name := by
      simpa [Directory.ofTemplates] using List.find?_some hu
    -- a basic template of this name has the key of `t`, and keys are distinct
    have hkey : keyOf u = keyOf t := by simp [keyOf, hsame, hbasic]
    rw [hu, List.inj_on_of_nodup_map (build_ok_iff.1 h).2 hmem ht hkey]
  unfold Registry.template
  rw [hmaps.template]
  unfold Directory.template
  rw [hfind]
  rfl

theorem build_implementations (h : build a ts = .ok reg) {t : Template} (ht : t ∈ ts) {d : Delegate}
    (hdelegate : t.delegate = some d) : ∃ p, Program.compile a t = .ok p ∧
    p ∈ reg.implementations t.name := by
  obtain ⟨f, hmaps, hprograms⟩ := build_maps h
  refine ⟨f t, hprograms t ht, ?_⟩
  have himpl : (d, t) ∈ (Directory.ofTemplates ts).implementations t.name :=
    List.mem_filterMap.2
      ⟨t, ht, by simp [Directory.implementation?, Directory.ofTemplates, hdelegate]⟩
  unfold implementations
  refine List.mem_map.2 ⟨(d, f t), ?_, rfl⟩
  rw [List.mem_mergeSort, hmaps.implementations]
  exact List.mem_map.2 ⟨(d, t), himpl, rfl⟩

end Registry

/-! ## Keys and identities -/

namespace Template

/-- What tells a template from others: its name, and for an implementation of a delegate its variant
and package. -/
def identity (t : Template) : String × Option (String × String) :=
  (t.name, t.delegate.map fun d => (d.variant, d.package))

/-- A template whose key can be read back. -/
structure Separable (t : Template) : Prop where
  name : ':' ∉ t.name.toList
  variant : ∀ d, t.delegate = some d → '@' ∉ d.variant.toList

end Template

namespace Registry

theorem keyOf_basic {t : Template} (h : t.delegate = none) : (keyOf t).toList = t.name.toList := by
  simp [keyOf, h]

theorem keyOf_delegate {t : Template} {d : Delegate} (h : t.delegate = some d) :
    (keyOf t).toList = t.name.toList ++ ':' :: (d.variant.toList ++ '@' :: d.package.toList) := by
  simp [keyOf, h]

/-- Templates of one identity have one key. -/
theorem keyOf_congr {t u : Template} (h : t.identity = u.identity) : keyOf t = keyOf u := by
  unfold Template.identity at h
  obtain ⟨hname, hrest⟩ := Prod.mk.inj h
  unfold keyOf
  rcases ht : t.delegate with _ | d <;> rcases hu : u.delegate with _ | e <;> simp_all

/-- A mark that stands in neither beginning cuts a list in one way. -/
theorem cut_unique {mark : Char} {xs xs' ys ys' : List Char} (h : mark ∉ xs) (h' : mark ∉ xs')
    (heq : xs ++ mark :: ys = xs' ++ mark :: ys') : xs = xs' ∧ ys = ys' := by
  induction xs generalizing xs' with
  | nil =>
    cases xs' with
    | nil => simpa using heq
    | cons x' rest' =>
      rw [List.nil_append, List.cons_append] at heq
      exact absurd ((List.cons.inj heq).1 ▸ List.mem_cons_self) h'
  | cons x rest ih =>
    cases xs' with
    | nil =>
      rw [List.nil_append, List.cons_append] at heq
      exact absurd ((List.cons.inj heq).1 ▸ List.mem_cons_self) h
    | cons x' rest' =>
      obtain ⟨rfl, hrest⟩ := List.cons.inj heq
      obtain ⟨rfl, hys⟩ :=
        ih (fun hx => h (List.mem_cons_of_mem x hx)) (fun hx => h' (List.mem_cons_of_mem x hx))
          hrest
      exact ⟨rfl, hys⟩

theorem keyOf_injective {t u : Template} (ht : t.Separable) (hu : u.Separable)
    (h : keyOf t = keyOf u) :
    t.identity = u.identity := by
  have hlist := congrArg String.toList h
  unfold Template.identity
  cases hdt : t.delegate with
  | none =>
    cases hdu : u.delegate with
    | none =>
      rw [keyOf_basic hdt, keyOf_basic hdu] at hlist
      rw [String.ext hlist]
    | some e =>
      -- the key of an implementation has a colon
      rw [keyOf_basic hdt, keyOf_delegate hdu] at hlist
      exact absurd (hlist ▸ by simp) ht.name
  | some d =>
    cases hdu : u.delegate with
    | none =>
      rw [keyOf_delegate hdt, keyOf_basic hdu] at hlist
      exact absurd (hlist ▸ by simp) hu.name
    | some e =>
      rw [keyOf_delegate hdt, keyOf_delegate hdu] at hlist
      obtain ⟨hname, hrest⟩ := cut_unique ht.name hu.name hlist
      obtain ⟨hvariant, hpackage⟩ := cut_unique (ht.variant d hdt) (hu.variant e hdu) hrest
      simp only [Option.map_some]
      rw [String.ext hname, String.ext hvariant, String.ext hpackage]

/-- Templates whose keys can be read back build exactly when no two have one identity. -/
theorem build_exact {a : Analyzer} {ts : List Template}
    (hcompile : ∀ t ∈ ts, ∃ p, Program.compile a t = .ok p) (hseparable : ∀ t ∈ ts, t.Separable) :
    (∃ reg, build a ts = .ok reg) ↔ (ts.map Template.identity).Nodup := by
  have hkeys : (ts.map keyOf).Nodup ↔ (ts.map Template.identity).Nodup := by
    unfold List.Nodup
    rw [List.pairwise_map, List.pairwise_map]
    refine List.Pairwise.iff_of_mem fun {t u} ht hu => not_congr ⟨?_, keyOf_congr⟩
    exact keyOf_injective (hseparable t ht) (hseparable u hu)
  rw [← hkeys]
  constructor
  · rintro ⟨reg, h⟩
    exact (build_ok_iff.1 h).2
  · intro hnodup
    obtain ⟨ps, hps⟩ := Compiles.of_all hcompile
    exact ⟨⟨ps⟩, build_ok_iff.2 ⟨hps, hnodup⟩⟩

end Registry

namespace Sample

/-- An implementation of a delegate that puts out nothing. -/
def implementation (variant package : String) (priority : Int64) : Template :=
  { name := "a", kind := .html, source := "", params := [], body := []
    delegate := some { package, variant, priority } }

/-- An at sign in a variant and one in a package make two implementations clash. -/
theorem keys_clash : (implementation "b@c" "d" 1).identity ≠ (implementation "b" "c@d" 1).identity ∧
    ¬ ∃ reg, Registry.build .conservative [implementation "b@c" "d" 1, implementation "b" "c@d" 1] =
    .ok reg := by
  refine ⟨by decide, ?_⟩
  rintro ⟨reg, h⟩
  have hnodup := (Registry.build_ok_iff.1 h).2
  simp [Registry.keyOf, implementation] at hnodup

end Sample

end Interlude
