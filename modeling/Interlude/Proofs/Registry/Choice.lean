import Mathlib
import Interlude.Proofs.Registry.Distinct
/-!
# Choosing an implementation

Among the active implementations of a delegate the one whose priority is greater than that of every
other is taken. A greatest priority that two share is an error, and without any implementation the
call is answered by the variant that has no name, by nothing, or by an error. None of this depends
on the order of the templates (`select_decided`).
-/

namespace Interlude

namespace Directory

variable {α : Type} {d : Directory α} {context : Context} {name variant : String}

/-- An implementation of a delegate for one variant and at one priority, in an active package. -/
def Competes (d : Directory α) (context : Context) (name variant : String) (x : α)
    (priority : Int64) : Prop :=
  x ∈ d.all ∧ d.name x = name ∧ ∃ delegate, d.delegate x = some delegate ∧
    delegate.variant = variant ∧ (delegate.package = "" ∨ context.active delegate.package = true) ∧
    delegate.priority = priority

/-- No implementation of the delegate for the variant is active. -/
def Vacant (d : Directory α) (context : Context) (name variant : String) : Prop :=
  ∀ x priority, ¬ d.Competes context name variant x priority

/-- An active implementation whose priority is greater than that of every other. -/
def Wins (d : Directory α) (context : Context) (name variant : String) (x : α) : Prop :=
  ∃ priority, d.Competes context name variant x priority ∧
    ∀ y priority', d.Competes context name variant y priority' → y ≠ x → priority' < priority

/-- Two active implementations share the greatest priority. -/
def Tied (d : Directory α) (context : Context) (name variant : String) : Prop :=
  ∃ x y priority, x ≠ y ∧ d.Competes context name variant x priority ∧
    d.Competes context name variant y priority ∧ ∀ z priority',
    d.Competes context name variant z priority' → priority' ≤ priority

/-! ## Candidates in order -/

/-- The active implementations, highest priority first. -/
def candidates (d : Directory α) (context : Context) (name variant : String) :
    List (Delegate × α) :=
  (d.variants name variant).filter fun x => context.isActive x.1.package

theorem active_eq : d.active? context name variant = match d.candidates context name variant with
    | [] => .ok none
    | [best] => .ok (some best.2)
    | best :: next :: _ =>
      if next.1.priority < best.1.priority then .ok (some best.2)
      else .error (ambiguousDelegate name variant best.1.package next.1.package) := rfl

theorem mem_candidates {delegate : Delegate} {x : α} :
    (delegate, x) ∈ d.candidates context name variant ↔
      x ∈ d.all ∧ d.name x = name ∧ d.delegate x = some delegate ∧ delegate.variant = variant ∧
        (delegate.package = "" ∨ context.active delegate.package = true) := by
  unfold candidates variants implementations implementation? Context.isActive
  rw [List.mem_filter, List.mem_mergeSort, List.mem_filter, List.mem_filterMap]
  simp only [Option.ite_none_right_eq_some, Option.map_eq_some_iff, beq_iff_eq, Bool.or_eq_true,
    String.isEmpty_iff, Prod.mk.injEq]
  constructor
  · rintro ⟨⟨⟨y, hy, hname, e, he, rfl, rfl⟩, hvariant⟩, hactive⟩
    exact ⟨hy, hname, he, hvariant, hactive⟩
  · rintro ⟨hx, hname, hdelegate, hvariant, hactive⟩
    exact ⟨⟨⟨x, hx, hname, delegate, hdelegate, rfl, rfl⟩, hvariant⟩, hactive⟩

theorem competes_iff {x : α} {priority : Int64} :
    d.Competes context name variant x priority ↔
      ∃ delegate, (delegate, x) ∈ d.candidates context name variant ∧
    delegate.priority = priority := by
  constructor
  · rintro ⟨hx, hname, delegate, hdelegate, hvariant, hactive, hpriority⟩
    exact ⟨delegate, mem_candidates.2 ⟨hx, hname, hdelegate, hvariant, hactive⟩, hpriority⟩
  · rintro ⟨delegate, hmem, hpriority⟩
    obtain ⟨hx, hname, hdelegate, hvariant, hactive⟩ := mem_candidates.1 hmem
    exact ⟨hx, hname, delegate, hdelegate, hvariant, hactive, hpriority⟩

theorem candidates_sorted :
    (d.candidates context name variant).Pairwise fun x y => y.1.priority ≤ x.1.priority := by
  have hsorted : (d.variants name variant).Pairwise fun x y => y.1.priority ≤ x.1.priority := by
    have h := @List.pairwise_mergeSort _ (fun x y : Delegate × α =>
      decide (y.1.priority ≤ x.1.priority)) (fun x y z hxy hyz => by
        simp only [decide_eq_true_eq] at hxy hyz ⊢
        exact Int64.le_trans hyz hxy)
      (fun x y => by
        simp only [Bool.or_eq_true, decide_eq_true_eq]
        exact Int64.le_total _ _)
      ((d.implementations name).filter (·.1.variant == variant))
    exact h.imp fun hle => by simpa using hle
  exact hsorted.filter _

/-- A directory without repetitions names each candidate once. -/
theorem candidates_nodup (h : d.all.Nodup) :
    ((d.candidates context name variant).map (·.2)).Nodup := by
  have himpl : ((d.implementations name).map (·.2)).Nodup := by
    unfold implementations
    rw [List.map_filterMap]
    refine h.filterMap fun x y z hx hy => ?_
    simp only [implementation?, Option.mem_def, Option.map_eq_some_iff,
      Option.ite_none_right_eq_some] at hx hy
    obtain ⟨_, ⟨_, _, _, rfl⟩, rfl⟩ := hx
    obtain ⟨_, ⟨_, _, _, rfl⟩, hyz⟩ := hy
    exact hyz.symm
  have hvariants : ((d.variants name variant).map (·.2)).Nodup := by
    unfold variants
    refine (((List.mergeSort_perm _ _).map _).nodup_iff).2 ?_
    exact himpl.sublist ((List.filter_sublist).map _)
  exact hvariants.sublist ((List.filter_sublist).map _)

/-! ## The choice -/

theorem ambiguousDelegate_hasCode (name variant first second : String) :
    (ambiguousDelegate name variant first second).hasCode .ambiguousDelegate = true := rfl

theorem delegateNotFound_hasCode (name variant : String) :
    (delegateNotFound name variant).hasCode .delegateNotFound = true := rfl

/-- What asking for one variant comes to. -/
inductive Answer (d : Directory α) (context : Context) (name variant : String) :
    Except Failure (Option α) → Prop
  | vacant : d.Vacant context name variant → Answer d context name variant (.ok none)
  | chosen {x : α} : d.Wins context name variant x → Answer d context name variant (.ok (some x))
  | ambiguous {e : Failure} : d.Tied context name variant → e.hasCode .ambiguousDelegate = true →
      Answer d context name variant (.error e)

theorem active_answer (h : d.all.Nodup) :
    d.Answer context name variant (d.active? context name variant) := by
  have hcompetes {x : α} {priority : Int64} : d.Competes context name variant x priority ↔
    _ := competes_iff
  have hsorted : (d.candidates context name variant).Pairwise _ := candidates_sorted
  have hnodup : ((d.candidates context name variant).map (·.2)).Nodup := candidates_nodup h
  rw [active_eq]
  generalize d.candidates context name variant = xs at hcompetes hsorted hnodup
  rcases xs with _ | ⟨best, rest⟩
  · refine .vacant fun x priority hx => ?_
    obtain ⟨_, hmem, _⟩ := hcompetes.1 hx
    cases hmem
  have hbest : d.Competes context name variant best.2 best.1.priority :=
    hcompetes.2 ⟨best.1, List.mem_cons_self, rfl⟩
  have hgreatest := (List.pairwise_cons.1 hsorted).1
  rcases rest with _ | ⟨next, rest⟩
  · refine .chosen ⟨best.1.priority, hbest, fun y priority hy hne => ?_⟩
    obtain ⟨e, hmem, _⟩ := hcompetes.1 hy
    obtain rfl := List.mem_singleton.1 hmem
    exact absurd rfl hne
  · simp only
    have hnext : d.Competes context name variant next.2 next.1.priority :=
      hcompetes.2 ⟨next.1, by simp, rfl⟩
    have hafter := (List.pairwise_cons.1 (List.pairwise_cons.1 hsorted).2).1
    split
    · next hlt =>
      refine .chosen ⟨best.1.priority, hbest, fun y priority hy hne => ?_⟩
      obtain ⟨e, hmem, rfl⟩ := hcompetes.1 hy
      rcases List.mem_cons.1 hmem with rfl | hmem
      · exact absurd rfl hne
      rcases List.mem_cons.1 hmem with rfl | hmem
      · exact hlt
      · have hle := hafter _ hmem
        exact Int64.lt_of_le_of_lt hle hlt
    · next hge =>
      have hsame : next.1.priority = best.1.priority :=
        Int64.le_antisymm (hgreatest next (by simp)) (Int64.not_lt.1 hge)
      have hne : best.2 ≠ next.2 := by
        intro heq
        exact (List.nodup_cons.1 hnodup).1 (by simp [heq])
      refine .ambiguous ⟨best.2, next.2, best.1.priority, hne, hbest, hsame ▸ hnext, ?_⟩
        (ambiguousDelegate_hasCode ..)
      intro z priority hz
      obtain ⟨e, hmem, rfl⟩ := hcompetes.1 hz
      rcases List.mem_cons.1 hmem with rfl | hmem
      · exact Int64.le_refl _
      · have hle := hgreatest _ hmem
        exact hle

/-- What a call of a delegate comes to: the variant asked for answers if it has an active
implementation, else the one without a name does. -/
inductive Selects (d : Directory α) (context : Context) (name variant : String)
    (allowEmpty : Bool) :
    Except Failure (Option α) → Prop
  | asked {r : Except Failure (Option α)} : ¬ d.Vacant context name variant →
      d.Answer context name variant r → Selects d context name variant allowEmpty r
  | default {r : Except Failure (Option α)} : d.Vacant context name variant →
      ¬ d.Vacant context name "" → d.Answer context name "" r →
      Selects d context name variant allowEmpty r
  | nothing : d.Vacant context name variant → d.Vacant context name "" → allowEmpty = true →
      Selects d context name variant allowEmpty (.ok none)
  | missing {e : Failure} : d.Vacant context name variant → d.Vacant context name "" →
      allowEmpty = false → e.hasCode .delegateNotFound = true →
      Selects d context name variant allowEmpty (.error e)

theorem Wins.not_vacant {x : α} (h : d.Wins context name variant x) :
    ¬ d.Vacant context name variant := by
  obtain ⟨priority, hx, _⟩ := h
  exact fun hvacant => hvacant x priority hx

theorem Tied.not_vacant (h : d.Tied context name variant) : ¬ d.Vacant context name variant := by
  obtain ⟨x, _, priority, _, hx, _⟩ := h
  exact fun hvacant => hvacant x priority hx

/-- Without any active implementation a call is answered by what it allows. -/
theorem selects_vacant {allowEmpty : Bool} (h : d.Vacant context name variant)
    (h' : d.Vacant context name "") :
    d.Selects context name variant allowEmpty
      (if allowEmpty then .ok none else .error (delegateNotFound name variant)) := by
  cases allowEmpty with
  | true => exact .nothing h h' rfl
  | false => exact .missing h h' rfl (delegateNotFound_hasCode name variant)

theorem select_selects (h : d.all.Nodup) (allowEmpty : Bool) :
    d.Selects context name variant allowEmpty (d.select context name variant allowEmpty) := by
  have hasked : d.Answer context name variant _ := active_answer h
  have hdefault : d.Answer context name "" _ := active_answer h
  unfold select
  generalize d.active? context name variant = asked at hasked
  generalize d.active? context name "" = fallback at hdefault
  cases hasked with
  | chosen hwins => exact .asked hwins.not_vacant (.chosen hwins)
  | ambiguous htied hcode => exact .asked htied.not_vacant (.ambiguous htied hcode)
  | vacant hvacant =>
    by_cases hempty : variant = ""
    · subst hempty
      cases allowEmpty with
      | true => exact selects_vacant hvacant hvacant
      | false => exact selects_vacant hvacant hvacant
    · have hname : variant.isEmpty = false := by simpa using hempty
      simp only [hname]
      cases hdefault with
      | chosen hwins => exact .default hvacant hwins.not_vacant (.chosen hwins)
      | ambiguous htied hcode => exact .default hvacant htied.not_vacant (.ambiguous htied hcode)
      | vacant hvacant' =>
        cases allowEmpty with
        | true => exact selects_vacant hvacant hvacant'
        | false => exact selects_vacant hvacant hvacant'

/-! ## One choice -/

/-- Two calls that take the same, or fail with one code. -/
def Agree {β : Type} : Except Failure β → Except Failure β → Prop
  | .ok x, .ok y => x = y
  | .error e, .error f => ∀ code, e.hasCode code = f.hasCode code
  | _, _ => False

theorem hasCode_unique {e : Failure} {code : Code} (h : e.hasCode code = true) (other : Code) :
    e.hasCode other = decide (code = other) := by
  unfold Failure.hasCode at h ⊢
  cases hf : e.fault? with
  | none => rw [hf] at h; cases h
  | some f =>
    rw [hf] at h
    simp only [beq_iff_eq] at h
    simp only [h]
    rfl

theorem Agree.of_code {β : Type} {e f : Failure} {code : Code} (he : e.hasCode code = true)
    (hf : f.hasCode code = true) : Agree (.error e : Except Failure β) (.error f) := by
  intro other
  rw [hasCode_unique he, hasCode_unique hf]

theorem Agree.bind {β γ : Type} {x y : Except Failure β} (h : Agree x y)
    (f : β → Except Failure γ) :
    Agree (x >>= f) (y >>= f) := by
  cases x with
  | error e =>
    cases y with
    | error e' => exact h
    | ok b => exact h.elim
  | ok b =>
    cases y with
    | error e' => exact h.elim
    | ok b' =>
      obtain rfl : b = b' := h
      change Agree (f b) (f b)
      cases f b with
      | error e => exact fun _ => rfl
      | ok c => exact rfl

theorem Wins.unique {x y : α} (hx : d.Wins context name variant x)
    (hy : d.Wins context name variant y) : x = y := by
  obtain ⟨p, hcx, hbx⟩ := hx
  obtain ⟨q, hcy, hby⟩ := hy
  by_contra hne
  exact Int64.lt_irrefl (Int64.lt_trans (hbx y q hcy (Ne.symm hne)) (hby x p hcx hne))

theorem Wins.not_tied {x : α} (hx : d.Wins context name variant x) :
    ¬ d.Tied context name variant := by
  obtain ⟨p, hcx, hbx⟩ := hx
  rintro ⟨y, z, q, hne, hcy, hcz, hmost⟩
  -- the winner is not both of the two that share the greatest priority
  by_cases hyx : y = x
  · have hzx : z ≠ x := fun hzx => hne (hyx.trans hzx.symm)
    exact Int64.not_lt.2 (hmost x p hcx) (hbx z q hcz hzx)
  · exact Int64.not_lt.2 (hmost x p hcx) (hbx y q hcy hyx)

theorem Answer.unique {r r' : Except Failure (Option α)} (h : d.Answer context name variant r)
    (h' : d.Answer context name variant r') : Agree r r' := by
  cases h with
  | vacant hv =>
    cases h' with
    | vacant _ => exact rfl
    | chosen hw => exact (hw.not_vacant hv).elim
    | ambiguous ht _ => exact (ht.not_vacant hv).elim
  | chosen hw =>
    cases h' with
    | vacant hv => exact (hw.not_vacant hv).elim
    | chosen hw' => exact congrArg some (hw.unique hw')
    | ambiguous ht _ => exact (hw.not_tied ht).elim
  | ambiguous ht hc =>
    cases h' with
    | vacant hv => exact (ht.not_vacant hv).elim
    | chosen hw => exact (hw.not_tied ht).elim
    | ambiguous _ hc' => exact .of_code hc hc'

theorem Selects.unique {allowEmpty : Bool} {r r' : Except Failure (Option α)}
    (h : d.Selects context name variant allowEmpty r)
    (h' : d.Selects context name variant allowEmpty r') :
    Agree r r' := by
  cases h with
  | asked hn ha =>
    cases h' with
    | asked _ ha' => exact ha.unique ha'
    | default hv _ _ => exact (hn hv).elim
    | nothing hv _ _ => exact (hn hv).elim
    | missing hv _ _ _ => exact (hn hv).elim
  | default hv hn ha =>
    cases h' with
    | asked hn' _ => exact (hn' hv).elim
    | default _ _ ha' => exact ha.unique ha'
    | nothing _ hv' _ => exact (hn hv').elim
    | missing _ hv' _ _ => exact (hn hv').elim
  | nothing hv hv' hallow =>
    cases h' with
    | asked hn _ => exact (hn hv).elim
    | default _ hn _ => exact (hn hv').elim
    | nothing _ _ _ => exact rfl
    | missing _ _ hrefuse _ => rw [hallow] at hrefuse; cases hrefuse
  | missing hv hv' hrefuse hc =>
    cases h' with
    | asked hn _ => exact (hn hv).elim
    | default _ hn _ => exact (hn hv').elim
    | nothing _ _ hallow => rw [hallow] at hrefuse; cases hrefuse
    | missing _ _ _ hc' => exact .of_code hc hc'

/-! ## The same candidates -/

section

variable {e : Directory α} (h : ∀ name variant x priority,
  d.Competes context name variant x priority ↔ e.Competes context name variant x priority)

include h

theorem vacant_congr : d.Vacant context name variant ↔ e.Vacant context name variant := by
  simp only [Vacant, h]

theorem Answer.congr {r : Except Failure (Option α)} (hr : d.Answer context name variant r) :
    e.Answer context name variant r := by
  cases hr with
  | vacant hv => exact .vacant ((vacant_congr h).1 hv)
  | chosen hw =>
    simp only [Wins, h] at hw
    exact .chosen hw
  | ambiguous ht hc =>
    simp only [Tied, h] at ht
    exact .ambiguous ht hc

theorem Selects.congr {allowEmpty : Bool} {r : Except Failure (Option α)}
    (hr : d.Selects context name variant allowEmpty r) :
    e.Selects context name variant allowEmpty r := by
  cases hr with
  | asked hn ha => exact .asked (fun hv => hn ((vacant_congr h).2 hv)) (ha.congr h)
  | default hv hn ha =>
    exact .default ((vacant_congr h).1 hv) (fun hv' => hn ((vacant_congr h).2 hv')) (ha.congr h)
  | nothing hv hv' hallow => exact .nothing ((vacant_congr h).1 hv) ((vacant_congr h).1 hv') hallow
  | missing hv hv' hrefuse hc =>
    exact .missing ((vacant_congr h).1 hv) ((vacant_congr h).1 hv') hrefuse hc

end

end Directory

/-! ## Registries -/

namespace Registry

variable {a : Analyzer} {ts ts' : List Template} {reg : Registry} {context : Context}
  {name variant : String}

theorem templates_nodup (h : build a ts = .ok reg) : ts.Nodup :=
  (build_ok_iff.1 h).2.of_map

/-- The order of templates decides nothing. -/
theorem selects_perm (h : ts.Perm ts') {allowEmpty : Bool} {r : Except Failure (Option Template)}
    (hr : (Directory.ofTemplates ts).Selects context name variant allowEmpty r) :
    (Directory.ofTemplates ts').Selects context name variant allowEmpty r := by
  refine Directory.Selects.congr (fun name variant x priority => ?_) hr
  unfold Directory.Competes
  exact and_congr_left fun _ => h.mem_iff

/-- The registry takes what its templates decide on. -/
theorem select_templates (h : build a ts = .ok reg) (allowEmpty : Bool) :
    reg.select context name variant allowEmpty =
      (Directory.ofTemplates ts).select context name variant allowEmpty >>= fun chosen =>
        chosen.mapM (Program.compile a) := by
  obtain ⟨f, hmaps, hprograms⟩ := build_maps h
  unfold Registry.select
  rw [hmaps.select]
  cases hr : (Directory.ofTemplates ts).select context name variant allowEmpty with
  | error e => rfl
  | ok chosen =>
    cases chosen with
    | none => rfl
    | some t =>
      have hcompiled := hprograms t (Directory.select_mem hr)
      change .ok (some (f t)) = (some <$> Program.compile a t : Except Failure (Option Program))
      rw [hcompiled]
      rfl

/-- A call of a delegate takes the active implementation of greatest priority for the variant asked
for or else for the one without a name, whatever the order of the templates. -/
theorem select_decided (h : build a ts = .ok reg) (context : Context) (name variant : String)
    (allowEmpty : Bool) :
    (∃ r, (Directory.ofTemplates ts).Selects context name variant allowEmpty r ∧
      reg.select context name variant allowEmpty = r >>= fun chosen =>
      chosen.mapM (Program.compile a)) ∧ ∀ ts', ts.Perm ts' → ∃ reg', build a ts' = .ok reg' ∧
      Directory.Agree (reg.select context name variant allowEmpty)
      (reg'.select context name variant allowEmpty) := by
  have hselects {ts : List Template} {reg : Registry} (h : build a ts = .ok reg) :
      (Directory.ofTemplates ts).Selects context name variant allowEmpty _ :=
    Directory.select_selects (templates_nodup h) allowEmpty
  refine ⟨⟨_, hselects h, select_templates h allowEmpty⟩, ?_⟩
  intro ts' hperm
  obtain ⟨reg', h'⟩ := build_perm h hperm
  refine ⟨reg', h', ?_⟩
  rw [select_templates h, select_templates h']
  exact ((selects_perm hperm (hselects h)).unique (hselects h')).bind _

end Registry

namespace Sample

/-- Three implementations for two variants. -/
def implementations : List Template :=
    [implementation "" "" 1, implementation "" "x" 2, implementation "b" "y" 3]

/-- The context in which the package `x` is active. -/
def active : Context := { active := (· == "x") }

/-- Without an active implementation of its own a variant is answered by the implementation of
greatest priority that has none. -/
theorem implementation_chosen : ∃ reg, Registry.build .conservative implementations = .ok reg ∧
    (∃ r, (Directory.ofTemplates implementations).Selects active "a" "b" false r ∧
      reg.select active "a" "b" false = r >>= fun chosen =>
      chosen.mapM (Program.compile .conservative)) ∧ ∀ ts', implementations.Perm ts' →
    ∃ reg', Registry.build .conservative ts' = .ok reg' ∧
    Directory.Agree (reg.select active "a" "b" false) (reg'.select active "a" "b" false) := by
  have hbuild : Registry.build .conservative implementations =
      .ok ((Registry.build .conservative implementations).toOption.getD {}) :=
    Registry.build_getD (by decide +kernel)
  exact ⟨_, hbuild, Registry.select_decided hbuild active "a" "b" false⟩

end Sample

end Interlude
