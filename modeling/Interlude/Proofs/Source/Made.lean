import Interlude.Bundle.Load
import Interlude.Proofs.Source.Run
/-!
# What was made before a run

Boxed data and loaded templates take the numbers of their lists, maps and records one after another.
So all that was made so far has numbers below the next one (`loadAll_made`).
-/

namespace Interlude

/-! ## Computations that give out numbers -/

namespace Boxing

/-- Of what a computation makes that starts at the number `n`, `Q` holds at the number it ends
at. -/
def Makes {α : Type} (Q : Identity → α → Prop) (n : Identity) (x : Boxing α) : Prop :=
  ∀ a k, x n = .ok (a, k) → n ≤ k ∧ Q k a

namespace Makes

variable {α β : Type} {P : Identity → α → Prop} {Q : Identity → β → Prop} {n : Identity}
  {x : Boxing α}

theorem pure {a : α} (h : P n a) : Makes P n (Pure.pure a) := by
  rintro _ _ ⟨⟩
  exact ⟨Nat.le_refl n, h⟩

theorem throw (e : Failure) : Makes P n (MonadExcept.throw e) := nofun

theorem bind {f : α → Boxing β} (hx : Makes P n x) (hf : ∀ a m, n ≤ m → P m a → Makes Q m (f a)) :
    Makes Q n (x >>= f) := by
  intro b k h
  obtain ⟨a, m, ha, h⟩ := StateT.bind_ok h
  obtain ⟨hle, hP⟩ := hx a m ha
  obtain ⟨hle', hQ⟩ := hf a m hle hP b k h
  exact ⟨Nat.le_trans hle hle', hQ⟩

theorem weaken {R : Identity → α → Prop} (hx : Makes P n x) (h : ∀ k a, P k a → R k a) :
    Makes R n x :=
  fun a k ha => (hx a k ha).imp_right (h k a)

theorem map {f : α → β} (hx : Makes P n x) (hf : ∀ k a, P k a → Q k (f a)) :
    Makes Q n (f <$> x) := by
  rw [map_eq_pure_bind]
  exact hx.bind fun a m _ ha => .pure (hf m a ha)

theorem fresh : Makes (fun k self => self.maker < k) n Boxing.fresh := by
  rintro _ _ ⟨⟩
  exact ⟨Nat.le_succ n, Nat.lt_succ_self n⟩

theorem tryCatch {f : Failure → Boxing α} (hx : Makes P n x) (hf : ∀ e, Makes P n (f e)) :
    Makes P n (tryCatchThe Failure x f) := by
  intro a k h
  change tryCatchThe Failure (x n) (fun e => f e n) = .ok (a, k) at h
  cases hx' : x n with
  | ok r =>
    rw [hx'] at h
    cases h
    exact hx a k hx'
  | error e =>
    rw [hx'] at h
    exact hf e a k h

theorem mapM {f : α → Boxing β} (hmono : ∀ {m k b}, m ≤ k → Q m b → Q k b)
    (hf : ∀ a m, Makes Q m (f a)) (as : List α) :
    Makes (fun k bs => ∀ b ∈ bs, Q k b) n (as.mapM f) := by
  induction as generalizing n with
  | nil =>
    rw [List.mapM_nil]
    exact .pure nofun
  | cons a rest ih =>
    rw [List.mapM_cons]
    refine (hf a n).bind fun b m _ hb => ih.bind fun bs k hle hbs => .pure ?_
    exact List.forall_mem_cons.2 ⟨hmono hle hb, hbs⟩

theorem foldlM {f : β → α → Boxing β} (hf : ∀ b a m, Q m b → Makes Q m (f b a)) (as : List α)
    {b : β} (hb : Q n b) :
    Makes Q n (as.foldlM f b) := by
  induction as generalizing n b with
  | nil => exact .pure hb
  | cons a rest ih =>
    rw [List.foldlM_cons]
    exact (hf b a n hb).bind fun b m _ hb => ih hb

end Makes

end Boxing

open Boxing (Makes)

/-! ## Data -/

namespace Value

variable {n : Identity}

theorem MadeBefore.mono {m : Identity} {v : Value} (h : v.MadeBefore n) (hle : n ≤ m) :
    v.MadeBefore m :=
  fun k hk => Nat.lt_of_lt_of_le (h k hk) hle

theorem madeBefore_list {self : Origin} {items : List Value} (hself : self.maker < n)
    (h : ∀ v ∈ items, v.MadeBefore n) :
    (list self items).MadeBefore n := by
  refine List.forall_mem_cons.2 ⟨hself, ?_⟩
  induction items with
  | nil => exact nofun
  | cons v rest ih =>
    obtain ⟨hv, hrest⟩ := List.forall_mem_cons.1 h
    exact List.forall_mem_append.2 ⟨hv, ih hrest⟩

theorem madeBefore_map {self : Origin} {entries : List (Value × Value)} (hself : self.maker < n)
    (h : ∀ e ∈ entries, e.1.MadeBefore n ∧ e.2.MadeBefore n) : (map self entries).MadeBefore n := by
  refine List.forall_mem_cons.2 ⟨hself, ?_⟩
  induction entries with
  | nil => exact nofun
  | cons e rest ih =>
    obtain ⟨⟨hk, hv⟩, hrest⟩ := List.forall_mem_cons.1 h
    exact List.forall_mem_append.2 ⟨List.forall_mem_append.2 ⟨hk, hv⟩, ih hrest⟩

theorem madeBefore_record {self : Origin} {fields : List (String × Value)} (hself : self.maker < n)
    (h : ∀ f ∈ fields, f.2.MadeBefore n) : (record self fields).MadeBefore n := by
  refine List.forall_mem_cons.2 ⟨hself, ?_⟩
  induction fields with
  | nil => exact nofun
  | cons f rest ih =>
    obtain ⟨hv, hrest⟩ := List.forall_mem_cons.1 h
    exact List.forall_mem_append.2 ⟨hv, ih hrest⟩

/-- A record has fields of those it is made of. -/
theorem madeBefore_recordOf {self : Origin} {fields : List (String × Value)}
    (hself : self.maker < n) (h : ∀ f ∈ fields, f.2.MadeBefore n) :
    (recordOf self fields).MadeBefore n := by
  have hfold (fields acc : List (String × Value)) (hacc : ∀ f ∈ acc, f.2.MadeBefore n)
    (h : ∀ f ∈ fields, f.2.MadeBefore n) :
      ∀ f ∈ fields.foldl (fun acc kv => acc.filter (·.1 != kv.1) ++ [kv]) acc,
          f.2.MadeBefore n := by
    induction fields generalizing acc with
    | nil => exact hacc
    | cons f rest ih =>
      refine ih _ (fun g hg => ?_) fun g hg => h g (List.mem_cons_of_mem _ hg)
      rcases List.mem_append.1 hg with hg | hg
      · exact hacc g (List.mem_filter.1 hg).1
      · rw [List.mem_singleton.1 hg]
        exact h f List.mem_cons_self
  exact madeBefore_record hself fun f hf => hfold fields [] nofun h f (List.mem_mergeSort.1 hf)

end Value

namespace Datum

/-- A value that was boxed before is in a datum. -/
inductive Holds (v : Value) : Datum → Prop where
  | here : Holds v (.boxed v)
  | item {items : List Datum} {d : Datum} (hd : d ∈ items) (h : Holds v d) : Holds v (.list items)
  | member {members : List (String × Datum)} {d : String × Datum} (hd : d ∈ members)
    (h : Holds v d.2) :
      Holds v (.named members)
  | key {members : List (Datum × Datum)} {d : Datum × Datum} (hd : d ∈ members) (h : Holds v d.1) :
    Holds v (.keyed members)
  | entry {members : List (Datum × Datum)} {d : Datum × Datum} (hd : d ∈ members)
    (h : Holds v d.2) :
      Holds v (.keyed members)

/-- All values that a datum holds were made before `n`. -/
def MadeBefore (n : Identity) (d : Datum) : Prop := ∀ v, d.Holds v → v.MadeBefore n

theorem MadeBefore.mono {n m : Identity} {d : Datum} (h : d.MadeBefore n) (hle : n ≤ m) :
    d.MadeBefore m :=
  fun v hv => (h v hv).mono hle

mutual

/-- Boxed data has numbers below the next one. -/
theorem box_made : ∀ (d : Datum) {n : Identity}, d.MadeBefore n → Makes Value.MadeBefore n d.box
  | .null, _, _ | .bool _, _, _ | .int _, _, _ | .float _, _, _ | .str _, _, _ => .pure nofun
  | .unsigned i, _, _ => by
    unfold box Value.ofUnsigned
    split
    · exact .pure nofun
    · exact .throw _
  | .list items, _, hd => by
    unfold box
    refine (boxItems_made items 0 fun d hi v hv => hd v (.item hi hv)).bind fun vs k _ hvs =>
      Makes.fresh.bind ?_
    exact fun self m hle hself =>
      .pure (Value.madeBefore_list hself fun v hv => (hvs v hv).mono hle)
  | .named members, _, hd => by
    unfold box
    refine (boxFields_made members fun d hi v hv => hd v (.member hi hv)).bind fun vs k _ hvs =>
      Makes.fresh.bind ?_
    exact fun self m hle hself =>
      .pure (Value.madeBefore_recordOf hself fun v hv => (hvs v hv).mono hle)
  | .keyed members, _, hd => by
    unfold box
    have hmembers : ∀ d ∈ members, d.1.MadeBefore _ ∧ d.2.MadeBefore _ := fun d hi =>
      ⟨fun v hv => hd v (.key hi hv), fun v hv => hd v (.entry hi hv)⟩
    refine (boxEntries_made members hmembers fun _ he => by cases he).bind fun vs k _ hvs =>
      Makes.fresh.bind fun self m hle hself => .pure ?_
    exact Value.madeBefore_map hself fun e he => ⟨(hvs e he).1.mono hle, (hvs e he).2.mono hle⟩
  | .foreign _, _, _ => .throw _
  | .boxed v, _, hd => .pure (hd v .here)

theorem boxItems_made : ∀ (ds : List Datum) (i : Nat) {n : Identity}, (∀ d ∈ ds, d.MadeBefore n) →
    Makes (fun k vs => ∀ v ∈ vs, v.MadeBefore k) n (boxItems i ds)
  | [], _, _, _ => .pure nofun
  | d :: rest, i, _, hds => by
    obtain ⟨hd, hrest⟩ := List.forall_mem_cons.1 hds
    unfold boxItems
    refine ((box_made d hd).tryCatch fun e => .throw _).bind fun v k hle hv => ?_
    refine (boxItems_made rest (i + 1) fun d hd => (hrest d hd).mono hle).bind fun vs m hle hvs =>
      .pure ?_
    exact List.forall_mem_cons.2 ⟨hv.mono hle, hvs⟩

theorem boxFields_made : ∀ (ds : List (String × Datum)) {n : Identity},
    (∀ d ∈ ds, d.2.MadeBefore n) → Makes (fun k vs => ∀ v ∈ vs, v.2.MadeBefore k) n (boxFields ds)
  | [], _, _ => .pure nofun
  | (name, d) :: rest, _, hds => by
    obtain ⟨hd, hrest⟩ := List.forall_mem_cons.1 hds
    unfold boxFields
    refine ((box_made d hd).tryCatch fun e => .throw _).bind fun v k hle hv => ?_
    refine (boxFields_made rest fun d hd => (hrest d hd).mono hle).bind fun vs m hle hvs => .pure ?_
    exact List.forall_mem_cons.2 ⟨hv.mono hle, hvs⟩

theorem boxEntries_made :
    ∀ (ds : List (Datum × Datum)) {n : Identity} {before : List (Value × Value)},
    (∀ d ∈ ds, d.1.MadeBefore n ∧ d.2.MadeBefore n) →
    (∀ v ∈ before, v.1.MadeBefore n ∧ v.2.MadeBefore n) →
    Makes (fun k vs => ∀ v ∈ vs, v.1.MadeBefore k ∧ v.2.MadeBefore k) n (boxEntries before ds)
  | [], _, _, _, hbefore => .pure hbefore
  | (key, d) :: rest, _, before, hds, hbefore => by
    obtain ⟨⟨hkey, hd⟩, hrest⟩ := List.forall_mem_cons.1 hds
    unfold boxEntries
    refine (box_made key hkey).bind fun kv k hle hkv =>
      (box_made d (hd.mono hle)).bind fun v m hle' hv => ?_
    have hle := Nat.le_trans hle hle'
    have hset := Value.forall_set (fun e he =>
      ⟨(hbefore e he).1.mono hle, (hbefore e he).2.mono hle⟩) (hkv.mono hle') hv
    cases hafter : Value.setEntry? before kv v with
    | none => exact .throw _
    | some after =>
      rw [hafter] at hset
      exact boxEntries_made rest (fun d hd => ⟨(hrest d hd).1.mono hle, (hrest d hd).2.mono hle⟩)
        hset

end

theorem boxParams_made (ds : List (String × Datum)) {n : Identity}
    (hds : ∀ d ∈ ds, d.2.MadeBefore n) :
    Makes (fun k vs => ∀ v ∈ vs, v.2.MadeBefore k) n (boxParams ds) := by
  induction ds generalizing n with
  | nil => exact .pure nofun
  | cons d rest ih =>
    obtain ⟨hd, hrest⟩ := List.forall_mem_cons.1 hds
    refine ((box_made d.2 hd).tryCatch fun e => .throw _).bind fun v k hle hv => ?_
    refine (ih fun d hd => (hrest d hd).mono hle).bind fun vs m hle hvs => .pure ?_
    exact List.forall_mem_cons.2 ⟨hv.mono hle, hvs⟩

end Datum

/-! ## Nodes -/

namespace Yaml

/-- A datum that holds no values. -/
def Unboxed (d : Datum) : Prop := ∀ v, ¬ d.Holds v

/-- Keys and data of entries hold no values. -/
def UnboxedEntries (entries : List (Datum × Datum)) : Prop := ∀ e ∈ entries,
    Unboxed e.1 ∧ Unboxed e.2

theorem Unboxed.madeBefore {d : Datum} (h : Unboxed d) (n : Identity) : d.MadeBefore n :=
    fun v hv => (h v hv).elim

theorem UnboxedEntries.fillIn {first second : List (Datum × Datum)} (h : UnboxedEntries first)
    (h' : UnboxedEntries second) : UnboxedEntries (fillIn first second) :=
  List.forall_mem_append.2 ⟨h, fun e he => h' e (List.mem_filter.1 he).1⟩

theorem word_unboxed {text : String} {m : Meaning} (h : word? text = some m) : Unboxed m.2 := by
  unfold word? at h
  split at h <;> cases h <;> nofun

theorem numeric_unboxed {tag text : String} {m : Meaning} (h : numeric? tag text = some m) :
    Unboxed m.2 := by
  have hdecimal {plain : List Char} (h : numeric?.decimal plain = some m) : Unboxed m.2 := by
    unfold numeric?.decimal at h
    split at h
    · obtain ⟨f, _, rfl⟩ := Option.map_eq_some_iff.1 h
      nofun
    · cases h
  unfold numeric? at h
  split at h
  · cases h
    nofun
  · simp only at h
    split at h
    · split at h
      · cases h
        nofun
      · split at h
        · cases h
          nofun
        · exact hdecimal h
    · exact hdecimal h

theorem lookedUp_unboxed (tag text : String) : Unboxed (lookedUp tag text).2 := by
  unfold lookedUp
  split
  · nofun
  · split
    · nofun
    · simp only
      split
      · next m hm =>
        split at hm
        · exact word_unboxed hm
        · cases hm
      · split
        · split <;> nofun
        · split
          · cases h : numeric? tag text with
            | none => nofun
            | some m => exact numeric_unboxed h
          · nofun

theorem resolve_unboxed {tag text : String} {m : Meaning} (h : resolve tag text = .ok m) :
    Unboxed m.2 := by
  unfold resolve at h
  simp only at h
  split at h
  · cases h
    nofun
  · split at h
    · cases h
      exact lookedUp_unboxed _ _
    · split at h
      · cases h
        nofun
      · cases h

theorem scalarDatum_unboxed {tag value : String} {style : ScalarStyle} {d : Datum}
    (h : scalarDatum tag style value = .ok d) : Unboxed d := by
  unfold scalarDatum at h
  split at h
  · cases h
    nofun
  · obtain ⟨m, hm, h⟩ := Except.bind_ok h
    obtain ⟨found, e⟩ := m
    simp only at h
    split at h
    · split at h
      · cases h
        nofun
      · cases h
    · cases h
      exact resolve_unboxed hm

mutual

/-- The data of a node holds no values. -/
theorem datum_unboxed : ∀ (node : Node) {d : Datum}, datum node = .ok d → Unboxed d
  | .scalar .., _, h => by
    unfold datum at h
    exact scalarDatum_unboxed h
  | .sequence _ items, _, h => by
    unfold datum at h
    obtain ⟨ds, hds, h⟩ := Except.bind_ok h
    cases h
    rintro v (_ | ⟨hd, hv⟩)
    exact itemData_unboxed items hds _ hd v hv
  | .mapping _ pairs, _, h => by
    unfold datum at h
    split at h
    · cases h
    · obtain ⟨entries, hentries, h⟩ := Except.bind_ok h
      obtain ⟨hown, hmerged⟩ := entryData_unboxed _ pairs hentries
      have hall := hown.fillIn hmerged
      simp only at h
      split at h
      · cases h
        rintro v (_ | _ | ⟨hd, hv⟩)
        obtain ⟨e, he, rfl⟩ := List.mem_map.1 hd
        exact (hall e he).2 v hv
      · cases h
        rintro v (_ | _ | _ | ⟨hd, hv⟩ | ⟨hd, hv⟩)
        · exact (hall _ hd).1 v hv
        · exact (hall _ hd).2 v hv
  | .reference _ _ (some node), _, h => by
    unfold datum at h
    exact datum_unboxed node h
  | .reference _ _ none, _, h => by
    unfold datum at h
    cases h

theorem itemData_unboxed : ∀ (nodes : List Node) {ds : List Datum}, itemData nodes = .ok ds →
    ∀ d ∈ ds, Unboxed d
  | [], _, h => by
    unfold itemData at h
    cases h
    exact nofun
  | node :: rest, _, h => by
    unfold itemData at h
    obtain ⟨d, hd, h⟩ := Except.bind_ok h
    obtain ⟨ds, hds, h⟩ := Except.bind_ok h
    cases h
    exact List.forall_mem_cons.2 ⟨datum_unboxed node hd, itemData_unboxed rest hds⟩

theorem entryData_unboxed : ∀ (named : Bool) (pairs : List (Node × Node))
    {entries : List (Datum × Datum) × List (Datum × Datum)}, entryData named pairs = .ok entries →
    UnboxedEntries entries.1 ∧ UnboxedEntries entries.2
  | _, [], _, h => by
    unfold entryData at h
    cases h
    exact ⟨nofun, nofun⟩
  | named, (k, v) :: rest, _, h => by
    unfold entryData at h
    split at h
    · obtain ⟨merged, hmerged, h⟩ := Except.bind_ok h
      obtain ⟨more, hmore, h⟩ := Except.bind_ok h
      cases h
      exact ⟨(entryData_unboxed named rest hmore).1, mergeData_unboxed named v hmerged⟩
    · have hentry {key : Datum} (hkey : Unboxed key)
          {entries : List (Datum × Datum) × List (Datum × Datum)} (h : (do
            if !isKey key then throw "yaml: invalid map key"
            let value ← datum v
            let (own, merged) ← entryData named rest
            return ((key, value) :: own, merged)) = Except.ok entries) :
          UnboxedEntries entries.1 ∧ UnboxedEntries entries.2 := by
        split at h
        · cases h
        · obtain ⟨value, hvalue, h⟩ := Except.bind_ok h
          obtain ⟨more, hmore, h⟩ := Except.bind_ok h
          cases h
          obtain ⟨hown, hmerged⟩ := entryData_unboxed named rest hmore
          exact ⟨List.forall_mem_cons.2 ⟨⟨hkey, datum_unboxed v hvalue⟩, hown⟩, hmerged⟩
      obtain ⟨key, hkey, h⟩ := Except.bind_ok h
      have hunboxed := datum_unboxed k hkey
      simp only at h
      split at h
      · refine hentry ?_ h
        split
        · exact hunboxed
        · nofun
      · exact hentry hunboxed h

theorem mergeData_unboxed : ∀ (named : Bool) (node : Node) {entries : List (Datum × Datum)},
    mergeData named node = .ok entries → UnboxedEntries entries
  | named, .mapping _ pairs, _, h => by
    unfold mergeData at h
    split at h
    · cases h
    · obtain ⟨entries, hentries, h⟩ := Except.bind_ok h
      cases h
      obtain ⟨hown, hmerged⟩ := entryData_unboxed named pairs hentries
      exact hown.fillIn hmerged
  | named, .reference _ _ (some (.mapping _ pairs)), _, h => by
    unfold mergeData at h
    split at h
    · cases h
    · obtain ⟨entries, hentries, h⟩ := Except.bind_ok h
      cases h
      obtain ⟨hown, hmerged⟩ := entryData_unboxed named pairs hentries
      exact hown.fillIn hmerged
  | named, .sequence _ items, _, h => by
    unfold mergeData at h
    exact mergeItems_unboxed named items h
  | _, .scalar .., _, h | _, .reference _ _ none, _, h | _, .reference _ _ (some (.scalar ..)), _, h
  | _, .reference _ _ (some (.sequence ..)), _, h
  | _, .reference _ _ (some (.reference ..)), _, h => by
    unfold mergeData at h
    cases h

theorem mergeItems_unboxed : ∀ (named : Bool) (nodes : List Node) {entries : List (Datum × Datum)},
    mergeItems named nodes = .ok entries → UnboxedEntries entries
  | _, [], _, h => by
    unfold mergeItems at h
    cases h
    exact nofun
  | _, .sequence .. :: _, _, h => by
    unfold mergeItems at h
    cases h
  | named, .scalar .. :: rest, _, h | named, .mapping .. :: rest, _, h
  | named, .reference .. :: rest, _, h => by
    unfold mergeItems at h
    obtain ⟨first, hfirst, h⟩ := Except.bind_ok h
    obtain ⟨more, hmore, h⟩ := Except.bind_ok h
    cases h
    exact (mergeData_unboxed named _ hfirst).fillIn (mergeItems_unboxed named rest hmore)

end

end Yaml

/-! ## Expressions -/

namespace Expr

variable {n : Identity}

theorem MadeBefore.mono {m : Identity} {e : Expr} (h : e.MadeBefore n) (hle : n ≤ m) :
    e.MadeBefore m :=
  fun v hv => (h v hv).mono hle

theorem MadeBefore.child {e c : Expr} (h : e.MadeBefore n) (hc : c ∈ e.children) : c.MadeBefore n :=
  fun v hv => h v (.part hc hv)

theorem madeBefore_lit {t : StaticType} {v : Value} {plain : v.holdsFuture = false}
    (hv : v.MadeBefore n) :
    (lit t v plain).MadeBefore n := by
  rintro _ (_ | ⟨hc, _⟩)
  · exact hv
  · cases hc

/-- Whether an expression is a literal or a name. -/
def isLeaf : Expr → Bool
  | lit .. | param .. | var .. => true
  | _ => false

/-- What is no literal has those of its parts. -/
theorem madeBefore_of_children {e : Expr} (hlit : ∀ t v plain, e ≠ lit t v plain)
    (h : ∀ c ∈ e.children, c.MadeBefore n) :
    e.MadeBefore n := by
  rintro v (_ | ⟨hc, hv⟩)
  · exact absurd rfl (hlit _ _ _)
  · exact h _ hc v hv

theorem MadeBefore.withType {e : Expr} (h : e.MadeBefore n) (t : StaticType) :
    (e.withType t).MadeBefore n := by
  cases e with
  | lit => exact madeBefore_lit (h _ .here)
  | _ => exact madeBefore_of_children nofun fun c hc => h.child hc

end Expr

/-! ## Statements -/

namespace Stmt

theorem flattenAll_append (body body' : List Stmt) :
    flattenAll (body ++ body') = flattenAll body ++ flattenAll body' := by
  induction body with
  | nil => rfl
  | cons s rest ih => rw [List.cons_append, flattenAll, ih, flattenAll, List.append_assoc]

/-- All literals in a body were made before `n`. -/
def MadeBefore (n : Identity) (body : List Stmt) : Prop :=
    Every (fun s => ∀ e ∈ s.exprs, e.MadeBefore n) body

namespace MadeBefore

variable {n : Identity}

theorem mono {m : Identity} {body : List Stmt} (h : MadeBefore n body) (hle : n ≤ m) :
    MadeBefore m body :=
  h.imp fun _ hs e he => (hs e he).mono hle

theorem append {body body' : List Stmt} (h : MadeBefore n body) (h' : MadeBefore n body') :
    MadeBefore n (body ++ body') := by
  unfold MadeBefore Every
  rw [flattenAll_append]
  exact List.forall_mem_append.2 ⟨h, h'⟩

/-- The literals of a statement are its own and those of its bodies. -/
theorem one {s : Stmt} (hs : ∀ e ∈ s.exprs, e.MadeBefore n) (hb : ∀ b ∈ s.bodies, MadeBefore n b) :
    MadeBefore n [s] := by
  unfold MadeBefore Every
  rw [flattenAll, flattenAll, List.append_nil, flatten_eq]
  refine List.forall_mem_cons.2 ⟨hs, fun t ht => ?_⟩
  obtain ⟨b, hbody, ht⟩ := List.mem_flatMap.1 ht
  exact hb b hbody t ht

theorem cond {branches : List (Expr × List Stmt)} {otherwise : List Stmt}
    (hbranches : ∀ b ∈ branches, b.1.MadeBefore n ∧ MadeBefore n b.2)
    (hotherwise : MadeBefore n otherwise) :
    MadeBefore n [.cond branches otherwise] := by
  refine .one (fun e he => ?_)
    (List.forall_mem_append.2 ⟨fun body hbody => ?_, List.forall_mem_singleton.2 hotherwise⟩)
  · obtain ⟨b, hb, rfl⟩ := List.mem_map.1 he
    exact (hbranches b hb).1
  · obtain ⟨b, hb, rfl⟩ := List.mem_map.1 hbody
    exact (hbranches b hb).2

theorem switch {subject : Expr} {cases : List (List Expr × List Stmt)}
    {default : Option (List Stmt)} (hsubject : subject.MadeBefore n)
    (hcases : ∀ c ∈ cases, (∀ e ∈ c.1, e.MadeBefore n) ∧ MadeBefore n c.2)
    (hdefault : MadeBefore n (default.getD [])) : MadeBefore n [.switch subject cases default] := by
  refine .one (List.forall_mem_cons.2 ⟨hsubject, fun e he => ?_⟩)
    (List.forall_mem_append.2 ⟨fun body hbody => ?_, List.forall_mem_singleton.2 hdefault⟩)
  · obtain ⟨c, hc, he⟩ := List.mem_flatMap.1 he
    exact (hcases c hc).1 e he
  · obtain ⟨c, hc, rfl⟩ := List.mem_map.1 hbody
    exact (hcases c hc).2

end MadeBefore

end Stmt

/-- The variant of a delegate was made before `n`. -/
def CallTarget.MadeBefore (n : Identity) : CallTarget → Prop
  | .delegate (some variant) _ => variant.MadeBefore n
  | _ => True

def CallData.MadeBefore (n : Identity) : CallData → Prop
  | .expr e => e.MadeBefore n
  | _ => True

def CallParam.MadeBefore (n : Identity) : CallParam (List Stmt) → Prop
  | .value _ e => e.MadeBefore n
  | .content _ _ body => Stmt.MadeBefore n body

theorem CallParam.MadeBefore.mono {n m : Identity} {p : CallParam (List Stmt)} (h : p.MadeBefore n)
    (hle : n ≤ m) :
    p.MadeBefore m := by
  cases p with
  | value => exact Expr.MadeBefore.mono h hle
  | content => exact Stmt.MadeBefore.mono h hle

theorem CallTarget.MadeBefore.mono {n m : Identity} {target : CallTarget} (h : target.MadeBefore n)
    (hle : n ≤ m) :
    target.MadeBefore m := by
  cases target with
  | template => trivial
  | delegate variant _ =>
    cases variant with
    | none => trivial
    | some => exact Expr.MadeBefore.mono h hle

theorem CallData.MadeBefore.mono {n m : Identity} {data : CallData} (h : data.MadeBefore n)
    (hle : n ≤ m) :
    data.MadeBefore m := by
  cases data with
  | expr => exact Expr.MadeBefore.mono h hle
  | _ => trivial

theorem Stmt.MadeBefore.call {n : Identity} {callee : String} {target : CallTarget}
    {data : CallData} {params : List (CallParam (List Stmt))} {ds : List Directive}
    (htarget : target.MadeBefore n) (hdata : data.MadeBefore n)
    (hparams : ∀ p ∈ params, p.MadeBefore n) (hds : ∀ e ∈ Stmt.directiveArgs ds, e.MadeBefore n) :
    Stmt.MadeBefore n [.call callee target data params ds] := by
  refine .one (fun e he => ?_) fun b hb => ?_
  · rcases List.mem_append.1 he with he | he
    · rcases List.mem_append.1 he with he | he
      · rcases List.mem_append.1 he with he | he
        · split at he
          · rw [List.mem_singleton.1 he]
            exact htarget
          · cases he
        · split at he
          · rw [List.mem_singleton.1 he]
            exact hdata
          · cases he
      · obtain ⟨p, hp, hvalue⟩ := List.mem_filterMap.1 he
        have hparam := hparams p hp
        cases p with
        | value =>
          cases hvalue
          exact hparam
        | content => cases hvalue
    · exact hds e he
  · obtain ⟨p, hp, hbody⟩ := List.mem_filterMap.1 hb
    have hparam := hparams p hp
    cases p with
    | value => cases hbody
    | content =>
      cases hbody
      exact hparam

/-! ## Bundles -/

namespace Bundle

open Yaml (Node)

variable {n : Identity} {s : Scope}

/-! ### Readings that give out no numbers -/

theorem checkKeys_made {what : String} {allowed : List String} {found : Fields}
    {pairs : List (Node × Node)} :
    Makes (fun _ _ => True) n (checkKeys s what allowed found pairs) := by
  induction pairs generalizing found with
  | nil => exact .pure trivial
  | cons p rest ih =>
    unfold checkKeys
    split
    · exact .throw _
    · split
      · exact .throw _
      · exact ih

theorem fields_made {node : Node} {what : String} {allowed : List String} :
    Makes (fun _ _ => True) n (fields s node what allowed) := by
  unfold fields
  split
  · exact checkKeys_made
  · exact .throw _

theorem str_made {node : Node} {what : String} : Makes (fun _ _ => True) n (str s node what) := by
  unfold str
  split
  · exact .pure trivial
  · exact .throw _

theorem seq_made {node : Node} {what : String} : Makes (fun _ _ => True) n (seq s node what) := by
  unfold seq
  split
  · exact .pure trivial
  · exact .throw _

theorem boolean_made {node : Node} {what : String} :
    Makes (fun _ _ => True) n (boolean s node what) := by
  unfold boolean
  split
  · exact .pure trivial
  · exact .throw _

theorem optBoolean_made {f : Fields} {key : String} :
    Makes (fun _ _ => True) n (optBoolean s f key) := by
  unfold optBoolean
  split
  · exact boolean_made
  · exact .pure trivial

theorem contentKind_made {node : Node} : Makes (fun _ _ => True) n (contentKind s node) := by
  refine str_made.bind fun name m _ _ => ?_
  split
  · exact .pure trivial
  · exact .throw _

theorem optContentKind_made {f : Fields} : Makes (fun _ _ => True) n (optContentKind s f) := by
  unfold optContentKind
  split
  · exact contentKind_made
  · exact .pure trivial

theorem staticType_made {node : Node} : Makes (fun _ _ => True) n (staticType s node) := by
  refine str_made.bind fun text m _ _ => ?_
  split
  · exact .pure trivial
  · exact .throw _

/-! ### Expressions of bundles -/

/-- What holds of the literals and of the declared names of a scope, and of a whole if it holds of
its parts. -/
structure Inherited (Q : Scope → Identity → Expr → Prop) : Prop where
  mono : ∀ {s : Scope} {n m : Identity} {e : Expr}, Q s n e → n ≤ m → Q s m e
  lit : ∀ {s : Scope} {n : Identity} {t : StaticType} {v : Value} {plain : v.holdsFuture = false},
    v.MadeBefore n → Q s n (.lit t v plain)
  param : ∀ {s : Scope} {n : Identity} {t : StaticType} {name : String} {injected : Bool},
    (if injected then s.injected else s.params).lookup name = some t →
    Q s n (.param t name injected)
  var : ∀ {s : Scope} {n : Identity} {t : StaticType} {name : String},
    s.locals.lookup name = some t → Q s n (.var t name)
  whole : ∀ {s : Scope} {n : Identity} {e : Expr}, e.isLeaf = false →
    (∀ c ∈ e.children, Q s n c) → Q s n e
  withType : ∀ {s : Scope} {n : Identity} {e : Expr} (t : StaticType), Q s n e →
    Q s n (e.withType t)

theorem madeBefore_inherited : Inherited fun _ => Expr.MadeBefore where
  mono h := h.mono
  lit := Expr.madeBefore_lit
  param _ := Expr.madeBefore_of_children nofun nofun
  var _ := Expr.madeBefore_of_children nofun nofun
  whole hleaf h := Expr.madeBefore_of_children (by rintro t v plain rfl; cases hleaf) h
  withType t h := h.withType t

section

variable {Q : Scope → Identity → Expr → Prop} (hQ : Inherited Q)

include hQ

theorem literal_made {node : Node} : Makes (Q s) n (literal s node) := by
  unfold literal
  cases hd : Yaml.datum node with
  | error e => exact .throw _
  | ok d =>
    have hbox := Datum.box_made d ((Yaml.datum_unboxed node hd).madeBefore n)
    refine (hbox.tryCatch fun e => .throw _).bind fun v m _ hv => ?_
    split
    · exact .pure (hQ.lit hv)
    · exact .throw _

theorem paramRef_made {node : Node} {injected : Bool} :
    Makes (Q s) n (paramRef s node injected) := by
  refine str_made.bind fun name m _ _ => ?_
  cases injected with
  | true =>
    cases ht : s.injected.lookup name with
    | some t =>
      simp only [if_true, ht]
      exact .pure (hQ.param ht)
    | none =>
      simp only [if_true, ht]
      exact .throw _
  | false =>
    cases ht : s.params.lookup name with
    | some t =>
      simp only [Bool.false_eq_true, if_false, ht]
      exact .pure (hQ.param ht)
    | none =>
      simp only [Bool.false_eq_true, if_false, ht]
      exact .throw _

omit hQ in
/-- The expressions that are read with some fuel are such as `Q` tells. -/
structure MakesExprs (Q : Scope → Identity → Expr → Prop) (fuel : Nat) : Prop where
  expr : ∀ {s : Scope} {n : Identity} {node? : Option Node},
    Makes (Q s) n (Bundle.expr fuel s node?)
  body : ∀ {s : Scope} {n : Identity} {node : Node} {pairs : List (Node × Node)},
    Makes (Q s) n (Bundle.exprBody fuel s node pairs)
  exprs : ∀ {s : Scope} {n : Identity} {node? : Option Node},
    Makes (fun k es => ∀ e ∈ es, Q s k e) n (Bundle.exprs fuel s node?)

theorem exprs_made {fuel : Nat} (ih : MakesExprs Q fuel) {node? : Option Node} :
    Makes (fun k es => ∀ e ∈ es, Q s k e) n (exprs (fuel + 1) s node?) := by
  unfold exprs
  cases node? with
  | none => exact .pure nofun
  | some node =>
    refine seq_made.bind fun items m _ _ => ?_
    exact Makes.mapM (Q := Q s) (fun hle he => hQ.mono he hle) (fun item m => ih.expr) items

theorem expr_made {fuel : Nat} (ih : MakesExprs Q fuel) {node? : Option Node} :
    Makes (Q s) n (expr (fuel + 1) s node?) := by
  unfold expr
  cases node? with
  | none => exact .throw _
  | some node =>
    simp only
    split
    · exact literal_made hQ
    · split
      · exact ih.body
      · refine staticType_made.bind fun t m _ _ => ?_
        split
        · exact ih.body.bind fun e k _ he => .pure (hQ.withType t he)
        · exact .throw _
    · exact .throw _

omit hQ in
/-- An entry of a map. -/
theorem entry_made {fuel : Nat} (ih : MakesExprs Q fuel) {node : Node} :
    Makes (fun k e => Q s k e.1 ∧ Q s k e.2) n (do
      match ← exprs fuel s (some node) with
      | [k, v] => return (k, v)
      | _ => s.fail node "map entry must be [key, value]" : Decoding (Expr × Expr)) := by
  refine ih.exprs.bind fun es m _ hes => ?_
  split
  · obtain ⟨hk, hv⟩ := List.forall_mem_cons.1 hes
    exact .pure ⟨hk, hv _ List.mem_cons_self⟩
  · exact .throw _

/-- The mapping of an expression, by its first key. -/
theorem body_made {fuel : Nat} (ih : MakesExprs Q fuel) {node : Node} {pairs : List (Node × Node)} :
    Makes (Q s) n (exprBody (fuel + 1) s node pairs) := by
  cases pairs with
  | nil => exact .throw _
  | cons p rest =>
    obtain ⟨head, first⟩ := p
    unfold exprBody
    simp only
    split
    · exact fields_made.bind fun f m _ _ => literal_made hQ
    · exact fields_made.bind fun f m _ _ => paramRef_made hQ
    · exact fields_made.bind fun f m _ _ => paramRef_made hQ
    · refine fields_made.bind fun f m _ _ => str_made.bind fun name k _ _ => ?_
      cases ht : s.locals.lookup name with
      | some t => exact .pure (hQ.var ht)
      | none => exact .throw _
    · refine fields_made.bind fun f m _ _ => str_made.bind fun sym k _ _ => ?_
      split
      · exact .throw _
      · refine ih.exprs.bind fun args l _ hargs => ?_
        split
        · exact .pure (hQ.whole rfl hargs)
        · exact .throw _
    · refine fields_made.bind fun f m _ _ => ih.expr.bind fun x k _ hx => .pure ?_
      exact hQ.whole rfl (List.forall_mem_singleton.2 hx)
    · refine fields_made.bind fun f m _ _ => ih.expr.bind fun x k _ hx => .pure ?_
      exact hQ.whole rfl (List.forall_mem_singleton.2 hx)
    · refine fields_made.bind fun f m _ _ => ?_
      split
      · exact .throw _
      · refine ih.expr.bind fun c k _ hc => ih.expr.bind fun a l hl ha =>
          ih.expr.bind fun b o ho hb => .pure ?_
        refine hQ.whole rfl (List.forall_mem_cons.2 ⟨hQ.mono hc (Nat.le_trans hl ho), ?_⟩)
        exact List.forall_mem_cons.2 ⟨hQ.mono ha ho, List.forall_mem_singleton.2 hb⟩
    · refine fields_made.bind fun f m _ _ => str_made.bind fun name k _ _ =>
          ih.expr.bind fun x l _ hx =>
        optBoolean_made.bind fun safe o ho _ => .pure ?_
      exact hQ.whole rfl (List.forall_mem_singleton.2 (hQ.mono hx ho))
    · refine fields_made.bind fun f m _ _ => ih.expr.bind fun key k _ hkey =>
          ih.expr.bind fun x l hl hx =>
        optBoolean_made.bind fun safe o ho _ => .pure ?_
      refine hQ.whole rfl (List.forall_mem_cons.2 ⟨hQ.mono hx ho, ?_⟩)
      exact List.forall_mem_singleton.2 (hQ.mono hkey (Nat.le_trans hl ho))
    · exact fields_made.bind fun f m _ _ => ih.exprs.bind fun items k _ hitems =>
        .pure (hQ.whole rfl hitems)
    · refine fields_made.bind fun f m _ _ => seq_made.bind fun pairs k _ _ => ?_
      refine (Makes.mapM (Q := fun k e => Q s k e.1 ∧ Q s k e.2) (fun hle he =>
        ⟨hQ.mono he.1 hle, hQ.mono he.2 hle⟩) (fun p l => entry_made ih) pairs).bind
        fun entries l _ hentries => .pure (hQ.whole rfl fun c hc => ?_)
      obtain ⟨e, he, hc⟩ := List.mem_flatMap.1 hc
      exact List.forall_mem_cons.2
        ⟨(hentries e he).1, List.forall_mem_singleton.2 (hentries e he).2⟩ c hc
    · refine fields_made.bind fun f m _ _ => ?_
      split
      · next pairs _ =>
        refine (Makes.mapM (Q := fun k f => Q s k f.2) (fun hle he => hQ.mono he hle) (fun p l =>
          ih.expr.bind fun e o _ he => .pure he) pairs).bind fun fs l _ hfs => .pure ?_
        refine hQ.whole rfl fun c hc => ?_
        obtain ⟨f, hf, rfl⟩ := List.mem_map.1 hc
        exact hfs f hf
      · exact .throw _
    · exact fields_made.bind fun f m _ _ => str_made.bind fun name k _ _ => ih.exprs.bind
        fun args l _ hargs => .pure (hQ.whole rfl hargs)
    · exact .throw _

theorem inherited_exprs (fuel : Nat) : MakesExprs Q fuel := by
  induction fuel with
  | zero => exact ⟨.throw _, .throw _, .throw _⟩
  | succ fuel ih => exact ⟨expr_made hQ ih, body_made hQ ih, exprs_made hQ ih⟩

end

/-- Expressions that are read have numbers below the next one. -/
theorem makesExprs (fuel : Nat) : MakesExprs (fun _ => Expr.MadeBefore) fuel :=
    inherited_exprs madeBefore_inherited fuel

/-! ### Statements of bundles -/

theorem directives_made {fuel : Nat} {node? : Option Node} :
    Makes (fun k ds => ∀ e ∈ Stmt.directiveArgs ds, e.MadeBefore k) n
      (directives fuel s node?) := by
  unfold directives
  cases node? with
  | none => exact .pure nofun
  | some node =>
    refine seq_made.bind fun items m _ _ => ?_
    refine Makes.weaken (Makes.mapM (Q := fun k (d : Directive) => ∀ e ∈ d.args, e.MadeBefore k)
      (fun hle hd e he => (hd e he).mono hle) (fun item l => ?_) items) fun k ds h e he => ?_
    · split
      · exact .pure nofun
      · refine fields_made.bind fun f o _ _ => ?_
        split
        · exact .throw _
        · exact str_made.bind fun name p _ _ => (makesExprs fuel).exprs.bind fun args q _ hargs =>
            .pure hargs
    · obtain ⟨d, hd, he⟩ := List.mem_flatMap.1 he
      exact h d hd e he

/-- Statements that are read with some fuel have numbers below the next one. -/
structure MakesStmts (fuel : Nat) : Prop where
  block : ∀ {s : Scope} {n : Identity} {node : Node},
    Makes Stmt.MadeBefore n (Bundle.block fuel s node)
  optBlock : ∀ {s : Scope} {n : Identity} {node? : Option Node},
    Makes Stmt.MadeBefore n (Bundle.optBlock fuel s node?)
  branch : ∀ {s : Scope} {n : Identity} {f : Fields},
    Makes (fun k b => b.1.MadeBefore k ∧ Stmt.MadeBefore k b.2) n (Bundle.branch fuel s f)
  stmt : ∀ {s : Scope} {n : Identity} {node : Node},
    Makes (fun k r => Stmt.MadeBefore k [r.1]) n (Bundle.stmt fuel s node)
  callRest : ∀ {s : Scope} {n : Identity} {f : Fields} {callee : String} {target : CallTarget},
    target.MadeBefore n →
    Makes (fun k st => Stmt.MadeBefore k [st]) n (Bundle.callRest fuel s f callee target)
  callParam : ∀ {s : Scope} {n : Identity} {node : Node},
    Makes CallParam.MadeBefore n (Bundle.callParam fuel s node)

section

variable {fuel : Nat} (ih : MakesStmts fuel)

include ih

theorem block_made {node : Node} : Makes Stmt.MadeBefore n (block (fuel + 1) s node) := by
  unfold block
  refine seq_made.bind fun items m _ _ => ?_
  refine (Makes.foldlM (Q := fun k (acc : List Stmt × Scope) => Stmt.MadeBefore k acc.1)
    (b := ([], s)) (fun acc item l hacc => ?_) items nofun).bind fun acc l _ hacc => .pure hacc
  exact ih.stmt.bind fun r o hle hr => .pure ((hacc.mono hle).append hr)

theorem optBlock_made {node? : Option Node} :
    Makes Stmt.MadeBefore n (optBlock (fuel + 1) s node?) := by
  unfold optBlock
  cases node? with
  | none => exact .pure nofun
  | some node => exact ih.block

theorem branch_made {f : Fields} :
    Makes (fun k b => b.1.MadeBefore k ∧ Stmt.MadeBefore k b.2) n (branch (fuel + 1) s f) := by
  unfold branch
  split
  · exact .throw _
  · exact (makesExprs fuel).expr.bind fun c m _ hc => ih.optBlock.bind fun body k hle hbody =>
      .pure ⟨hc.mono hle, hbody⟩

theorem callParam_made {node : Node} :
    Makes CallParam.MadeBefore n (callParam (fuel + 1) s node) := by
  unfold callParam
  refine fields_made.bind fun f m _ _ => ?_
  split
  · exact .throw _
  · refine str_made.bind fun name k _ _ => ?_
    split
    · split
      · exact .throw _
      · exact (makesExprs fuel).expr.bind fun e l _ he => .pure he
    · exact optContentKind_made.bind fun kind l _ _ => ih.optBlock.bind fun body o _ hbody =>
        .pure hbody

theorem callRest_made {f : Fields} {callee : String} {target : CallTarget}
    (htarget : target.MadeBefore n) :
    Makes (fun k st => Stmt.MadeBefore k [st]) n (callRest (fuel + 1) s f callee target) := by
  unfold callRest
  extract_lets withData
  have hdata : ∀ data m, n ≤ m → data.MadeBefore m →
      Makes (fun k st => Stmt.MadeBefore k [st]) m (withData data) := by
    intro data m hm hdata
    unfold withData
    extract_lets withParams
    have hparams : ∀ params k, m ≤ k → (∀ p ∈ params, CallParam.MadeBefore k p) →
        Makes (fun k st => Stmt.MadeBefore k [st]) k (withParams params) := by
      intro params k hk hparams
      refine directives_made.bind fun ds l hl hds =>
        .pure (.call ?_ (hdata.mono (Nat.le_trans hk hl)) ?_ hds)
      · exact htarget.mono (Nat.le_trans hm (Nat.le_trans hk hl))
      · exact fun p hp => (hparams p hp).mono hl
    split
    · exact (Makes.pure nofun).bind hparams
    · refine seq_made.bind fun items k hk _ => ?_
      refine (Makes.mapM (Q := CallParam.MadeBefore) (fun hle hp => hp.mono hle) (fun item l =>
        ih.callParam) items).bind ?_
      exact fun params l hl => hparams params l (Nat.le_trans hk hl)
  split
  · exact (Makes.pure trivial).bind hdata
  · split
    · exact (Makes.pure trivial).bind hdata
    · exact (Makes.map (Q := CallData.MadeBefore) (f := .expr) (makesExprs fuel).expr fun k e he =>
        he).bind hdata

theorem stmt_made {node : Node} :
    Makes (fun k r => Stmt.MadeBefore k [r.1]) n (stmt (fuel + 1) s node) := by
  unfold stmt
  split
  · exact .pure (.one nofun nofun)
  · split
    · exact fields_made.bind fun f m _ _ => str_made.bind fun text k _ _ => .pure (.one nofun nofun)
    · refine fields_made.bind fun f m _ _ => (makesExprs fuel).expr.bind fun e k _ he =>
        directives_made.bind
        fun ds l hl hds => .pure (.one ?_ nofun)
      exact List.forall_mem_cons.2 ⟨he.mono hl, hds⟩
    · refine fields_made.bind fun f m _ _ => ih.branch.bind fun first k _ hfirst => ?_
      extract_lets withMore
      have hmore : ∀ more l, k ≤ l → (∀ b ∈ more, b.1.MadeBefore l ∧ Stmt.MadeBefore l b.2) →
          Makes (fun k r => Stmt.MadeBefore k [r.1]) l (withMore more) := fun more l hl hmore =>
        ih.optBlock.bind fun otherwise o ho hotherwise => .pure (.cond (List.forall_mem_cons.2
          ⟨⟨hfirst.1.mono (Nat.le_trans hl ho), hfirst.2.mono (Nat.le_trans hl ho)⟩,
            fun b hb => ⟨(hmore b hb).1.mono ho, (hmore b hb).2.mono ho⟩⟩) hotherwise)
      split
      · exact (Makes.pure nofun).bind hmore
      · refine seq_made.bind fun items l hl _ => ?_
        refine (Makes.mapM (Q := fun k (b : Expr × List Stmt) => b.1.MadeBefore k ∧
          Stmt.MadeBefore k b.2) (fun hle hb => ⟨hb.1.mono hle, hb.2.mono hle⟩) (fun item o =>
          fields_made.bind fun f _ _ _ => ih.branch)
          items).bind ?_
        exact fun more o ho => hmore more o (Nat.le_trans hl ho)
    · refine fields_made.bind fun f m _ _ => (makesExprs fuel).expr.bind fun subject k _ hsubject =>
        ?_
      extract_lets withCases
      have hcases : ∀ cases l, k ≤ l →
          (∀ c ∈ cases, (∀ e ∈ c.1, e.MadeBefore l) ∧ Stmt.MadeBefore l c.2) →
              Makes (fun k r => Stmt.MadeBefore k [r.1]) l (withCases cases) := by
        intro cases l hl hcases
        unfold withCases
        extract_lets withDefault
        have hdefault : ∀ default o, l ≤ o → Stmt.MadeBefore o (default.getD []) →
            Makes (fun k r => Stmt.MadeBefore k [r.1]) o (withDefault default) :=
                fun default o ho hdefault =>
          .pure (.switch (hsubject.mono (Nat.le_trans hl ho))
            (fun c hc => ⟨fun e he => ((hcases c hc).1 e he).mono ho, (hcases c hc).2.mono ho⟩)
            hdefault)
        split
        · exact (Makes.pure nofun).bind hdefault
        · exact (Makes.map (f := some) ih.block fun k body hbody => hbody).bind hdefault
      split
      · exact (Makes.pure nofun).bind hcases
      · refine seq_made.bind fun items l hl _ => ?_
        refine (Makes.mapM (Q := fun k (c : List Expr × List Stmt) => (∀ e ∈ c.1, e.MadeBefore k) ∧
          Stmt.MadeBefore k c.2) (fun hle hc => ⟨fun e he => (hc.1 e he).mono hle, hc.2.mono hle⟩)
          (fun item o => ?_) items).bind ?_
        · refine fields_made.bind fun f p _ _ => ?_
          extract_lets withValues
          have hvalues : ∀ values q, p ≤ q → (∀ e ∈ values, e.MadeBefore q) →
              Makes (fun k c => (∀ e ∈ c.1, e.MadeBefore k) ∧ Stmt.MadeBefore k c.2) q
                  (withValues values) :=
            fun values q _ hvalues => ih.optBlock.bind fun body o ho hbody => .pure
              ⟨fun e he => (hvalues e he).mono ho, hbody⟩
          split
          · exact (Makes.throw _).bind hvalues
          · split
            · exact (makesExprs fuel).exprs.bind hvalues
            · exact (Makes.map (makesExprs fuel).expr fun k e he =>
                List.forall_mem_singleton.2 he).bind hvalues
        · exact fun cases o ho => hcases cases o (Nat.le_trans hl ho)
    · refine fields_made.bind fun f m _ _ => str_made.bind fun name k _ _ => ?_
      split
      · exact .throw _
      · exact .throw _
      · split
        · exact .throw _
        · refine (makesExprs fuel).exprs.bind fun bounds l _ hbounds => ?_
          extract_lets withBounds
          have hrange : ∀ range o, l ≤ o →
              (∀ e ∈ range.1.toList ++ [range.2.1] ++ range.2.2.toList, e.MadeBefore o) →
                  Makes (fun k r => Stmt.MadeBefore k [r.1]) o (withBounds range) :=
                      fun range o _ hrange =>
            ih.optBlock.bind fun body p hp hbody => .pure
              (.one (fun e he => (hrange e he).mono hp) (List.forall_mem_singleton.2 hbody))
          split
          · exact (Makes.pure hbounds).bind hrange
          · exact (Makes.pure hbounds).bind hrange
          · exact (Makes.pure hbounds).bind hrange
          · exact (Makes.throw _).bind hrange
      · refine (makesExprs fuel).expr.bind fun list l _ hlist =>
            ih.optBlock.bind fun body o ho hbody =>
          ih.optBlock.bind fun ifEmpty p hp hempty => .pure (.one ?_ ?_)
        · exact List.forall_mem_singleton.2 (hlist.mono (Nat.le_trans ho hp))
        · exact List.forall_mem_cons.2 ⟨hbody.mono hp, List.forall_mem_singleton.2 hempty⟩
    · refine fields_made.bind fun f m _ _ => str_made.bind fun name k _ _ => ?_
      split
      · split
        · exact .throw _
        · exact (makesExprs fuel).expr.bind fun e l _ he =>
            .pure (.one (List.forall_mem_singleton.2 he) nofun)
      · exact optContentKind_made.bind fun kind l _ _ => ih.optBlock.bind fun body o _ hbody =>
          .pure (.one nofun (List.forall_mem_singleton.2 hbody))
    · exact fields_made.bind fun f m _ _ => str_made.bind fun callee k _ _ => (ih.callRest
        (show CallTarget.MadeBefore k .template from trivial)).bind fun st l _ hst => .pure hst
    · refine fields_made.bind fun f m _ _ => str_made.bind fun callee k _ _ => ?_
      extract_lets withVariant
      have hvariant : ∀ variant l, k ≤ l → (∀ e ∈ variant, e.MadeBefore l) →
          Makes (fun k r => Stmt.MadeBefore k [r.1]) l (withVariant variant) := by
        refine fun variant l _ hvariant => optBoolean_made.bind fun allowEmpty o ho _ =>
          (ih.callRest ?_).bind
          fun st p _ hst => .pure hst
        cases variant with
        | none => trivial
        | some e => exact (hvariant e rfl).mono ho
      split
      · exact (Makes.pure nofun).bind hvariant
      · refine (Makes.map (makesExprs fuel).expr fun k e he => ?_).bind hvariant
        rintro _ ⟨⟩
        exact he
    · exact fields_made.bind fun f m _ _ => ih.block.bind fun body k _ hbody => .pure
        (.one nofun (List.forall_mem_singleton.2 hbody))
    · exact .throw _
  · exact .throw _

end

theorem makesStmts (fuel : Nat) : MakesStmts fuel := by
  induction fuel with
  | zero => exact ⟨.throw _, .throw _, .throw _, .throw _, fun _ => .throw _, .throw _⟩
  | succ fuel ih =>
    exact ⟨block_made ih, optBlock_made ih, branch_made ih, stmt_made ih, callRest_made ih,
      callParam_made ih⟩

/-! ### Templates -/

/-- The scope in which the default of a param is read: there are no params and no locals. -/
def Scope.bare (s : Scope) : Scope := { s with params := [], locals := [] }

/-- Every default is such as `Q` tells in the scope of the params before it. -/
def DefaultsMade (Q : Scope → Identity → Expr → Prop) (s : Scope) (n : Identity)
    (ps : List Param) : Prop :=
  ∀ before p after, ps = before ++ p :: after → ∀ e ∈ p.default, Q (before.foldl declare s).bare n e

section

variable {Q : Scope → Identity → Expr → Prop} (hQ : Inherited Q)

include hQ

theorem DefaultsMade.mono {m : Identity} {ps : List Param} (h : DefaultsMade Q s n ps)
    (hle : n ≤ m) :
    DefaultsMade Q s m ps :=
  fun before p after hps e he => hQ.mono (h before p after hps e he) hle

theorem param_made {fuel : Nat} {node : Node} :
    Makes (fun k p => ∀ e ∈ p.default, Q s.bare k e) n (param fuel s node) := by
  refine fields_made.bind fun f m _ _ => ?_
  split
  · exact .throw _
  · refine str_made.bind fun name k _ _ => ?_
    extract_lets withType
    have htype : ∀ t l, k ≤ l → True →
        Makes (fun k p => ∀ e ∈ p.default, Q s.bare k e) l (withType t) := by
      intro t l _ _
      refine optBoolean_made.bind fun optional o _ _ => optBoolean_made.bind fun injected p _ _ =>
        ?_
      extract_lets withDefault
      have hdefault : ∀ default q, p ≤ q → (∀ e ∈ default, Q s.bare q e) →
          Makes (fun k p => ∀ e ∈ p.default, Q s.bare k e) q (withDefault default) :=
          fun _ _ _ hdefault => .pure hdefault
      split
      · exact (Makes.pure nofun).bind hdefault
      · refine (Makes.map (inherited_exprs hQ fuel).expr fun k e he => ?_).bind hdefault
        rintro _ ⟨⟩
        exact he
    split
    · exact staticType_made.bind htype
    · exact (Makes.pure trivial).bind htype

/-- The params of a template are declared one after another. -/
theorem params_made {fuel : Nat} (items : List Node) :
    Makes (fun k acc => acc.2 = acc.1.foldl declare s ∧ DefaultsMade Q s k acc.1) n
      (items.foldlM (fun (acc : List Param × Scope) item => do
        let p ← param fuel acc.2 item
        return (acc.1 ++ [p], declare acc.2 p)) ([], s)) := by
  refine Makes.foldlM (fun acc item m hacc => ?_) items ⟨rfl, by rintro (_ | _) p after ⟨⟩⟩
  obtain ⟨ps, s'⟩ := acc
  obtain ⟨hscope : s' = _, hps⟩ := hacc
  refine (param_made hQ).bind fun p k hk hp => .pure ⟨?_, fun before q after hsplit e he => ?_⟩
  · rw [List.foldl_append, ← hscope]
    rfl
  · rcases List.eq_nil_or_concat' after with rfl | ⟨later, x, rfl⟩
    · obtain ⟨rfl, hlast⟩ := List.append_inj' hsplit rfl
      cases hlast
      exact hscope ▸ hp e he
    · have hsplit' : ps ++ [p] = (before ++ q :: later) ++ [x] := by simpa using hsplit
      exact hQ.mono (hps before q later (List.append_inj' hsplit' rfl).1 e he) hk

end

theorem delegate_made {node : Node} : Makes (fun _ _ => True) n (delegate s node) := by
  refine fields_made.bind fun f m _ _ => ?_
  extract_lets withPackage
  have hpackage : ∀ package k, m ≤ k → True → Makes (fun _ _ => True) k (withPackage package) := by
    intro package k _ _
    unfold withPackage
    extract_lets unset withVariant
    have hvariant : ∀ variant l, k ≤ l → True →
        Makes (fun _ _ => True) l (withVariant variant) := by
      intro variant l _ _
      unfold withVariant
      extract_lets withPriority
      have hpriority : ∀ priority o, l ≤ o → True →
          Makes (fun _ _ => True) o (withPriority priority) :=
        fun _ _ _ _ => .pure trivial
      split
      · exact (Makes.pure trivial).bind hpriority
      · split
        · exact (Makes.pure trivial).bind hpriority
        · exact (Makes.pure trivial).bind hpriority
        · exact (Makes.throw _).bind hpriority
    split
    · exact str_made.bind hvariant
    · exact (Makes.pure trivial).bind hvariant
  split
  · exact str_made.bind hpackage
  · exact (Makes.pure trivial).bind hpackage

/-- The defaults of a template are such as `Q` tells, and its body has numbers below the next
one. -/
theorem template_reads {Q : Scope → Identity → Expr → Prop} (hQ : Inherited Q) {fuel : Nat}
    {node : Node} :
    Makes (fun k t => DefaultsMade Q s k t.params ∧ Stmt.MadeBefore k t.body) n
      (template fuel s node) := by
  refine fields_made.bind fun f m _ _ => ?_
  split
  · exact .throw _
  · refine str_made.bind fun name k _ _ => optContentKind_made.bind fun kind l _ _ => ?_
    extract_lets withParams
    have hparams : ∀ acc o, l ≤ o → DefaultsMade Q s o acc.1 →
        Makes (fun k t => DefaultsMade Q s k t.params ∧ Stmt.MadeBefore k t.body) o
            (withParams acc) := by
      rintro ⟨params, s'⟩ o _ hparams
      unfold withParams
      dsimp -zeta only
      extract_lets withDelegate
      have hdelegate : ∀ del p, o ≤ p → True →
          Makes (fun k t => DefaultsMade Q s k t.params ∧ Stmt.MadeBefore k t.body) p
              (withDelegate del) := by
        intro del p hp _
        unfold withDelegate
        extract_lets withBody
        have hbody : ∀ body q, p ≤ q → Stmt.MadeBefore q body →
            Makes (fun k t => DefaultsMade Q s k t.params ∧ Stmt.MadeBefore k t.body) q
                (withBody body) :=
          fun body q hq hbody => .pure ⟨hparams.mono hQ (Nat.le_trans hp hq), hbody⟩
        split
        · exact (Makes.pure nofun).bind hbody
        · exact (makesStmts fuel).block.bind hbody
      split
      · exact (Makes.pure trivial).bind hdelegate
      · exact (Makes.map delegate_made fun _ _ _ => trivial).bind hdelegate
    split
    · exact (Makes.pure fun before p after h => by simp at h).bind hparams
    · refine seq_made.bind fun items o ho _ => ?_
      exact (params_made hQ items).bind fun acc p hp hacc =>
        hparams acc p (Nat.le_trans ho hp) hacc.2

end Bundle

theorem Template.MadeBefore.mono {n m : Identity} {t : Template} (h : t.MadeBefore n)
    (hle : n ≤ m) : t.MadeBefore m where
  defaults p hp e he := (h.defaults p hp e he).mono hle
  body := Stmt.MadeBefore.mono h.body hle

namespace Bundle

open Yaml (Node)

variable {n : Identity}

/-- The templates that are read are such as `R` tells. -/
structure MakesTemplates (R : Identity → Template → Prop) : Prop where
  mono : ∀ {n m : Identity} {t : Template}, R n t → n ≤ m → R m t
  template : ∀ {fuel : Nat} {source space : String} {n : Identity} {node : Node},
    Makes R n (Bundle.template fuel ⟨source, space, [], [], []⟩ node)

theorem templates_made : MakesTemplates Template.MadeBefore where
  mono h hle := h.mono hle
  template := (template_reads madeBefore_inherited).weaken fun k t h => {
    defaults := fun p hp e he => by
      obtain ⟨before, after, hsplit⟩ := List.append_of_mem hp
      exact h.1 before p after hsplit e he
    body := h.2 }

section

variable {R : Identity → Template → Prop} (hR : MakesTemplates R)

include hR

theorem document_made {source : String} {root : Node} :
    Makes (fun k ts => ∀ t ∈ ts, R k t) n (document source root) := by
  unfold document templates
  extract_lets s
  refine fields_made.bind fun f m _ _ => ?_
  extract_lets withSpace
  have hspace : ∀ space k, m ≤ k → True →
      Makes (fun k ts => ∀ t ∈ ts, R k t) k (withSpace space) := by
    intro space k _ _
    unfold withSpace
    split
    · exact .pure nofun
    · refine seq_made.bind fun items l _ _ => ?_
      exact Makes.mapM (Q := R) (fun hle ht => hR.mono ht hle) (fun item o => hR.template) items
  split
  · exact str_made.bind hspace
  · exact (Makes.pure trivial).bind hspace

/-- The templates of a bundle. -/
theorem parse_made {text source : String} :
    Makes (fun k ts => ∀ t ∈ ts, R k t) n (parse text source) := by
  refine (Makes.mapM (Q := fun k ts => ∀ t ∈ ts, R k t) (fun hle h t ht => hR.mono (h t ht) hle)
    (fun root m => document_made hR) _).bind fun found m _ hfound => ?_
  split
  · refine .pure fun t ht => ?_
    obtain ⟨ts, hts, ht⟩ := List.mem_flatten.1 ht
    exact hfound ts hts t ht
  · exact .throw _

/-! ### Files -/

theorem loadFile_made {files : FileTree} {path : String} :
    Makes (fun k ts => ∀ t ∈ ts, R k t) n (loadFile files path) := by
  unfold loadFile
  split
  · exact .throw _
  · split
    · exact .throw _
    · exact parse_made hR

theorem collect_made {load : String → Decoding (List Template)}
    (hload : ∀ path m, Makes (fun k ts => ∀ t ∈ ts, R k t) m (load path)) (issues : Collector)
    {found : List Template} (hfound : ∀ t ∈ found, R n t) (paths : List String) :
    Makes (fun k ts => ∀ t ∈ ts, R k t) n (collect load issues found paths) := by
  induction paths generalizing n issues found with
  | nil =>
    unfold collect
    split
    · exact .throw _
    · exact .pure hfound
  | cons path rest ih =>
    unfold collect
    have hhere : Makes (fun k (here : Except Failure (List Template)) => ∀ ts, here = .ok ts →
        ∀ t ∈ ts, R k t) n (tryCatchThe Failure (Except.ok <$> load path) fun e =>
            return Except.error e) := by
      refine (Makes.map (hload path n) fun k ts hts => ?_).tryCatch fun e => .pure nofun
      rintro _ ⟨⟩
      exact hts
    refine hhere.bind fun here m hm hhere => ?_
    have hfound := fun t ht => hR.mono (hfound t ht) hm
    cases here with
    | ok ts => exact ih _ (List.forall_mem_append.2 ⟨hfound, hhere ts rfl⟩)
    | error e => exact ih _ hfound

theorem load_made {files : FileTree} {path : String} :
    Makes (fun k ts => ∀ t ∈ ts, R k t) n (load files path) := by
  unfold load
  split
  · exact collect_made hR (fun _ _ => loadFile_made hR) _ (List.forall_mem_nil _) _
  · exact loadFile_made hR

/-- The templates of files and directories. -/
theorem templates_loaded (files : FileTree) (paths : List String) :
    Makes (fun k ts => ∀ t ∈ ts, R k t) n (loadAll files paths) :=
  collect_made hR (fun _ _ => load_made hR) _ (List.forall_mem_nil _) _

end

/-- Templates that are loaded have numbers below the next one. -/
theorem loadAll_made (files : FileTree) (paths : List String) :
    Makes (fun k ts => ∀ t ∈ ts, t.MadeBefore k) n (loadAll files paths) :=
    templates_loaded templates_made files paths

end Bundle

end Interlude
