import Mathlib.Data.Finset.Basic
import Mathlib.Data.List.Permutation
import Interlude.Registry.Holder
/-!
# Watchers can follow the registry

A watcher that knows the names that were published when it began to watch, and then does what its
events say, knows the names that are published now, provided it reads what it is told before the
next registry is published. An event may ask for what cannot be done, such as adding a name that is
there; part of the statement is that none ever does (`watcher_follows`).
-/

namespace Interlude

/-! ## Following events -/

/-- The names after an event; nothing if the event does not fit the names it finds. -/
def Event.follow (names : Finset String) (e : Event) : Option (Finset String) :=
  match e.change with
  | .added => if e.name ∈ names then none else some (insert e.name names)
  | .updated => if e.name ∈ names then some names else none
  | .removed => if e.name ∈ names then some (names.erase e.name) else none

/-- The names after events, one after the other. -/
def followAll (names : Finset String) (events : List Event) : Option (Finset String) :=
  events.foldlM Event.follow names

theorem followAll_cons (names : Finset String) (e : Event) (rest : List Event) :
    followAll names (e :: rest) = (e.follow names).bind (followAll · rest) := by
  simp [followAll]

theorem followAll_append (names : Finset String) (first rest : List Event) :
    followAll names (first ++ rest) = (followAll names first).bind (followAll · rest) := by
  simp [followAll]

/-! ## What changes between two registries -/

namespace Registry

theorem nodup_eraseDups (l : List String) : l.eraseDups.Nodup := by
  cases l with
  | nil => exact List.nodup_nil
  | cons a rest =>
    rw [List.eraseDups_cons, List.nodup_cons, List.mem_eraseDups]
    exact ⟨by simp, nodup_eraseDups _⟩
termination_by l.length
decreasing_by exact Nat.lt_succ_of_le (List.length_filter_le ..)

theorem namesOf_nodup (r : Option Registry) : (namesOf r).Nodup := by
  cases r with
  | none => exact List.nodup_nil
  | some r => exact nodup_eraseDups _

/-- The events for the names of a new registry. -/
def arrivals (before now : List String) : List Event :=
  now.map fun n => ⟨if before.contains n then .updated else .added, n⟩

/-- The events for names that are gone. -/
def departures (gone : List String) : List Event := gone.map (⟨.removed, ·⟩)

/-- Striking off the names that came up does not matter to the events, as no name comes up twice. -/
theorem arrive_events (before : List String) {now : List String} (hnow : now.Nodup) :
    (arrive before now).1 = arrivals before now := by
  induction now generalizing before with
  | nil => rfl
  | cons n rest ih =>
    obtain ⟨hn, hrest⟩ := List.nodup_cons.1 hnow
    have hsame : arrivals (before.erase n) rest = arrivals before rest := by
      refine List.map_congr_left fun m hm => ?_
      have hne : m ≠ n := fun heq => hn (heq ▸ hm)
      simp only [List.contains_eq_mem, List.mem_erase_of_ne hne]
    by_cases hb : n ∈ before
    · simp only [arrive, List.contains_eq_mem, hb, decide_true, if_true]
      rw [ih (before.erase n) hrest, hsame]
      simp [arrivals, hb]
    · simp only [arrive, List.contains_eq_mem, hb, decide_false, Bool.false_eq_true, if_false]
      rw [ih before hrest]
      simp [arrivals, hb]

/-- What is left are the names from before that did not come up. -/
theorem mem_arrive {before : List String} (hbefore : before.Nodup) (now : List String)
    {m : String} :
    m ∈ (arrive before now).2 ↔ m ∈ before ∧ m ∉ now := by
  induction now generalizing before with
  | nil => simp [arrive]
  | cons n rest ih =>
    by_cases hb : n ∈ before
    · simp only [arrive, List.contains_eq_mem, hb, decide_true, if_true]
      rw [ih (hbefore.erase n), hbefore.mem_erase_iff, List.mem_cons]
      tauto
    · simp only [arrive, List.contains_eq_mem, hb, decide_false, Bool.false_eq_true, if_false]
      rw [ih hbefore, List.mem_cons]
      have hne : m ∈ before → m ≠ n := fun hm heq => hb (heq ▸ hm)
      tauto

/-- The changes, with each name looked up in the names of the other registry. -/
theorem changes_eq (old new : Option Registry) :
    changes old new =
      arrivals (namesOf old) (namesOf new) ++
    departures ((namesOf old).filter (!(namesOf new).contains ·)) := by
  have hgone : (namesOf old).filter (arrive (namesOf old) (namesOf new)).2.contains =
      (namesOf old).filter (!(namesOf new).contains ·) := by
    refine List.filter_congr fun n hn => ?_
    rw [Bool.eq_iff_iff, List.contains_iff_mem, mem_arrive (namesOf_nodup old)]
    simp [hn]
  rw [← hgone, ← arrive_events _ (namesOf_nodup new)]
  rfl

/-- Names that have not arrived yet are known exactly if they were there before. -/
theorem followAll_arrivals (before : List String) {now : List String} (hnow : now.Nodup)
    {names : Finset String} (hnames : ∀ n ∈ now, n ∈ names ↔ n ∈ before) :
    followAll names (arrivals before now) = some (names ∪ now.toFinset) := by
  induction now generalizing names with
  | nil => simp [arrivals, followAll]
  | cons n rest ih =>
    obtain ⟨hn, hrest⟩ := List.nodup_cons.1 hnow
    have hhead := hnames n List.mem_cons_self
    have hfollow : Event.follow names ⟨if before.contains n then .updated else .added, n⟩ =
        some (insert n names) := by
      by_cases hb : n ∈ before
      · have hmem := hhead.2 hb
        simp [Event.follow, hb, hmem]
      · have hmem : n ∉ names := fun h => hb (hhead.1 h)
        simp [Event.follow, hb, hmem]
    have hlater : ∀ m ∈ rest, m ∈ insert n names ↔ m ∈ before := fun m hm => by
      have hne : m ≠ n := fun heq => hn (heq ▸ hm)
      rw [Finset.mem_insert, or_iff_right hne]
      exact hnames m (List.mem_cons_of_mem _ hm)
    change followAll names (_ :: arrivals before rest) = _
    rw [followAll_cons, hfollow, Option.bind_some, ih hrest hlater, List.toFinset_cons]
    congr 1
    ext m
    simp only [Finset.mem_union, Finset.mem_insert]
    tauto

theorem followAll_departures {gone : List String} (hgone : gone.Nodup) {names : Finset String}
    (hnames : ∀ n ∈ gone, n ∈ names) :
    followAll names (departures gone) = some (names \ gone.toFinset) := by
  induction gone generalizing names with
  | nil => simp [departures, followAll]
  | cons n rest ih =>
    obtain ⟨hn, hrest⟩ := List.nodup_cons.1 hgone
    have hfollow : Event.follow names ⟨.removed, n⟩ = some (names.erase n) := by
      simp [Event.follow, hnames n List.mem_cons_self]
    have hlater : ∀ m ∈ rest, m ∈ names.erase n := fun m hm =>
      Finset.mem_erase.2 ⟨fun heq => hn (heq ▸ hm), hnames m (List.mem_cons_of_mem _ hm)⟩
    change followAll names (_ :: departures rest) = _
    rw [followAll_cons, hfollow, Option.bind_some, ih hrest hlater, List.toFinset_cons]
    congr 1
    ext m
    simp only [Finset.mem_sdiff, Finset.mem_erase, Finset.mem_insert]
    tauto

/-- Following the changes leads from the names of the one registry to those of the other. -/
theorem followAll_changes (old new : Option Registry) :
    followAll (namesOf old).toFinset (changes old new) = some (namesOf new).toFinset := by
  rw [changes_eq, followAll_append,
    followAll_arrivals (namesOf old) (namesOf_nodup new) fun n _ => List.mem_toFinset,
    Option.bind_some,
    followAll_departures ((namesOf_nodup old).filter _) fun n hn => ?_]
  · congr 1
    ext n
    simp only [Finset.mem_sdiff, Finset.mem_union, List.mem_toFinset, List.mem_filter,
      Bool.not_eq_true', List.contains_eq_mem, decide_eq_false_iff_not]
    tauto
  · rw [Finset.mem_union, List.mem_toFinset]
    exact .inl (List.mem_filter.1 hn).1

/-- Every name of either registry changes, and no name does so twice. -/
theorem changes_names (old new : Option Registry) :
    ((changes old new).map (·.name)).Nodup ∧
      ∀ n, n ∈ (changes old new).map (·.name) ↔ n ∈ namesOf old ∨ n ∈ namesOf new := by
  have hnames : (changes old new).map (·.name) =
      namesOf new ++ (namesOf old).filter (!(namesOf new).contains ·) := by
    simp [changes_eq, arrivals, departures, Function.comp_def]
  rw [hnames]
  refine ⟨List.nodup_append.2 ⟨namesOf_nodup new, (namesOf_nodup old).filter _, ?_⟩, fun n => ?_⟩
  · rintro n hn m hm rfl
    simp [hn] at hm
  · simp only [List.mem_append, List.mem_filter, Bool.not_eq_true', List.contains_eq_mem,
      decide_eq_false_iff_not]
    tauto

end Registry

/-! ## Watchers -/

/-- A watcher with enough room gets everything it is told. -/
theorem Watcher.foldl_tell (w : Watcher) (hopen : w.closed = false) (events : List Event)
    (hroom : w.waiting.length + events.length ≤ capacity) :
    events.foldl tell w = { w with waiting := w.waiting ++ events } := by
  induction events generalizing w with
  | nil => simp
  | cons e rest ih =>
    rw [List.length_cons] at hroom
    have htell : w.tell e = { w with waiting := w.waiting ++ [e] } := by
      rw [tell, hopen, if_neg]
      simp only [Bool.false_or, decide_eq_true_eq]
      omega
    have hlater : (w.waiting ++ [e]).length + rest.length ≤ capacity := by
      rw [List.length_append, List.length_singleton]
      omega
    rw [List.foldl_cons, htell, ih { w with waiting := w.waiting ++ [e] } hopen hlater,
      List.append_assoc]
    rfl

/-- A closed watcher stays as it is. -/
theorem Watcher.foldl_tell_closed (w : Watcher) (hclosed : w.closed = true) (events : List Event) :
    events.foldl tell w = w := by
  induction events with
  | nil => rfl
  | cons e rest ih => rw [List.foldl_cons, tell, hclosed]; simpa using ih

/-- What a watcher has been through: the names that were published when it began to watch, and the
events it has read since, oldest first. -/
structure Diary where
  start : List String
  seen : List Event := []

/-- A holder in use, with the diaries of all its watchers. -/
structure Audience where
  holder : Holder
  diaries : Array Diary := #[]

namespace Audience

/-- A holder that publishes a registry, or none, and that nobody watches yet. -/
def new (r : Option Registry) : Audience := { holder := { current := r } }

/-- What is done with a holder. -/
inductive Act where
  | watch
  | unwatch (id : WatcherId)
  | swap (r : Option Registry)
  | drain (id : WatcherId)

def act (s : Audience) : Act → Audience
  | .watch =>
    { holder := s.holder.watch.2,
      diaries := s.diaries.push { start := Registry.namesOf s.holder.current } }
  | .unwatch id => { s with holder := s.holder.unwatch id }
  | .swap r => { s with holder := s.holder.swap r }
  | .drain id =>
    { holder := (s.holder.drain id).2
      diaries := s.diaries.modify id fun d => { d with seen := d.seen ++ (s.holder.drain id).1 } }

/-- All that is done, in order. -/
def play (s : Audience) (acts : List Act) : Audience := acts.foldl act s

/-- Everybody who still watches has read everything. -/
def Drained (s : Audience) : Prop :=
  ∀ (id : WatcherId) (w : Watcher), s.holder.watchers[id]? = some w → w.closed = false →
    w.waiting = []

/-- A registry can be published without anybody missing an event. -/
def Allows (s : Audience) : Act → Prop
  | .swap r => s.Drained ∧ (Registry.changes s.holder.current r).length ≤ Watcher.capacity
  | _ => True

/-- Nobody misses an event on the way. -/
def Attentive (s : Audience) : List Act → Prop
  | [] => True
  | a :: rest => s.Allows a ∧ (s.act a).Attentive rest

/-- What a watcher has read, and what waits for it, lead from the names it began with to those that
are published now. -/
def Follows (s : Audience) (id : WatcherId) : Prop :=
  ∀ (w : Watcher), s.holder.watchers[id]? = some w → w.closed = false →
    ∃ d, s.diaries[id]? = some d ∧
    followAll d.start.toFinset (d.seen ++ w.waiting) =
      some (Registry.namesOf s.holder.current).toFinset

/-- Every watcher has a diary. -/
def Complete (s : Audience) : Prop := s.diaries.size = s.holder.watchers.size

variable {s : Audience}

theorem Complete.act (h : s.Complete) (a : Act) : (s.act a).Complete := by
  unfold Complete at *
  cases a with
  | watch => simp [Audience.act, Holder.watch, h]
  | unwatch id => simpa [Audience.act, Holder.unwatch] using h
  | swap r => simpa [Audience.act, Holder.swap] using h
  | drain id => simpa [Audience.act, Holder.drain] using h

/-! ## What each act keeps -/

/-- Who begins to watch has nothing to catch up with. -/
theorem Follows.watch (hc : s.Complete) {id : WatcherId} (h : s.Follows id) :
    (s.act .watch).Follows id := by
  intro w hw hopen
  simp only [act, Holder.watch, Array.getElem?_push] at hw ⊢
  rw [hc]
  by_cases hid : id = s.holder.watchers.size
  · subst hid
    rw [if_pos rfl] at hw ⊢
    cases hw
    exact ⟨_, rfl, rfl⟩
  · rw [if_neg hid] at hw ⊢
    exact h w hw hopen

theorem Follows.unwatch {id : WatcherId} (h : s.Follows id) (j : WatcherId) :
    (s.act (.unwatch j)).Follows id := by
  intro w hw hopen
  simp only [act, Holder.unwatch, Array.getElem?_modify] at hw
  split at hw
  · obtain ⟨v, _, rfl⟩ := Option.map_eq_some_iff.1 hw
    cases hopen
  · exact h w hw hopen

/-- What was read waits no more. -/
theorem Follows.drain {id : WatcherId} (h : s.Follows id) (j : WatcherId) :
    (s.act (.drain j)).Follows id := by
  intro w hw hopen
  simp only [act, Holder.drain, Array.getElem?_modify] at hw ⊢
  by_cases hid : j = id
  · subst hid
    rw [if_pos rfl] at hw
    obtain ⟨v, hv, rfl⟩ := Option.map_eq_some_iff.1 hw
    obtain ⟨d, hd, hfollow⟩ := h v hv hopen
    refine ⟨{ d with seen := d.seen ++ v.waiting }, by simp [hd, hv], ?_⟩
    simpa using hfollow
  · rw [if_neg hid] at hw
    obtain ⟨d, hd, hfollow⟩ := h w hw hopen
    exact ⟨d, by rw [if_neg hid]; exact hd, hfollow⟩

/-- The watchers after a registry was published: who watches finds all changes waiting. -/
theorem swap_watcher {r : Option Registry} (hallows : s.Allows (.swap r)) {id : WatcherId}
    {w : Watcher} (hw : (s.holder.swap r).watchers[id]? = some w) (hopen : w.closed = false) :
    (∃ v, s.holder.watchers[id]? = some v ∧ v.closed = false ∧ v.waiting = []) ∧
      w.waiting = Registry.changes s.holder.current r := by
  obtain ⟨hdrained, hroom⟩ := hallows
  simp only [Holder.swap, Array.getElem?_map] at hw
  obtain ⟨v, hv, rfl⟩ := Option.map_eq_some_iff.1 hw
  have hwas : v.closed = false := by
    cases hclosed : v.closed with
    | false => rfl
    | true =>
      rw [Watcher.foldl_tell_closed v hclosed, hclosed] at hopen
      cases hopen
  have hnone := hdrained id v hv hwas
  rw [Watcher.foldl_tell v hwas _ (by rw [hnone]; simpa using hroom)]
  exact ⟨⟨v, hv, hwas, hnone⟩, by simp [hnone]⟩

theorem Follows.swap {id : WatcherId} (h : s.Follows id) {r : Option Registry}
    (hallows : s.Allows (.swap r)) :
    (s.act (.swap r)).Follows id := by
  intro w hw hopen
  obtain ⟨⟨v, hv, hwas, hnone⟩, hwaiting⟩ := swap_watcher hallows hw hopen
  obtain ⟨d, hd, hfollow⟩ := h v hv hwas
  rw [hnone, List.append_nil] at hfollow
  refine ⟨d, hd, ?_⟩
  rw [hwaiting, followAll_append, hfollow, Option.bind_some]
  exact Registry.followAll_changes _ _

theorem Follows.act {id : WatcherId} (hc : s.Complete) (h : s.Follows id) {a : Act}
    (hallows : s.Allows a) :
    (s.act a).Follows id := by
  cases a with
  | watch => exact h.watch hc
  | unwatch j => exact h.unwatch j
  | swap r => exact h.swap hallows
  | drain j => exact h.drain j

theorem Follows.play {id : WatcherId} {acts : List Act} (hc : s.Complete) (h : s.Follows id)
    (hattentive : s.Attentive acts) : (s.play acts).Follows id := by
  induction acts generalizing s with
  | nil => exact h
  | cons a rest ih => exact ih (hc.act a) (h.act hc hattentive.1) hattentive.2

theorem attentive_append {acts later : List Act} :
    s.Attentive (acts ++ later) ↔ s.Attentive acts ∧ (s.play acts).Attentive later := by
  induction acts generalizing s with
  | nil => simp [Attentive, play]
  | cons a rest ih => simp [Attentive, play, ih, and_assoc]

/-- **Watchers can follow the registry.** Whatever was done with a holder, as long as nobody who
watches misses an event: everybody who watches gets from the names that were published when it began
to watch to those that are published now by following its events; and when a registry is published,
it is told once of every name of that registry and of the one before, and of no other name. -/
theorem watcher_follows (r₀ : Option Registry) (acts : List Act)
    (hattentive : (new r₀).Attentive acts) (id : WatcherId) (w : Watcher)
    (hw : ((new r₀).play acts).holder.watchers[id]? = some w) (hopen : w.closed = false) :
    (∃ d, ((new r₀).play acts).diaries[id]? = some d ∧
      followAll d.start.toFinset (d.seen ++ w.waiting) =
      some (Registry.namesOf ((new r₀).play acts).holder.current).toFinset) ∧ ∀ before r,
    acts = before ++ [.swap r] → (w.waiting.map (·.name)).Nodup ∧ ∀ n, n ∈ w.waiting.map (·.name) ↔
        n ∈ Registry.namesOf ((new r₀).play before).holder.current ∨ n ∈ Registry.namesOf r := by
  have hcomplete : (new r₀).Complete := rfl
  have hnobody : (new r₀).Follows id := fun w hw => by simp [new] at hw
  refine ⟨hnobody.play hcomplete hattentive w hw hopen, ?_⟩
  rintro before r rfl
  have hallows := (attentive_append.1 hattentive).2.1
  have hlast : (new r₀).play (before ++ [.swap r]) = ((new r₀).play before).act (.swap r) := by
    simp [play]
  rw [hlast] at hw
  rw [(swap_watcher hallows hw hopen).2]
  exact Registry.changes_names _ _

end Audience

namespace Sample

/-- A registry of templates without a body. -/
def named (names : List String) : Registry :=
  ⟨names.map fun name =>
    { name, kind := .text, source := "", delegate := none, params := [], code := #[], size := 0 }⟩

/-- Somebody watches while two registries are published. -/
def watched : List Audience.Act :=
    [.watch, .swap (some (named ["a", "b"])), .drain 0, .swap (some (named ["b", "c"]))]

end Sample

/-- After the second registry, the events are those of three names and lead to its two names. -/
theorem Sample.watched_followed : ((Audience.new none).play watched).holder.watchers[0]? =
      some { waiting := [⟨.updated, "b"⟩, ⟨.added, "c"⟩, ⟨.removed, "a"⟩] } ∧
    ∃ d, ((Audience.new none).play watched).diaries[0]? = some d ∧
      followAll d.start.toFinset (d.seen ++ [⟨.updated, "b"⟩, ⟨.added, "c"⟩, ⟨.removed, "a"⟩]) =
          some {"b", "c"} := by
  have hwatcher : ((Audience.new none).play watched).holder.watchers[0]? =
      some { waiting := [⟨.updated, "b"⟩, ⟨.added, "c"⟩, ⟨.removed, "a"⟩] } := by cbv
  have hnames : Registry.namesOf ((Audience.new none).play watched).holder.current =
    ["b", "c"] := by cbv
  have hdrained : ∀ s : Audience, s.holder.watchers = #[{}] → s.Drained := by
    rintro s hs id w hw -
    rw [hs, Array.getElem?_singleton] at hw
    split at hw <;> cases hw
    rfl
  have hattentive : (Audience.new none).Attentive watched :=
    ⟨trivial, ⟨hdrained _ (by cbv), Nat.le_of_ble_eq_true (by cbv)⟩, trivial,
      ⟨hdrained _ (by cbv), Nat.le_of_ble_eq_true (by cbv)⟩, trivial⟩
  obtain ⟨d, hd, hfollow⟩ := (Audience.watcher_follows none watched hattentive 0 _ hwatcher rfl).1
  refine ⟨hwatcher, d, hd, ?_⟩
  rw [hfollow, hnames]
  rfl

end Interlude
