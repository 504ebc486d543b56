import Interlude.Server.Hub
/-!
# Mailboxes are closed once

A mailbox can be closed by a client that leaves, by a broadcast that lets a slow client go, and by a
shutdown, the last two after the list of clients may have changed. What makes this safe is that a
client whose mailbox is still open has one owner: it is on the list of clients, or it waits for a
shutdown to close it, and never both. Whoever closes a mailbox takes the client from its owner
first. So no mailbox is closed twice or written to after it was closed (`run_keeps_mailboxes`).
-/

namespace Interlude

namespace Mailbox

variable {μ : Type} {b b' : Mailbox μ}

/-- A mailbox that was treated well: closed at most once, and nothing came after that. -/
structure Kept (b : Mailbox μ) : Prop where
  closes : b.closes ≤ 1
  late : b.late = 0

theorem isOpen_iff : b.isOpen = true ↔ b.closes = 0 := by
  simp [isOpen]

theorem Kept.close (h : b.Kept) (hopen : b.closes = 0) : b.close.Kept :=
  ⟨by simp [Mailbox.close, hopen], h.late⟩

/-- A message that finds room in an open mailbox only adds to what waits there. -/
theorem send?_of_open {m : μ} (hopen : b.closes = 0) (h : b.send? m = some b') :
    b'.closes = b.closes ∧ b'.late = b.late := by
  rw [send?, isOpen_iff.2 hopen] at h
  simp only [Bool.not_true, Bool.false_eq_true, if_false] at h
  split at h
  · cases h
  · cases h
    exact ⟨rfl, rfl⟩

end Mailbox

namespace Hub

variable {μ : Type} {h : Hub μ}

/-- The mailbox of a client is there and open. -/
def Opens (h : Hub μ) (id : ClientId) : Prop := ∃ b, h.mailboxes[id]? = some b ∧ b.closes = 0

/-- The clients whose mailboxes are still to be closed, each by its owner: the list of clients, or
the shutdown that took them off it. -/
def owned (h : Hub μ) : List ClientId := h.clients ++ h.closing

/-- Every mailbox was treated well, every owned client has one owner and an open mailbox, and only a
shutdown owns clients that are not on the list. -/
structure Sound (h : Hub μ) : Prop where
  kept : ∀ (id : ClientId) (b : Mailbox μ), h.mailboxes[id]? = some b → b.Kept
  opens : ∀ id ∈ h.owned, h.Opens id
  distinct : h.owned.Nodup
  up : h.isDown = false → h.closing = []

theorem Sound.empty : Sound ({} : Hub μ) :=
  ⟨fun id b hb => by simp at hb, fun id hid => by simp [owned] at hid, by
    simp [owned], fun _ => rfl⟩

/-! ## What a step changes -/

/-- Clients may be taken from their owners. -/
theorem Sound.disown (hs : h.Sound) {k : Hub μ} (hboxes : k.mailboxes = h.mailboxes)
    (howned : k.owned.Sublist h.owned) (hup : k.isDown = false → k.closing = []) : k.Sound where
  kept := by rw [hboxes]; exact hs.kept
  opens id hid := by
    unfold Opens
    rw [hboxes]
    exact hs.opens id (howned.subset hid)
  distinct := hs.distinct.sublist howned
  up := hup

/-- An open mailbox is closed once nobody owns its client any more. -/
theorem Sound.closeMailbox (hs : h.Sound) {id : ClientId} (hid : id ∉ h.owned)
    (hopen : h.Opens id) :
    (h.closeMailbox id).Sound where
  kept j b hb := by
    simp only [Hub.closeMailbox, List.getElem?_modify] at hb
    obtain ⟨c, hc, rfl⟩ := Option.map_eq_some_iff.1 hb
    split
    · next heq =>
      subst heq
      obtain ⟨d, hd, hzero⟩ := hopen
      rw [hc] at hd
      cases hd
      exact (hs.kept _ c hc).close hzero
    · exact hs.kept j c hc
  opens j hj := by
    obtain ⟨b, hb, hzero⟩ := hs.opens j hj
    have hne : id ≠ j := fun heq => hid (heq ▸ hj)
    exact ⟨b, by simp [Hub.closeMailbox, hne, hb], hzero⟩
  distinct := hs.distinct
  up := hs.up

/-- A mailbox is replaced by one that is as open and as well kept. -/
theorem Sound.set (hs : h.Sound) {id : ClientId} {b c : Mailbox μ} (hb : h.mailboxes[id]? = some b)
    (hcloses : c.closes = b.closes) (hlate : c.late = b.late) :
    Sound { h with mailboxes := h.mailboxes.set id c } := by
  have hlt : id < h.mailboxes.length := (List.getElem?_eq_some_iff.1 hb).1
  have hget (j : ClientId) : (h.mailboxes.set id c)[j]? = if id = j then some c
      else h.mailboxes[j]? := by
    rw [List.getElem?_set, if_pos hlt]
  refine ⟨fun j d hd => ?_, fun j hj => ?_, hs.distinct, hs.up⟩
  · rw [hget] at hd
    split at hd
    · cases hd
      have hk := hs.kept id b hb
      exact ⟨by rw [hcloses]; exact hk.closes, by rw [hlate]; exact hk.late⟩
    · exact hs.kept j d hd
  · obtain ⟨d, hd, hzero⟩ := hs.opens j hj
    by_cases heq : id = j
    · subst heq
      rw [hb] at hd
      cases hd
      exact ⟨c, by rw [hget, if_pos rfl], by rw [hcloses]; exact hzero⟩
    · exact ⟨d, by rw [hget, if_neg heq]; exact hd, hzero⟩

/-! ## The steps -/

theorem Sound.register (hs : h.Sound) : h.register.2.Sound := by
  have hfresh : ∀ id ∈ h.owned, id < h.mailboxes.length := fun id hid => by
    obtain ⟨b, hb, _⟩ := hs.opens id hid
    exact (List.getElem?_eq_some_iff.1 hb).1
  have howned : h.register.2.owned.Perm (h.mailboxes.length :: h.owned) := by
    simp only [Hub.register, owned, List.append_assoc]
    exact List.perm_middle
  refine ⟨fun id b hb => ?_, fun id hid => ?_, ?_, hs.up⟩
  · simp only [Hub.register, List.getElem?_append] at hb
    split at hb
    · exact hs.kept id b hb
    · rw [List.getElem?_singleton] at hb
      split at hb
      · cases hb
        exact ⟨Nat.zero_le 1, rfl⟩
      · cases hb
  · rcases List.mem_cons.1 (howned.mem_iff.1 hid) with rfl | hid
    · exact ⟨{}, by simp [Hub.register], rfl⟩
    · obtain ⟨b, hb, hzero⟩ := hs.opens id hid
      exact ⟨b, by simp [Hub.register, List.getElem?_append_left (hfresh id hid), hb], hzero⟩
  · have hnew : h.mailboxes.length ∉ h.owned := fun hmem => Nat.lt_irrefl _ (hfresh _ hmem)
    exact howned.nodup_iff.2 (List.nodup_cons.2 ⟨hnew, hs.distinct⟩)

/-- Whoever takes a client off the list may close its mailbox. -/
theorem Sound.unregister (hs : h.Sound) (id : ClientId) : (h.unregister id).Sound := by
  unfold Hub.unregister
  split
  · next hmem =>
    have hmem : id ∈ h.clients := by simpa using hmem
    have hopen := hs.opens id (List.mem_append_left _ hmem)
    have hnot : id ∉ h.closing := fun hc => (List.nodup_append.1 hs.distinct).2.2 id hmem id hc rfl
    have hsub : (h.clients.filter (· != id) ++ h.closing).Sublist h.owned :=
      List.filter_sublist.append (List.Sublist.refl _)
    refine (hs.disown (k := { h with clients := h.clients.filter (· != id) })
      rfl hsub hs.up).closeMailbox ?_ hopen
    simp [owned, hnot]
  · exact hs

/-- Sending to an open mailbox leaves all clients with their owners. -/
theorem Sound.send (hs : h.Sound) (m : μ) {id : ClientId} (hopen : h.Opens id) :
    (send m h id).Sound ∧ (send m h id).owned = h.owned := by
  obtain ⟨b, hb, hzero⟩ := hopen
  unfold Hub.send
  rw [hb]
  simp only
  split
  · next b' hsent =>
    have hsame := Mailbox.send?_of_open hzero hsent
    exact ⟨hs.set hb hsame.1 hsame.2, rfl⟩
  · exact ⟨hs.disown rfl (List.Sublist.refl _) hs.up, rfl⟩

theorem Sound.broadcast (hs : h.Sound) (m : μ) : (h.broadcast m).Sound := by
  -- along the way every client that is still to be served is owned, and so has an open mailbox
  suffices key : ∀ (ids : List ClientId) (h : Hub μ), h.Sound → (∀ id ∈ ids, id ∈ h.owned) →
      (ids.foldl (Hub.send m) h).Sound from
    key h.clients h hs fun id hid => List.mem_append_left _ hid
  intro ids
  induction ids with
  | nil => exact fun h hs _ => hs
  | cons id rest ih =>
    intro h hs hids
    obtain ⟨hsent, howned⟩ := hs.send m (hs.opens id (hids id List.mem_cons_self))
    refine ih _ hsent fun j hj => ?_
    rw [howned]
    exact hids j (List.mem_cons_of_mem _ hj)

/-- A client that was noted as slow may have left meanwhile; then it is no longer on the list, and
its mailbox is left alone. -/
theorem Sound.evict (hs : h.Sound) (id : ClientId) : (h.evict id).Sound := by
  unfold Hub.evict
  split
  · exact (hs.disown (k := { h with slow := h.slow.erase id }) rfl (List.Sublist.refl _)
      hs.up).unregister id
  · exact hs

/-- A shutdown becomes the owner of all clients on the list. -/
theorem Sound.beginShutdown (hs : h.Sound) : h.beginShutdown.Sound := by
  unfold Hub.beginShutdown
  split
  · exact hs
  · next hup =>
    have hnone := hs.up (by simpa using hup)
    refine hs.disown rfl ?_ (fun hdown => by cases hdown)
    simp [owned, hnone]

theorem Sound.release (hs : h.Sound) (id : ClientId) : (h.release id).Sound := by
  unfold Hub.release
  split
  · next hmem =>
    have hmem : id ∈ h.closing := by simpa using hmem
    have hopen := hs.opens id (List.mem_append_right _ hmem)
    obtain ⟨_, hclosing, hapart⟩ := List.nodup_append.1 hs.distinct
    have hnot : id ∉ h.clients := fun hc => hapart id hc id hmem rfl
    have hsub : (h.clients ++ h.closing.erase id).Sublist h.owned :=
      (List.Sublist.refl _).append List.erase_sublist
    have hup : h.isDown = false → h.closing.erase id = [] := fun hd => by rw [hs.up hd]; rfl
    refine (hs.disown (k := { h with closing := h.closing.erase id }) rfl hsub hup).closeMailbox ?_
      hopen
    simp [owned, hnot, hclosing.not_mem_erase]
  · exact hs

/-- What a pump carries away was sent before. -/
theorem Sound.carry (hs : h.Sound) (id : ClientId) : (h.carry id).Sound := by
  cases hb : h.mailboxes[id]? with
  | none =>
    refine hs.disown ?_ (List.Sublist.refl _) hs.up
    exact List.modify_eq_self (by simpa using hb)
  | some b =>
    have heq : (h.carry id).mailboxes =
        h.mailboxes.set id { b with waiting := b.waiting.tail } := by
      simp [Hub.carry, List.modify_eq_set, hb]
    have hset := hs.set hb (c := { b with waiting := b.waiting.tail }) rfl rfl
    exact hset.disown heq (List.Sublist.refl _) hs.up

theorem Sound.step (hs : h.Sound) (s : Step μ) : (h.step s).Sound := by
  cases s with
  | register => exact hs.register
  | unregister id => exact hs.unregister id
  | broadcast m => exact hs.broadcast m
  | evict id => exact hs.evict id
  | beginShutdown => exact hs.beginShutdown
  | release id => exact hs.release id
  | carry id => exact hs.carry id

theorem Sound.run (hs : h.Sound) (steps : List (Step μ)) : (h.run steps).Sound := by
  induction steps generalizing h with
  | nil => exact hs
  | cons s rest ih => exact ih (hs.step s)

/-- **In whatever order the steps come, every registered client has an open mailbox, and every
mailbox there ever was is closed at most once and gets no message after that.** -/
theorem run_keeps_mailboxes (steps : List (Step μ)) :
    (∀ id ∈ (({} : Hub μ).run steps).clients,
      ∃ b, (({} : Hub μ).run steps).mailboxes[id]? = some b ∧ b.isOpen = true) ∧
    ∀ b ∈ (({} : Hub μ).run steps).mailboxes, b.closes ≤ 1 ∧ b.late = 0 := by
  have hs := (Sound.empty (μ := μ)).run steps
  refine ⟨fun id hid => ?_, fun b hb => ?_⟩
  · obtain ⟨b, hb, hzero⟩ := hs.opens id (List.mem_append_left _ hid)
    exact ⟨b, hb, Mailbox.isOpen_iff.2 hzero⟩
  · obtain ⟨id, hid⟩ := List.getElem?_of_mem hb
    exact ⟨(hs.kept id b hid).closes, (hs.kept id b hid).late⟩

end Hub

/-- Two clients that are too slow: the first has left before it is let go, the second is let go when
a shutdown has taken it off the list already. A third comes after the shutdown. -/
def Sample.crowd : List (Hub.Step Unit) :=
  [.register, .register] ++ List.replicate 65 (.broadcast ())
    ++ [.unregister 0, .evict 0, .beginShutdown, .register, .evict 1, .release 1]

/-- All three ways to close a mailbox were tried, and the client that is left can be sent
messages. -/
theorem Sample.crowd_kept :
    (({} : Hub Unit).run crowd).mailboxes.map (·.closes) = [1, 1, 0] ∧
      ∃ b, (({} : Hub Unit).run crowd).mailboxes[2]? = some b ∧ b.isOpen = true :=
  ⟨by decide +kernel, (Hub.run_keeps_mailboxes crowd).1 2 (by decide +kernel)⟩

end Interlude
