/-!
# Reload clients

A hub sends messages to the clients that are registered with it. Each client has a mailbox of
bounded size, and a pump that carries its messages away. Many hands work on a hub at once, so its
work is cut into steps that each happen as a whole: a broadcast only notes the clients it finds too
slow, and each is let go in a step of its own; a shutdown takes all clients off the list in one step
and closes their mailboxes in later ones. A mailbox counts how often it was closed and how many
messages came after that, so that misuse can be seen.
-/

namespace Interlude

/-- Messages on their way to a client. `closes` counts how often the mailbox was closed, `late` the
messages sent to it after that. -/
structure Mailbox (μ : Type) where
  waiting : List μ := []
  closes : Nat := 0
  late : Nat := 0
deriving Repr, Inhabited

namespace Mailbox

/-- The number of messages that may wait. -/
def capacity : Nat := 64

def isOpen (b : Mailbox μ) : Bool := b.closes == 0

def close (b : Mailbox μ) : Mailbox μ := { b with closes := b.closes + 1 }

/-- The mailbox with one more message; nothing if there is no room. -/
def send? (b : Mailbox μ) (m : μ) : Option (Mailbox μ) :=
  if !b.isOpen then some { b with late := b.late + 1 }
  else if capacity ≤ b.waiting.length then none
  else some { b with waiting := b.waiting ++ [m] }

end Mailbox

/-- Names a client. -/
abbrev ClientId := Nat

/-- A hub. `mailboxes` are those of all clients there ever were, by their names; `clients` are the
registered ones. `slow` are the clients that broadcasts have still to let go, `closing` those whose
mailboxes a shutdown has still to close. -/
structure Hub (μ : Type) where
  mailboxes : List (Mailbox μ) := []
  clients : List ClientId := []
  slow : List ClientId := []
  closing : List ClientId := []
  isDown : Bool := false
deriving Repr, Inhabited

namespace Hub

/-- The number of registered clients. -/
def count (h : Hub μ) : Nat := h.clients.length

/-- Closes the mailbox of a client. -/
def closeMailbox (h : Hub μ) (id : ClientId) : Hub μ :=
  { h with mailboxes := h.mailboxes.modify id Mailbox.close }

/-- Registers a new client. -/
def register (h : Hub μ) : ClientId × Hub μ :=
  (h.mailboxes.length,
    { h with mailboxes := h.mailboxes ++ [{}], clients := h.clients ++ [h.mailboxes.length] })

/-- Takes a client off the list and closes its mailbox; nothing happens to one that is not
listed. -/
def unregister (h : Hub μ) (id : ClientId) : Hub μ :=
  if h.clients.contains id then { h with clients := h.clients.filter (· != id) }.closeMailbox id
    else h

/-- Sends a message to one client. One without room is noted as slow. -/
def send (m : μ) (h : Hub μ) (id : ClientId) : Hub μ :=
  match h.mailboxes[id]? with
  | none => h
  | some b =>
    match b.send? m with
    | some b => { h with mailboxes := h.mailboxes.set id b }
    | none => { h with slow := h.slow ++ [id] }

/-- Sends a message to all clients. -/
def broadcast (h : Hub μ) (m : μ) : Hub μ := h.clients.foldl (send m) h

/-- Lets a client go that was found slow. -/
def evict (h : Hub μ) (id : ClientId) : Hub μ :=
  if h.slow.contains id then { h with slow := h.slow.erase id }.unregister id else h

/-- Takes all clients off the list, to be closed later. Only the first time counts. -/
def beginShutdown (h : Hub μ) : Hub μ :=
  if h.isDown then h else { h with clients := [], closing := h.clients, isDown := true }

/-- Closes the mailbox of a client that a shutdown took off the list. -/
def release (h : Hub μ) (id : ClientId) : Hub μ :=
  if h.closing.contains id then { h with closing := h.closing.erase id }.closeMailbox id else h

/-- Carries the oldest message of a client away. -/
def carry (h : Hub μ) (id : ClientId) : Hub μ :=
  { h with mailboxes := h.mailboxes.modify id fun b => { b with waiting := b.waiting.tail } }

/-- What may happen to a hub. -/
inductive Step (μ : Type) where
  | register
  | unregister (id : ClientId)
  | broadcast (m : μ)
  | evict (id : ClientId)
  | beginShutdown
  | release (id : ClientId)
  | carry (id : ClientId)
deriving Repr

/-- One step. -/
def step (h : Hub μ) : Step μ → Hub μ
  | .register => h.register.2
  | .unregister id => h.unregister id
  | .broadcast m => h.broadcast m
  | .evict id => h.evict id
  | .beginShutdown => h.beginShutdown
  | .release id => h.release id
  | .carry id => h.carry id

/-- Steps in the order in which they happen. -/
def run (h : Hub μ) (steps : List (Step μ)) : Hub μ := steps.foldl step h

/-! ## Undisturbed work -/

/-- All that waits, by client, and the hub after it has been carried away. -/
def carryAll (h : Hub μ) : List (ClientId × μ) × Hub μ :=
  (h.clients.flatMap fun id => ((h.mailboxes[id]?.map (·.waiting)).getD []).map (id, ·),
    h.clients.foldl (fun h id =>
      { h with mailboxes := h.mailboxes.modify id fun b => { b with waiting := [] } }) h)

/-- A whole shutdown. -/
def shutdown (h : Hub μ) : Hub μ :=
  let h := h.beginShutdown
  h.closing.foldl release h

end Hub

end Interlude
