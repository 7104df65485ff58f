/-!
# Mailboxes

A mailbox holds what was sent and not yet received, up to a bound. Sending never waits: what does
not fit is lost, and so is everything sent after the receiver has gone.
-/

namespace RingRouting

/-- A bounded queue between senders and one receiver. -/
structure Mailbox (α : Type) where
  capacity : Nat
  /-- The oldest item first. -/
  items : List α := []
  /-- The receiver is still there. -/
  isOpen : Bool := true
deriving Repr

namespace Mailbox

variable {α : Type}

/-- There is room for one more item, and someone to receive it. -/
def accepts (m : Mailbox α) : Bool :=
  m.isOpen && m.items.length < m.capacity

/-- Put an item in, or lose it. -/
def send (m : Mailbox α) (item : α) : Mailbox α :=
  if m.accepts then { m with items := m.items ++ [item] } else m

/-- Take the oldest item out. -/
def receive? (m : Mailbox α) : Option (α × Mailbox α) :=
  match m.items with
  | [] => none
  | item :: rest => some (item, { m with items := rest })

/-- Take everything out. -/
def drain (m : Mailbox α) : List α × Mailbox α :=
  (m.items, { m with items := [] })

/-- The receiver goes away, and with it what was not received. -/
def close (m : Mailbox α) : Mailbox α :=
  { m with items := [], isOpen := false }

/-- Receiving takes one item away. -/
theorem length_of_receive? {m rest : Mailbox α} {item : α}
    (h : m.receive? = some (item, rest)) : rest.items.length + 1 = m.items.length := by
  unfold receive? at h
  split at h
  next => cases h
  next hitems =>
    injection h with h
    injection h with hitem hrest
    subst hrest
    simp [hitems]

/-- Receiving leaves a mailbox open or closed. -/
theorem isOpen_of_receive? {m rest : Mailbox α} {item : α}
    (h : m.receive? = some (item, rest)) : rest.isOpen = m.isOpen := by
  unfold receive? at h
  split at h
  next => cases h
  next =>
    injection h with h
    injection h with hitem hrest
    rw [← hrest]

end Mailbox

end RingRouting
