import ChangeGate.Bits
import ChangeGate.Error

/-!
Buses that take events. One hands them on to subscribers, one records them.

The first keeps the last events, as many as its capacity; each subscriber has a place of its own in
the stream of events. A subscriber that fell behind is told once how many events it missed and goes
on with the oldest one kept. As long as there is no subscriber, nothing is kept.
-/

namespace ChangeGate

structure Bus (ε : Type) where
  capacity : Nat
  dropped : Nat := 0
  kept : List ε := []
  /-- For each subscriber the number of the event it gets next, counted from zero. -/
  subscribers : List Nat := []
  /-- Whether the bus takes no more events and subscribers. -/
  closed : Bool := false
deriving Repr

namespace Bus

variable {ε : Type}

/-- The smallest power of two that is not less than a number. -/
def roundUp (n : Nat) : Nat := if n ≤ 1 then 1 else Bits.values ((n - 1).log2 + 1)

/-- A bus that keeps at least `capacity` events, which is not to be zero. -/
def new (capacity : Nat) : Bus ε := { capacity := roundUp capacity }

/-- The capacity of a bus unless another is given. -/
def defaultCapacity : Nat := 1024

/-- The number of events that have been kept so far. -/
def sent (b : Bus ε) : Nat := b.dropped + b.kept.length

/-- Hands an event to the subscribers and tells how many there are. The event is given back if there
are none. -/
def send (b : Bus ε) (event : ε) : Except ε Nat × Bus ε :=
  if b.closed ∨ b.subscribers = [] then (.error event, b)
  else
    let all := b.kept ++ [event]
    let surplus := all.length - b.capacity
    (.ok b.subscribers.length, { b with dropped := b.dropped + surplus, kept := all.drop surplus })

/-- Publishes an event. That there is nobody to take it is no error. -/
def publish (b : Bus ε) (event : ε) : Except Error Unit × Bus ε :=
  let (_, b) := b.send event
  (.ok (), b)

/-- Adds a subscriber, who gets the events published from now on. -/
def subscribe (b : Bus ε) : Bus ε :=
  if b.closed then b else { b with subscribers := b.subscribers ++ [b.sent] }

/-- Closes the bus. Subscribers still get what is kept. -/
def close (b : Bus ε) : Bus ε := { b with closed := true }

inductive Received (ε : Type) where
  | event (event : ε)
  | lagged (missed : Nat)
  | empty
  | closed
deriving DecidableEq, Repr

/-- What the subscriber whose next event has the number `next` gets, and the number of the event it
gets after that. -/
def receive (b : Bus ε) (next : Nat) : Received ε × Nat :=
  if next < b.dropped then (.lagged (b.dropped - next), b.dropped)
  else match b.kept[next - b.dropped]? with
    | some event => (.event event, next + 1)
    | none => (if b.closed then .closed else .empty, next)

/-- What a subscriber gets, and the bus afterwards; `none` if there is no such subscriber. -/
def receiveAt? (b : Bus ε) (subscriber : Nat) : Option (Received ε × Bus ε) :=
  b.subscribers[subscriber]?.map fun next =>
    let (received, next) := b.receive next
    (received, { b with subscribers := b.subscribers.set subscriber next })

end Bus

/-- A bus that keeps every event. -/
structure Recording (ε : Type) where
  events : List ε := []
deriving Repr

/-- Records an event. -/
def Recording.publish {ε : Type} (r : Recording ε) (event : ε) : Except Error Unit × Recording ε :=
  (.ok (), { events := r.events ++ [event] })

end ChangeGate
