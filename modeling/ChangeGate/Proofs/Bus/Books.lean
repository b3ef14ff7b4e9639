import Mathlib.Order.Bounds.Defs
import ChangeGate.Bus

/-! What is done with a bus and a recording beside it, and the books of that. They tell for each
subscriber which of the events published since it subscribed the answers to it account for; every
step keeps them, whatever the order of the steps is. -/

namespace ChangeGate.Bus

variable {ε : Type}

/-- Something done with a bus and a recording that take the same events, and what it answered. -/
inductive Deed (ε : Type) where
  | publish (event : ε) (answer recorded : Except Error Unit)
  | subscribe
  | receive (subscriber : Nat) (received : Received ε)

/-- What can be done with a bus of some capacity and a recording, from the start to where they are
then. -/
inductive Goes (capacity : Nat) : List (Deed ε) → Bus ε → Recording ε → Prop where
  | start : Goes capacity [] (new capacity) {}
  | publish {deeds : List (Deed ε)} {b : Bus ε} {r : Recording ε} (course : Goes capacity deeds b r)
      (event : ε) :
      Goes capacity (deeds ++ [.publish event (b.publish event).1 (r.publish event).1])
        (b.publish event).2 (r.publish event).2
  | subscribe {deeds : List (Deed ε)} {b : Bus ε} {r : Recording ε}
      (course : Goes capacity deeds b r) : Goes capacity (deeds ++ [.subscribe]) b.subscribe r
  | receive {deeds : List (Deed ε)} {b next : Bus ε} {r : Recording ε} {i : Nat}
      {received : Received ε} (course : Goes capacity deeds b r)
      (hReceive : b.receiveAt? i = some (received, next)) :
      Goes capacity (deeds ++ [.receive i received]) next r

namespace Deed

def event? : Deed ε → Option ε
  | .publish event _ _ => some event
  | _ => none

def subscribes : Deed ε → Bool
  | .subscribe => true
  | _ => false

def answerTo? (i : Nat) : Deed ε → Option (Received ε)
  | .receive j received => if j = i then some received else none
  | _ => none

/-- Whether a subscriber asks for its next event. -/
def asks (i : Nat) : Deed ε → Bool
  | .receive j _ => j = i
  | _ => false

/-- The events that are published. -/
def events (deeds : List (Deed ε)) : List ε := deeds.filterMap event?

def subscriptions (deeds : List (Deed ε)) : Nat := deeds.countP subscribes

/-- The events that are published after a subscription, by its number. -/
def since : Nat → List (Deed ε) → List ε
  | _, [] => []
  | 0, .subscribe :: deeds => events deeds
  | i + 1, .subscribe :: deeds => since i deeds
  | i, _ :: deeds => since i deeds

/-- The answers to a subscriber. -/
def answers (i : Nat) (deeds : List (Deed ε)) : List (Received ε) := deeds.filterMap (answerTo? i)

end Deed

open Deed

/-- Answers account for events: each event has been handed over, in its place, or is in a block that
one answer tells to be missed. -/
inductive Accounts : List (Received ε) → List ε → Prop where
  | nil : Accounts [] []
  | event {answers : List (Received ε)} {events : List ε} (e : ε) (rest : Accounts answers events) :
      Accounts (.event e :: answers) (e :: events)
  | lagged {answers : List (Received ε)} {events missed : List ε} (hSome : missed ≠ [])
      (rest : Accounts answers events) :
      Accounts (.lagged missed.length :: answers) (missed ++ events)
  | empty {answers : List (Received ε)} {events : List ε} (rest : Accounts answers events) :
      Accounts (.empty :: answers) events

/-- What a subscriber is to get next from a bus of some capacity, given the events that the answers
to it do not account for yet. -/
def owed (capacity : Nat) (due : List ε) : Received ε :=
  if capacity < due.length then .lagged (due.length - capacity)
  else match due with
    | [] => .empty
    | e :: _ => .event e

section Capacity

theorem le_roundUp (n : Nat) : n ≤ roundUp n := by
  unfold roundUp
  split
  · assumption
  · have hLess : n - 1 < 2 ^ ((n - 1).log2 + 1) := Nat.lt_log2_self
    change n ≤ 2 ^ ((n - 1).log2 + 1)
    omega

theorem roundUp_pos (n : Nat) : 0 < roundUp n := by
  unfold roundUp
  split
  · exact Nat.one_pos
  · exact Nat.pow_pos (by omega)

/-- The capacity of a bus is the least power of two that is not less than the one asked for. -/
theorem isLeast_roundUp (n : Nat) :
    IsLeast {size | n ≤ size ∧ ∃ bits, size = Bits.values bits} (roundUp n) := by
  refine ⟨⟨le_roundUp n, ?_⟩, ?_⟩
  · unfold roundUp
    split
    · exact ⟨0, rfl⟩
    · exact ⟨_, rfl⟩
  · rintro _ ⟨hLe, bits, rfl⟩
    change n ≤ 2 ^ bits at hLe
    change roundUp n ≤ 2 ^ bits
    unfold roundUp
    split
    · exact Nat.one_le_two_pow
    · next hLarge =>
        have hLog : (n - 1).log2 < bits := (Nat.log2_lt (by omega)).mpr (by omega)
        exact Nat.pow_le_pow_right (by omega) hLog

end Capacity

section Deeds

variable {deeds : List (Deed ε)} {event : ε} {answer recorded : Except Error Unit}
  {received : Received ε} {i j : Nat}

theorem since_append (i : Nat) (deeds more : List (Deed ε)) : since i (deeds ++ more) =
    if i < subscriptions deeds then since i deeds ++ events more
    else since (i - subscriptions deeds) more := by
  induction deeds generalizing i with
  | nil => simp [subscriptions]
  | cons deed deeds ih =>
      cases deed with
      | subscribe =>
          have hCount : subscriptions (.subscribe :: deeds) = subscriptions deeds + 1 :=
            List.countP_cons_of_pos rfl
          cases i with
          | zero => simp [since, hCount, events]
          | succ i => simp [since, hCount, ih]
      | publish event answer recorded =>
          have hCount : subscriptions (.publish event answer recorded :: deeds) =
              subscriptions deeds := List.countP_cons_of_neg nofun
          simp [since, hCount, ih]
      | receive j received =>
          have hCount : subscriptions (.receive j received :: deeds) = subscriptions deeds :=
            List.countP_cons_of_neg nofun
          simp [since, hCount, ih]

theorem since_of_le (h : subscriptions deeds ≤ i) : since i deeds = [] := by
  have hAll := since_append i deeds []
  rw [List.append_nil, if_neg (Nat.not_lt.mpr h)] at hAll
  exact hAll

theorem since_publish (h : i < subscriptions deeds) :
    since i (deeds ++ [.publish event answer recorded]) = since i deeds ++ [event] := by
  rw [since_append, if_pos h]
  rfl

/-- Only the publishing of an event adds to what was published since a subscription. -/
theorem since_subscribe (i : Nat) (deeds : List (Deed ε)) :
    since i (deeds ++ [.subscribe]) = since i deeds := by
  rw [since_append]
  split
  · exact List.append_nil _
  · next h =>
      rw [since_of_le (Nat.not_lt.mp h)]
      cases i - subscriptions deeds <;> rfl

theorem since_receive (i : Nat) (deeds : List (Deed ε)) :
    since i (deeds ++ [.receive j received]) = since i deeds := by
  rw [since_append]
  split
  · exact List.append_nil _
  · next h =>
      rw [since_of_le (Nat.not_lt.mp h)]
      rfl

theorem since_suffix (i : Nat) (deeds : List (Deed ε)) : since i deeds <:+ events deeds := by
  induction deeds generalizing i with
  | nil => exact List.suffix_refl _
  | cons deed deeds ih =>
      cases deed with
      | publish event answer recorded =>
          exact (ih i).trans (List.suffix_cons event (events deeds))
      | subscribe =>
          cases i with
          | zero => exact List.suffix_refl _
          | succ i => exact ih i
      | receive j received => exact ih i

theorem answers_receive (i : Nat) (deeds : List (Deed ε)) :
    answers i (deeds ++ [.receive i received]) = answers i deeds ++ [received] := by
  simp [answers, answerTo?]

theorem answers_receive_of_ne (h : j ≠ i) (deeds : List (Deed ε)) :
    answers i (deeds ++ [.receive j received]) = answers i deeds := by
  simp [answers, answerTo?, h]

theorem Accounts.append {first second : List (Received ε)} {accounted more : List ε}
    (h : Accounts first accounted) (hMore : Accounts second more) :
    Accounts (first ++ second) (accounted ++ more) := by
  induction h with
  | nil => exact hMore
  | event e _ ih => exact .event e ih
  | lagged hSome _ ih =>
      rw [List.append_assoc]
      exact .lagged hSome ih
  | empty _ ih => exact .empty ih

end Deeds

section Publishing

variable {b : Bus ε} {heard : List ε}

/-- Publishing changes nothing but what is kept. -/
theorem publish_frame (b : Bus ε) (event : ε) :
    (b.publish event).2.capacity = b.capacity ∧ (b.publish event).2.closed = b.closed ∧
      (b.publish event).2.subscribers = b.subscribers := by
  change (b.send event).2.capacity = _ ∧ (b.send event).2.closed = _ ∧
    (b.send event).2.subscribers = _
  unfold send
  split <;> exact ⟨rfl, rfl, rfl⟩

theorem publish_of_nobody (h : b.subscribers = []) (event : ε) : (b.publish event).2 = b := by
  rw [publish, send, if_pos (.inr h)]

/-- A bus that keeps the last events of those heard by somebody keeps the last ones again. -/
theorem publish_keeps_last (hOpen : b.closed = false) (hSomebody : b.subscribers ≠ [])
    (hDropped : b.dropped = heard.length - b.capacity) (hKept : b.kept = heard.drop b.dropped)
    (event : ε) :
    (b.publish event).2.dropped = (heard ++ [event]).length - b.capacity ∧
      (b.publish event).2.kept = (heard ++ [event]).drop (b.publish event).2.dropped := by
  have hLength : (heard ++ [event]).length = heard.length + 1 := List.length_append
  have hAll : b.kept ++ [event] = (heard ++ [event]).drop b.dropped := by
    rw [List.drop_append_of_le_length (by omega), ← hKept]
  have hSurplus : (b.kept ++ [event]).length - b.capacity =
      heard.length + 1 - b.dropped - b.capacity := by
    rw [hAll, List.length_drop, hLength]
  rw [publish, send, if_neg (by simp [hOpen, hSomebody])]
  dsimp only
  rw [hLength, hSurplus, hAll, List.drop_drop]
  exact ⟨by omega, rfl⟩

end Publishing

section Receiving

/-- How many of the events not accounted for yet the next answer accounts for, at most. -/
def stride (capacity : Nat) (due : List ε) : Nat :=
  if capacity < due.length then due.length - capacity else 1

theorem accounts_owed (capacity : Nat) (due : List ε) :
    Accounts [owed capacity due] (due.take (stride capacity due)) := by
  unfold owed stride
  split
  · next hBehind =>
      have hLength : (due.take (due.length - capacity)).length = due.length - capacity := by
        rw [List.length_take]
        omega
      have hSome : due.take (due.length - capacity) ≠ [] :=
        List.ne_nil_of_length_pos (by omega)
      have hOne := Accounts.lagged hSome .nil
      rwa [hLength, List.append_nil] at hOne
  · cases due with
    | nil => exact .empty .nil
    | cons e due => exact .event e .nil

theorem of_owed_eq_lagged {capacity n : Nat} {due : List ε} (h : owed capacity due = .lagged n) :
    capacity < due.length ∧ n = due.length - capacity := by
  unfold owed at h
  split at h
  · next hBehind => exact ⟨hBehind, (Received.lagged.inj h).symm⟩
  · split at h <;> cases h

variable {b : Bus ε} {heard passed due : List ε} {i place : Nat}

theorem receiveAt?_of_place (h : b.subscribers[i]? = some place) :
    b.receiveAt? i = some ((b.receive place).1,
      { b with subscribers := b.subscribers.set i (b.receive place).2 }) := by
  rw [receiveAt?, h]
  rfl

theorem exists_place_of_receiveAt? {answer : Received ε × Bus ε}
    (h : b.receiveAt? i = some answer) : ∃ place, b.subscribers[i]? = some place ∧
      answer = ((b.receive place).1,
        { b with subscribers := b.subscribers.set i (b.receive place).2 }) := by
  obtain ⟨place, hPlace, hAnswer⟩ := Option.map_eq_some_iff.mp h
  exact ⟨place, hPlace, hAnswer.symm⟩

/-- A subscriber gets what it is owed and stands behind it then. -/
theorem receive_eq (hOpen : b.closed = false) (hDropped : b.dropped = heard.length - b.capacity)
    (hKept : b.kept = heard.drop b.dropped) (hHeard : heard = passed ++ due) :
    b.receive passed.length =
      (owed b.capacity due, passed.length + (due.take (stride b.capacity due)).length) := by
  have hLength : heard.length = passed.length + due.length := by rw [hHeard, List.length_append]
  -- more are due than are kept exactly where the place of the subscriber has been dropped
  unfold receive owed stride
  by_cases hBehind : b.capacity < due.length
  · have hMissed : passed.length < b.dropped := by omega
    rw [if_pos hMissed, if_pos hBehind, if_pos hBehind, List.length_take]
    congr 2 <;> omega
  · have hKeeps : b.dropped ≤ passed.length := by omega
    have hNext : b.kept[passed.length - b.dropped]? = due[0]? := by
      rw [hKept, List.getElem?_drop, Nat.add_sub_cancel' hKeeps, hHeard,
        List.getElem?_append_right (Nat.le_refl _), Nat.sub_self]
    rw [if_neg (Nat.not_lt.mpr hKeeps), if_neg hBehind, if_neg hBehind, hNext]
    cases due with
    | nil => simp [hOpen]
    | cons e due => rfl

end Receiving

section Books

variable {capacity : Nat} {deeds : List (Deed ε)} {b : Bus ε} {r : Recording ε}

/-- A subscriber has been answered for the events accounted for, and those due are the next ones of
all the events that the bus has kept at some time. -/
structure Stands (deeds : List (Deed ε)) (i next : Nat) (accounted due : List ε) : Prop where
  since_eq : since i deeds = accounted ++ due
  accounts : Accounts (answers i deeds) accounted
  passed : ∃ passed, since 0 deeds = passed ++ due ∧ passed.length = next

/-- The books of a course: a bus keeps the last events of those published since somebody listens,
and every subscriber has its place among them. -/
structure Keeps (capacity : Nat) (deeds : List (Deed ε)) (b : Bus ε) (r : Recording ε) : Prop where
  size : b.capacity = roundUp capacity
  isOpen : b.closed = false
  recorded : r.events = events deeds
  count : b.subscribers.length = subscriptions deeds
  dropped : b.dropped = (since 0 deeds).length - b.capacity
  kept : b.kept = (since 0 deeds).drop b.dropped
  unasked : ∀ i, subscriptions deeds ≤ i → answers i deeds = []
  places : ∀ i next, b.subscribers[i]? = some next →
    ∃ accounted due, Stands deeds i next accounted due

theorem Keeps.sent_eq (keeps : Keeps capacity deeds b r) : b.sent = (since 0 deeds).length := by
  have hDropped := keeps.dropped
  rw [sent, keeps.kept, List.length_drop]
  omega

theorem keeps_start : Keeps capacity ([] : List (Deed ε)) (new capacity) {} where
  size := rfl
  isOpen := rfl
  recorded := rfl
  count := rfl
  dropped := (Nat.zero_sub _).symm
  kept := rfl
  unasked _ _ := rfl
  places _ _ h := by cases h

theorem Keeps.publish (keeps : Keeps capacity deeds b r) (event : ε)
    (answer recorded : Except Error Unit) :
    Keeps capacity (deeds ++ [.publish event answer recorded]) (b.publish event).2
      (r.publish event).2 := by
  have hCount : subscriptions (deeds ++ [.publish event answer recorded]) =
      subscriptions deeds := by
    simp [subscriptions, subscribes]
  have hAnswers : ∀ i, answers i (deeds ++ [.publish event answer recorded]) = answers i deeds := by
    simp [answers, answerTo?]
  have hLast : (b.publish event).2.dropped =
        (since 0 (deeds ++ [.publish event answer recorded])).length - b.capacity ∧
      (b.publish event).2.kept = (since 0 (deeds ++ [.publish event answer recorded])).drop
        (b.publish event).2.dropped := by
    by_cases hNobody : b.subscribers = []
    · have hNone : subscriptions deeds = 0 := by rw [← keeps.count, hNobody, List.length_nil]
      have hSame : since 0 (deeds ++ [.publish event answer recorded]) = since 0 deeds := by
        rw [since_of_le (by omega), since_of_le (by omega)]
      rw [publish_of_nobody hNobody, hSame]
      exact ⟨keeps.dropped, keeps.kept⟩
    · have hSome : 0 < subscriptions deeds := keeps.count ▸ List.length_pos_iff.mpr hNobody
      rw [since_publish hSome]
      exact publish_keeps_last keeps.isOpen hNobody keeps.dropped keeps.kept event
  obtain ⟨hCapacity, hClosed, hSubscribers⟩ := b.publish_frame event
  exact {
    size := by rw [hCapacity, keeps.size]
    isOpen := by rw [hClosed, keeps.isOpen]
    recorded := by
      rw [events, List.filterMap_append]
      exact congrArg (· ++ [event]) keeps.recorded
    count := by rw [hSubscribers, keeps.count, hCount]
    dropped := by rw [hCapacity, hLast.1]
    kept := hLast.2
    unasked := by
      intro i h
      rw [hAnswers]
      exact keeps.unasked i (hCount ▸ h)
    places := by
      intro i next h
      rw [hSubscribers] at h
      obtain ⟨accounted, due, stands⟩ := keeps.places i next h
      obtain ⟨passed, hPassed, hNext⟩ := stands.passed
      have hIn : i < subscriptions deeds := keeps.count ▸ (List.getElem?_eq_some_iff.mp h).1
      refine ⟨accounted, due ++ [event], ?_, hAnswers i ▸ stands.accounts, passed, ?_, hNext⟩
      · rw [since_publish hIn, stands.since_eq, List.append_assoc]
      · rw [since_publish (by omega), hPassed, List.append_assoc] }

theorem Keeps.subscribe (keeps : Keeps capacity deeds b r) :
    Keeps capacity (deeds ++ [.subscribe]) b.subscribe r := by
  have hCount : subscriptions (deeds ++ [.subscribe]) = subscriptions deeds + 1 := by
    simp [subscriptions, subscribes]
  have hAnswers : ∀ i, answers i (deeds ++ [.subscribe]) = answers i deeds := by
    simp [answers, answerTo?]
  have hBus : b.subscribe = { b with subscribers := b.subscribers ++ [b.sent] } := by
    rw [Bus.subscribe, keeps.isOpen]
    rfl
  rw [hBus]
  exact {
    size := keeps.size
    isOpen := keeps.isOpen
    recorded := by
      rw [events, List.filterMap_append]
      exact keeps.recorded.trans (List.append_nil _).symm
    count := by rw [hCount, List.length_append, keeps.count, List.length_singleton]
    dropped := by rw [since_subscribe, keeps.dropped]
    kept := by rw [since_subscribe, keeps.kept]
    unasked := by
      intro i h
      rw [hAnswers]
      exact keeps.unasked i (by omega)
    places := by
      intro i next h
      rcases Nat.lt_trichotomy i b.subscribers.length with hIn | rfl | hOut
      · rw [List.getElem?_append_left hIn] at h
        obtain ⟨accounted, due, stands⟩ := keeps.places i next h
        refine ⟨accounted, due, ?_, hAnswers i ▸ stands.accounts, ?_⟩
        · rw [since_subscribe, stands.since_eq]
        · rw [since_subscribe]
          exact stands.passed
      · -- the newcomer stands behind all that was published
        rw [List.getElem?_concat_length] at h
        obtain rfl := Option.some.inj h
        have hLast : subscriptions deeds ≤ b.subscribers.length := Nat.le_of_eq keeps.count.symm
        have hNew : answers b.subscribers.length (deeds ++ [.subscribe]) = [] := by
          rw [hAnswers, keeps.unasked _ hLast]
        refine ⟨[], [], ?_, hNew ▸ .nil, ?_⟩
        · rw [since_subscribe, since_of_le hLast, List.append_nil]
        · refine ⟨since 0 deeds, ?_, keeps.sent_eq.symm⟩
          rw [since_subscribe, List.append_nil]
      · rw [List.getElem?_eq_none (by simp; omega)] at h
        cases h }

/-- A subscriber gets what it is owed, and then stands behind what that accounts for. -/
theorem Keeps.receiveAt?_eq {i next : Nat} {accounted due : List ε}
    (keeps : Keeps capacity deeds b r) (h : b.subscribers[i]? = some next)
    (stands : Stands deeds i next accounted due) :
    b.receiveAt? i = some (owed b.capacity due, { b with
      subscribers := b.subscribers.set i (next + (due.take (stride b.capacity due)).length) }) := by
  obtain ⟨passed, hPassed, rfl⟩ := stands.passed
  rw [receiveAt?_of_place h, receive_eq keeps.isOpen keeps.dropped keeps.kept hPassed]

theorem Keeps.exists_receiveAt?_eq {i next : Nat} {accounted due : List ε}
    (keeps : Keeps capacity deeds b r) (h : b.subscribers[i]? = some next)
    (stands : Stands deeds i next accounted due) :
    ∃ after, b.receiveAt? i = some (owed (roundUp capacity) due, after) := by
  rw [← keeps.size]
  exact ⟨_, keeps.receiveAt?_eq h stands⟩

theorem Stands.receive {i next : Nat} {accounted due : List ε} (capacity : Nat)
    (stands : Stands deeds i next accounted due) :
    Stands (deeds ++ [.receive i (owed capacity due)]) i
      (next + (due.take (stride capacity due)).length)
      (accounted ++ due.take (stride capacity due)) (due.drop (stride capacity due)) := by
  obtain ⟨passed, hPassed, rfl⟩ := stands.passed
  constructor
  · rw [since_receive, stands.since_eq, List.append_assoc, List.take_append_drop]
  · rw [answers_receive]
    exact stands.accounts.append (accounts_owed capacity due)
  · refine ⟨passed ++ due.take (stride capacity due), ?_, List.length_append⟩
    rw [since_receive, hPassed, List.append_assoc, List.take_append_drop]

theorem Keeps.receive {i : Nat} {received : Received ε} {next : Bus ε}
    (keeps : Keeps capacity deeds b r) (h : b.receiveAt? i = some (received, next)) :
    Keeps capacity (deeds ++ [.receive i received]) next r := by
  have hCount : subscriptions (deeds ++ [.receive i received]) = subscriptions deeds := by
    simp [subscriptions, subscribes]
  obtain ⟨place, hPlace, -⟩ := exists_place_of_receiveAt? h
  obtain ⟨accounted, due, stands⟩ := keeps.places i place hPlace
  have hIn : i < b.subscribers.length := (List.getElem?_eq_some_iff.mp hPlace).1
  rw [keeps.receiveAt?_eq hPlace stands] at h
  cases h
  exact {
    size := keeps.size
    isOpen := keeps.isOpen
    recorded := by
      rw [events, List.filterMap_append]
      exact keeps.recorded.trans (List.append_nil _).symm
    count := by rw [List.length_set, keeps.count, hCount]
    dropped := by rw [since_receive, keeps.dropped]
    kept := by rw [since_receive, keeps.kept]
    unasked := by
      intro j hOut
      have hNe : i ≠ j := by
        have hBound := keeps.count
        omega
      rw [answers_receive_of_ne hNe]
      exact keeps.unasked j (hCount ▸ hOut)
    places := by
      intro j next h
      by_cases hSame : i = j
      · subst hSame
        rw [List.getElem?_set_self hIn] at h
        cases h
        exact ⟨_, _, stands.receive b.capacity⟩
      · rw [List.getElem?_set_ne hSame] at h
        obtain ⟨accounted, due, others⟩ := keeps.places j next h
        refine ⟨accounted, due, ?_, ?_, ?_⟩
        · rw [since_receive, others.since_eq]
        · rw [answers_receive_of_ne hSame]
          exact others.accounts
        · rw [since_receive]
          exact others.passed }

/-- Whatever is done, in whichever order, the books are kept. -/
theorem Goes.keeps (course : Goes capacity deeds b r) : Keeps capacity deeds b r := by
  induction course with
  | start => exact keeps_start
  | publish _ event ih => exact ih.publish event _ _
  | subscribe _ ih => exact ih.subscribe
  | receive _ hReceive ih => exact ih.receive hReceive

end Books

end ChangeGate.Bus
