import Mathlib.Data.List.Induction
import ChangeGate.Proofs.Bus.Books

/-! Subscribers see the events that were recorded since they subscribed, or are told how many of
them they missed. What one of them asks for is nothing to the others. -/

namespace ChangeGate.Bus

open Deed

variable {ε : Type}

section Apart

variable {capacity i j : Nat} {deeds before after : List (Deed ε)} {deed : Deed ε} {b c : Bus ε}
  {r : Recording ε}

/-- Two buses are the same but for the place of one subscriber. -/
structure AgreeBut (i : Nat) (b c : Bus ε) : Prop where
  same : c = { b with subscribers := c.subscribers }
  count : c.subscribers.length = b.subscribers.length
  others : ∀ j ≠ i, c.subscribers[j]? = b.subscribers[j]?

theorem AgreeBut.refl (i : Nat) (b : Bus ε) : AgreeBut i b b := ⟨rfl, rfl, fun _ _ => rfl⟩

theorem AgreeBut.publish (agree : AgreeBut i b c) (event : ε) :
    AgreeBut i (b.publish event).2 (c.publish event).2 := by
  obtain ⟨hSame, hCount, hOthers⟩ := agree
  generalize c.subscribers = places at *
  subst hSame
  have hNobody : places = [] ↔ b.subscribers = [] := by
    rw [← List.length_eq_zero_iff, hCount, List.length_eq_zero_iff]
  unfold Bus.publish send
  simp only [hNobody]
  split <;> exact ⟨rfl, hCount, hOthers⟩

theorem AgreeBut.subscribe (agree : AgreeBut i b c) : AgreeBut i b.subscribe c.subscribe := by
  obtain ⟨hSame, hCount, hOthers⟩ := agree
  generalize c.subscribers = places at *
  subst hSame
  unfold Bus.subscribe
  dsimp only
  split
  · exact ⟨rfl, hCount, hOthers⟩
  · refine ⟨rfl, by simp [hCount], fun j hNe => ?_⟩
    dsimp only
    rw [List.getElem?_append, List.getElem?_append, hCount, hOthers j hNe]
    rfl

/-- What the others get does not depend on the place of one. -/
theorem AgreeBut.receive {received : Received ε} {next : Bus ε} (agree : AgreeBut i b c)
    (hNe : j ≠ i) (h : b.receiveAt? j = some (received, next)) :
    ∃ after, c.receiveAt? j = some (received, after) ∧ AgreeBut i next after := by
  obtain ⟨hSame, hCount, hOthers⟩ := agree
  generalize c.subscribers = places at *
  subst hSame
  obtain ⟨place, hPlace, hAnswer⟩ := exists_place_of_receiveAt? h
  obtain ⟨rfl, rfl⟩ := Prod.mk.inj hAnswer
  have hOwn : places[j]? = some place := (hOthers j hNe).trans hPlace
  refine ⟨_, receiveAt?_of_place (b := { b with subscribers := places }) hOwn, rfl,
    by simp [hCount], fun k hOther => ?_⟩
  change (places.set j (b.receive place).2)[k]? = (b.subscribers.set j (b.receive place).2)[k]?
  rw [List.getElem?_set, List.getElem?_set, hCount, hOthers k hOther]

theorem AgreeBut.map_fst_receiveAt? (agree : AgreeBut i b c) (hNe : j ≠ i) :
    (c.receiveAt? j).map Prod.fst = (b.receiveAt? j).map Prod.fst := by
  cases h : b.receiveAt? j with
  | some answer =>
      obtain ⟨received, next⟩ := answer
      obtain ⟨after, hAfter, -⟩ := agree.receive hNe h
      rw [hAfter]
      rfl
  | none =>
      have hNone := Option.map_eq_none_iff.mp h
      rw [receiveAt?, agree.others j hNe, hNone]
      rfl

/-- What a subscriber asks for can be left out, and the others and the recording do not notice. -/
theorem Goes.without (course : Goes capacity deeds b r) (i : Nat) :
    ∃ c, Goes capacity (deeds.filter fun deed => !deed.asks i) c r ∧ AgreeBut i b c := by
  induction course with
  | start => exact ⟨_, .start, .refl i _⟩
  | publish _ event ih =>
      obtain ⟨c, others, agree⟩ := ih
      refine ⟨_, ?_, agree.publish event⟩
      rw [List.filter_append]
      exact others.publish event
  | subscribe _ ih =>
      obtain ⟨c, others, agree⟩ := ih
      refine ⟨_, ?_, agree.subscribe⟩
      rw [List.filter_append]
      exact others.subscribe
  | @receive deeds b next r j received _ hReceive ih =>
      obtain ⟨c, others, agree⟩ := ih
      by_cases hSame : j = i
      · subst hSame
        refine ⟨c, ?_, ?_⟩
        · simpa [List.filter_append, asks] using others
        · obtain ⟨place, -, hAnswer⟩ := exists_place_of_receiveAt? hReceive
          obtain ⟨-, rfl⟩ := Prod.mk.inj hAnswer
          refine ⟨agree.same, by simp [agree.count], fun k hNe => ?_⟩
          rw [List.getElem?_set_ne (Ne.symm hNe)]
          exact agree.others k hNe
      · obtain ⟨after, hAfter, hAgree⟩ := agree.receive hSame hReceive
        refine ⟨after, ?_, hAgree⟩
        have hKept : [Deed.receive j received].filter (fun deed => !deed.asks i) =
            [.receive j received] := by simp [asks, hSame]
        rw [List.filter_append, hKept]
        exact others.receive hAfter

theorem Goes.of_concat (course : Goes capacity (before ++ [deed]) b r) :
    ∃ c q, Goes capacity before c q := by
  generalize hDeeds : before ++ [deed] = deeds at course
  cases course with
  | start => exact absurd hDeeds (by simp)
  | publish course event =>
      obtain ⟨rfl, -⟩ := List.append_inj' hDeeds rfl
      exact ⟨_, _, course⟩
  | subscribe course =>
      obtain ⟨rfl, -⟩ := List.append_inj' hDeeds rfl
      exact ⟨_, _, course⟩
  | receive course hReceive =>
      obtain ⟨rfl, -⟩ := List.append_inj' hDeeds rfl
      exact ⟨_, _, course⟩

/-- A course up to some point is a course. -/
theorem Goes.of_append (course : Goes capacity (before ++ after) b r) :
    ∃ c q, Goes capacity before c q := by
  induction after using List.reverseRecOn generalizing b r with
  | nil => exact ⟨b, r, by rwa [List.append_nil] at course⟩
  | append_singleton rest last ih =>
      rw [← List.append_assoc] at course
      obtain ⟨c, q, course⟩ := course.of_concat
      exact ih course

theorem Goes.of_receive {i : Nat} {received : Received ε}
    (course : Goes capacity (before ++ [.receive i received]) b r) :
    ∃ c, Goes capacity before c r ∧ c.receiveAt? i = some (received, b) := by
  generalize hDeeds : before ++ [.receive i received] = deeds at course
  cases course with
  | start => exact absurd hDeeds (by simp)
  | publish course event => cases (List.append_inj' hDeeds rfl).2
  | subscribe course => cases (List.append_inj' hDeeds rfl).2
  | receive course hReceive =>
      obtain ⟨rfl, hLast⟩ := List.append_inj' hDeeds rfl
      cases hLast
      exact ⟨_, course, hReceive⟩

end Apart

/-- What the subscribers to a bus and the recording beside it have been told in a course of
steps. -/
structure Told (capacity : Nat) (deeds : List (Deed ε)) (b : Bus ε) (r : Recording ε) : Prop where
  /-- The bus keeps as many events as the least power of two that is not less than its capacity. -/
  size : IsLeast {size | capacity ≤ size ∧ ∃ bits, size = Bits.values bits} (roundUp capacity)
  /-- The recording has the events that were published, -/
  recorded : r.events = events deeds
  /-- and publishing one never fails. -/
  taken : ∀ event answer recorded, .publish event answer recorded ∈ deeds →
    answer = .ok () ∧ recorded = .ok ()
  /-- For every subscriber, the answers account for the first ones of the events recorded since it
  subscribed, and the next answer is owed for the others. -/
  accounted : ∀ i < subscriptions deeds, since i deeds <:+ r.events ∧
    ∃ accounted due, since i deeds = accounted ++ due ∧ Accounts (answers i deeds) accounted ∧
      ∃ next, b.receiveAt? i = some (owed (roundUp capacity) due, next)
  /-- A subscriber that was told to have missed events was behind by these and as many as the bus
  keeps, which are the last ones then, and it is to get the oldest of them next. -/
  lagged : ∀ before i n after, deeds = before ++ .receive i (.lagged n) :: after →
    ∃ accounted missed oldest newer,
      since i before = accounted ++ missed ++ oldest :: newer ∧
      Accounts (answers i before) accounted ∧ missed.length = n ∧ 0 < n ∧
      (oldest :: newer).length = roundUp capacity ∧ oldest :: newer <:+ events before ∧
      ∃ c q next, Goes capacity (before ++ [.receive i (.lagged n)]) c q ∧
        c.receiveAt? i = some (.event oldest, next)
  /-- Without what one subscriber asks for, the course goes on in the same way for the recording
  and the others. -/
  apart : ∀ i, ∃ c, Goes capacity (deeds.filter fun deed => !deed.asks i) c r ∧
    ∀ j ≠ i, (c.receiveAt? j).map Prod.fst = (b.receiveAt? j).map Prod.fst

section Told

variable {capacity : Nat} {deeds before : List (Deed ε)} {b : Bus ε} {r : Recording ε}

theorem Goes.taken (course : Goes capacity deeds b r) {event : ε}
    {answer recorded : Except Error Unit} (h : .publish event answer recorded ∈ deeds) :
    answer = .ok () ∧ recorded = .ok () := by
  induction course with
  | start => cases h
  | publish _ event ih =>
      rcases List.mem_append.mp h with hBefore | hLast
      · exact ih hBefore
      · cases List.mem_singleton.mp hLast
        exact ⟨rfl, rfl⟩
  | subscribe _ ih =>
      rcases List.mem_append.mp h with hBefore | hLast
      · exact ih hBefore
      · cases List.mem_singleton.mp hLast
  | receive _ _ ih =>
      rcases List.mem_append.mp h with hBefore | hLast
      · exact ih hBefore
      · cases List.mem_singleton.mp hLast

theorem owed_of_length_eq {capacity : Nat} {oldest : ε} {newer : List ε}
    (h : (oldest :: newer).length = capacity) :
    owed capacity (oldest :: newer) = .event oldest := by
  rw [owed, if_neg (by omega)]

/-- That events were missed is told to one who was behind by more than the bus keeps, and leaves it
at the oldest event kept. -/
theorem Goes.lagged {i n : Nat}
    (course : Goes capacity (before ++ [.receive i (.lagged n)]) b r) :
    ∃ accounted missed oldest newer,
      since i before = accounted ++ missed ++ oldest :: newer ∧
      Accounts (answers i before) accounted ∧ missed.length = n ∧ 0 < n ∧
      (oldest :: newer).length = roundUp capacity ∧ oldest :: newer <:+ events before ∧
      ∃ next, b.receiveAt? i = some (.event oldest, next) := by
  obtain ⟨c, earlier, hReceive⟩ := course.of_receive
  obtain ⟨place, hPlace, -⟩ := exists_place_of_receiveAt? hReceive
  obtain ⟨accounted, due, stands⟩ := earlier.keeps.places i place hPlace
  rw [earlier.keeps.receiveAt?_eq hPlace stands] at hReceive
  obtain ⟨hOwed, hBus⟩ := Prod.mk.inj (Option.some.inj hReceive)
  obtain ⟨hBehind, rfl⟩ := of_owed_eq_lagged hOwed
  have hSize := earlier.keeps.size
  have hStride : stride c.capacity due = due.length - c.capacity := if_pos hBehind
  have hKept : (due.drop (stride c.capacity due)).length = roundUp capacity := by
    rw [List.length_drop]
    omega
  -- the answer accounts for what was missed, and the subscriber stands at the oldest event kept
  have hIn : i < c.subscribers.length := (List.getElem?_eq_some_iff.mp hPlace).1
  have hPlaced (moved : Nat) : (c.subscribers.set i moved)[i]? = some moved :=
    List.getElem?_set_self hIn
  have hAfter := stands.receive c.capacity
  rw [hOwed] at hAfter
  obtain ⟨next, hNext⟩ := course.keeps.exists_receiveAt?_eq (hBus ▸ hPlaced _) hAfter
  have hSince : since i before =
      accounted ++ due.take (stride c.capacity due) ++ due.drop (stride c.capacity due) := by
    rw [List.append_assoc, List.take_append_drop, stands.since_eq]
  have hMissed : (due.take (stride c.capacity due)).length = due.length - c.capacity := by
    rw [List.length_take]
    omega
  generalize due.drop (stride c.capacity due) = kept at *
  have hSome : kept ≠ [] := by
    rintro rfl
    exact Nat.ne_of_lt (roundUp_pos capacity) hKept
  obtain ⟨oldest, newer, rfl⟩ := List.exists_cons_of_ne_nil hSome
  refine ⟨accounted, _, oldest, newer, hSince, stands.accounts, hMissed, by omega, hKept, ?_, next,
    ?_⟩
  · exact (hSince ▸ List.suffix_append _ _).trans (since_suffix i before)
  · rw [hNext, owed_of_length_eq hKept]

/-- Subscribers see what was recorded or are told how much of it they missed. -/
theorem subscribers_told_what_they_missed (course : Goes capacity deeds b r) :
    Told capacity deeds b r where
  size := isLeast_roundUp capacity
  recorded := course.keeps.recorded
  taken _ _ _ := course.taken
  accounted i hIn := by
    have keeps := course.keeps
    have hPlace := List.getElem?_eq_getElem (keeps.count ▸ hIn)
    obtain ⟨accounted, due, stands⟩ := keeps.places i _ hPlace
    exact ⟨keeps.recorded ▸ since_suffix i deeds, accounted, due, stands.since_eq,
      stands.accounts, keeps.exists_receiveAt?_eq hPlace stands⟩
  lagged before i n after hDeeds := by
    subst hDeeds
    rw [List.append_cons] at course
    obtain ⟨c, q, course⟩ := course.of_append
    obtain ⟨accounted, missed, oldest, newer, hSince, hAccounts, hMissed, hSome, hLength, hLast,
      next, hNext⟩ := course.lagged
    exact ⟨accounted, missed, oldest, newer, hSince, hAccounts, hMissed, hSome, hLength, hLast,
      c, q, next, course, hNext⟩
  apart i := by
    obtain ⟨c, others, agree⟩ := course.without i
    exact ⟨c, others, fun j hNe => agree.map_fst_receiveAt? hNe⟩

/-- Four events are published, the first for nobody. One subscriber falls behind by three where two
are kept, and another comes late. -/
def sampleDeeds : List (Deed Nat) :=
  [.publish 0 (.ok ()) (.ok ()), .subscribe, .publish 1 (.ok ()) (.ok ()),
    .publish 2 (.ok ()) (.ok ()), .subscribe, .publish 3 (.ok ()) (.ok ()),
    .receive 0 (.lagged 1), .receive 1 (.event 3), .receive 0 (.event 2), .receive 1 .empty]

theorem sample_deeds_told : ∃ b r, Goes 2 sampleDeeds b r ∧ Told 2 sampleDeeds b r := by
  have course : Goes 2 sampleDeeds ⟨2, 1, [2, 3], [2, 3], false⟩ ⟨[0, 1, 2, 3]⟩ := by
    have started : Goes 2 ([] : List (Deed Nat)) (new 2) {} := .start
    have listened := (((started.publish 0).subscribe.publish 1).publish 2).subscribe.publish 3
    exact (((listened.receive rfl).receive rfl).receive rfl).receive rfl
  exact ⟨_, _, course, subscribers_told_what_they_missed course⟩

end Told

end ChangeGate.Bus
