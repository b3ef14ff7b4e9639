import ChangeGate.Proofs.Pattern.Wildcard

/-! The matcher of names as a loop over places. It goes through the pattern and the name from the
left and remembers, of the stars that it has met, the last one only: where it cannot go on, the run
of that star takes in one character more. The loop stays within the pattern and the name, the number
of its turns is bounded by their lengths, and its answer is that of the matcher. -/

namespace ChangeGate.Pattern

/-- The last star met: its place in the pattern, and the place in the name where its run ends. -/
structure Star where
  place : Nat
  runEnd : Nat
deriving DecidableEq, Repr

/-- Where the loop stands: the places in the pattern and in the name that come next. -/
structure Cursor where
  inPattern : Nat := 0
  inName : Nat := 0
  star : Option Star := none
deriving DecidableEq, Repr

/-- A turn of the loop: where it stands afterwards, or its answer. -/
def Cursor.turn (pattern name : List Char) (c : Cursor) : Cursor ⊕ Bool :=
  match name[c.inName]? with
  | none => .inr ((pattern.drop c.inPattern).all (· == '*'))
  | some next =>
    if pattern[c.inPattern]? = some '*' then
      .inl { c with inPattern := c.inPattern + 1, star := some ⟨c.inPattern, c.inName⟩ }
    else if pattern[c.inPattern]? = some next then
      .inl { c with inPattern := c.inPattern + 1, inName := c.inName + 1 }
    else match c.star with
      | some ⟨place, runEnd⟩ => .inl ⟨place + 1, runEnd + 1, some ⟨place, runEnd + 1⟩⟩
      | none => .inr false

/-- Where the loop comes to in a number of turns. -/
inductive Reaches (pattern name : List Char) : Cursor → Nat → Prop where
  | start : Reaches pattern name {} 0
  | turn {c d : Cursor} {turns : Nat} (prior : Reaches pattern name c turns)
      (last : c.turn pattern name = .inl d) : Reaches pattern name d (turns + 1)

section

variable {rest tail pattern name : List Char} {c : Char}

theorem afterStar_nil (within : pattern.length ≤ rest.length) :
    afterStar rest tail pattern [] within = pattern.all (· == '*') := by
  rw [afterStar]

theorem afterStar_star (within : ('*' :: pattern).length ≤ rest.length) :
    afterStar rest tail ('*' :: pattern) (c :: name) within =
      afterStar pattern (c :: name) pattern (c :: name) (Nat.le_refl _) := by
  rw [afterStar.eq_def]
  rfl

theorem afterStar_fit (hPlain : c ≠ '*') (within : (c :: pattern).length ≤ rest.length) :
    afterStar rest tail (c :: pattern) (c :: name) within =
      afterStar rest tail pattern name (Nat.le_trans (Nat.le_succ _) within) := by
  rw [afterStar.eq_def]
  simp only [if_neg hPlain, if_pos]

theorem afterStar_retry (hPlain : pattern.head? ≠ some '*') (hMiss : pattern.head? ≠ some c)
    {first : Char} (within : pattern.length ≤ rest.length) :
    afterStar rest (first :: tail) pattern (c :: name) within =
      afterStar rest tail rest tail (Nat.le_refl _) := by
  rw [afterStar.eq_def]
  cases pattern with
  | nil => rfl
  | cons p pattern =>
      simp only [List.head?_cons, ne_eq, Option.some.injEq] at hPlain hMiss
      simp only [if_neg hPlain, if_neg hMiss]

theorem matchesName_nil (pattern : List Char) :
    matchesName pattern [] = pattern.all (· == '*') := by
  cases pattern with
  | nil => rfl
  | cons p pattern =>
      by_cases hStar : p = '*'
      · simp [matchesName, hStar, afterStar_nil]
      · simp [matchesName, hStar]

theorem matchesName_star :
    matchesName ('*' :: pattern) name = afterStar pattern name pattern name (Nat.le_refl _) := by
  simp [matchesName]

theorem matchesName_fit (hPlain : c ≠ '*') :
    matchesName (c :: pattern) (c :: name) = matchesName pattern name := by
  simp [matchesName, hPlain]

theorem matchesName_miss (hPlain : pattern.head? ≠ some '*') (hMiss : pattern.head? ≠ some c) :
    matchesName pattern (c :: name) = false := by
  cases pattern with
  | nil => rfl
  | cons p pattern =>
      simp only [List.head?_cons, ne_eq, Option.some.injEq] at hPlain hMiss
      simp [matchesName, hPlain, hMiss]

end

namespace Cursor

variable {pattern name : List Char} {c d : Cursor}

/-- The turns that do not end the loop. -/
inductive Moves (pattern name : List Char) (c : Cursor) : Cursor → Prop where
  | meet {next : Char} (hName : name[c.inName]? = some next)
      (hStar : pattern[c.inPattern]? = some '*') :
      Moves pattern name c
        { c with inPattern := c.inPattern + 1, star := some ⟨c.inPattern, c.inName⟩ }
  | fit {next : Char} (hName : name[c.inName]? = some next)
      (hFits : pattern[c.inPattern]? = some next) (hPlain : next ≠ '*') :
      Moves pattern name c { c with inPattern := c.inPattern + 1, inName := c.inName + 1 }
  | retry {next : Char} {star : Star} (hName : name[c.inName]? = some next)
      (hPlain : pattern[c.inPattern]? ≠ some '*') (hMiss : pattern[c.inPattern]? ≠ some next)
      (hStar : c.star = some star) :
      Moves pattern name c
        ⟨star.place + 1, star.runEnd + 1, some ⟨star.place, star.runEnd + 1⟩⟩

/-- The turns that end the loop. -/
inductive Ends (pattern name : List Char) (c : Cursor) : Bool → Prop where
  | used (hName : name[c.inName]? = none) :
      Ends pattern name c ((pattern.drop c.inPattern).all (· == '*'))
  | stuck {next : Char} (hName : name[c.inName]? = some next)
      (hPlain : pattern[c.inPattern]? ≠ some '*') (hMiss : pattern[c.inPattern]? ≠ some next)
      (hStar : c.star = none) : Ends pattern name c false

theorem turn_cases (pattern name : List Char) (c : Cursor) :
    (∃ d, c.turn pattern name = .inl d ∧ c.Moves pattern name d) ∨
      ∃ answer, c.turn pattern name = .inr answer ∧ c.Ends pattern name answer := by
  unfold turn
  split
  · next hName => exact .inr ⟨_, rfl, .used hName⟩
  · next next hName =>
      by_cases hStar : pattern[c.inPattern]? = some '*'
      · rw [if_pos hStar]
        exact .inl ⟨_, rfl, .meet hName hStar⟩
      by_cases hFits : pattern[c.inPattern]? = some next
      · rw [if_neg hStar, if_pos hFits]
        refine .inl ⟨_, rfl, .fit hName hFits ?_⟩
        rintro rfl
        exact hStar hFits
      rw [if_neg hStar, if_neg hFits]
      split
      · next hLast => exact .inl ⟨_, rfl, .retry hName hStar hFits hLast⟩
      · next hLast => exact .inr ⟨_, rfl, .stuck hName hStar hFits hLast⟩

theorem Moves.of_turn (h : c.turn pattern name = .inl d) : c.Moves pattern name d := by
  rcases turn_cases pattern name c with ⟨d', hTurn, moves⟩ | ⟨answer, hTurn, -⟩
  · obtain rfl := Sum.inl.inj (h.symm.trans hTurn)
    exact moves
  · cases h.symm.trans hTurn

theorem Ends.of_turn {answer : Bool} (h : c.turn pattern name = .inr answer) :
    c.Ends pattern name answer := by
  rcases turn_cases pattern name c with ⟨d, hTurn, -⟩ | ⟨answer', hTurn, ends⟩
  · cases h.symm.trans hTurn
  · obtain rfl := Sum.inr.inj (h.symm.trans hTurn)
    exact ends

/-- What is so wherever the loop stands: its places are within the pattern and the name, and it is
past the last star and the run of that. -/
structure Within (pattern name : List Char) (c : Cursor) : Prop where
  inPattern_le : c.inPattern ≤ pattern.length
  inName_le : c.inName ≤ name.length
  star_lt : ∀ star, c.star = some star → star.place < c.inPattern ∧ star.runEnd ≤ c.inName

theorem lt_of_getElem? {α : Type} {l : List α} {i : Nat} {a : α} (h : l[i]? = some a) :
    i < l.length :=
  (List.getElem?_eq_some_iff.mp h).1

theorem Moves.within (moves : c.Moves pattern name d) (within : c.Within pattern name) :
    d.Within pattern name := by
  cases moves with
  | meet hName hStar =>
      refine ⟨lt_of_getElem? hStar, within.inName_le, ?_⟩
      rintro star ⟨⟩
      exact ⟨Nat.lt_succ_self _, Nat.le_refl _⟩
  | fit hName hFits hPlain =>
      refine ⟨lt_of_getElem? hFits, lt_of_getElem? hName, fun star hStar => ?_⟩
      obtain ⟨hPlace, hRun⟩ := within.star_lt star hStar
      exact ⟨Nat.lt_succ_of_lt hPlace, Nat.le_succ_of_le hRun⟩
  | retry hName hPlain hMiss hStar =>
      obtain ⟨hPlace, hRun⟩ := within.star_lt _ hStar
      refine ⟨Nat.le_trans hPlace within.inPattern_le,
        Nat.lt_of_le_of_lt hRun (lt_of_getElem? hName), ?_⟩
      rintro star ⟨⟩
      exact ⟨Nat.lt_succ_self _, Nat.le_refl _⟩

theorem Moves.inName_lt (moves : c.Moves pattern name d) : c.inName < name.length := by
  cases moves <;> exact lt_of_getElem? ‹_›

/-- How often another star can be met or a run can take in one more. -/
def choices (pattern name : List Char) (c : Cursor) : Nat :=
  match c.star with
  | none => pattern.length + name.length
  | some star => (pattern.length - (star.place + 1)) + (name.length - star.runEnd)

/-- A bound on the turns to come: between two choices every turn passes a character of the name. -/
def turnsLeft (pattern name : List Char) (c : Cursor) : Nat :=
  c.choices pattern name * (name.length + 1) + (name.length - c.inName)

theorem turnsLeft_lt_of_choices (h : d.choices pattern name < c.choices pattern name) :
    d.turnsLeft pattern name < c.turnsLeft pattern name := by
  have hRest : name.length - d.inName < name.length + 1 := by omega
  calc d.choices pattern name * (name.length + 1) + (name.length - d.inName)
    _ < d.choices pattern name * (name.length + 1) + (name.length + 1) := by omega
    _ = (d.choices pattern name + 1) * (name.length + 1) := by rw [Nat.succ_mul]
    _ ≤ c.choices pattern name * (name.length + 1) := Nat.mul_le_mul_right _ h
    _ ≤ c.turnsLeft pattern name := Nat.le_add_right _ _

theorem Moves.turnsLeft_lt (moves : c.Moves pattern name d) (within : c.Within pattern name) :
    d.turnsLeft pattern name < c.turnsLeft pattern name := by
  have hName := moves.inName_lt
  cases moves with
  | meet _ hStar =>
      refine turnsLeft_lt_of_choices ?_
      have hPlace := lt_of_getElem? hStar
      have hWithin := within.star_lt
      unfold choices
      cases hLast : c.star with
      | none => simp only; omega
      | some star =>
          have hStar := hWithin star hLast
          simp only
          omega
  | fit =>
      have hSame : ({ c with inPattern := c.inPattern + 1, inName := c.inName + 1 } :
          Cursor).choices pattern name = c.choices pattern name := rfl
      simp only [turnsLeft, hSame]
      omega
  | retry _ _ _ hStar =>
      refine turnsLeft_lt_of_choices ?_
      have hWithin := within.star_lt _ hStar
      simp only [choices, hStar]
      omega

theorem drop_of_getElem? {α : Type} {l : List α} {i : Nat} {a : α} (h : l[i]? = some a) :
    l.drop i = a :: l.drop (i + 1) := by
  obtain ⟨hBound, rfl⟩ := List.getElem?_eq_some_iff.mp h
  exact List.drop_eq_getElem_cons hBound

/-- The matcher of lists comes to this answer for what is left of the pattern and the name. -/
def Agrees (pattern name : List Char) (c : Cursor) (answer : Bool) : Prop :=
  match c.star with
  | none => matchesName (pattern.drop c.inPattern) (name.drop c.inName) = answer
  | some star => ∀ within, afterStar (pattern.drop (star.place + 1)) (name.drop star.runEnd)
      (pattern.drop c.inPattern) (name.drop c.inName) within = answer

theorem Within.length_le {star : Star} (within : c.Within pattern name)
    (hStar : c.star = some star) :
    (pattern.drop c.inPattern).length ≤ (pattern.drop (star.place + 1)).length := by
  have hPlace := (within.star_lt star hStar).1
  simp only [List.length_drop]
  omega

theorem Moves.agrees {answer : Bool} (moves : c.Moves pattern name d)
    (within : c.Within pattern name) (agrees : c.Agrees pattern name answer) :
    d.Agrees pattern name answer := by
  unfold Agrees at agrees
  cases moves with
  | meet hName hStar =>
      intro hLength
      cases hLast : c.star with
      | none =>
          simp only [hLast, drop_of_getElem? hStar] at agrees
          rw [← agrees, matchesName_star]
      | some star =>
          simp only [hLast] at agrees
          have hAnswer := agrees (within.length_le hLast)
          simp only [drop_of_getElem? hStar, drop_of_getElem? hName, afterStar_star] at hAnswer
          simpa only [drop_of_getElem? hName] using hAnswer
  | fit hName hFits hPlain =>
      unfold Agrees
      cases hLast : c.star with
      | none =>
          simp only [hLast, drop_of_getElem? hFits, drop_of_getElem? hName] at agrees
          exact (matchesName_fit hPlain).symm.trans agrees
      | some star =>
          simp only [hLast] at agrees
          intro hLength
          have hAnswer := agrees (within.length_le hLast)
          simpa only [drop_of_getElem? hFits, drop_of_getElem? hName, afterStar_fit hPlain]
            using hAnswer
  | retry hName hPlain hMiss hStar =>
      simp only [hStar] at agrees
      intro hLength
      have hRun : name[_]? = some _ := List.getElem?_eq_getElem
        (Nat.lt_of_le_of_lt (within.star_lt _ hStar).2 (lt_of_getElem? hName))
      rw [← List.head?_drop] at hPlain hMiss
      have hAnswer := agrees (within.length_le hStar)
      simpa only [drop_of_getElem? hName, drop_of_getElem? hRun, afterStar_retry hPlain hMiss]
        using hAnswer

/-- Where the loop ends, its answer is that of the matcher of lists. -/
theorem Ends.eq_of_agrees {answer answer' : Bool} (ends : c.Ends pattern name answer)
    (within : c.Within pattern name) (agrees : c.Agrees pattern name answer') :
    answer = answer' := by
  unfold Agrees at agrees
  cases ends with
  | used hName =>
      have hUsed : name.drop c.inName = [] :=
        List.drop_eq_nil_of_le (List.getElem?_eq_none_iff.mp hName)
      cases hLast : c.star with
      | none =>
          simp only [hLast, hUsed, matchesName_nil] at agrees
          exact agrees
      | some star =>
          simp only [hLast, hUsed, afterStar_nil] at agrees
          exact agrees (within.length_le hLast)
  | stuck hName hPlain hMiss hStar =>
      rw [← List.head?_drop] at hPlain hMiss
      simp only [hStar, drop_of_getElem? hName, matchesName_miss hPlain hMiss] at agrees
      exact agrees

end Cursor

variable {pattern name : List Char} {c : Cursor} {turns : Nat}

theorem Reaches.within (reaches : Reaches pattern name c turns) : c.Within pattern name := by
  induction reaches with
  | start => exact ⟨Nat.zero_le _, Nat.zero_le _, nofun⟩
  | turn prior last ih => exact (Cursor.Moves.of_turn last).within ih

theorem Reaches.agrees (reaches : Reaches pattern name c turns) :
    c.Agrees pattern name (matchesName pattern name) := by
  induction reaches with
  | start => exact rfl
  | turn prior last ih => exact (Cursor.Moves.of_turn last).agrees prior.within ih

/-- Every turn is one of those that the loop had left. -/
theorem Reaches.turns_add_turnsLeft_le (reaches : Reaches pattern name c turns) :
    turns + c.turnsLeft pattern name ≤ Cursor.turnsLeft pattern name {} := by
  induction reaches with
  | start => exact Nat.le_of_eq (Nat.zero_add _)
  | turn prior last ih =>
      have hLess := (Cursor.Moves.of_turn last).turnsLeft_lt prior.within
      omega

theorem Reaches.turns_lt (reaches : Reaches pattern name c turns) :
    turns < (pattern.length + name.length + 1) * (name.length + 1) := by
  calc turns
    _ ≤ Cursor.turnsLeft pattern name {} :=
      Nat.le_trans (Nat.le_add_right _ _) reaches.turns_add_turnsLeft_le
    _ = (pattern.length + name.length) * (name.length + 1) + name.length := rfl
    _ < (pattern.length + name.length + 1) * (name.length + 1) := by
      rw [Nat.succ_mul]
      omega

/-- From wherever the loop stands, it comes to an answer. -/
theorem Reaches.exists_answer (reaches : Reaches pattern name c turns) :
    ∃ d turns' answer, Reaches pattern name d turns' ∧ d.turn pattern name = .inr answer := by
  induction hLeft : c.turnsLeft pattern name using Nat.strongRecOn generalizing c turns with
  | ind left ih =>
      rcases c.turn_cases pattern name with ⟨d, hTurn, moves⟩ | ⟨answer, hTurn, -⟩
      · have hLess := moves.turnsLeft_lt reaches.within
        exact ih _ (hLeft ▸ hLess) (reaches.turn hTurn) rfl
      · exact ⟨c, turns, answer, reaches, hTurn⟩

/-- What a character of a pattern can take of a name: a star takes any piece, and every other
character itself. -/
def Takes (p : Char) (piece : List Char) : Prop := p = '*' ∨ piece = [p]

/-- The names that a segment stands for are cut into one piece for each of its characters. -/
theorem mem_filled_iff_pieces {pattern name : List Char} :
    name ∈ filled pattern ↔
      ∃ pieces, List.Forall₂ Takes pattern pieces ∧ pieces.flatten = name := by
  induction pattern generalizing name with
  | nil => simp
  | cons p pattern ih =>
      have hPiece : ∀ {piece}, piece ∈ (if p = '*' then ⊤ else {[p]} : Language Char) ↔
          Takes p piece := by
        intro piece
        by_cases hStar : p = '*'
        · rw [if_pos hStar]
          exact iff_of_true trivial (.inl hStar)
        · rw [if_neg hStar]
          exact ⟨.inr, fun takes => takes.resolve_left hStar⟩
      simp only [filled, Language.mem_mul, List.forall₂_cons_left_iff, ih, hPiece]
      constructor
      · rintro ⟨piece, hTakes, _, ⟨pieces, hPieces, rfl⟩, rfl⟩
        exact ⟨_, ⟨piece, pieces, hTakes, hPieces, rfl⟩, rfl⟩
      · rintro ⟨_, ⟨piece, pieces, hTakes, hPieces, rfl⟩, rfl⟩
        exact ⟨piece, hTakes, _, ⟨pieces, hPieces, rfl⟩, rfl⟩

/-- The loop stays within the pattern and the name and comes to its answer, which is that of the
matcher, within a bounded number of turns. The answer is yes exactly if the name can be cut into
one piece for each character of the pattern, however the pieces of the stars may have to be cut. -/
theorem greedy_matching_complete (pattern name : List Char) :
    (∀ c turns, Reaches pattern name c turns →
      c.inPattern ≤ pattern.length ∧ c.inName ≤ name.length ∧
        turns < (pattern.length + name.length + 1) * (name.length + 1)) ∧
    (∃ c turns, Reaches pattern name c turns ∧
      c.turn pattern name = .inr (matchesName pattern name)) ∧
    (∀ c turns answer, Reaches pattern name c turns → c.turn pattern name = .inr answer →
      answer = matchesName pattern name) ∧
    (matchesName pattern name = true ↔
      ∃ pieces, List.Forall₂ Takes pattern pieces ∧ pieces.flatten = name) := by
  have hAnswer : ∀ {c turns answer}, Reaches pattern name c turns →
      c.turn pattern name = .inr answer → answer = matchesName pattern name :=
    fun reaches hTurn =>
      (Cursor.Ends.of_turn hTurn).eq_of_agrees reaches.within reaches.agrees
  refine ⟨fun c turns reaches => ?_, ?_, fun c turns answer => hAnswer, ?_⟩
  · exact ⟨reaches.within.inPattern_le, reaches.within.inName_le, reaches.turns_lt⟩
  · obtain ⟨c, turns, answer, reaches, hTurn⟩ := Reaches.start.exists_answer
    exact ⟨c, turns, reaches, hAnswer reaches hTurn ▸ hTurn⟩
  · exact (matchesName_iff pattern name).trans mem_filled_iff_pieces

/-- The last star has to take in one character of the name, after its empty run has come to nothing;
the first star takes in none. -/
theorem sample_run_lengthened :
    Reaches ['*', 'a', '*', 'a', 'b'] ['a', 'a', 'a', 'b'] ⟨3, 2, some ⟨2, 2⟩⟩ 5 ∧
      (3 ≤ 5 ∧ 2 ≤ 4 ∧ 5 < (5 + 4 + 1) * (4 + 1)) ∧
      List.Forall₂ Takes ['*', 'a', '*', 'a', 'b'] [[], ['a'], ['a'], ['a'], ['b']] ∧
      matchesName ['*', 'a', '*', 'a', 'b'] ['a', 'a', 'a', 'b'] = true := by
  have reaches : Reaches ['*', 'a', '*', 'a', 'b'] ['a', 'a', 'a', 'b'] ⟨3, 2, some ⟨2, 2⟩⟩ 5 :=
    Reaches.start |>.turn rfl |>.turn rfl |>.turn rfl |>.turn rfl |>.turn rfl
  have hPieces :
      List.Forall₂ Takes ['*', 'a', '*', 'a', 'b'] [[], ['a'], ['a'], ['a'], ['b']] :=
    .cons (.inl rfl) <| .cons (.inr rfl) <| .cons (.inl rfl) <| .cons (.inr rfl) <|
      .cons (.inr rfl) .nil
  obtain ⟨hBounds, -, -, hPiecewise⟩ :=
    greedy_matching_complete ['*', 'a', '*', 'a', 'b'] ['a', 'a', 'a', 'b']
  exact ⟨reaches, hBounds _ _ reaches, hPieces, hPiecewise.mpr ⟨_, hPieces, rfl⟩⟩

end ChangeGate.Pattern
