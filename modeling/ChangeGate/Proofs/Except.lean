import Mathlib.Data.List.Forall2

/-! Results that may be faults: what must have gone well where a chain of steps, or the same step
on every item of a list, has gone well; and where a fault of the whole comes from. -/

namespace ChangeGate

section

variable {ε ε' α β : Type}

theorem ok_of_bind {x : Except ε α} {f : α → Except ε β} {b : β} (h : x.bind f = .ok b) :
    ∃ a, x = .ok a ∧ f a = .ok b := by
  cases x with
  | error e => cases h
  | ok a => exact ⟨a, rfl, h⟩

theorem error_of_bind {x : Except ε α} {f : α → Except ε β} {e : ε} (h : x.bind f = .error e) :
    x = .error e ∨ ∃ a, x = .ok a ∧ f a = .error e := by
  cases x with
  | error e' => cases h; exact .inl rfl
  | ok a => exact .inr ⟨a, rfl, h⟩

theorem ok_of_mapError {x : Except ε α} {f : ε → ε'} {a : α} (h : x.mapError f = .ok a) :
    x = .ok a := by
  cases x with
  | error e => cases h
  | ok a' => cases h; rfl

theorem error_of_mapError {x : Except ε α} {f : ε → ε'} {e : ε} (h : x.mapError f = .error (f e))
    (hInj : ∀ a b, f a = f b → a = b) : x = .error e := by
  cases x with
  | error e' => rw [hInj e' e (Except.error.inj h)]
  | ok a => cases h

theorem ok_of_toOption {x : Except ε α} {a : α} (h : x.toOption = some a) : x = .ok a := by
  cases x with
  | error e => cases h
  | ok a' => cases h; rfl

theorem forM_eq_ok_iff {f : α → Except ε Unit} {l : List α} :
    l.forM f = .ok () ↔ ∀ a ∈ l, f a = .ok () := by
  induction l with
  | nil => exact ⟨fun _ => nofun, fun _ => rfl⟩
  | cons a rest ih =>
      rw [List.forall_mem_cons, ← ih]
      constructor
      · intro h
        obtain ⟨⟨⟩, hFirst, hRest⟩ := ok_of_bind h
        exact ⟨hFirst, hRest⟩
      · rintro ⟨hFirst, hRest⟩
        change (f a).bind _ = _
        rw [hFirst]
        exact hRest

theorem error_of_forM {f : α → Except ε Unit} {l : List α} {e : ε} (h : l.forM f = .error e) :
    ∃ a ∈ l, f a = .error e := by
  induction l with
  | nil => cases h
  | cons a rest ih =>
      rcases error_of_bind h with hFirst | ⟨-, -, hRest⟩
      · exact ⟨a, List.mem_cons_self, hFirst⟩
      · obtain ⟨b, hMem, hFault⟩ := ih hRest
        exact ⟨b, List.mem_cons_of_mem _ hMem, hFault⟩

theorem forall₂_and_right {R : α → β → Prop} {p : β → Prop} {l : List α} {u : List β} :
    List.Forall₂ (fun a b => R a b ∧ p b) l u ↔ List.Forall₂ R l u ∧ ∀ b ∈ u, p b := by
  have hLeft := List.forall₂_and_left (R := fun b a => R a b) (p := p) u l
  constructor
  · intro h
    exact ⟨h.imp fun _ _ hBoth => hBoth.1, (hLeft.mp (h.imp fun _ _ hBoth => hBoth.symm).flip).1⟩
  · rintro ⟨h, hAll⟩
    exact (hLeft.mpr ⟨hAll, h.flip⟩).flip.imp fun _ _ hBoth => hBoth.symm

theorem exists_mem_of_forall₂ {R : α → β → Prop} {l : List α} {u : List β}
    (h : List.Forall₂ R l u) {a : α} (hMem : a ∈ l) : ∃ b ∈ u, R a b := by
  induction h with
  | nil => cases hMem
  | cons hFirst _ ih =>
      rcases List.mem_cons.mp hMem with rfl | hRest
      · exact ⟨_, List.mem_cons_self, hFirst⟩
      · obtain ⟨b, hMem, hOther⟩ := ih hRest
        exact ⟨b, List.mem_cons_of_mem _ hMem, hOther⟩

theorem mapM_cons_eq (f : α → Except ε β) (a : α) (rest : List α) :
    (a :: rest).mapM f = (f a).bind fun b => (rest.mapM f).bind fun bs => .ok (b :: bs) :=
  List.mapM_cons

theorem mapM_eq_ok_iff {f : α → Except ε β} {l : List α} {results : List β} :
    l.mapM f = .ok results ↔ List.Forall₂ (fun a b => f a = .ok b) l results := by
  induction l generalizing results with
  | nil =>
      rw [List.forall₂_nil_left_iff]
      exact ⟨fun h => (Except.ok.inj h).symm, fun h => h ▸ rfl⟩
  | cons a rest ih =>
      rw [mapM_cons_eq, List.forall₂_cons_left_iff]
      constructor
      · intro h
        obtain ⟨b, hFirst, h⟩ := ok_of_bind h
        obtain ⟨bs, hRest, h⟩ := ok_of_bind h
        exact ⟨b, bs, hFirst, ih.mp hRest, (Except.ok.inj h).symm⟩
      · rintro ⟨b, bs, hFirst, hRest, rfl⟩
        rw [hFirst, ih.mpr hRest]
        rfl

theorem exists_mapM_eq_ok_iff {f : α → Except ε β} {l : List α} :
    (∃ results, l.mapM f = .ok results) ↔ ∀ a ∈ l, ∃ b, f a = .ok b := by
  simp only [mapM_eq_ok_iff]
  induction l with
  | nil => simp
  | cons a rest ih =>
      simp only [List.forall₂_cons_left_iff, List.forall_mem_cons, ← ih]
      constructor
      · rintro ⟨_, b, bs, hFirst, hRest, rfl⟩
        exact ⟨⟨b, hFirst⟩, bs, hRest⟩
      · rintro ⟨⟨b, hFirst⟩, bs, hRest⟩
        exact ⟨b :: bs, b, bs, hFirst, hRest, rfl⟩

theorem error_of_mapM {f : α → Except ε β} {l : List α} {e : ε} (h : l.mapM f = .error e) :
    ∃ a ∈ l, f a = .error e := by
  induction l with
  | nil => cases h
  | cons a rest ih =>
      rw [mapM_cons_eq] at h
      rcases error_of_bind h with hFirst | ⟨b, -, h⟩
      · exact ⟨a, List.mem_cons_self, hFirst⟩
      · rcases error_of_bind h with hRest | ⟨bs, -, h⟩
        · obtain ⟨c, hMem, hFault⟩ := ih hRest
          exact ⟨c, List.mem_cons_of_mem _ hMem, hFault⟩
        · cases h

end

end ChangeGate
