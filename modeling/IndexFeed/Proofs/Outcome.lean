/-!
When a computation that may fail succeeds, and when it fails, in terms of its parts.
-/

namespace IndexFeed.Outcome

variable {ε ε' α β : Type}

theorem ok_bind (a : α) (f : α → Except ε β) : (Except.ok a >>= f) = f a := rfl

theorem bind_eq_ok {x : Except ε α} {f : α → Except ε β} {b : β} :
    (x >>= f) = .ok b ↔ ∃ a, x = .ok a ∧ f a = .ok b := by
  cases x with
  | error e => simp [bind, Except.bind]
  | ok a => simp [bind, Except.bind]

theorem map_eq_ok {x : Except ε α} {f : α → β} {b : β} :
    x.map f = .ok b ↔ ∃ a, x = .ok a ∧ f a = b := by
  cases x with
  | error e => simp [Except.map]
  | ok a => simp [Except.map]

theorem mapError_ok (f : ε → ε') (a : α) : (Except.ok a).mapError f = .ok a := rfl

theorem mapError_error (f : ε → ε') (e : ε) :
    (Except.error e : Except ε α).mapError f = .error (f e) := rfl

theorem mapError_eq_ok {x : Except ε α} {f : ε → ε'} {a : α} :
    x.mapError f = .ok a ↔ x = .ok a := by
  cases x with
  | error e => simp [mapError_error]
  | ok a => simp [mapError_ok]

theorem bind_eq_error {x : Except ε α} {f : α → Except ε β} {e : ε} :
    (x >>= f) = .error e ↔ x = .error e ∨ ∃ a, x = .ok a ∧ f a = .error e := by
  cases x with
  | error e' => simp [bind, Except.bind]
  | ok a => simp [bind, Except.bind]

theorem map_eq_error {x : Except ε α} {f : α → β} {e : ε} :
    x.map f = .error e ↔ x = .error e := by
  cases x with
  | error e' => simp [Except.map]
  | ok a => simp [Except.map]

theorem mapError_eq_error {x : Except ε α} {f : ε → ε'} {e : ε'} :
    x.mapError f = .error e ↔ ∃ e', x = .error e' ∧ f e' = e := by
  cases x with
  | error e' => simp [mapError_error]
  | ok a => simp [mapError_ok]

theorem toOption_eq_some {x : Except ε α} {a : α} : x.toOption = some a ↔ x = .ok a := by
  cases x with
  | error e => simp [Except.toOption]
  | ok a => simp [Except.toOption]

theorem mapM_congr {f g : α → Except ε β} {items : List α} (same : ∀ a ∈ items, f a = g a) :
    items.mapM f = items.mapM g := by
  induction items with
  | nil => rfl
  | cons a rest ih =>
      rw [List.forall_mem_cons] at same
      rw [List.mapM_cons, List.mapM_cons, same.1, ih same.2]

theorem mapM_eq_ok {f : α → Except ε β} {g : α → β} {items : List α}
    (each : ∀ a ∈ items, f a = .ok (g a)) : items.mapM f = .ok (items.map g) := by
  induction items with
  | nil => rfl
  | cons a rest ih =>
      rw [List.forall_mem_cons] at each
      rw [List.mapM_cons, each.1, ih each.2]
      rfl

theorem mapM_cons_eq_ok {f : α → Except ε β} {a : α} {items : List α} {results : List β} :
    (a :: items).mapM f = .ok results ↔
      ∃ b more, f a = .ok b ∧ items.mapM f = .ok more ∧ results = b :: more := by
  rw [List.mapM_cons]
  constructor
  · intro h
    obtain ⟨b, first, h⟩ := bind_eq_ok.mp h
    obtain ⟨more, rest, h⟩ := bind_eq_ok.mp h
    cases h
    exact ⟨b, more, first, rest, rfl⟩
  · rintro ⟨b, more, first, rest, rfl⟩
    rw [first, rest]
    rfl

/-- What a computation comes to, unless it fails, satisfies `p`. -/
def Gives (x : Except ε α) (p : α → Prop) : Prop := ∀ a, x = .ok a → p a

variable {x : Except ε α} {p : α → Prop} {q : β → Prop}

theorem gives_ok {a : α} (h : p a) : Gives (.ok a : Except ε α) p := by
  rintro _ ⟨⟩
  exact h

theorem gives_any (x : Except ε α) : Gives x fun _ => True := fun _ _ => trivial

theorem gives_error (e : ε) : Gives (.error e : Except ε α) p := by
  rintro _ ⟨⟩

theorem Gives.bind {f : α → Except ε β} (first : Gives x p) (rest : ∀ a, p a → Gives (f a) q) :
    Gives (x >>= f) q := by
  intro b h
  obtain ⟨a, found, h⟩ := bind_eq_ok.mp h
  exact rest a (first a found) b h

theorem Gives.map {f : α → β} (first : Gives x p) (rest : ∀ a, p a → q (f a)) :
    Gives (x.map f) q := by
  intro b h
  obtain ⟨a, found, rfl⟩ := map_eq_ok.mp h
  exact rest a (first a found)

theorem Gives.mapM {f : α → Except ε β} {items : List α} (each : ∀ a ∈ items, Gives (f a) q) :
    Gives (items.mapM f) fun results => ∀ b ∈ results, q b := by
  induction items with
  | nil => exact gives_ok (by simp)
  | cons a rest ih =>
      rw [List.forall_mem_cons] at each
      rw [List.mapM_cons]
      refine each.1.bind fun b holds => (ih each.2).bind fun results others => ?_
      exact gives_ok (List.forall_mem_cons.mpr ⟨holds, others⟩)

/-- The computation fails, with whatever error. -/
def Fails (x : Except ε α) : Prop := ∃ e, x = .error e

@[simp] theorem fails_error (e : ε) : Fails (.error e : Except ε α) := ⟨e, rfl⟩

@[simp] theorem not_fails_ok (a : α) : ¬ Fails (.ok a : Except ε α) := nofun

@[simp] theorem fails_map {f : α → β} : Fails (x.map f) ↔ Fails x :=
  exists_congr fun _ => map_eq_error

@[simp] theorem fails_mapError {f : ε → ε'} : Fails (x.mapError f) ↔ Fails x := by
  cases x with
  | error e => simp [mapError_error]
  | ok a => simp [mapError_ok]

theorem not_fails_of_ok {a : α} (h : x = .ok a) : ¬ Fails x := h ▸ not_fails_ok a

/-- What follows a computation fails under a condition of its own, whatever it is given. -/
theorem fails_bind {f : α → Except ε β} {q : Prop} (rest : ∀ a, x = .ok a → (Fails (f a) ↔ q)) :
    Fails (x >>= f) ↔ Fails x ∨ q := by
  cases x with
  | error e => exact iff_of_true ⟨e, rfl⟩ (.inl ⟨e, rfl⟩)
  | ok a => simpa [Fails, bind, Except.bind] using rest a rfl

theorem fails_mapM {f : α → Except ε β} {items : List α} :
    Fails (items.mapM f) ↔ ∃ a ∈ items, Fails (f a) := by
  induction items with
  | nil => exact iff_of_false (not_fails_ok []) (by simp)
  | cons a rest ih =>
      have parts : Fails ((a :: rest).mapM f) ↔ Fails (f a) ∨ Fails (rest.mapM f) ∨ False := by
        rw [List.mapM_cons]
        exact fails_bind fun _ _ => fails_bind fun _ _ => iff_false_intro (not_fails_of_ok rfl)
      rw [parts, or_false, ih]
      simp

theorem not_fails_mapM {f : α → Except ε β} {items : List α} (each : ∀ a ∈ items, ¬ Fails (f a)) :
    ¬ Fails (items.mapM f) := by
  intro fails
  obtain ⟨a, member, failing⟩ := fails_mapM.mp fails
  exact each a member failing

end IndexFeed.Outcome
