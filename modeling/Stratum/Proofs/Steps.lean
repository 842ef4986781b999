import Stratum.Fault

/-!
# Steps

How the steps of a computation are taken apart: of one that may fail (`Except`),
and of one that also has a state, which it says also when it fails (`EStateM`).
A sequence succeeds if and only if its parts do, one after the other
(`bind_eq_ok_iff`), and fails if the first part does, or the second behind the first
(`bind_eq_error_iff`); and a sequence whose first part is known goes on from what it
gave (`bind_of_ok`) or fails as it failed (`bind_of_error`). A step on a part of a state
does to the state what it does to the part (`onPart_eq_ok_iff`,
`onPart_eq_error_iff`).
-/

namespace Stratum

namespace Attempt

variable {ε α β : Type}

theorem bind_of_ok {x : Except ε α} {f : α → Except ε β} {a : α} (h : x = .ok a) :
    (x >>= f) = f a := by
  subst h
  rfl

theorem bind_of_error {x : Except ε α} {f : α → Except ε β} {e : ε} (h : x = .error e) :
    (x >>= f) = .error e := by
  subst h
  rfl

theorem bind_eq_ok_iff {x : Except ε α} {f : α → Except ε β} {b : β} :
    (x >>= f) = .ok b ↔ ∃ a, x = .ok a ∧ f a = .ok b := by
  cases x with
  | error e => exact ⟨fun h => (nomatch h), fun ⟨a, h, _⟩ => nomatch h⟩
  | ok a =>
    constructor
    · intro h
      exact ⟨a, rfl, h⟩
    · rintro ⟨a', ha, h⟩
      cases ha
      exact h

theorem bind_eq_error_iff {x : Except ε α} {f : α → Except ε β} {e : ε} :
    (x >>= f) = .error e ↔ x = .error e ∨ ∃ a, x = .ok a ∧ f a = .error e := by
  cases x with
  | error e' =>
    constructor
    · intro h
      cases h
      exact .inl rfl
    · rintro (h | ⟨a, h, -⟩)
      · cases h
        rfl
      · cases h
  | ok a =>
    constructor
    · intro h
      exact .inr ⟨a, rfl, h⟩
    · rintro (h | ⟨a', ha, h⟩)
      · cases h
      · cases ha
        exact h

/-- Two continuations are as good as each other if they are on what the first part gives. -/
theorem bind_congr {x : Except ε α} {f g : α → Except ε β} (h : ∀ a, x = .ok a → f a = g a) :
    (x >>= f) = (x >>= g) := by
  cases x with
  | error e => rfl
  | ok a => exact h a rfl

end Attempt

namespace Step

variable {ε σ α β : Type} {x : EStateM ε σ α} {f : α → EStateM ε σ β} {s s' : σ}

@[simp] theorem pure_apply (a : α) (s : σ) : (pure a : EStateM ε σ α) s = .ok a s := rfl

theorem ofExcept_eq_ok_iff {y : Except ε α} {a : α} :
    (MonadExcept.ofExcept y : EStateM ε σ α) s = .ok a s' ↔ y = .ok a ∧ s' = s := by
  cases y with
  | ok b => exact ⟨fun h => by cases h; exact ⟨rfl, rfl⟩, fun ⟨h, hs⟩ => by cases h; subst hs; rfl⟩
  | error e => exact ⟨fun h => (nomatch h), fun ⟨h, _⟩ => nomatch h⟩

theorem ofExcept_of_error {y : Except ε α} {e : ε} (h : y = .error e) :
    (MonadExcept.ofExcept y : EStateM ε σ α) s = .error e s := by
  subst h
  rfl

theorem bind_of_ok {a : α} (h : x s = .ok a s') : (x >>= f) s = f a s' := by
  show EStateM.bind x f s = f a s'
  rw [EStateM.bind, h]

theorem bind_of_error {e : ε} (h : x s = .error e s') : (x >>= f) s = .error e s' := by
  show EStateM.bind x f s = .error e s'
  rw [EStateM.bind, h]

theorem bind_eq_ok_iff {b : β} {s'' : σ} :
    (x >>= f) s = .ok b s'' ↔ ∃ a s', x s = .ok a s' ∧ f a s' = .ok b s'' := by
  constructor
  · intro h
    cases hx : x s with
    | ok a s' => rw [bind_of_ok hx] at h; exact ⟨a, s', rfl, h⟩
    | error e s' => rw [bind_of_error hx] at h; cases h
  · rintro ⟨a, s', hx, hf⟩
    rw [bind_of_ok hx, hf]

theorem bind_eq_error_iff {e : ε} {s'' : σ} :
    (x >>= f) s = .error e s'' ↔ x s = .error e s'' ∨ ∃ a s', x s = .ok a s' ∧ f a s' = .error e s'' := by
  cases hx : x s with
  | ok a s' =>
    rw [bind_of_ok hx]
    constructor
    · intro h
      exact .inr ⟨a, s', rfl, h⟩
    · rintro (h | ⟨a, s', h, hf⟩)
      · cases h
      · cases h
        exact hf
  | error e' s' =>
    rw [bind_of_error hx]
    constructor
    · intro h
      cases h
      exact .inl rfl
    · rintro (h | ⟨a, s', h, -⟩)
      · cases h
        rfl
      · cases h

theorem map_eq_ok_iff {g : α → β} {b : β} : (g <$> x) s = .ok b s' ↔ ∃ a, x s = .ok a s' ∧ g a = b := by
  show EStateM.map g x s = .ok b s' ↔ _
  rw [EStateM.map]
  cases x s with
  | ok a s₁ =>
    constructor
    · intro h
      cases h
      exact ⟨a, rfl, rfl⟩
    · rintro ⟨a, h, rfl⟩
      cases h
      rfl
  | error e s₁ => simp

theorem map_eq_error_iff {g : α → β} {e : ε} : (g <$> x) s = .error e s' ↔ x s = .error e s' := by
  show EStateM.map g x s = .error e s' ↔ _
  rw [EStateM.map]
  cases x s <;> simp

/-- Steps for the items of a list succeed if and only if the first does and the others do behind it. -/
theorem mapM_cons_eq_ok_iff {g : α → EStateM ε σ β} {a : α} {as : List α} {b : β} {bs : List β} :
    (a :: as).mapM g s = .ok (b :: bs) s' ↔ ∃ s₁, g a s = .ok b s₁ ∧ as.mapM g s₁ = .ok bs s' := by
  rw [List.mapM_cons, bind_eq_ok_iff]
  constructor
  · rintro ⟨b', s₁, hfirst, h⟩
    obtain ⟨bs', s₂, hrest, hret⟩ := bind_eq_ok_iff.1 h
    cases hret
    exact ⟨s₁, hfirst, hrest⟩
  · rintro ⟨s₁, hfirst, hrest⟩
    exact ⟨b, s₁, hfirst, bind_eq_ok_iff.2 ⟨bs, s', hrest, rfl⟩⟩

section

variable {τ : Type} {part : σ → τ} {putBack : σ → τ → σ} {y : EStateM Fault τ α} {t : τ}

theorem onPart_of_ok {a : α} (h : y (part s) = .ok a t) : onPart part putBack y s = .ok a (putBack s t) := by
  rw [onPart, h]

theorem onPart_of_error {e : Fault} (h : y (part s) = .error e t) :
    onPart part putBack y s = .error e (putBack s t) := by
  rw [onPart, h]

theorem onPart_eq_ok_iff {a : α} :
    onPart part putBack y s = .ok a s' ↔ ∃ t, y (part s) = .ok a t ∧ s' = putBack s t := by
  cases h : y (part s) with
  | ok b t => rw [onPart_of_ok h]; simp [and_assoc, eq_comm]
  | error e t => rw [onPart_of_error h]; simp

theorem onPart_eq_error_iff {e : Fault} :
    onPart part putBack y s = .error e s' ↔ ∃ t, y (part s) = .error e t ∧ s' = putBack s t := by
  cases h : y (part s) with
  | ok b t => rw [onPart_of_ok h]; simp
  | error e' t => rw [onPart_of_error h]; simp [and_assoc, eq_comm]

end

theorem get_bind {g : σ → EStateM ε σ β} : (get >>= g) s = g s s := rfl

/-- A step that is refused under a condition succeeds if and only if the condition fails and the rest
succeeds. -/
theorem reject_eq_ok_iff {γ : Type} {p : Prop} [Decidable p] {y : EStateM ε σ γ} {g : γ → EStateM ε σ β}
    {z : EStateM ε σ β} {b : β} (hy : ∀ a s₁, y s ≠ .ok a s₁) :
    (if p then y >>= g else z) s = .ok b s' ↔ ¬ p ∧ z s = .ok b s' := by
  by_cases hp : p
  · rw [if_pos hp]
    constructor
    · intro h
      obtain ⟨a, s₁, hok, -⟩ := bind_eq_ok_iff.1 h
      exact absurd hok (hy a s₁)
    · exact fun h => absurd hp h.1
  · rw [if_neg hp]
    exact ⟨fun h => ⟨hp, h⟩, fun h => h.2⟩

/-- And it fails if it is refused, or if the rest fails. -/
theorem reject_eq_error_iff {γ : Type} {p : Prop} [Decidable p] {y : EStateM ε σ γ} {g : γ → EStateM ε σ β}
    {z : EStateM ε σ β} {e : ε} (hy : ∀ a s₁, y s ≠ .ok a s₁) :
    (if p then y >>= g else z) s = .error e s' ↔ p ∧ y s = .error e s' ∨ ¬ p ∧ z s = .error e s' := by
  by_cases hp : p
  · rw [if_pos hp, bind_eq_error_iff]
    constructor
    · rintro (h | ⟨a, s₁, hok, -⟩)
      · exact .inl ⟨hp, h⟩
      · exact absurd hok (hy a s₁)
    · rintro (⟨-, h⟩ | ⟨hnot, -⟩)
      · exact .inl h
      · exact absurd hp hnot
  · rw [if_neg hp]
    constructor
    · intro h
      exact .inr ⟨hp, h⟩
    · rintro (⟨h, -⟩ | ⟨-, h⟩)
      · exact absurd h hp
      · exact h

theorem reject_of_error {γ : Type} {p : Prop} [Decidable p] {y : EStateM ε σ γ} {g : γ → EStateM ε σ β}
    {z : EStateM ε σ β} {e : ε} (hp : p) (hy : y s = .error e s') :
    (if p then y >>= g else z) s = .error e s' := by
  rw [if_pos hp]
  exact bind_of_error hy

end Step

end Stratum
