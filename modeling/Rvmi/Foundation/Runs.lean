import Mathlib.Order.Defs.Unbundled

/-!
# Runs of programs that change a state and may fail

A sequence of two programs returns when both do, and it fails in the first or
in the second. Each rule is stated in both directions, so that a run can be
built from the runs of its parts and taken apart into them.
-/

namespace Rvmi.Foundation

variable {ε ω α β : Type} {x : EStateM ε ω α} {f : α → EStateM ε ω β} {w w' : ω}

theorem bind_ok {a : α} (h : x w = .ok a w') : (x >>= f) w = f a w' := by
  show EStateM.bind x f w = _
  unfold EStateM.bind
  rw [h]

theorem bind_error {e : ε} (h : x w = .error e w') : (x >>= f) w = .error e w' := by
  show EStateM.bind x f w = _
  unfold EStateM.bind
  rw [h]

theorem get_bind {k : ω → EStateM ε ω β} : (get >>= k) w = k w w := rfl

/-- A sequence that returns goes through a state in which its first part returns. -/
theorem bind_eq_ok_iff {b : β} :
    (x >>= f) w = .ok b w' ↔ ∃ a w₁, x w = .ok a w₁ ∧ f a w₁ = .ok b w' := by
  cases hx : x w with
  | ok a w₁ =>
      rw [bind_ok hx]
      constructor
      · intro h
        exact ⟨a, w₁, rfl, h⟩
      · rintro ⟨_, _, ⟨⟩, h⟩
        exact h
  | error e w₁ =>
      rw [bind_error hx]
      constructor
      · intro h
        cases h
      · rintro ⟨_, _, h, _⟩
        cases h

theorem bind_eq_error_iff {e : ε} :
    (x >>= f) w = .error e w' ↔
      x w = .error e w' ∨ ∃ a w₁, x w = .ok a w₁ ∧ f a w₁ = .error e w' := by
  cases hx : x w with
  | ok a w₁ =>
      rw [bind_ok hx]
      constructor
      · intro h
        exact .inr ⟨a, w₁, rfl, h⟩
      · rintro (h | ⟨_, _, ⟨⟩, h⟩)
        · cases h
        · exact h
  | error e₁ w₁ =>
      rw [bind_error hx]
      constructor
      · rintro ⟨⟩
        exact .inl rfl
      · rintro (⟨⟨⟩⟩ | ⟨_, _, h, _⟩)
        · rfl
        · cases h

section TryCatch

variable {z : ε → EStateM ε ω α}

theorem tryCatch_ok {a : α} (h : x w = .ok a w') : tryCatch x z w = .ok a w' := by
  show EStateM.tryCatch x z w = _
  unfold EStateM.tryCatch
  rw [h]

theorem tryCatch_error {e : ε} (h : x w = .error e w') : tryCatch x z w = z e w' := by
  show EStateM.tryCatch x z w = _
  unfold EStateM.tryCatch
  rw [h]
  rfl

end TryCatch

section ThrowIf

variable {p : Prop} [Decidable p] {e : ε}

theorem throwIf_eq_ok_iff {u : Unit} :
    (if p then throw e else pure () : EStateM ε ω Unit) w = .ok u w' ↔ ¬ p ∧ w' = w := by
  by_cases hp : p
  · rw [if_pos hp]
    constructor
    · intro h
      cases h
    · rintro ⟨hnot, _⟩
      exact absurd hp hnot
  · rw [if_neg hp]
    constructor
    · intro h
      cases h
      exact ⟨hp, rfl⟩
    · rintro ⟨_, rfl⟩
      rfl

theorem throwIf_eq_error_iff {e' : ε} :
    (if p then throw e else pure () : EStateM ε ω Unit) w = .error e' w' ↔
      p ∧ e' = e ∧ w' = w := by
  by_cases hp : p
  · rw [if_pos hp]
    constructor
    · intro h
      cases h
      exact ⟨hp, rfl, rfl⟩
    · rintro ⟨_, rfl, rfl⟩
      rfl
  · rw [if_neg hp]
    constructor
    · intro h
      cases h
    · rintro ⟨hp', _⟩
      exact absurd hp' hp

end ThrowIf

/-! ## States that a program can reach -/

def finalState : EStateM.Result ε ω α → ω
  | .ok _ w => w
  | .error _ w => w

theorem finalState_ok (a : α) (w : ω) : finalState (.ok a w : EStateM.Result ε ω α) = w := rfl

theorem finalState_error (e : ε) (w : ω) : finalState (.error e w : EStateM.Result ε ω α) = w :=
  rfl

/-- Whether the program returns or fails, it leaves a state that is related to the first. -/
def Moves (R : ω → ω → Prop) (x : EStateM ε ω α) : Prop := ∀ w, R w (finalState (x w))

/-- A part of the state is the same. -/
def Same {γ : Type} (part : ω → γ) (w w' : ω) : Prop := part w' = part w

instance {γ : Type} (part : ω → γ) : Std.Refl (Same part) := ⟨fun _ => rfl⟩

instance {γ : Type} (part : ω → γ) : IsTrans ω (Same part) := ⟨fun _ _ _ h h' => Eq.trans h' h⟩

section Moves

variable {R : ω → ω → Prop}

theorem moves_pure [Std.Refl R] (a : α) : Moves R (pure a : EStateM ε ω α) :=
  fun w => Std.Refl.refl w

theorem moves_throw [Std.Refl R] (e : ε) : Moves R (throw e : EStateM ε ω α) :=
  fun w => Std.Refl.refl w

theorem moves_modify {m : ω → ω} (h : ∀ w, R w (m w)) :
    Moves R (modify m : EStateM ε ω PUnit) := h

theorem Moves.get_bind {k : ω → EStateM ε ω β} (hk : ∀ w, Moves R (k w)) :
    Moves R (get >>= k) := fun w => hk w w

theorem Moves.bind [IsTrans ω R] (h : Moves R x) (hf : ∀ a, Moves R (f a)) :
    Moves R (x >>= f) := by
  intro w
  have hfirst := h w
  cases hx : x w with
  | ok a w₁ =>
      rw [hx] at hfirst
      rw [bind_ok hx]
      exact IsTrans.trans w w₁ _ hfirst (hf a w₁)
  | error e w₁ =>
      rw [hx] at hfirst
      rw [bind_error hx]
      exact hfirst

theorem Moves.ite {p : Prop} [Decidable p] {y : EStateM ε ω α} (hx : Moves R x)
    (hy : Moves R y) : Moves R (if p then x else y) := by
  by_cases hp : p
  · rw [if_pos hp]
    exact hx
  · rw [if_neg hp]
    exact hy

theorem Moves.ok {a : α} (h : Moves R x) (hx : x w = .ok a w') : R w w' := by
  have hfinal := h w
  rw [hx] at hfinal
  exact hfinal

theorem Moves.error {e : ε} (h : Moves R x) (hx : x w = .error e w') : R w w' := by
  have hfinal := h w
  rw [hx] at hfinal
  exact hfinal

end Moves

end Rvmi.Foundation
