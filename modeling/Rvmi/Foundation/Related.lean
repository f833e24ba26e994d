import Rvmi.Foundation.Along

/-!
# Two runs side by side

Two programs are related when, from related states, they end the same way with the
same value in related states. The relation says what an observer of the two runs may
not tell apart; it is closed under the ways in which programs are put together.
-/

namespace Rvmi.Foundation

variable {ε ω ω' α β : Type}

/-- Results that only differ in states that are related. -/
inductive RelatedResult (R : ω → ω' → Prop) :
    EStateM.Result ε ω α → EStateM.Result ε ω' α → Prop
  | ok {w w'} (a : α) (h : R w w') : RelatedResult R (.ok a w) (.ok a w')
  | error {w w'} (e : ε) (h : R w w') : RelatedResult R (.error e w) (.error e w')

def Related (R : ω → ω' → Prop) (x : EStateM ε ω α) (y : EStateM ε ω' α) : Prop :=
  ∀ w w', R w w' → RelatedResult R (x w) (y w')

variable {R : ω → ω' → Prop}

/-- Runs along two maps of one run are related when the maps are. -/
theorem relatedResult_of_along {ω₀ : Type} {f : ω₀ → ω} {f' : ω₀ → ω'}
    {r₀ : EStateM.Result ε ω₀ α} {r : EStateM.Result ε ω α} {r' : EStateM.Result ε ω' α}
    (hf : ∀ w, R (f w) (f' w)) (h : AlongResult f id r₀ r) (h' : AlongResult f' id r₀ r') :
    RelatedResult R r r' := by
  cases h with
  | ok a w =>
      cases h' with
      | ok _ _ => exact .ok a (hf w)
  | error e w =>
      generalize he : id e = e₀ at h'
      cases h' with
      | error _ _ =>
          cases he
          exact .error e (hf w)

theorem related_pure (a : α) : Related R (pure a : EStateM ε ω α) (pure a) :=
  fun _ _ h => .ok a h

theorem related_throw (e : ε) : Related R (throw e : EStateM ε ω α) (throw e) :=
  fun _ _ h => .error e h

theorem related_modify {m : ω → ω} {m' : ω' → ω'} (hm : ∀ w w', R w w' → R (m w) (m' w')) :
    Related R (modify m : EStateM ε ω PUnit) (modify m') := fun w w' h => .ok _ (hm w w' h)

variable {x : EStateM ε ω α} {y : EStateM ε ω' α}

theorem Related.bind {k : α → EStateM ε ω β} {k' : α → EStateM ε ω' β} (h : Related R x y)
    (hk : ∀ a, Related R (k a) (k' a)) : Related R (x >>= k) (y >>= k') := by
  intro w w' hw
  have hfirst := h w w' hw
  generalize hx : x w = r, hy : y w' = r' at hfirst
  cases hfirst with
  | ok a h₁ =>
      rw [bind_ok hx, bind_ok hy]
      exact hk a _ _ h₁
  | error e h₁ =>
      rw [bind_error hx, bind_error hy]
      exact .error e h₁

theorem Related.get_bind {k : ω → EStateM ε ω β} {k' : ω' → EStateM ε ω' β}
    (hk : ∀ w w', R w w' → RelatedResult R (k w w) (k' w' w')) :
    Related R (get >>= k) (get >>= k') := fun w w' h => hk w w' h

theorem Related.ite {p : Prop} [Decidable p] {x' : EStateM ε ω α} {y' : EStateM ε ω' α}
    (h : Related R x y) (h' : Related R x' y') :
    Related R (if p then x else x') (if p then y else y') := by
  by_cases hp : p
  · rw [if_pos hp, if_pos hp]
    exact h
  · rw [if_neg hp, if_neg hp]
    exact h'

theorem Related.tryCatch {z : ε → EStateM ε ω α} {z' : ε → EStateM ε ω' α} (h : Related R x y)
    (hz : ∀ e, Related R (z e) (z' e)) : Related R (tryCatch x z) (tryCatch y z') := by
  intro w w' hw
  have hfirst := h w w' hw
  generalize hx : x w = r, hy : y w' = r' at hfirst
  cases hfirst with
  | ok a h₁ =>
      rw [tryCatch_ok hx, tryCatch_ok hy]
      exact .ok a h₁
  | error e h₁ =>
      rw [tryCatch_error hx, tryCatch_error hy]
      exact hz e _ _ h₁

end Rvmi.Foundation
