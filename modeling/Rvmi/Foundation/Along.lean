import Rvmi.Foundation.Runs

/-!
# Programs that run alike

Two programs on different states run alike along a map of the states when each
step of the one is the step of the other on the mapped state. They return the same
values; a failure of the second is the failure of the first under a map back. The
relation is closed under sequencing, so it is shown step by step.
-/

namespace Rvmi.Foundation

variable {ε ε' ω ω' α β : Type}

/-- Results with the same value, with failures and states that `g` and `f` relate. -/
inductive AlongResult (f : ω → ω') (g : ε' → ε) :
    EStateM.Result ε ω α → EStateM.Result ε' ω' α → Prop
  | ok (a : α) (w : ω) : AlongResult f g (.ok a w) (.ok a (f w))
  | error (e : ε') (w : ω) : AlongResult f g (.error (g e) w) (.error e (f w))

def Along (f : ω → ω') (g : ε' → ε) (x : EStateM ε ω α) (y : EStateM ε' ω' α) : Prop :=
  ∀ w, AlongResult f g (x w) (y (f w))

variable {f : ω → ω'} {g : ε' → ε}

theorem along_pure (a : α) : Along f g (pure a) (pure a) := fun w => .ok a w

theorem along_throw (e : ε') : Along f g (throw (g e) : EStateM ε ω α) (throw e) :=
  fun w => .error e w

theorem along_modify {m : ω → ω} {m' : ω' → ω'} (h : ∀ w, f (m w) = m' (f w)) :
    Along f g (modify m) (modify m') := by
  intro w
  show AlongResult f g (.ok () (m w)) (.ok () (m' (f w)))
  rw [← h w]
  exact .ok () (m w)

theorem along_set (w : ω) : Along f g (set w) (set (f w)) :=
  fun _ => .ok PUnit.unit w

variable {x : EStateM ε ω α} {y : EStateM ε' ω' α}

theorem Along.bind {k : α → EStateM ε ω β} {k' : α → EStateM ε' ω' β} (h : Along f g x y)
    (hk : ∀ a, Along f g (k a) (k' a)) : Along f g (x >>= k) (y >>= k') := by
  intro w
  have hfirst := h w
  generalize hx : x w = r, hy : y (f w) = r' at hfirst
  cases hfirst with
  | ok a w₁ =>
      rw [bind_ok hx, bind_ok hy]
      exact hk a w₁
  | error e w₁ =>
      rw [bind_error hx, bind_error hy]
      exact .error e w₁

/-- What follows may look at the state. -/
theorem Along.get_bind {k : ω → EStateM ε ω β} {k' : ω' → EStateM ε' ω' β}
    (hk : ∀ w, Along f g (k w) (k' (f w))) : Along f g (get >>= k) (get >>= k') :=
  fun w => hk w w

theorem Along.ite {p : Prop} [Decidable p] {x' : EStateM ε ω α} {y' : EStateM ε' ω' α}
    (h : Along f g x y) (h' : Along f g x' y') :
    Along f g (if p then x else x') (if p then y else y') := by
  by_cases hp : p
  · rw [if_pos hp, if_pos hp]
    exact h
  · rw [if_neg hp, if_neg hp]
    exact h'

theorem Along.tryCatch {z : ε → EStateM ε ω α} {z' : ε' → EStateM ε' ω' α} (h : Along f g x y)
    (hz : ∀ e, Along f g (z (g e)) (z' e)) :
    Along f g (tryCatch x z) (tryCatch y z') := by
  intro w
  have hfirst := h w
  generalize hx : x w = r, hy : y (f w) = r' at hfirst
  cases hfirst with
  | ok a w₁ =>
      rw [tryCatch_ok hx, tryCatch_ok hy]
      exact .ok a w₁
  | error e w₁ =>
      rw [tryCatch_error hx, tryCatch_error hy]
      exact hz e w₁

/-- A run of the second program that returns is the run of the first. -/
theorem Along.of_ok {w : ω} {v : ω'} {a : α} (h : Along f g x y) (hy : y (f w) = .ok a v) :
    ∃ w', x w = .ok a w' ∧ f w' = v := by
  have hres := h w
  rw [hy] at hres
  generalize hx : x w = r at hres
  cases hres with
  | ok a w' => exact ⟨w', rfl, rfl⟩

theorem Along.ok {w w' : ω} {a : α} (h : Along f g x y) (hx : x w = .ok a w') :
    y (f w) = .ok a (f w') := by
  have hres := h w
  rw [hx] at hres
  generalize hy : y (f w) = r at hres
  cases hres with
  | ok => rfl

end Rvmi.Foundation
