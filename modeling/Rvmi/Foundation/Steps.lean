import Mathlib.Logic.Function.Iterate

/-!
# Runs of a step function

A run stops at the first state with a property. What it meets on the way, within a
number of steps, follows from what it meets behind its first step.
-/

namespace Rvmi.Foundation

variable {σ : Type} {next : σ → σ} {q p : σ → Prop} {limit : Nat} {s : σ}

/-- Less than `limit` steps ahead is a state with `p`, and all states before it have `q`. -/
def Reaches (next : σ → σ) (q p : σ → Prop) (limit : Nat) (s : σ) : Prop :=
  ∃ k < limit, p (next^[k] s) ∧ ∀ j < k, q (next^[j] s)

theorem not_reaches_zero : ¬ Reaches next q p 0 s := by
  rintro ⟨k, hk, _⟩
  exact Nat.not_lt_zero k hk

theorem reaches_succ_iff :
    Reaches next q p (limit + 1) s ↔ p s ∨ q s ∧ Reaches next q p limit (next s) := by
  constructor
  · rintro ⟨k, hk, hp, hq⟩
    cases k with
    | zero => exact .inl hp
    | succ k =>
        have hfirst : q s := hq 0 (Nat.succ_pos k)
        refine .inr ⟨hfirst, k, Nat.lt_of_succ_lt_succ hk, hp, fun j hj => ?_⟩
        exact hq (j + 1) (Nat.succ_lt_succ hj)
  · rintro (hp | ⟨hfirst, k, hk, hp, hq⟩)
    · exact ⟨0, Nat.succ_pos limit, hp, fun j hj => absurd hj (Nat.not_lt_zero j)⟩
    · refine ⟨k + 1, Nat.succ_lt_succ hk, hp, fun j hj => ?_⟩
      cases j with
      | zero => exact hfirst
      | succ j => exact hq j (Nat.lt_of_succ_lt_succ hj)

/-- A run of at most `n` steps that stops in front of the first state with `p` stops behind
exactly `limit` steps. -/
def StopsAt (next : σ → σ) (p : σ → Prop) (n limit : Nat) (s : σ) : Prop :=
  limit ≤ n ∧ ¬ Reaches next (fun s => ¬ p s) p limit s ∧
    (limit = n ∨ Reaches next (fun s => ¬ p s) p (limit + 1) s)

section StopsAt

variable {n : Nat}

theorem stopsAt_zero_iff : StopsAt next p 0 limit s ↔ limit = 0 := by
  constructor
  · intro h
    exact Nat.le_zero.mp h.1
  · rintro rfl
    exact ⟨Nat.le_refl 0, not_reaches_zero, .inl rfl⟩

/-- A run that is at its end takes no step. -/
theorem stopsAt_iff_of_pos (h : p s) : StopsAt next p (n + 1) limit s ↔ limit = 0 := by
  cases limit with
  | zero =>
      exact iff_of_true ⟨Nat.zero_le _, not_reaches_zero, .inr (reaches_succ_iff.mpr (.inl h))⟩ rfl
  | succ limit =>
      refine iff_of_false (fun hstops => ?_) (Nat.succ_ne_zero limit)
      exact hstops.2.1 (reaches_succ_iff.mpr (.inl h))

theorem stopsAt_succ_iff (h : ¬ p s) :
    StopsAt next p (n + 1) limit s ↔
      ∃ limit', limit = limit' + 1 ∧ StopsAt next p n limit' (next s) := by
  have hreaches (limit : Nat) : Reaches next (fun s => ¬ p s) p (limit + 1) s ↔
      Reaches next (fun s => ¬ p s) p limit (next s) := by
    rw [reaches_succ_iff]
    constructor
    · rintro (hp | ⟨_, hlater⟩)
      · exact absurd hp h
      · exact hlater
    · intro hlater
      exact .inr ⟨h, hlater⟩
  cases limit with
  | zero =>
      constructor
      · rintro ⟨_, _, hzero | hone⟩
        · cases hzero
        · exact absurd ((hreaches 0).mp hone) not_reaches_zero
      · rintro ⟨_, hzero, _⟩
        cases hzero
  | succ limit =>
      unfold StopsAt
      rw [hreaches, hreaches]
      constructor
      · rintro ⟨hle, hnot, hend⟩
        exact ⟨limit, rfl, Nat.le_of_succ_le_succ hle, hnot, hend.imp_left Nat.succ.inj⟩
      · rintro ⟨_, ⟨⟩, hle, hnot, hend⟩
        exact ⟨Nat.succ_le_succ hle, hnot, hend.imp_left (congrArg (· + 1))⟩

end StopsAt

end Rvmi.Foundation
