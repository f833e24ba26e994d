import Mathlib
import Rvmi.Foundation.Runs

/-!
# Triples of programs that may fail

What holds where a program returns and what holds where it fails are two assertions. A
triple is shown from the runs of a program and is read off from it as a fact about each
run; a program that only moves within a relation keeps what the relation keeps.
-/

namespace Rvmi.Foundation

open Std.Do

variable {ε ω α : Type} {x : EStateM ε ω α} {P : ω → Prop} {Q : α → ω → Prop}
  {E : ε → ω → Prop} {w w' : ω}

theorem triple_of (hok : ∀ w a w', P w → x w = .ok a w' → Q a w')
    (herror : ∀ w e w', P w → x w = .error e w' → E e w') :
    ⦃fun w => ⌜P w⌝⦄ x ⦃post⟨fun a w => ⌜Q a w⌝, fun e w => ⌜E e w⌝⟩⦄ := by
  apply Triple.of_entails_wp
  intro w hw
  simp only [WP.wp, PredTrans.apply, EStateM.run]
  cases hx : x w with
  | ok a w' => exact hok w a w' hw hx
  | error e w' => exact herror w e w' hw hx

/-- What a relation keeps, a program that moves within it keeps; at a failure less may be
asked for. -/
theorem triple_of_moves {R : ω → ω → Prop} (h : Moves R x)
    (hP : ∀ w w', R w w' → P w → P w') (hE : ∀ e w, P w → E e w) :
    ⦃fun w => ⌜P w⌝⦄ x ⦃post⟨fun _ w => ⌜P w⌝, fun e w => ⌜E e w⌝⟩⦄ := by
  apply triple_of
  · intro w a w' hw hx
    exact hP w w' (h.ok hx) hw
  · intro w e w' hw hx
    exact hE e w' (hP w w' (h.error hx) hw)

theorem ok_of_triple {a : α}
    (h : ⦃fun w => ⌜P w⌝⦄ x ⦃post⟨fun a w => ⌜Q a w⌝, fun e w => ⌜E e w⌝⟩⦄) (hw : P w)
    (hx : x w = .ok a w') : Q a w' := by
  have hpost := Triple.iff.mp h w hw
  simp only [WP.wp, PredTrans.apply, EStateM.run, hx] at hpost
  exact hpost

theorem error_of_triple {e : ε}
    (h : ⦃fun w => ⌜P w⌝⦄ x ⦃post⟨fun a w => ⌜Q a w⌝, fun e w => ⌜E e w⌝⟩⦄) (hw : P w)
    (hx : x w = .error e w') : E e w' := by
  have hpost := Triple.iff.mp h w hw
  simp only [WP.wp, PredTrans.apply, EStateM.run, hx] at hpost
  exact hpost

end Rvmi.Foundation
