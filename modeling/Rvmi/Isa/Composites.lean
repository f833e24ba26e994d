import Rvmi.Isa.Normalize

/-!
# How far one call takes composites apart

"Replace composite extensions with their components": one call of
`normalize_extensions` against the closure of the enabled flags under the
composite rules. Five rules publish a composite whose own block lies before
them, so a descriptor that enables one of these keeps an unexpanded composite.
-/

namespace Rvmi.Isa

open Rvmi.Foundation CompositeRule RVMExtDescriptor

/-- What the flag `f` should be after the call: enabled exactly when it is no
composite and the descriptor's flags stand for it. -/
def ReplacedAt (d : RVMExtDescriptor) (rv64 : Bool) (f : ExtFlag) : Prop :=
  (normalizeExtensions d rv64).get f ≠ 0 ↔
    f ∉ heads compositeRules ∧ f ∈ closure compositeRules d.enabled

theorem mem_closure_baseSet {S : Set ExtFlag} {f : ExtFlag} (hf : f ≠ .misa .E) :
    f ∈ closure compositeRules (baseSet S) ↔ f ∈ closure compositeRules S := by
  by_cases hI : ExtFlag.misa .I ∈ S
  · have hbase : baseSet S = S \ {.misa .E} := by
      ext g
      exact ⟨fun h => ⟨h.1, fun he => h.2 ⟨he, hI⟩⟩, fun h => ⟨h.1, fun h' => h.2 h'.1⟩⟩
    rw [hbase, mem_closure_diff_singleton misaE_not_head hf]
  · have hbase : baseSet S = S := by
      ext g
      exact ⟨fun h => h.1, fun h => ⟨h, fun h' => hI h'.2⟩⟩
    rw [hbase]

theorem baseSet_of_nested {S : Set ExtFlag} {c : ExtFlag}
    (hc : c ∈ nestedComposites) : c ∈ baseSet S ↔ c ∈ S := by
  have hE : c ≠ .misa .E := by
    rintro rfl
    revert hc
    decide
  exact ⟨fun h => h.1, fun h => ⟨h, fun h' => hE h'.1⟩⟩

/-- The pass leaves no composite exactly when no nested one was enabled. -/
theorem sweep_baseSet_disjoint_heads_iff {S : Set ExtFlag} :
    (∀ c ∈ heads compositeRules, c ∉ sweep compositeRules (baseSet S)) ↔
      ∀ c ∈ nestedComposites, c ∉ S := by
  rw [sweep_disjoint_heads_iff compositeRules_uniqueHeads compositeRules_innerFirst]
  constructor
  · intro h c hc hS
    exact h c ((mem_nested_iff c).mpr hc) ((baseSet_of_nested hc).mpr hS)
  · intro h c hc hS
    have hc' := (mem_nested_iff c).mp hc
    exact h c hc' ((baseSet_of_nested hc').mp hS)

/-- **Composites are replaced completely in one call exactly when none of Zk,
Zvknc, Zvkng, Zvksc and Zvksg is enabled.** -/
theorem normalizeExtensions_replaces_iff (d : RVMExtDescriptor) (rv64 : Bool) :
    (∀ f, f ≠ .misa .E → f ≠ .misa .C → ReplacedAt d rv64 f) ↔
      ∀ c ∈ nestedComposites, d.get c = 0 := by
  have hzero : (∀ c ∈ nestedComposites, d.get c = 0) ↔
      ∀ c ∈ nestedComposites, c ∉ d.enabled := by
    simp
  rw [hzero, ← sweep_baseSet_disjoint_heads_iff]
  unfold ReplacedAt
  simp only [get_normalizeExtensions_ne_zero]
  constructor
  · intro h c hch hc
    have hcE : c ≠ .misa .E := fun he => misaE_not_head (he ▸ hch)
    have hcC : c ≠ .misa .C := fun he => misaC_not_head (he ▸ hch)
    exact ((h c hcE hcC).mp ((mem_normalizeSet_of_ne_C hcC).mpr hc)).1 hch
  · intro hleft f hfE hfC
    rw [mem_normalizeSet_of_ne_C hfC,
      mem_sweep_iff_closure compositeRules_uniqueHeads hleft,
      mem_closure_baseSet hfE]
    exact And.comm

/-- With Zk alone, Zkn survives the call although it is a composite. -/
theorem normalizeExtensions_keeps_Zkn :
    ¬ ∀ (d : RVMExtDescriptor) (rv64 : Bool) (f : ExtFlag),
      f ≠ .misa .E → f ≠ .misa .C → ReplacedAt d rv64 f := by
  intro h
  have hKN := h (rvmInitExtDescriptor.set (.zext .K) 1) true (.zext .KN)
    (by decide) (by decide)
  have hset : (normalizeExtensions (rvmInitExtDescriptor.set (.zext .K) 1) true).get
      (.zext .KN) ≠ 0 := by decide
  have hhead : ExtFlag.zext .KN ∈ heads compositeRules := by decide
  exact (hKN.mp hset).1 hhead

end Rvmi.Isa
