import Rvmi.Foundation.CompositeRules
import Rvmi.Isa.Extensions

/-!
# `normalize_extensions`

The function copies a descriptor, prefers the base "I" over "E", takes the
composites apart in one pass and infers MISA.C from the Zc* flags. On the sets
of enabled flags it is `normalizeSet`: one sweep of the composite rules between
two set operations. The rules are listed in source order, which puts every
composite that publishes another one (`nestedComposites`) behind the rule of
the composite it publishes.
-/

namespace Rvmi.Isa

open Rvmi.Foundation CompositeRule RVMExtDescriptor

/-! ## The function -/

/-- The `if (composite) { components = true; composite = false; }` blocks. -/
def compositeRules : List (CompositeRule ExtFlag) :=
  [ ⟨.misa .G, [.misa .I, .misa .M, .misa .A, .misa .F, .misa .D,
      .zext .IFENCEI, .zext .ICSR]⟩,
    ⟨.zext .KN, [.zext .BKB, .zext .BKC, .zext .BKX, .zext .KNE, .zext .KND,
      .zext .KNH]⟩,
    ⟨.zext .KS, [.zext .BKB, .zext .BKC, .zext .BKX, .zext .KSED, .zext .KSH]⟩,
    ⟨.zext .K, [.zext .KN, .zext .KR, .zext .KT]⟩,
    ⟨.zext .BITMANIP, [.zext .BA, .zext .BB, .zext .BC, .zext .BS]⟩,
    ⟨.zext .VKN, [.zext .VKNED, .zext .VKNHB, .zext .VKB, .zext .VKT]⟩,
    ⟨.zext .VKNC, [.zext .VKN, .zext .VBC]⟩,
    ⟨.zext .VKNG, [.zext .VKN, .zext .VKG]⟩,
    ⟨.zext .VKS, [.zext .VKSED, .zext .VKSH, .zext .VKB, .zext .VKT]⟩,
    ⟨.zext .VKSC, [.zext .VKS, .zext .VBC]⟩,
    ⟨.zext .VKSG, [.zext .VKS, .zext .VKG]⟩,
    -- the augmented hypervisor extension
    ⟨.sext .HA, [.misa .H, .sext .SSTATEEN, .sext .HCOUNTERENW,
      .sext .HVSTVALA, .sext .HTVALA, .sext .HVSTVECD, .sext .HVSATPA,
      .sext .HGATPA]⟩ ]

/-- "I" shall be selected over "E" if both are available. -/
def selectBase (d : RVMExtDescriptor) : RVMExtDescriptor :=
  if d.misaExt .I ≠ 0 ∧ d.misaExt .E ≠ 0 then d.set (.misa .E) 0 else d

def expandComposite (d : RVMExtDescriptor) (r : CompositeRule ExtFlag) :
    RVMExtDescriptor :=
  if d.get r.composite ≠ 0 then (d.setAll r.components).set r.composite 0 else d

/-- MISA.C is set if the following extensions are selected. -/
def inferMisaC (rv64 : Bool) (d : RVMExtDescriptor) : RVMExtDescriptor :=
  -- Zca and not F
  let d := if d.get (.zext .CA) ≠ 0 ∧ d.misaExt .F = 0 then
    d.set (.misa .C) 1 else d
  -- Zca, Zcf and F is specified (RV32 only)
  let d := if d.get (.zext .CA) ≠ 0 ∧ d.get (.zext .CF) ≠ 0 ∧ d.misaExt .F ≠ 0 ∧
      rv64 = false then
    d.set (.misa .C) 1 else d
  -- Zca, Zcf and Zcd if D is specified (RV32 only)
  let d := if d.get (.zext .CA) ≠ 0 ∧ d.get (.zext .CF) ≠ 0 ∧
      d.get (.zext .CD) ≠ 0 ∧ d.misaExt .D ≠ 0 ∧ rv64 = false then
    d.set (.misa .C) 1 else d
  -- Zca, Zcd if D is specified (RV64 only)
  if d.get (.zext .CA) ≠ 0 ∧ d.get (.zext .CD) ≠ 0 ∧ d.misaExt .D ≠ 0 ∧
      rv64 = true then
    d.set (.misa .C) 1 else d

def normalizeExtensions (ext : RVMExtDescriptor) (rv64 : Bool := true) :
    RVMExtDescriptor :=
  inferMisaC rv64 (compositeRules.foldl expandComposite (selectBase ext))

/-! ## The rule list

The three order properties the sweep lemmas ask for, read off the list. -/

theorem compositeRules_uniqueHeads : UniqueHeads compositeRules := by
  unfold UniqueHeads
  decide

theorem compositeRules_innerFirst : InnerFirst compositeRules := by
  unfold InnerFirst
  decide

theorem compositeRules_nestedOnce : NestedOnce compositeRules := by
  unfold NestedOnce
  decide

/-- The composites that publish a composite whose own block is already past. -/
def nestedComposites : List ExtFlag :=
  [.zext .K, .zext .VKNC, .zext .VKNG, .zext .VKSC, .zext .VKSG]

/-- Neither the "E" base nor "C" is a composite. -/
theorem misaE_not_head : ExtFlag.misa .E ∉ heads compositeRules := by
  decide

theorem misaC_not_head : ExtFlag.misa .C ∉ heads compositeRules := by
  decide

theorem mem_nested_iff (c : ExtFlag) :
    c ∈ nested compositeRules ↔ c ∈ nestedComposites := by
  constructor
  · rintro ⟨r, hr, rfl, hx⟩
    revert r
    decide
  · revert c
    decide

/-! ## What the function does to the set of enabled flags -/

/-- The rules of the Zc* specification that stand behind MISA.C. -/
def CRule (rv64 : Bool) (S : Set ExtFlag) : Prop :=
  (.zext .CA ∈ S ∧ .misa .F ∉ S) ∨
  (.zext .CA ∈ S ∧ .zext .CF ∈ S ∧ .misa .F ∈ S ∧ rv64 = false) ∨
  (.zext .CA ∈ S ∧ .zext .CF ∈ S ∧ .zext .CD ∈ S ∧ .misa .D ∈ S ∧ rv64 = false) ∨
  (.zext .CA ∈ S ∧ .zext .CD ∈ S ∧ .misa .D ∈ S ∧ rv64 = true)

/-- "E" is dropped where "I" is there as well. -/
def baseSet (S : Set ExtFlag) : Set ExtFlag :=
  {f | f ∈ S ∧ ¬ (f = .misa .E ∧ .misa .I ∈ S)}

def addC (rv64 : Bool) (S : Set ExtFlag) : Set ExtFlag :=
  {f | f ∈ S ∨ f = .misa .C ∧ CRule rv64 S}

/-- The set-level content of `normalizeExtensions`. -/
def normalizeSet (rv64 : Bool) (S : Set ExtFlag) : Set ExtFlag :=
  addC rv64 (sweep compositeRules (baseSet S))

theorem get_selectBase (d : RVMExtDescriptor) (f : ExtFlag) :
    (selectBase d).get f =
      if f = .misa .E ∧ d.get (.misa .I) ≠ 0 then 0 else d.get f := by
  by_cases hI : d.get (.misa .I) = 0
  · have hsel : selectBase d = d := if_neg fun h => h.1 hI
    simp [hsel, hI]
  · by_cases hE : d.get (.misa .E) = 0
    · have hsel : selectBase d = d := if_neg fun h => h.2 hE
      rw [hsel]
      by_cases hf : f = .misa .E
      · simp [hf, hE]
      · simp [hf]
    · have hsel : selectBase d = d.set (.misa .E) 0 := if_pos ⟨hI, hE⟩
      rw [hsel, get_set]
      simp [hI]

theorem enabled_selectBase (d : RVMExtDescriptor) :
    (selectBase d).enabled = baseSet d.enabled := by
  ext f
  rw [mem_enabled, get_selectBase]
  by_cases h : f = .misa .E ∧ d.get (.misa .I) ≠ 0
  · simp only [if_pos h, ne_eq, not_true_eq_false, false_iff]
    exact fun hf => hf.2 ⟨h.1, h.2⟩
  · rw [if_neg h]
    exact ⟨fun hf => ⟨hf, h⟩, fun hf => hf.1⟩

theorem enabled_expandComposite (d : RVMExtDescriptor) (r : CompositeRule ExtFlag) :
    (expandComposite d r).enabled = r.fire d.enabled := by
  ext f
  unfold expandComposite
  by_cases hc : d.get r.composite = 0
  · rw [if_neg (not_not_intro hc)]
    have hne : d.get f ≠ 0 → f ≠ r.composite := fun hf he => hf (he ▸ hc)
    simpa [fire, hc] using hne
  · rw [if_pos hc, mem_enabled, get_set, get_setAll]
    by_cases hf : f = r.composite
    · simp [fire, hf]
    · by_cases hm : f ∈ r.components
      · simp [fire, hf, hm, hc]
      · simp [fire, hf, hm]

theorem enabled_foldl_expandComposite (rules : List (CompositeRule ExtFlag))
    (d : RVMExtDescriptor) :
    (rules.foldl expandComposite d).enabled = sweep rules d.enabled := by
  induction rules generalizing d with
  | nil => rfl
  | cons r rules ih =>
      rw [List.foldl_cons, ih, enabled_expandComposite]
      rfl

/-- What a conditional for MISA.C leaves: the bit is set when `P` holds. -/
def SetsC (d : RVMExtDescriptor) (P : Prop) (d' : RVMExtDescriptor) : Prop :=
  d' = d ∧ ¬ P ∨ d' = d.set (.misa .C) 1 ∧ P

theorem SetsC.congr {d d' : RVMExtDescriptor} {P Q : Prop} (h : SetsC d P d')
    (hPQ : P ↔ Q) : SetsC d Q d' := by
  rwa [SetsC, ← hPQ]

/-- One more conditional, on entries other than MISA.C. -/
theorem SetsC.step {d d' : RVMExtDescriptor} {P : Prop} (h : SetsC d P d')
    (Q : RVMExtDescriptor → Prop) [DecidablePred Q]
    (hQ : Q (d.set (.misa .C) 1) ↔ Q d) :
    SetsC d (P ∨ Q d) (if Q d' then d'.set (.misa .C) 1 else d') := by
  have htwice : (d.set (.misa .C) 1).set (.misa .C) 1 = d.set (.misa .C) 1 := by
    simp [RVMExtDescriptor.set]
  rcases h with ⟨rfl, hP⟩ | ⟨rfl, hP⟩
  · by_cases hq : Q d'
    · rw [if_pos hq]
      exact Or.inr ⟨rfl, Or.inr hq⟩
    · rw [if_neg hq]
      exact Or.inl ⟨rfl, fun h => h.elim hP hq⟩
  · refine Or.inr ⟨?_, Or.inl hP⟩
    split
    · exact htwice
    · rfl

/-- The four conditionals only ever set MISA.C, and none of them reads it. -/
theorem inferMisaC_eq (rv64 : Bool) (d : RVMExtDescriptor) :
    SetsC d (CRule rv64 d.enabled) (inferMisaC rv64 d) := by
  have hF : (d.set (.misa .C) 1).misaExt .F = d.misaExt .F := by
    simp [RVMExtDescriptor.set]
  have hD : (d.set (.misa .C) 1).misaExt .D = d.misaExt .D := by
    simp [RVMExtDescriptor.set]
  have h0 : SetsC d False d := Or.inl ⟨rfl, not_false⟩
  have h1 := h0.step (fun d => d.get (.zext .CA) ≠ 0 ∧ d.misaExt .F = 0)
    (by simp only [hF]; rfl)
  have h2 := h1.step (fun d => d.get (.zext .CA) ≠ 0 ∧ d.get (.zext .CF) ≠ 0 ∧
    d.misaExt .F ≠ 0 ∧ rv64 = false) (by simp only [hF]; rfl)
  have h3 := h2.step (fun d => d.get (.zext .CA) ≠ 0 ∧ d.get (.zext .CF) ≠ 0 ∧
    d.get (.zext .CD) ≠ 0 ∧ d.misaExt .D ≠ 0 ∧ rv64 = false) (by simp only [hD]; rfl)
  have h4 := h3.step (fun d => d.get (.zext .CA) ≠ 0 ∧ d.get (.zext .CD) ≠ 0 ∧
    d.misaExt .D ≠ 0 ∧ rv64 = true) (by simp only [hD]; rfl)
  apply h4.congr
  have hFm : ExtFlag.misa .F ∉ d.enabled ↔ d.misaExt .F = 0 := not_not
  rw [CRule, hFm, false_or, or_assoc, or_assoc]
  rfl

theorem enabled_inferMisaC (rv64 : Bool) (d : RVMExtDescriptor) :
    (inferMisaC rv64 d).enabled = addC rv64 d.enabled := by
  ext f
  rcases inferMisaC_eq rv64 d with ⟨heq, hC⟩ | ⟨heq, hC⟩
  · rw [heq]
    exact ⟨Or.inl, fun h => h.resolve_right fun h' => hC h'.2⟩
  · rw [heq, mem_enabled, get_set]
    by_cases hf : f = .misa .C
    · simp [addC, hf, hC]
    · simp [addC, hf]

/-- **Refinement.** On enabled flags the function is one sweep of the composite
rules between the choice of the base and the inference of MISA.C. -/
theorem enabled_normalizeExtensions (d : RVMExtDescriptor) (rv64 : Bool) :
    (normalizeExtensions d rv64).enabled = normalizeSet rv64 d.enabled := by
  unfold normalizeExtensions normalizeSet
  rw [enabled_inferMisaC, enabled_foldl_expandComposite, enabled_selectBase]

theorem get_normalizeExtensions_ne_zero (d : RVMExtDescriptor) (rv64 : Bool)
    (f : ExtFlag) :
    (normalizeExtensions d rv64).get f ≠ 0 ↔ f ∈ normalizeSet rv64 d.enabled := by
  rw [← enabled_normalizeExtensions]
  rfl

theorem sameSizes_expandComposite (d : RVMExtDescriptor)
    (r : CompositeRule ExtFlag) : SameSizes (expandComposite d r) d := by
  unfold expandComposite
  split
  · exact (sameSizes_set _ _ _).trans (sameSizes_setAll _ _)
  · exact ⟨rfl, rfl, rfl⟩

theorem sameSizes_normalizeExtensions (d : RVMExtDescriptor) (rv64 : Bool) :
    SameSizes (normalizeExtensions d rv64) d := by
  have hbase : SameSizes (selectBase d) d := by
    unfold selectBase
    split
    · exact sameSizes_set _ _ _
    · exact ⟨rfl, rfl, rfl⟩
  have hfold : ∀ (rules : List (CompositeRule ExtFlag)) (d : RVMExtDescriptor),
      SameSizes (rules.foldl expandComposite d) d := by
    intro rules
    induction rules with
    | nil => intro d; exact ⟨rfl, rfl, rfl⟩
    | cons r rules ih =>
        intro d
        exact (ih (expandComposite d r)).trans (sameSizes_expandComposite d r)
  have hC : SameSizes (normalizeExtensions d rv64)
      (compositeRules.foldl expandComposite (selectBase d)) := by
    unfold normalizeExtensions
    rcases inferMisaC_eq rv64 (compositeRules.foldl expandComposite (selectBase d))
      with ⟨heq, -⟩ | ⟨heq, -⟩
    · rw [heq]
      exact ⟨rfl, rfl, rfl⟩
    · rw [heq]
      exact sameSizes_set _ _ _
  exact (hC.trans (hfold _ _)).trans hbase

/-! ## Membership in the normalised set -/

/-- A flag that the base choice cannot drop is in the sweep as a member or as a
component of an enabled composite. -/
theorem mem_sweep_baseSet {S : Set ExtFlag} {f : ExtFlag} (hf : f ≠ .misa .E) :
    f ∈ sweep compositeRules (baseSet S) ↔
      (f ∈ S ∧ f ∉ heads compositeRules) ∨
        ∃ r ∈ compositeRules, r.composite ∈ S ∧ f ∈ r.components := by
  rw [mem_sweep_innerFirst compositeRules_uniqueHeads compositeRules_innerFirst]
  have hbase : ∀ g : ExtFlag, g ≠ .misa .E → (g ∈ baseSet S ↔ g ∈ S) :=
    fun g hg => ⟨fun h => h.1, fun h => ⟨h, fun h' => hg h'.1⟩⟩
  rw [hbase f hf]
  constructor
  · rintro (h | ⟨r, hr, hc, hx⟩)
    · exact Or.inl h
    · exact Or.inr ⟨r, hr, hc.1, hx⟩
  · rintro (h | ⟨r, hr, hc, hx⟩)
    · exact Or.inl h
    · have hrE : r.composite ≠ .misa .E :=
        fun h => misaE_not_head ⟨r, hr, h⟩
      exact Or.inr ⟨r, hr, (hbase _ hrE).mpr hc, hx⟩

/-- No rule publishes the base "E" or MISA.C. -/
theorem component_ne_E_C : ∀ r ∈ compositeRules, ∀ f ∈ r.components,
    f ≠ .misa .E ∧ f ≠ .misa .C := by
  decide

theorem misaE_mem_sweep_baseSet {S : Set ExtFlag} :
    .misa .E ∈ sweep compositeRules (baseSet S) ↔ .misa .E ∈ S ∧ .misa .I ∉ S := by
  rw [mem_sweep_innerFirst compositeRules_uniqueHeads compositeRules_innerFirst]
  constructor
  · rintro (⟨h, -⟩ | ⟨r, hr, -, hx⟩)
    · exact ⟨h.1, fun hI => h.2 ⟨rfl, hI⟩⟩
    · exact absurd rfl (component_ne_E_C r hr _ hx).1
  · rintro ⟨hE, hI⟩
    exact Or.inl ⟨⟨hE, fun h => hI h.2⟩, misaE_not_head⟩

theorem mem_normalizeSet_of_ne_C {rv64 : Bool} {S : Set ExtFlag} {f : ExtFlag}
    (hf : f ≠ .misa .C) :
    f ∈ normalizeSet rv64 S ↔ f ∈ sweep compositeRules (baseSet S) :=
  ⟨fun h => h.resolve_right fun h' => hf h'.1, Or.inl⟩

/-- The flags the C rules read. -/
def cInputs : List ExtFlag :=
  [.zext .CA, .zext .CF, .zext .CD, .misa .F, .misa .D]

theorem CRule_congr {rv64 : Bool} {S T : Set ExtFlag}
    (h : ∀ f ∈ cInputs, (f ∈ S ↔ f ∈ T)) : CRule rv64 S ↔ CRule rv64 T := by
  have hCA := h (.zext .CA) (by simp [cInputs])
  have hCF := h (.zext .CF) (by simp [cInputs])
  have hCD := h (.zext .CD) (by simp [cInputs])
  have hF := h (.misa .F) (by simp [cInputs])
  have hD := h (.misa .D) (by simp [cInputs])
  simp only [CRule, hCA, hCF, hCD, hF, hD]

/-- Only the G rule publishes the base "I". -/
theorem misaI_component : ∀ r ∈ compositeRules, .misa .I ∈ r.components →
    r.composite = .misa .G := by
  decide

theorem misaI_mem_normalizeSet {rv64 : Bool} {S : Set ExtFlag} :
    .misa .I ∈ normalizeSet rv64 S ↔ .misa .I ∈ S ∨ .misa .G ∈ S := by
  have hnot : ExtFlag.misa .I ∉ heads compositeRules := by decide
  rw [mem_normalizeSet_of_ne_C (by decide), mem_sweep_baseSet (by decide)]
  constructor
  · rintro (⟨h, -⟩ | ⟨r, hr, hc, hx⟩)
    · exact Or.inl h
    · exact Or.inr (misaI_component r hr hx ▸ hc)
  · rintro (h | h)
    · exact Or.inl ⟨h, hnot⟩
    · exact Or.inr ⟨_, List.mem_cons_self, h, List.mem_cons_self⟩

theorem misaE_mem_normalizeSet {rv64 : Bool} {S : Set ExtFlag} :
    .misa .E ∈ normalizeSet rv64 S ↔ .misa .E ∈ S ∧ .misa .I ∉ S := by
  rw [mem_normalizeSet_of_ne_C (by decide), misaE_mem_sweep_baseSet]

/-- A base is left after the call exactly when one was named, "G" included. -/
theorem base_mem_normalizeSet {rv64 : Bool} {S : Set ExtFlag} :
    (.misa .I ∈ normalizeSet rv64 S ∨ .misa .E ∈ normalizeSet rv64 S) ↔
      .misa .I ∈ S ∨ .misa .E ∈ S ∨ .misa .G ∈ S := by
  rw [misaI_mem_normalizeSet, misaE_mem_normalizeSet]
  tauto

/-- Flags that no rule reads only matter to themselves. -/
theorem mem_normalizeSet_congr {rv64 : Bool} {S T : Set ExtFlag} {U : List ExtFlag}
    (hU : ∀ f ∈ U, f ∉ heads compositeRules ∧ f ∉ cInputs ∧ f ≠ .misa .I)
    (h : ∀ f, f ∉ U → (f ∈ S ↔ f ∈ T)) {f : ExtFlag} (hf : f ∉ U) :
    f ∈ normalizeSet rv64 S ↔ f ∈ normalizeSet rv64 T := by
  have hsweep : ∀ g, g ∉ U →
      (g ∈ sweep compositeRules (baseSet S) ↔ g ∈ sweep compositeRules (baseSet T)) := by
    intro g hg
    by_cases hE : g = .misa .E
    · have hI : ExtFlag.misa .I ∉ U := fun hmem => (hU _ hmem).2.2 rfl
      subst hE
      rw [misaE_mem_sweep_baseSet, misaE_mem_sweep_baseSet, h _ hg, h _ hI]
    · rw [mem_sweep_baseSet hE, mem_sweep_baseSet hE, h g hg]
      have hcomposite : ∀ r ∈ compositeRules, (r.composite ∈ S ↔ r.composite ∈ T) :=
        fun r hr => h _ fun hmem => (hU _ hmem).1 ⟨r, hr, rfl⟩
      constructor
      · rintro (hmem | ⟨r, hr, hc, hx⟩)
        · exact Or.inl hmem
        · exact Or.inr ⟨r, hr, (hcomposite r hr).mp hc, hx⟩
      · rintro (hmem | ⟨r, hr, hc, hx⟩)
        · exact Or.inl hmem
        · exact Or.inr ⟨r, hr, (hcomposite r hr).mpr hc, hx⟩
  have hC : CRule rv64 (sweep compositeRules (baseSet S)) ↔
      CRule rv64 (sweep compositeRules (baseSet T)) :=
    CRule_congr fun g hg => hsweep g fun hmem => (hU g hmem).2.1 hg
  exact or_congr (hsweep f hf) (and_congr_right' hC)

end Rvmi.Isa
