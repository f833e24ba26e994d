import Rvmi.Isa.RoundTrip

/-!
# Entries past the size fields

"Entries with index greater than or equal to this value are treated as if they
were zero (not enabled)." The printing helpers compare an index with the size
field before they read the entry; the normalisation in front of them does not.
A hidden entry therefore reaches the printed string exactly when it is a
composite, or an input of the C rules, and what it gives is visible.
-/

namespace Rvmi.Isa

open Rvmi.Foundation CompositeRule RVMExtDescriptor

/-- Agreement on the size fields and on every entry below them. -/
structure VisiblyEqual (d₁ d₂ : RVMExtDescriptor) : Prop where
  sizes : SameSizes d₁ d₂
  entries : ∀ f, d₁.InRange f → d₁.get f = d₂.get f

def visible (d : RVMExtDescriptor) : Set ExtFlag := {f | f ∈ d.enabled ∧ d.InRange f}

/-- The flags the printing helpers do not filter out. -/
def Printable (d : RVMExtDescriptor) (f : ExtFlag) : Prop :=
  Named f ∧ d.InRange f ∧ f ∉ reservedLetters ∧ f ∉ outOfBand

/-- Enabled by an entry below the size fields, as a flag of its own, as a
component, or through the C rules. -/
def VisibleGives (d : RVMExtDescriptor) (rv64 : Bool) (f : ExtFlag) : Prop :=
  (f ∈ visible d ∧ f ∉ heads compositeRules) ∨
  (∃ r ∈ compositeRules, r.composite ∈ visible d ∧ f ∈ r.components) ∨
  (f = .misa .C ∧ CRule rv64 (closure compositeRules (visible d)))

/-- Enabled by a composite past its size field, or through the C rules once the
entries past the size fields are counted. -/
def HiddenGives (d : RVMExtDescriptor) (rv64 : Bool) (f : ExtFlag) : Prop :=
  (∃ r ∈ compositeRules, ¬ d.InRange r.composite ∧ r.composite ∈ d.enabled ∧
    f ∈ r.components) ∨
  (f = .misa .C ∧ CRule rv64 (closure compositeRules d.enabled))

theorem VisiblyEqual.visible_eq {d₁ d₂ : RVMExtDescriptor} (h : VisiblyEqual d₁ d₂) :
    visible d₁ = visible d₂ := by
  ext f
  constructor
  · rintro ⟨hf, hrange⟩
    exact ⟨by rwa [mem_enabled, ← h.entries f hrange], (h.sizes.inRange_iff f).mp hrange⟩
  · rintro ⟨hf, hrange⟩
    have hrange' := (h.sizes.inRange_iff f).mpr hrange
    exact ⟨by rwa [mem_enabled, h.entries f hrange'], hrange'⟩

theorem VisiblyEqual.visibleGives_iff {d₁ d₂ : RVMExtDescriptor}
    (h : VisiblyEqual d₁ d₂) (rv64 : Bool) (f : ExtFlag) :
    VisibleGives d₁ rv64 f ↔ VisibleGives d₂ rv64 f := by
  unfold VisibleGives
  rw [h.visible_eq]

theorem misa_mem_visible {d : RVMExtDescriptor} {e : RVMMisaExt} :
    .misa e ∈ visible d ↔ .misa e ∈ d.enabled :=
  ⟨And.left, fun h => ⟨h, trivial⟩⟩

/-- "F" and "D" come from the letters alone. -/
theorem misaFD_component : ∀ r ∈ compositeRules,
    (.misa .F ∈ r.components ∨ .misa .D ∈ r.components) → r.composite = .misa .G := by
  decide

/-- Counting more entries can only make the C rules hold. -/
theorem CRule_closure_visible {d : RVMExtDescriptor} {rv64 : Bool}
    (h : CRule rv64 (closure compositeRules (visible d))) :
    CRule rv64 (closure compositeRules d.enabled) := by
  have hmono : closure compositeRules (visible d) ⊆ closure compositeRules d.enabled :=
    closure_mono fun _ hf => hf.1
  -- the one input that is read negatively is a letter, and letters are visible
  have hF : .misa .F ∈ closure compositeRules d.enabled →
      .misa .F ∈ closure compositeRules (visible d) := by
    have houter := (cInputs_outer (.misa .F) (by simp [cInputs])).2.2.2
    rw [mem_closure_of_outer houter, mem_closure_of_outer houter]
    rintro (hF | ⟨r, hr, hc, hx⟩)
    · exact Or.inl (misa_mem_visible.mpr hF)
    · refine Or.inr ⟨r, hr, ?_, hx⟩
      rw [misaFD_component r hr (Or.inl hx)] at hc ⊢
      exact misa_mem_visible.mpr hc
  rcases h with ⟨hCA, hnF⟩ | ⟨hCA, hCF, hF', hrv⟩ | ⟨hCA, hCF, hCD, hD, hrv⟩ | ⟨hCA, hCD, hD, hrv⟩
  · exact Or.inl ⟨hmono hCA, fun h => hnF (hF h)⟩
  · exact Or.inr (Or.inl ⟨hmono hCA, hmono hCF, hmono hF', hrv⟩)
  · exact Or.inr (Or.inr (Or.inl ⟨hmono hCA, hmono hCF, hmono hCD, hmono hD, hrv⟩))
  · exact Or.inr (Or.inr (Or.inr ⟨hmono hCA, hmono hCD, hmono hD, hrv⟩))

/-- Where a normalised flag other than the base "E" comes from. -/
theorem mem_normalizeSet_iff_gives {d : RVMExtDescriptor} {rv64 : Bool} {f : ExtFlag}
    (hE : f ≠ .misa .E) (hrange : d.InRange f) :
    f ∈ normalizeSet rv64 d.enabled ↔ VisibleGives d rv64 f ∨ HiddenGives d rv64 f := by
  by_cases hC : f = .misa .C
  · subst hC
    rw [misaC_mem_normalizeSet]
    constructor
    · rintro (h | h)
      · exact Or.inl (Or.inl ⟨⟨h, hrange⟩, misaC_not_head⟩)
      · exact Or.inr (Or.inr ⟨rfl, h⟩)
    · rintro ((⟨h, -⟩ | ⟨r, hr, -, hx⟩ | ⟨-, h⟩) | (⟨r, hr, -, -, hx⟩ | ⟨-, h⟩))
      · exact Or.inl h.1
      · exact absurd hx (misa_E_C_G_not_component r hr).2.1
      · exact Or.inr (CRule_closure_visible h)
      · exact absurd hx (misa_E_C_G_not_component r hr).2.1
      · exact Or.inr h
  · rw [mem_normalizeSet_of_ne_C hC, mem_sweep_baseSet hE]
    constructor
    · rintro (⟨h, hnot⟩ | ⟨r, hr, hc, hx⟩)
      · exact Or.inl (Or.inl ⟨⟨h, hrange⟩, hnot⟩)
      · by_cases hvis : d.InRange r.composite
        · exact Or.inl (Or.inr (Or.inl ⟨r, hr, ⟨hc, hvis⟩, hx⟩))
        · exact Or.inr (Or.inl ⟨r, hr, hvis, hc, hx⟩)
    · rintro ((⟨h, hnot⟩ | ⟨r, hr, hc, hx⟩ | ⟨h, -⟩) | (⟨r, hr, -, hc, hx⟩ | ⟨h, -⟩))
      · exact Or.inl ⟨h.1, hnot⟩
      · exact Or.inr ⟨r, hr, hc.1, hx⟩
      · exact absurd h hC
      · exact Or.inr ⟨r, hr, hc, hx⟩
      · exact absurd h hC

/-- The base "E" depends on letters only, and nothing else gives it. -/
theorem VisiblyEqual.misaE_iff {d₁ d₂ : RVMExtDescriptor} (h : VisiblyEqual d₁ d₂)
    (rv64 : Bool) :
    .misa .E ∈ normalizeSet rv64 d₁.enabled ↔ .misa .E ∈ normalizeSet rv64 d₂.enabled := by
  have hmisa : ∀ e, .misa e ∈ d₁.enabled ↔ .misa e ∈ d₂.enabled := by
    intro e
    rw [mem_enabled, mem_enabled, h.entries (.misa e) trivial]
  rw [misaE_mem_normalizeSet, misaE_mem_normalizeSet, hmisa, hmisa]

theorem not_hiddenGives_misaE {d : RVMExtDescriptor} {rv64 : Bool} :
    ¬ HiddenGives d rv64 (.misa .E) := by
  rintro (⟨r, hr, -, -, hx⟩ | ⟨hC, -⟩)
  · exact (misa_E_C_G_not_component r hr).1 hx
  · cases hC

theorem mem_shown_iff_printable {d : RVMExtDescriptor} {rv64 : Bool} {f : ExtFlag}
    (hf : Named f) :
    f ∈ shown d rv64 ↔ Printable d f ∧ f ∈ normalizeSet rv64 d.enabled := by
  rw [mem_shown]
  constructor
  · rintro ⟨hmem, hrest⟩
    exact ⟨⟨hf, hrest⟩, hmem⟩
  · rintro ⟨⟨-, hrest⟩, hmem⟩
    exact ⟨hmem, hrest⟩

/-- **The size fields are respected exactly when the hidden entries of both
descriptors give the same of the printable flags that no visible entry gives.** -/
theorem createIsaString_sizes_iff (d₁ d₂ : RVMExtDescriptor) (rv64 lowercase : Bool)
    (h : VisiblyEqual d₁ d₂) :
    createIsaString d₁ rv64 lowercase = createIsaString d₂ rv64 lowercase ↔
      ∀ f, Printable d₁ f → ¬ VisibleGives d₁ rv64 f →
        (HiddenGives d₁ rv64 f ↔ HiddenGives d₂ rv64 f) := by
  have hprint : ∀ f, Printable d₁ f ↔ Printable d₂ f := by
    intro f
    unfold Printable
    rw [h.sizes.inRange_iff]
  rw [createIsaString_eq_canonical, createIsaString_eq_canonical,
    canonicalIsaString_eq_iff rv64 lowercase (reservedLetters_not_shown d₁ rv64)
      (reservedLetters_not_shown d₂ rv64)]
  constructor
  · intro heq f hf hvis
    by_cases hE : f = .misa .E
    · subst hE
      exact iff_of_false not_hiddenGives_misaE not_hiddenGives_misaE
    · have hvis' : ¬ VisibleGives d₂ rv64 f := fun hv => hvis ((h.visibleGives_iff rv64 f).mpr hv)
      have hiff := heq f hf.1
      rw [mem_shown_iff_printable hf.1, mem_shown_iff_printable hf.1, ← hprint,
        mem_normalizeSet_iff_gives hE hf.2.1,
        mem_normalizeSet_iff_gives hE ((hprint f).mp hf).2.1] at hiff
      simpa [hf, hvis, hvis'] using hiff
  · intro hgives f hnamed
    rw [mem_shown_iff_printable hnamed, mem_shown_iff_printable hnamed, ← hprint]
    apply and_congr_right
    intro hf
    by_cases hE : f = .misa .E
    · subst hE
      exact h.misaE_iff rv64
    · rw [mem_normalizeSet_iff_gives hE hf.2.1,
        mem_normalizeSet_iff_gives hE ((hprint f).mp hf).2.1, ← h.visibleGives_iff rv64 f]
      by_cases hvis : VisibleGives d₁ rv64 f
      · simp [hvis]
      · simp [hvis, hgives f hf hvis]

/-! ## A table of 42 names -/

/-- `rv64i` from a caller whose name table ends before Zbitmanip. -/
def shortRv64i : RVMExtDescriptor :=
  { rvmInitExtDescriptor with zExtSize := 42 }.set (.misa .I) 1

theorem visiblyEqual_shortRv64i :
    VisiblyEqual shortRv64i (shortRv64i.set (.zext .BITMANIP) 1) := by
  have hhidden : ¬ shortRv64i.InRange (.zext .BITMANIP) := by decide
  refine ⟨(sameSizes_set _ _ _).symm, fun f hf => ?_⟩
  have hne : f ≠ .zext .BITMANIP := by
    rintro rfl
    exact hhidden hf
  rw [get_set_of_ne hne]

theorem createIsaString_sizes_iff_shortRv64i :
    createIsaString shortRv64i true =
        createIsaString (shortRv64i.set (.zext .BITMANIP) 1) true ↔
      ∀ f, Printable shortRv64i f → ¬ VisibleGives shortRv64i true f →
        (HiddenGives shortRv64i true f ↔
          HiddenGives (shortRv64i.set (.zext .BITMANIP) 1) true f) :=
  createIsaString_sizes_iff shortRv64i (shortRv64i.set (.zext .BITMANIP) 1) true false
    visiblyEqual_shortRv64i

/-- The hidden Zbitmanip adds four names to the string. -/
theorem createIsaString_reads_hidden :
    ¬ ∀ (d₁ d₂ : RVMExtDescriptor) (rv64 lowercase : Bool), SizesFit d₁ → SizesFit d₂ →
      VisiblyEqual d₁ d₂ →
      createIsaString d₁ rv64 lowercase = createIsaString d₂ rv64 lowercase := by
  intro h
  have hfit : SizesFit shortRv64i ∧ SizesFit (shortRv64i.set (.zext .BITMANIP) 1) := by
    unfold SizesFit
    decide
  have heq := h shortRv64i (shortRv64i.set (.zext .BITMANIP) 1) true false
    hfit.1 hfit.2 visiblyEqual_shortRv64i
  revert heq
  decide +kernel

end Rvmi.Isa
