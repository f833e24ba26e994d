import Rvmi.Isa.SizeFields

/-!
# Components past the size fields

A composite that the caller's tables reach may have components they do not
reach. The expansion sets these components, but the size fields are copied from
the caller, so the printing helpers filter them out again and the composite is
gone as well.
-/

namespace Rvmi.Isa

open Rvmi.Foundation CompositeRule RVMExtDescriptor

/-- The composites that publish no other composite. -/
def flatComposites : List ExtFlag :=
  [.misa .G, .zext .KN, .zext .KS, .zext .BITMANIP, .zext .VKN, .zext .VKS, .sext .HA]

theorem flatComposites_not_nested : ∀ r ∈ compositeRules,
    (r.composite ∈ flatComposites ↔ ∀ f ∈ r.components, f ∉ heads compositeRules) := by
  decide

/-- The printed string names every component of every composite that an entry
below its size field asks for. -/
def ComponentsNamed (d : RVMExtDescriptor) (rv64 lowercase : Bool) : Prop :=
  ∀ r ∈ compositeRules, r.composite ∈ flatComposites → r.composite ∈ visible d →
    ∀ f ∈ r.components, f ∈ recorded (createIsaString d rv64 lowercase)

/-- What a printed string names. -/
theorem mem_recorded_createIsaString (d : RVMExtDescriptor) (rv64 lowercase : Bool)
    (f : ExtFlag) :
    f ∈ recorded (createIsaString d rv64 lowercase) ↔ Named f ∧ f ∈ shown d rv64 := by
  rw [createIsaString_eq_canonical]
  exact mem_recorded_canonical rv64 lowercase (reservedLetters_not_shown d rv64)

theorem component_not_outOfBand : ∀ r ∈ compositeRules, ∀ f ∈ r.components, f ∉ outOfBand := by
  decide

/-- A component of an enabled composite is printed when its index is below the
size field. -/
theorem component_printed_iff {d : RVMExtDescriptor} {rv64 lowercase : Bool}
    {r : CompositeRule ExtFlag} (hr : r ∈ compositeRules) (hc : r.composite ∈ d.enabled)
    {f : ExtFlag} (hf : f ∈ r.components) :
    f ∈ recorded (createIsaString d rv64 lowercase) ↔ d.InRange f := by
  obtain ⟨hE, hC⟩ := component_ne_E_C r hr f hf
  obtain ⟨hrange, hres⟩ := component_spellable r hr f hf
  have hnorm : f ∈ normalizeSet rv64 d.enabled := by
    rw [mem_normalizeSet_of_ne_C hC, mem_sweep_baseSet hE]
    exact Or.inr ⟨r, hr, hc, hf⟩
  rw [mem_recorded_createIsaString, mem_shown]
  constructor
  · rintro ⟨-, -, hin, -⟩
    exact hin
  · intro hin
    exact ⟨(named_iff_inRange f).mpr hrange, hnorm, hin, hres, component_not_outOfBand r hr f hf⟩

/-- **No component of a requested composite is dropped exactly when the indices
of all these components are below the size fields.** -/
theorem componentsNamed_iff (d : RVMExtDescriptor) (rv64 lowercase : Bool) :
    ComponentsNamed d rv64 lowercase ↔
      ∀ r ∈ compositeRules, r.composite ∈ flatComposites → r.composite ∈ visible d →
        ∀ f ∈ r.components, d.InRange f := by
  constructor
  · intro h r hr hflat hc f hf
    exact (component_printed_iff hr hc.1 hf).mp (h r hr hflat hc f hf)
  · intro h r hr hflat hc f hf
    exact (component_printed_iff hr hc.1 hf).mpr (h r hr hflat hc f hf)

/-- "G" from a caller that knows no Z extension. -/
def gWithoutZ : RVMExtDescriptor :=
  { rvmInitExtDescriptor with zExtSize := 0 }.set (.misa .G) 1

/-- It is printed as `RV64IMAFD`, without Zicsr and Zifencei. -/
theorem componentsNamed_fails :
    ¬ ∀ (d : RVMExtDescriptor) (rv64 lowercase : Bool), SizesFit d →
      ComponentsNamed d rv64 lowercase := by
  intro h
  have hprinted : createIsaString gWithoutZ true = "RV64IMAFD".toList := by decide +kernel
  have hG : gWithoutZ.get (.misa .G) ≠ 0 := by decide
  have hnamed := h gWithoutZ true false ⟨by decide, by decide, by decide⟩ _
    List.mem_cons_self (by decide) ⟨hG, trivial⟩ (.zext .ICSR) (by decide)
  rw [hprinted] at hnamed
  revert hnamed
  decide +kernel

end Rvmi.Isa
