import Rvmi.Isa.SizeFields

/-!
# What a parsed descriptor holds

The parser normalises once, so the choice between the bases and the inference
of MISA.C can be told from the letters and names of the string: "I" wins over
"E" unless only "G" brings it in, and C is inferred from less than it stands
for when D is there without Zcd.
-/

namespace Rvmi.Isa

open Rvmi.Foundation CompositeRule RVMExtDescriptor

theorem mem_parsed {s : Text} {d : RVMExtDescriptor} {rv64 : Bool}
    (h : parseIsaString s = .ok (d, rv64)) (f : ExtFlag) :
    d.get f ≠ 0 ↔ f ∈ normalizeSet rv64 {f | f ∈ recorded s} := by
  obtain ⟨-, hd⟩ := (parseIsaString_eq_ok_iff s d rv64).mp h
  have henabled : (recordedDescriptor s).enabled = {f | f ∈ recorded s} := by
    ext f
    exact mem_enabled_recordedDescriptor
  rw [hd, get_normalizeExtensions_ne_zero, henabled]

/-! ## The base -/

/-- Exactly one of "I" and "E" is set. -/
def OneBase (d : RVMExtDescriptor) : Prop :=
  d.misaExt .I ≠ 0 ∧ d.misaExt .E = 0 ∨ d.misaExt .I = 0 ∧ d.misaExt .E ≠ 0

/-- **A parsed descriptor has one base exactly unless "E" was given with "G"
and without "I".** The choice is made before "G" publishes "I". -/
theorem parseIsaString_oneBase_iff {s : Text} {d : RVMExtDescriptor} {rv64 : Bool}
    (h : parseIsaString s = .ok (d, rv64)) :
    OneBase d ↔
      ¬ (.E ∈ recordedLetters s ∧ .G ∈ recordedLetters s ∧ .I ∉ recordedLetters s) := by
  have hbase := ((parseIsaString_eq_ok_iff s d rv64).mp h).1.base
  have hI : d.misaExt .I ≠ 0 ↔ .I ∈ recordedLetters s ∨ .G ∈ recordedLetters s := by
    have hmem := mem_parsed h (.misa .I)
    rw [misaI_mem_normalizeSet, Set.mem_ofPred_eq, Set.mem_ofPred_eq] at hmem
    rw [← misa_mem_recorded, ← misa_mem_recorded, ← hmem]
    rfl
  have hE : d.misaExt .E ≠ 0 ↔ .E ∈ recordedLetters s ∧ .I ∉ recordedLetters s := by
    have hmem := mem_parsed h (.misa .E)
    rw [misaE_mem_normalizeSet, Set.mem_ofPred_eq, Set.mem_ofPred_eq] at hmem
    rw [← misa_mem_recorded, ← misa_mem_recorded, ← hmem]
    rfl
  have hI' : d.misaExt .I = 0 ↔ ¬ (.I ∈ recordedLetters s ∨ .G ∈ recordedLetters s) := by
    rw [← hI, not_not]
  have hE' : d.misaExt .E = 0 ↔ ¬ (.E ∈ recordedLetters s ∧ .I ∉ recordedLetters s) := by
    rw [← hE, not_not]
  unfold OneBase
  rw [hI, hE, hI', hE']
  constructor
  · rintro (⟨-, hnoE⟩ | ⟨hnoI, -⟩) ⟨he, hg, hi⟩
    · exact hnoE ⟨he, hi⟩
    · exact hnoI (Or.inr hg)
  · intro hno
    -- "E" survives the choice only without "I", and then "G" must not bring "I" back
    by_cases he : .E ∈ recordedLetters s ∧ .I ∉ recordedLetters s
    · refine Or.inr ⟨?_, he⟩
      rintro (hi | hg)
      · exact he.2 hi
      · exact hno ⟨he.1, hg, he.2⟩
    · refine Or.inl ⟨?_, he⟩
      rcases hbase with hi | he' | hg
      · exact Or.inl hi
      · exact Or.inl (by_contra fun hi => he ⟨he', hi⟩)
      · exact Or.inr hg

theorem parseIsaString_ok_of_toOption {s : Text} {rv64 : Bool}
    (h : (parseIsaString s).toOption.map Prod.snd = some rv64) :
    ∃ d, parseIsaString s = .ok (d, rv64) := by
  cases hr : parseIsaString s with
  | error e =>
      rw [hr] at h
      cases h
  | ok r =>
      rw [hr] at h
      cases h
      exact ⟨r.1, rfl⟩

theorem parseIsaString_oneBase_iff_rv64ie :
    ∃ d, parseIsaString "rv64ie".toList = .ok (d, true) ∧ (OneBase d ↔
      ¬ (.E ∈ recordedLetters "rv64ie".toList ∧ .G ∈ recordedLetters "rv64ie".toList ∧
        .I ∉ recordedLetters "rv64ie".toList)) := by
  obtain ⟨d, hd⟩ : ∃ d, parseIsaString "rv64ie".toList = .ok (d, true) :=
    parseIsaString_ok_of_toOption (by decide +kernel)
  exact ⟨d, hd, parseIsaString_oneBase_iff hd⟩

/-- `rv64eg` has both bases. -/
theorem parseIsaString_two_bases :
    ¬ ∀ s d rv64, parseIsaString s = .ok (d, rv64) → OneBase d := by
  intro h
  have hbases : (parseIsaString "rv64eg".toList).toOption.map
      (fun r => (r.1.misaExt .I, r.1.misaExt .E)) = some (1, 1) := by decide +kernel
  obtain ⟨d, hd⟩ : ∃ d, parseIsaString "rv64eg".toList = .ok (d, true) :=
    parseIsaString_ok_of_toOption (by decide +kernel)
  have hone := h _ _ _ hd
  rw [hd] at hbases
  obtain ⟨hI, hE⟩ := Prod.mk.inj (Option.some.inj hbases)
  rcases hone with ⟨-, hE'⟩ | ⟨hI', -⟩
  · rw [hE] at hE'
    cases hE'
  · rw [hI] at hI'
    cases hI'

/-! ## MISA.C -/

/-- The third of the C rules never adds anything: whether "F" is there or not,
the first or the second rule holds already. -/
theorem CRule_third_idle {S : Set ExtFlag}
    (h : .zext .CA ∈ S ∧ .zext .CF ∈ S ∧ .zext .CD ∈ S ∧ .misa .D ∈ S) :
    (.zext .CA ∈ S ∧ .misa .F ∉ S) ∨ (.zext .CA ∈ S ∧ .zext .CF ∈ S ∧ .misa .F ∈ S) := by
  obtain ⟨hCA, hCF, -, -⟩ := h
  by_cases hF : .misa .F ∈ S
  · exact Or.inr ⟨hCA, hCF, hF⟩
  · exact Or.inl ⟨hCA, hF⟩

/-- What MISA.C stands for is there: Zca, with D Zcd, and with F on RV32 Zcf. -/
def StandsForC (d : RVMExtDescriptor) (rv64 : Bool) : Prop :=
  d.get (.zext .CA) ≠ 0 ∧ (d.misaExt .D ≠ 0 → d.get (.zext .CD) ≠ 0) ∧
    (d.misaExt .F ≠ 0 → rv64 = false → d.get (.zext .CF) ≠ 0)

/-- D without Zcd, in the company of a rule that does not ask for Zcd. -/
def LacksZcd (s : Text) : Prop :=
  .zext .CA ∈ recorded s ∧ .zext .CD ∉ recorded s ∧
    (.D ∈ recordedLetters s ∨ .G ∈ recordedLetters s) ∧
    (¬ (.F ∈ recordedLetters s ∨ .G ∈ recordedLetters s) ∨
      decimalValue (isaDigits s) = 32 ∧ .zext .CF ∈ recorded s)

/-- The flags the C rules read, in a parsed descriptor. -/
theorem mem_parsed_cInputs {s : Text} {d : RVMExtDescriptor} {rv64 : Bool}
    (h : parseIsaString s = .ok (d, rv64)) {f : ExtFlag} (hf : f ∈ cInputs) :
    d.get f ≠ 0 ↔ f ∈ closure compositeRules {f | f ∈ recorded s} := by
  obtain ⟨hhead, hE, hC, houter⟩ := cInputs_outer f hf
  rw [mem_parsed h, mem_normalizeSet_of_ne_C hC, mem_sweep_baseSet hE, mem_closure_of_outer houter]
  simp [hhead]

theorem zc_mem_closure {S : Set ExtFlag} : ∀ f ∈ [ExtFlag.zext .CA, .zext .CF, .zext .CD],
    (f ∈ closure compositeRules S ↔ f ∈ S) := by
  have hno : ∀ f ∈ [ExtFlag.zext .CA, .zext .CF, .zext .CD], ∀ r ∈ compositeRules,
      f ∉ r.components := by decide
  exact fun f hf => mem_closure_of_not_component (hno f hf)

theorem misaFD_mem_closure {S : Set ExtFlag} : ∀ f ∈ [ExtFlag.misa .F, .misa .D],
    (f ∈ closure compositeRules S ↔ f ∈ S ∨ .misa .G ∈ S) := by
  intro f hf
  have hG : ∀ r ∈ compositeRules, f ∈ r.components → r.composite = .misa .G := by
    revert f
    decide
  have hcomponent : ∃ r ∈ compositeRules, r.composite = .misa .G ∧ f ∈ r.components := by
    revert f
    decide
  have houter := (cInputs_outer f (by revert f; decide)).2.2.2
  rw [mem_closure_of_outer houter]
  constructor
  · rintro (h | ⟨r, hr, hc, hx⟩)
    · exact Or.inl h
    · exact Or.inr (hG r hr hx ▸ hc)
  · rintro (h | h)
    · exact Or.inl h
    · obtain ⟨r, hr, hc, hx⟩ := hcomponent
      exact Or.inr ⟨r, hr, hc ▸ h, hx⟩

theorem zc_parsed {s : Text} {d : RVMExtDescriptor} {rv64 : Bool}
    (h : parseIsaString s = .ok (d, rv64)) :
    ∀ f ∈ [ExtFlag.zext .CA, .zext .CF, .zext .CD], (d.get f ≠ 0 ↔ f ∈ recorded s) := by
  intro f hf
  have hin : f ∈ cInputs := by
    revert f
    decide
  exact (mem_parsed_cInputs h hin).trans (zc_mem_closure f hf)

theorem misaFD_parsed {s : Text} {d : RVMExtDescriptor} {rv64 : Bool}
    (h : parseIsaString s = .ok (d, rv64)) : ∀ e ∈ [RVMMisaExt.F, .D],
    (d.misaExt e ≠ 0 ↔ e ∈ recordedLetters s ∨ .G ∈ recordedLetters s) := by
  intro e he
  have hin : .misa e ∈ cInputs := by
    revert e
    decide
  rw [← misa_mem_recorded, ← misa_mem_recorded]
  exact (mem_parsed_cInputs h hin).trans
    (misaFD_mem_closure (.misa e) (List.mem_map.mpr ⟨e, he, rfl⟩))

/-- Without a "c" among the letters, C is set by the rules alone. -/
theorem misaC_parsed {s : Text} {d : RVMExtDescriptor} {rv64 : Bool}
    (h : parseIsaString s = .ok (d, rv64)) (hc : 'c' ∉ isaLetters s) :
    d.misaExt .C ≠ 0 ↔ CRule rv64 {f | d.get f ≠ 0} := by
  have hno : .misa .C ∉ recorded s := by
    rw [misa_mem_recorded]
    intro hmem
    obtain ⟨a, ha, hletter⟩ := List.mem_filterMap.mp hmem
    rw [← letter_of_letterOf hletter] at ha
    exact hc ha
  have hmem := mem_parsed h (.misa .C)
  rw [misaC_mem_normalizeSet, Set.mem_ofPred_eq, or_iff_right hno] at hmem
  have hsame : CRule rv64 (closure compositeRules {f | f ∈ recorded s}) ↔
      CRule rv64 {f | d.get f ≠ 0} :=
    CRule_congr fun f hf => (mem_parsed_cInputs h hf).symm
  exact hmem.trans hsame

/-- The rules ask for all that C stands for, unless D comes without Zcd. -/
theorem standsForC_of_CRule_iff (d : RVMExtDescriptor) (rv64 : Bool) :
    (CRule rv64 {f | d.get f ≠ 0} → StandsForC d rv64) ↔
      ¬ (d.get (.zext .CA) ≠ 0 ∧ ¬ d.get (.zext .CD) ≠ 0 ∧ d.misaExt .D ≠ 0 ∧
        (¬ d.misaExt .F ≠ 0 ∨ rv64 = false ∧ d.get (.zext .CF) ≠ 0)) := by
  have hrule : CRule rv64 {f | d.get f ≠ 0} ↔
      (d.get (.zext .CA) ≠ 0 ∧ ¬ d.misaExt .F ≠ 0) ∨
      (d.get (.zext .CA) ≠ 0 ∧ d.get (.zext .CF) ≠ 0 ∧ d.misaExt .F ≠ 0 ∧ rv64 = false) ∨
      (d.get (.zext .CA) ≠ 0 ∧ d.get (.zext .CF) ≠ 0 ∧ d.get (.zext .CD) ≠ 0 ∧
        d.misaExt .D ≠ 0 ∧ rv64 = false) ∨
      (d.get (.zext .CA) ≠ 0 ∧ d.get (.zext .CD) ≠ 0 ∧ d.misaExt .D ≠ 0 ∧ rv64 = true) := Iff.rfl
  unfold StandsForC
  rw [hrule]
  constructor
  · rintro hall ⟨hca, hncd, hd, hwhy⟩
    refine hncd ((hall ?_).2.1 hd)
    -- with F the second rule sets C, without F the first
    by_cases hf : d.misaExt .F ≠ 0
    · have h32 := hwhy.resolve_left (not_not_intro hf)
      exact Or.inr (Or.inl ⟨hca, h32.2, hf, h32.1⟩)
    · exact Or.inl ⟨hca, hf⟩
  · rintro hno (⟨hca, hnf⟩ | ⟨hca, hcf, hf, h32⟩ | ⟨hca, hcf, hcd, hd, h32⟩ | ⟨hca, hcd, hd, h64⟩)
    · refine ⟨hca, fun hd => ?_, fun hf => absurd hf hnf⟩
      exact fun hncd => hno ⟨hca, not_not_intro hncd, hd, Or.inl hnf⟩
    · refine ⟨hca, fun hd => ?_, fun _ _ => hcf⟩
      exact fun hncd => hno ⟨hca, not_not_intro hncd, hd, Or.inr ⟨h32, hcf⟩⟩
    · exact ⟨hca, fun _ => hcd, fun _ _ => hcf⟩
    · refine ⟨hca, fun _ => hcd, fun _ h32 => ?_⟩
      rw [h64] at h32
      cases h32

/-- **C is inferred only when all it stands for is there, exactly unless D
comes without Zcd and no rule in force asks for Zcd.** -/
theorem parseIsaString_misaC_iff {s : Text} {d : RVMExtDescriptor} {rv64 : Bool}
    (h : parseIsaString s = .ok (d, rv64)) (hc : 'c' ∉ isaLetters s) :
    (d.misaExt .C ≠ 0 → StandsForC d rv64) ↔ ¬ LacksZcd s := by
  have hCA := zc_parsed h (.zext .CA) (by simp)
  have hCF := zc_parsed h (.zext .CF) (by simp)
  have hCD := zc_parsed h (.zext .CD) (by simp)
  have hF := misaFD_parsed h .F (by simp)
  have hD := misaFD_parsed h .D (by simp)
  have hrv : decimalValue (isaDigits s) = 32 ↔ rv64 = false := by
    rw [((parseIsaString_eq_ok_iff s d rv64).mp h).1.bits]
    cases rv64 <;> simp
  unfold LacksZcd
  rw [misaC_parsed h hc, standsForC_of_CRule_iff, ← hCA, ← hCD, ← hCF, ← hF, ← hD, hrv]

theorem parseIsaString_misaC_iff_rv64i_zca :
    ∃ d, parseIsaString "rv64i_zca".toList = .ok (d, true) ∧
      ((d.misaExt .C ≠ 0 → StandsForC d true) ↔ ¬ LacksZcd "rv64i_zca".toList) := by
  obtain ⟨d, hd⟩ : ∃ d, parseIsaString "rv64i_zca".toList = .ok (d, true) :=
    parseIsaString_ok_of_toOption (by decide +kernel)
  exact ⟨d, hd, parseIsaString_misaC_iff hd (by decide)⟩

/-- `rv32ifd_zca_zcf` has C and D without Zcd. -/
theorem parseIsaString_infers_C_without_Zcd :
    ¬ ∀ s d rv64, parseIsaString s = .ok (d, rv64) → 'c' ∉ isaLetters s →
      d.misaExt .C ≠ 0 → StandsForC d rv64 := by
  intro h
  have hflags : (parseIsaString "rv32ifd_zca_zcf".toList).toOption.map
      (fun r => (r.1.misaExt .C, r.1.misaExt .D, r.1.get (.zext .CD))) = some (1, 1, 0) := by
    decide +kernel
  obtain ⟨d, hd⟩ : ∃ d, parseIsaString "rv32ifd_zca_zcf".toList = .ok (d, false) :=
    parseIsaString_ok_of_toOption (by decide +kernel)
  have hstands := h _ _ _ hd (by decide)
  rw [hd] at hflags
  have hflags' := Option.some.inj hflags
  rw [Prod.mk.injEq, Prod.mk.injEq] at hflags'
  obtain ⟨hC, hD, hCD⟩ := hflags'
  exact (hstands (by rw [hC]; decide)).2.1 (by rw [hD]; decide) hCD

end Rvmi.Isa
