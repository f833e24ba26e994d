import Rvmi.Isa.Grammar
import Rvmi.Isa.Composites

/-!
# Printing and parsing together

The parser normalises what it records and the printer normalises what it is
given, so a text that went through both was swept twice. Two sweeps reach the
closure of the composite rules; one sweep does not in general, which is why a
printed string need not survive being parsed and printed again.
-/

namespace Rvmi.Isa

open Rvmi.Foundation CompositeRule RVMExtDescriptor

/-! ## Named flags and size fields -/

theorem forEachZext_indices :
    forEachZext.map (fun p => p.1.ctorIdx) = List.range rvmZextNumber := by
  decide

theorem forEachSext_indices :
    forEachSext.map (fun p => p.1.ctorIdx) = List.range rvmSextNumber := by
  decide

theorem forEachXext_indices :
    forEachXext.map (fun p => p.1.ctorIdx) = List.range rvmXextNumber := by
  decide

/-- The flags with a spelling are those below the initial size fields. -/
theorem named_iff_inRange (f : ExtFlag) : Named f ↔ rvmInitExtDescriptor.InRange f := by
  unfold Named multiLetterNames
  simp only [List.map_append, List.map_map, List.mem_append, List.mem_map,
    Function.comp_apply]
  cases f with
  | misa e => exact ⟨fun _ => trivial, fun _ => Or.inl ⟨e, rfl⟩⟩
  | z i =>
      show _ ↔ i.val < rvmZextNumber
      rw [← List.mem_range, ← forEachZext_indices, List.mem_map]
      simp [ExtFlag.zext, ExtFlag.sext, ExtFlag.xext, RVMZExt.idx, Fin.ext_iff]
  | s i =>
      show _ ↔ i.val < rvmSextNumber
      rw [← List.mem_range, ← forEachSext_indices, List.mem_map]
      simp [ExtFlag.zext, ExtFlag.sext, ExtFlag.xext, RVMSExt.idx, Fin.ext_iff]
  | x i =>
      show _ ↔ i.val < rvmXextNumber
      rw [← List.mem_range, ← forEachXext_indices, List.mem_map]
      simp [ExtFlag.zext, ExtFlag.sext, ExtFlag.xext, RVMXExt.idx, Fin.ext_iff]

/-- Size fields as initialised, entries 0 or 1, and 0 from the size fields on. -/
structure Plain (d : RVMExtDescriptor) : Prop where
  sizes : SameSizes d rvmInitExtDescriptor
  bits : ∀ f, d.get f = 0 ∨ d.get f = 1
  past : ∀ f, ¬ d.InRange f → d.get f = 0

/-! ## Two calls of the normalisation -/

theorem cInputs_outer : ∀ f ∈ cInputs, f ∉ heads compositeRules ∧ f ≠ .misa .E ∧
    f ≠ .misa .C ∧ ∀ r ∈ compositeRules, f ∈ r.components →
      ∀ r' ∈ compositeRules, r.composite ∉ r'.components := by
  decide

/-- One sweep settles the flags the C rules read. -/
theorem CRule_sweep_iff {rv64 : Bool} {S : Set ExtFlag} :
    CRule rv64 (sweep compositeRules (baseSet S)) ↔
      CRule rv64 (closure compositeRules S) := by
  apply CRule_congr
  intro f hf
  obtain ⟨hhead, hE, -, houter⟩ := cInputs_outer f hf
  rw [mem_sweep_baseSet hE, mem_closure_of_outer houter]
  simp [hhead]

/-- The set two calls leave, in terms of the closure. -/
def closedSet (rv64 : Bool) (S : Set ExtFlag) : Set ExtFlag :=
  {f | (f ∈ closure compositeRules S ∧ f ∉ heads compositeRules ∧
      ¬ (f = .misa .E ∧ .misa .I ∈ closure compositeRules S)) ∨
    (f = .misa .C ∧ CRule rv64 (closure compositeRules S))}

/-- "E", "C" and "G" are published by no rule. -/
theorem misa_E_C_G_not_component : ∀ r ∈ compositeRules,
    .misa .E ∉ r.components ∧ .misa .C ∉ r.components ∧ .misa .G ∉ r.components := by
  decide

theorem misaI_mem_closure {S : Set ExtFlag} :
    .misa .I ∈ closure compositeRules S ↔ .misa .I ∈ S ∨ .misa .G ∈ S := by
  rw [mem_closure_iff]
  have hG := mem_closure_of_not_component (S := S)
    fun r hr => (misa_E_C_G_not_component r hr).2.2
  constructor
  · rintro (h | ⟨r, hr, hc, hx⟩)
    · exact Or.inl h
    · rw [misaI_component r hr hx] at hc
      exact Or.inr (hG.mp hc)
  · rintro (h | h)
    · exact Or.inl h
    · exact Or.inr ⟨_, List.mem_cons_self, hG.mpr h, List.mem_cons_self⟩

/-- A second call sweeps what the first one left, for every flag but the two
that are treated apart. -/
theorem mem_normalizeSet_twice {rv64 : Bool} {S : Set ExtFlag} {f : ExtFlag}
    (hE : f ≠ .misa .E) (hC : f ≠ .misa .C) :
    f ∈ normalizeSet rv64 (normalizeSet rv64 S) ↔
      f ∈ closure compositeRules S ∧ f ∉ heads compositeRules := by
  have hone : ∀ g : ExtFlag, g ≠ .misa .C →
      (g ∈ normalizeSet rv64 S ↔ g ∈ sweep compositeRules (baseSet S)) :=
    fun g hg => mem_normalizeSet_of_ne_C hg
  have hhead : ∀ r ∈ compositeRules, r.composite ≠ .misa .C :=
    fun r hr h => misaC_not_head ⟨r, hr, h⟩
  calc f ∈ normalizeSet rv64 (normalizeSet rv64 S)
      ↔ (f ∈ normalizeSet rv64 S ∧ f ∉ heads compositeRules) ∨
          ∃ r ∈ compositeRules, r.composite ∈ normalizeSet rv64 S ∧ f ∈ r.components := by
        rw [mem_normalizeSet_of_ne_C hC, mem_sweep_baseSet hE]
    _ ↔ (f ∈ sweep compositeRules (baseSet S) ∧ f ∉ heads compositeRules) ∨
          ∃ r ∈ compositeRules, r.composite ∈ sweep compositeRules (baseSet S) ∧
            f ∈ r.components := by
        rw [hone f hC]
        constructor
        · rintro (h | ⟨r, hr, hc, hx⟩)
          · exact Or.inl h
          · exact Or.inr ⟨r, hr, (hone _ (hhead r hr)).mp hc, hx⟩
        · rintro (h | ⟨r, hr, hc, hx⟩)
          · exact Or.inl h
          · exact Or.inr ⟨r, hr, (hone _ (hhead r hr)).mpr hc, hx⟩
    _ ↔ f ∈ sweep compositeRules (sweep compositeRules (baseSet S)) :=
        (mem_sweep_innerFirst compositeRules_uniqueHeads compositeRules_innerFirst).symm
    _ ↔ f ∈ closure compositeRules S ∧ f ∉ heads compositeRules := by
        rw [mem_sweep_sweep compositeRules_uniqueHeads compositeRules_innerFirst
          compositeRules_nestedOnce, mem_closure_baseSet hE]

theorem misaC_mem_normalizeSet {rv64 : Bool} {S : Set ExtFlag} :
    .misa .C ∈ normalizeSet rv64 S ↔
      .misa .C ∈ S ∨ CRule rv64 (closure compositeRules S) := by
  have hsweep : .misa .C ∈ sweep compositeRules (baseSet S) ↔ .misa .C ∈ S := by
    rw [mem_sweep_baseSet (by decide)]
    constructor
    · rintro (⟨h, -⟩ | ⟨r, hr, -, hx⟩)
      · exact h
      · exact absurd hx (misa_E_C_G_not_component r hr).2.1
    · exact fun h => Or.inl ⟨h, misaC_not_head⟩
  rw [← CRule_sweep_iff, ← hsweep]
  exact ⟨fun h => h.imp_right And.right, fun h => h.imp_right fun h => ⟨rfl, h⟩⟩

/-- The C rules see the same closure before and after a call. -/
theorem CRule_closure_normalizeSet {rv64 : Bool} {S : Set ExtFlag} :
    CRule rv64 (closure compositeRules (normalizeSet rv64 S)) ↔
      CRule rv64 (closure compositeRules S) := by
  rw [← CRule_sweep_iff]
  apply CRule_congr
  intro f hf
  obtain ⟨hhead, hE, hC, -⟩ := cInputs_outer f hf
  rw [← @mem_normalizeSet_of_ne_C rv64 _ _ hC, mem_normalizeSet_twice hE hC]
  simp [hhead]

/-- **Two calls reach the closure.** -/
theorem normalizeSet_normalizeSet (rv64 : Bool) (S : Set ExtFlag) :
    normalizeSet rv64 (normalizeSet rv64 S) = closedSet rv64 S := by
  have hEclosure : .misa .E ∈ closure compositeRules S ↔ .misa .E ∈ S :=
    mem_closure_of_not_component fun r hr => (misa_E_C_G_not_component r hr).1
  have hCclosure : .misa .C ∈ closure compositeRules S ↔ .misa .C ∈ S :=
    mem_closure_of_not_component fun r hr => (misa_E_C_G_not_component r hr).2.1
  ext f
  unfold closedSet
  by_cases hE : f = .misa .E
  · subst hE
    rw [misaE_mem_normalizeSet, misaE_mem_normalizeSet, misaI_mem_normalizeSet]
    simp only [Set.mem_ofPred_eq, hEclosure, misaI_mem_closure, misaE_not_head,
      not_false_eq_true, true_and, reduceCtorEq, ExtFlag.misa.injEq, false_and, or_false]
    tauto
  · by_cases hC : f = .misa .C
    · subst hC
      rw [misaC_mem_normalizeSet, misaC_mem_normalizeSet, CRule_closure_normalizeSet]
      simp only [Set.mem_ofPred_eq, hCclosure, misaC_not_head, not_false_eq_true,
        true_and, reduceCtorEq, ExtFlag.misa.injEq, false_and, and_true]
      tauto
    · rw [mem_normalizeSet_twice hE hC]
      simp [hE, hC]

/-! ## What is printed of a parsed descriptor -/

/-- Flags that can be spelled in an ISA string. -/
def Spellable (f : ExtFlag) : Prop := Named f ∧ f ∉ reservedLetters

theorem component_spellable : ∀ r ∈ compositeRules, ∀ x ∈ r.components,
    rvmInitExtDescriptor.InRange x ∧ x ∉ reservedLetters := by
  decide

theorem misa_of_mem_reservedLetters {f : ExtFlag} (h : f ∈ reservedLetters) :
    ∃ e, f = .misa e := by
  simp only [reservedLetters, List.mem_cons, List.not_mem_nil, or_false] at h
  rcases h with rfl | rfl | rfl <;> exact ⟨_, rfl⟩

theorem spellable_of_flagOfToken {t : Text} {f : ExtFlag} (h : flagOfToken t = some f) :
    Spellable f := by
  have hnamed : f ∈ multiLetterNames.map Prod.fst := by
    unfold flagOfToken at h
    unfold multiLetterNames
    simp only [List.map_append, List.map_map, List.mem_append, List.mem_map,
      Function.comp_apply]
    split at h
    · obtain ⟨k, hk, rfl⟩ := Option.map_eq_some_iff.mp h
      obtain ⟨p, hp, rfl, -⟩ := lookupName_eq_some hk
      exact Or.inl (Or.inl ⟨p, hp, rfl⟩)
    · rcases Option.map_eq_some_iff.mp h with ⟨k, hk, rfl⟩
      obtain ⟨p, hp, rfl, -⟩ := lookupName_eq_some hk
      exact Or.inl (Or.inr ⟨p, hp, rfl⟩)
    · rcases Option.map_eq_some_iff.mp h with ⟨k, hk, rfl⟩
      obtain ⟨p, hp, rfl, -⟩ := lookupName_eq_some hk
      exact Or.inr ⟨p, hp, rfl⟩
    · cases h
  refine ⟨Or.inr hnamed, fun hr => ?_⟩
  obtain ⟨e, rfl⟩ := misa_of_mem_reservedLetters hr
  exact flagOfToken_ne_misa h

theorem recorded_spellable {s : Text} : ∀ f ∈ recorded s, Spellable f := by
  intro f hf
  rcases List.mem_append.mp hf with hf | hf
  · obtain ⟨e, he, rfl⟩ := List.mem_map.mp hf
    exact ⟨Or.inl ⟨e, rfl⟩, recordedLetters_notReserved e he⟩
  · rcases List.mem_filterMap.mp hf with ⟨t, -, ht⟩
    exact spellable_of_flagOfToken ht

theorem closedSet_spellable {rv64 : Bool} {S : Set ExtFlag} (hS : ∀ f ∈ S, Spellable f) :
    ∀ f ∈ closedSet rv64 S, Spellable f := by
  have hclosure : closure compositeRules S ⊆ {f | Spellable f} := by
    apply closure_subset hS
    rintro c x - ⟨r, hr, -, hx⟩
    obtain ⟨hrange, hres⟩ := component_spellable r hr x hx
    exact ⟨(named_iff_inRange x).mpr hrange, hres⟩
  rintro f (⟨hf, -, -⟩ | ⟨rfl, -⟩)
  · exact hclosure hf
  · exact ⟨Or.inl ⟨_, rfl⟩, by decide⟩

/-- What is printed of a set of requested flags: its closure without composites
and with one base, with C where it is implied, without out-of-band flags. -/
def canonicalSet (rv64 : Bool) (S : Set ExtFlag) : Set ExtFlag :=
  {f | f ∈ closedSet rv64 S ∧ f ∉ outOfBand}

theorem mem_shown {d : RVMExtDescriptor} {rv64 : Bool} {f : ExtFlag} :
    f ∈ shown d rv64 ↔ f ∈ normalizeSet rv64 d.enabled ∧ d.InRange f ∧
      f ∉ reservedLetters ∧ f ∉ outOfBand := by
  rw [← get_normalizeExtensions_ne_zero]
  rfl

theorem sameSizes_recordedDescriptor (s : Text) :
    SameSizes (recordedDescriptor s) rvmInitExtDescriptor :=
  sameSizes_setAll _ _

theorem shown_parsed (s : Text) (rv64 : Bool) :
    shown (normalizeExtensions (recordedDescriptor s) rv64) rv64 =
      canonicalSet rv64 {f | f ∈ recorded s} := by
  have henabled : (recordedDescriptor s).enabled = {f | f ∈ recorded s} := by
    ext f
    exact mem_enabled_recordedDescriptor
  have hsizes := (sameSizes_normalizeExtensions (recordedDescriptor s) rv64).trans
    (sameSizes_recordedDescriptor s)
  ext f
  rw [mem_shown, enabled_normalizeExtensions, henabled, normalizeSet_normalizeSet,
    hsizes.inRange_iff, ← named_iff_inRange]
  constructor
  · rintro ⟨hf, -, -, hoob⟩
    exact ⟨hf, hoob⟩
  · rintro ⟨hf, hoob⟩
    obtain ⟨hnamed, hres⟩ := closedSet_spellable (fun f hf => recorded_spellable f hf) f hf
    exact ⟨hf, hnamed, hres, hoob⟩

theorem createIsaString_recorded (s : Text) (rv64 lowercase : Bool) :
    createIsaString (normalizeExtensions (recordedDescriptor s) rv64) rv64 lowercase =
      canonicalIsaString (canonicalSet rv64 {f | f ∈ recorded s}) rv64 lowercase := by
  rw [createIsaString_eq_canonical, shown_parsed]

/-- **Parse, then print.** An accepted string is printed as the canonical string
of the closure of what was recorded from it. -/
theorem createIsaString_parseIsaString (s : Text) (d : RVMExtDescriptor)
    (rv64 lowercase : Bool) (h : parseIsaString s = .ok (d, rv64)) :
    createIsaString d rv64 lowercase =
      canonicalIsaString (canonicalSet rv64 {f | f ∈ recorded s}) rv64 lowercase := by
  obtain ⟨-, hd⟩ := (parseIsaString_eq_ok_iff s d rv64).mp h
  rw [hd]
  exact createIsaString_recorded s rv64 lowercase

/-- The case of `rv32gc_zk`, where the composites nest. -/
theorem createIsaString_parseIsaString_rv32gc_zk :
    ∃ d, parseIsaString "rv32gc_zk".toList = .ok (d, false) ∧
      createIsaString d false true = canonicalIsaString
        (canonicalSet false {f | f ∈ recorded "rv32gc_zk".toList}) false true := by
  have hok : (parseIsaString "rv32gc_zk".toList).toOption.map Prod.snd = some false := by
    decide +kernel
  cases hr : parseIsaString "rv32gc_zk".toList with
  | error e =>
      rw [hr] at hok
      cases hok
  | ok r =>
      rcases r with ⟨d, rv64⟩
      rw [hr] at hok
      cases hok
      exact ⟨d, rfl, createIsaString_parseIsaString _ d false true hr⟩

/-! ## Print, then parse -/

theorem reservedLetters_not_shown (d : RVMExtDescriptor) (rv64 : Bool) :
    ∀ f ∈ reservedLetters, f ∉ shown d rv64 :=
  fun _ hf hs => (mem_shown.mp hs).2.2.1 hf

theorem Plain.named {d : RVMExtDescriptor} (hd : Plain d) {f : ExtFlag}
    (h : d.InRange f) : Named f :=
  (named_iff_inRange f).mpr ((hd.sizes.inRange_iff f).mp h)

/-- A descriptor in normal form is recorded from its own printed string. -/
theorem recordedDescriptor_createIsaString {d : RVMExtDescriptor} {rv64 : Bool}
    (lowercase : Bool) (hd : Plain d) (hres : ∀ f ∈ reservedLetters, d.get f = 0)
    (hoob : ∀ f ∈ outOfBand, d.get f = 0) (hnorm : normalizeExtensions d rv64 = d) :
    recordedDescriptor (createIsaString d rv64 lowercase) = d := by
  have hshown : ∀ f, f ∈ shown d rv64 ↔
      d.get f ≠ 0 ∧ d.InRange f ∧ f ∉ reservedLetters ∧ f ∉ outOfBand := by
    intro f
    unfold shown
    rw [hnorm]
    rfl
  rw [createIsaString_eq_canonical]
  apply ext_get ((sameSizes_recordedDescriptor _).trans hd.sizes.symm)
  intro f
  have hmem := mem_recorded_canonical rv64 lowercase
    (reservedLetters_not_shown d rv64) (f := f)
  rw [hshown] at hmem
  rw [recordedDescriptor, get_setAll, get_rvmInitExtDescriptor]
  rcases hd.bits f with h0 | h1
  · rw [if_neg fun h => (hmem.mp h).2.1 h0, h0]
  · have hne : d.get f ≠ 0 := by
      rw [h1]
      decide
    have hrange : d.InRange f := by
      by_contra hout
      exact hne (hd.past f hout)
    rw [if_pos (hmem.mpr ⟨hd.named hrange, hne, hrange, fun h => hne (hres f h),
      fun h => hne (hoob f h)⟩), h1]

/-- **Parsing undoes printing** on every descriptor in normal form. -/
theorem parseIsaString_createIsaString (d : RVMExtDescriptor) (rv64 lowercase : Bool)
    (hd : Plain d) (hbase : d.misaExt .I ≠ 0 ∨ d.misaExt .E ≠ 0)
    (hres : ∀ f ∈ reservedLetters, d.get f = 0) (hoob : ∀ f ∈ outOfBand, d.get f = 0)
    (hnorm : normalizeExtensions d rv64 = d) :
    parseIsaString (createIsaString d rv64 lowercase) = .ok (d, rv64) := by
  have hrec := recordedDescriptor_createIsaString lowercase hd hres hoob hnorm
  rw [parseIsaString_eq_ok_iff, hrec]
  refine ⟨?_, hnorm.symm⟩
  rw [createIsaString_eq_canonical,
    accepted_canonical rv64 lowercase (reservedLetters_not_shown d rv64)]
  have hmisa : ∀ e, d.misaExt e ≠ 0 → .misa e ∈ shown d rv64 := by
    intro e he
    rw [mem_shown, ← get_normalizeExtensions_ne_zero, hnorm]
    exact ⟨he, trivial, fun h => he (hres _ h), misa_not_outOfBand e⟩
  refine ⟨rfl, ?_⟩
  rcases hbase with hI | hE
  · exact Or.inl (hmisa .I hI)
  · exact Or.inr (Or.inl (hmisa .E hE))

/-- What is printed and parsed back is printed as the closure of the first print. -/
theorem createIsaString_reparsed {d d' : RVMExtDescriptor} {rv64 lowercase : Bool}
    (hd : Plain d)
    (h : parseIsaString (createIsaString d rv64 lowercase) = .ok (d', rv64)) :
    createIsaString d' rv64 lowercase =
      canonicalIsaString (canonicalSet rv64 (shown d rv64)) rv64 lowercase := by
  have hrec : {f | f ∈ recorded (createIsaString d rv64 lowercase)} = shown d rv64 := by
    ext f
    rw [createIsaString_eq_canonical]
    show f ∈ recorded _ ↔ _
    rw [mem_recorded_canonical rv64 lowercase (reservedLetters_not_shown d rv64)]
    exact ⟨And.right, fun hf => ⟨hd.named (mem_shown.mp hf).2.1, hf⟩⟩
  rw [((parseIsaString_eq_ok_iff _ _ _).mp h).2, createIsaString_recorded, hrec]

/-! ## Printing again -/

section Reprint

variable {d : RVMExtDescriptor} {rv64 : Bool}

theorem heads_shown : ∀ r ∈ compositeRules, rvmInitExtDescriptor.InRange r.composite ∧
    r.composite ∉ reservedLetters ∧ r.composite ∉ outOfBand := by
  decide

theorem cInputs_shown : ∀ f ∈ cInputs, rvmInitExtDescriptor.InRange f ∧
    f ∉ reservedLetters ∧ f ∉ outOfBand := by
  decide

theorem Plain.mem_shown_of (hd : Plain d) {f : ExtFlag}
    (hf : rvmInitExtDescriptor.InRange f ∧ f ∉ reservedLetters ∧ f ∉ outOfBand) :
    f ∈ shown d rv64 ↔ f ∈ normalizeSet rv64 d.enabled := by
  rw [mem_shown, hd.sizes.inRange_iff]
  exact ⟨And.left, fun h => ⟨h, hf⟩⟩

theorem Plain.misa_mem_shown (hd : Plain d) {e : RVMMisaExt}
    (he : .misa e ∉ reservedLetters) :
    .misa e ∈ shown d rv64 ↔ .misa e ∈ normalizeSet rv64 d.enabled :=
  hd.mem_shown_of ⟨trivial, he, misa_not_outOfBand e⟩

/-- A shown composite, or both bases shown: the second print differs. -/
theorem not_reprinted (hd : Plain d)
    (h : ∀ f, Named f → (f ∈ canonicalSet rv64 (shown d rv64) ↔ f ∈ shown d rv64)) :
    (∀ c ∈ nestedComposites, d.get c = 0) ∧
      ¬ (d.misaExt .E ≠ 0 ∧ d.misaExt .G ≠ 0 ∧ d.misaExt .I = 0) := by
  constructor
  · have hleft : ∀ c ∈ heads compositeRules, c ∉ sweep compositeRules (baseSet d.enabled) := by
      rintro c ⟨r, hr, rfl⟩ hc
      have hs : r.composite ∈ shown d rv64 :=
        (hd.mem_shown_of (heads_shown r hr)).mpr (Or.inl hc)
      have hnamed := (named_iff_inRange r.composite).mpr (heads_shown r hr).1
      rcases ((h _ hnamed).mpr hs).1 with ⟨-, hnot, -⟩ | ⟨hC, -⟩
      · exact hnot ⟨r, hr, rfl⟩
      · exact misaC_not_head ⟨r, hr, hC⟩
    intro c hc
    by_contra hne
    exact sweep_baseSet_disjoint_heads_iff.mp hleft c hc hne
  · rintro ⟨hE, hG, hI⟩
    have hIs : .misa .I ∈ shown d rv64 :=
      (hd.misa_mem_shown (by decide)).mpr (misaI_mem_normalizeSet.mpr (Or.inr hG))
    have hEs : .misa .E ∈ shown d rv64 :=
      (hd.misa_mem_shown (by decide)).mpr
        (misaE_mem_normalizeSet.mpr ⟨hE, fun h => h hI⟩)
    rcases ((h (.misa .E) (Or.inl ⟨_, rfl⟩)).mpr hEs).1 with ⟨-, -, hnot⟩ | ⟨hC, -⟩
    · exact hnot ⟨rfl, subset_closure hIs⟩
    · cases hC

/-- With neither, the shown set is closed already. -/
theorem reprinted (hd : Plain d) (hnested : ∀ c ∈ nestedComposites, d.get c = 0)
    (hEG : ¬ (d.misaExt .E ≠ 0 ∧ d.misaExt .G ≠ 0 ∧ d.misaExt .I = 0)) (f : ExtFlag) :
    f ∈ canonicalSet rv64 (shown d rv64) ↔ f ∈ shown d rv64 := by
  have hsweep : ∀ c ∈ heads compositeRules, c ∉ sweep compositeRules (baseSet d.enabled) :=
    sweep_baseSet_disjoint_heads_iff.mpr fun c hc hne => hne (hnested c hc)
  have hleft : ∀ c ∈ heads compositeRules, c ∉ shown d rv64 := by
    intro c hc hs
    rcases (mem_shown.mp hs).1 with hmem | ⟨rfl, -⟩
    · exact hsweep c hc hmem
    · exact misaC_not_head hc
  have hclosure := closure_eq_of_disjoint_heads hleft
  have hC : CRule rv64 (shown d rv64) → .misa .C ∈ shown d rv64 := by
    intro h
    have hcongr : CRule rv64 (shown d rv64) ↔
        CRule rv64 (sweep compositeRules (baseSet d.enabled)) := by
      apply CRule_congr
      intro g hg
      rw [hd.mem_shown_of (cInputs_shown g hg),
        mem_normalizeSet_of_ne_C (cInputs_outer g hg).2.2.1]
    exact (hd.misa_mem_shown (by decide)).mpr (Or.inr ⟨rfl, hcongr.mp h⟩)
  have hbase : ¬ (.misa .E ∈ shown d rv64 ∧ .misa .I ∈ shown d rv64) := by
    rintro ⟨hE, hI⟩
    obtain ⟨hE, hnI⟩ := misaE_mem_normalizeSet.mp ((hd.misa_mem_shown (by decide)).mp hE)
    rcases misaI_mem_normalizeSet.mp ((hd.misa_mem_shown (by decide)).mp hI) with hI | hG
    · exact hnI hI
    · exact hEG ⟨hE, hG, by simpa [RVMExtDescriptor.get] using hnI⟩
  unfold canonicalSet closedSet
  rw [hclosure]
  constructor
  · rintro ⟨⟨hf, -, -⟩ | ⟨rfl, hrule⟩, -⟩
    · exact hf
    · exact hC hrule
  · intro hf
    refine ⟨Or.inl ⟨hf, fun h => hleft f h hf, ?_⟩, (mem_shown.mp hf).2.2.2⟩
    rintro ⟨rfl, hI⟩
    exact hbase ⟨hf, hI⟩

end Reprint

/-- A printed string always has its base and is accepted. -/
theorem parseIsaString_printed {d : RVMExtDescriptor} (rv64 lowercase : Bool)
    (hbase : d.misaExt .I ≠ 0 ∨ d.misaExt .E ≠ 0 ∨ d.misaExt .G ≠ 0) :
    parseIsaString (createIsaString d rv64 lowercase) =
      .ok (normalizeExtensions (recordedDescriptor (createIsaString d rv64 lowercase)) rv64,
        rv64) := by
  have hmisa : ∀ e, .misa e ∉ reservedLetters →
      .misa e ∈ normalizeSet rv64 d.enabled → .misa e ∈ shown d rv64 :=
    fun e he h => mem_shown.mpr ⟨h, trivial, he, misa_not_outOfBand e⟩
  rw [parseIsaString_eq_ok_iff, createIsaString_eq_canonical,
    accepted_canonical rv64 lowercase (reservedLetters_not_shown d rv64)]
  refine ⟨⟨rfl, ?_⟩, rfl⟩
  have hmem : .misa .I ∈ d.enabled ∨ .misa .E ∈ d.enabled ∨ .misa .G ∈ d.enabled := hbase
  rcases (base_mem_normalizeSet (S := d.enabled)).mpr hmem with hI | hE
  · exact Or.inl (hmisa .I (by decide) hI)
  · exact Or.inr (Or.inl (hmisa .E (by decide) hE))

/-- **Printing is stable under a parse exactly when no nested composite and not
"E" with "G" alone is asked for.** -/
theorem createIsaString_stable_iff (d : RVMExtDescriptor) (rv64 lowercase : Bool)
    (hd : Plain d)
    (hbase : d.misaExt .I ≠ 0 ∨ d.misaExt .E ≠ 0 ∨ d.misaExt .G ≠ 0) :
    (∃ d', parseIsaString (createIsaString d rv64 lowercase) = .ok (d', rv64) ∧
        createIsaString d' rv64 lowercase = createIsaString d rv64 lowercase) ↔
      (∀ c ∈ nestedComposites, d.get c = 0) ∧
        ¬ (d.misaExt .E ≠ 0 ∧ d.misaExt .G ≠ 0 ∧ d.misaExt .I = 0) := by
  have hparse := parseIsaString_printed rv64 lowercase hbase
  have hres : ∀ f ∈ reservedLetters, f ∉ canonicalSet rv64 (shown d rv64) := by
    intro f hf hc
    have hspell : ∀ g ∈ shown d rv64, Spellable g := fun g hg =>
      ⟨hd.named (mem_shown.mp hg).2.1, (mem_shown.mp hg).2.2.1⟩
    exact (closedSet_spellable hspell f hc.1).2 hf
  have hsame : (∃ d', parseIsaString (createIsaString d rv64 lowercase) = .ok (d', rv64) ∧
        createIsaString d' rv64 lowercase = createIsaString d rv64 lowercase) ↔
      ∀ f, Named f → (f ∈ canonicalSet rv64 (shown d rv64) ↔ f ∈ shown d rv64) := by
    rw [← canonicalIsaString_eq_iff rv64 lowercase hres (reservedLetters_not_shown d rv64),
      ← createIsaString_reparsed hd hparse, ← createIsaString_eq_canonical]
    constructor
    · rintro ⟨d', hd', heq⟩
      have hd'' := ((parseIsaString_eq_ok_iff _ _ _).mp hd').2
      rwa [hd''] at heq
    · exact fun heq => ⟨_, hparse, heq⟩
  rw [hsame]
  constructor
  · exact not_reprinted hd
  · rintro ⟨hnested, hEG⟩ f -
    exact reprinted hd hnested hEG f

/-! ## Descriptors at hand -/

theorem plain_rvmInitExtDescriptor : Plain rvmInitExtDescriptor :=
  ⟨⟨rfl, rfl, rfl⟩, fun f => Or.inl (get_rvmInitExtDescriptor f),
    fun f _ => get_rvmInitExtDescriptor f⟩

theorem Plain.set_one {d : RVMExtDescriptor} (hd : Plain d) (f : ExtFlag)
    (hf : rvmInitExtDescriptor.InRange f) : Plain (d.set f 1) := by
  have hsizes := sameSizes_set d f 1
  refine ⟨hsizes.trans hd.sizes, ?_, ?_⟩
  · intro g
    rw [get_set]
    split
    · exact Or.inr rfl
    · exact hd.bits g
  · intro g hg
    have hne : g ≠ f := by
      rintro rfl
      exact hg (((hsizes.trans hd.sizes).inRange_iff g).mpr hf)
    rw [get_set_of_ne hne]
    exact hd.past g fun h => hg ((hsizes.inRange_iff g).mpr h)

/-- `rv64i_zba` -/
def rv64iZba : RVMExtDescriptor :=
  (rvmInitExtDescriptor.set (.misa .I) 1).set (.zext .BA) 1

theorem plain_rv64iZba : Plain rv64iZba :=
  (plain_rvmInitExtDescriptor.set_one (.misa .I) trivial).set_one _ (by decide)

theorem parseIsaString_createIsaString_rv64iZba :
    parseIsaString (createIsaString rv64iZba true) = .ok (rv64iZba, true) :=
  parseIsaString_createIsaString rv64iZba true false plain_rv64iZba
    (Or.inl (by decide)) (by decide) (by decide) rfl

theorem createIsaString_stable_iff_rv64iZba :
    (∃ d', parseIsaString (createIsaString rv64iZba true) = .ok (d', true) ∧
        createIsaString d' true = createIsaString rv64iZba true) ↔
      (∀ c ∈ nestedComposites, rv64iZba.get c = 0) ∧
        ¬ (rv64iZba.misaExt .E ≠ 0 ∧ rv64iZba.misaExt .G ≠ 0 ∧ rv64iZba.misaExt .I = 0) :=
  createIsaString_stable_iff rv64iZba true false plain_rv64iZba (Or.inl (by decide))

/-- `rv64i` with Zk prints Zkn, which the parser takes apart. -/
theorem createIsaString_not_stable :
    ¬ ∀ (d : RVMExtDescriptor) (rv64 lowercase : Bool), Plain d →
      (d.misaExt .I ≠ 0 ∨ d.misaExt .E ≠ 0 ∨ d.misaExt .G ≠ 0) →
      ∃ d', parseIsaString (createIsaString d rv64 lowercase) = .ok (d', rv64) ∧
        createIsaString d' rv64 lowercase = createIsaString d rv64 lowercase := by
  intro h
  obtain ⟨d', hparse, hsame⟩ :=
    h ((rvmInitExtDescriptor.set (.misa .I) 1).set (.zext .K) 1) true false
      ((plain_rvmInitExtDescriptor.set_one (.misa .I) trivial).set_one _ (by decide))
      (Or.inl (by decide))
  have hreprint : (parseIsaString (createIsaString
      ((rvmInitExtDescriptor.set (.misa .I) 1).set (.zext .K) 1) true)).toOption.map
        (fun r => createIsaString r.1 true) =
      some "RV64IZbkb_Zbkc_Zbkx_Zknd_Zkne_Zknh_Zkr_Zkt".toList := by decide +kernel
  rw [hparse] at hreprint
  have hfirst : createIsaString d' true =
      "RV64IZbkb_Zbkc_Zbkx_Zknd_Zkne_Zknh_Zkr_Zkt".toList := Option.some.inj hreprint
  rw [hsame] at hfirst
  revert hfirst
  decide +kernel

end Rvmi.Isa
