import Rvmi.Isa.Parsed
import Rvmi.Isa.RoundTrip

/-!
# Normal forms

A descriptor that the normalisation leaves alone names no composite and not
both bases, and has MISA.C where the Zc* flags imply it. One call reaches such
a descriptor unless a composite was nested or "G" brought "I" in beside "E"; a
second call always does. The printer works on parsed descriptors, which were
normalised before, so what it prints of them can be parsed and printed again
without moving.
-/

namespace Rvmi.Isa

open Rvmi.Foundation CompositeRule RVMExtDescriptor

/-! ## Descriptors that stay -/

/-- Nothing for `normalizeExtensions` to do. -/
structure Normal (d : RVMExtDescriptor) (rv64 : Bool) : Prop where
  noComposite : ∀ r ∈ compositeRules, d.get r.composite = 0
  oneBase : ¬ (d.misaExt .I ≠ 0 ∧ d.misaExt .E ≠ 0)
  misaC : CRule rv64 d.enabled → d.misaExt .C = 1

theorem set_get_self (d : RVMExtDescriptor) (f : ExtFlag) : d.set f (d.get f) = d := by
  apply ext_get (sameSizes_set d f _)
  intro g
  rw [get_set]
  split
  · next h => rw [h]
  · rfl

theorem foldl_expandComposite_of_absent {d : RVMExtDescriptor}
    {rules : List (CompositeRule ExtFlag)} (h : ∀ r ∈ rules, d.get r.composite = 0) :
    rules.foldl expandComposite d = d := by
  induction rules with
  | nil => rfl
  | cons r rules ih =>
      have hr : expandComposite d r = d :=
        if_neg (not_not_intro (h r List.mem_cons_self))
      rw [List.foldl_cons, hr]
      exact ih fun r' hr' => h r' (List.mem_cons_of_mem _ hr')

theorem Normal.stays {d : RVMExtDescriptor} {rv64 : Bool} (h : Normal d rv64) :
    normalizeExtensions d rv64 = d := by
  have hbase : selectBase d = d := if_neg h.oneBase
  unfold normalizeExtensions
  rw [hbase, foldl_expandComposite_of_absent h.noComposite]
  rcases inferMisaC_eq rv64 d with ⟨heq, -⟩ | ⟨heq, hC⟩
  · exact heq
  · have hone : d.get (.misa .C) = 1 := h.misaC hC
    rw [heq, ← hone]
    exact set_get_self d _

/-- After a call MISA.C is 1 where it is implied; the flags it is inferred from
are not touched by setting it. -/
theorem misaC_normalizeExtensions {d : RVMExtDescriptor} {rv64 : Bool}
    (h : CRule rv64 (normalizeExtensions d rv64).enabled) :
    (normalizeExtensions d rv64).misaExt .C = 1 := by
  unfold normalizeExtensions at h ⊢
  rcases inferMisaC_eq rv64 (compositeRules.foldl expandComposite (selectBase d))
    with ⟨heq, hC⟩ | ⟨heq, -⟩
  · rw [heq] at h
    exact absurd h hC
  · rw [heq]
    exact (get_set _ (.misa .C) _ _).trans (if_pos rfl)

theorem composite_mem_normalizeSet (rv64 : Bool) {S : Set ExtFlag} {c : ExtFlag}
    (hc : c ∈ heads compositeRules) :
    c ∈ normalizeSet rv64 S ↔ c ∈ sweep compositeRules (baseSet S) :=
  mem_normalizeSet_of_ne_C fun h => misaC_not_head (h ▸ hc)

/-- **Normal form.** The conditions are exactly what it takes to be left alone. -/
theorem normalizeExtensions_eq_self_iff (d : RVMExtDescriptor) (rv64 : Bool) :
    normalizeExtensions d rv64 = d ↔ Normal d rv64 := by
  constructor
  · intro h
    have hset : normalizeSet rv64 d.enabled = d.enabled := by
      rw [← enabled_normalizeExtensions, h]
    refine ⟨?_, ?_, ?_⟩
    · intro r hr
      by_contra hne
      have hhead : r.composite ∈ heads compositeRules := ⟨r, hr, rfl⟩
      have hsweep : r.composite ∈ sweep compositeRules (baseSet d.enabled) := by
        rw [← composite_mem_normalizeSet rv64 hhead, hset]
        exact hne
      -- a composite that is still there was published by a nested one, and
      -- that one would be still there, too
      rcases (mem_sweep_innerFirst compositeRules_uniqueHeads
        compositeRules_innerFirst).mp hsweep with ⟨-, hnot⟩ | ⟨r', hr', hc, hx⟩
      · exact hnot hhead
      · have hnested : r'.composite ∈ nested compositeRules :=
          ⟨r', hr', rfl, _, hx, hhead⟩
        apply sweep_disjoint_nested compositeRules_uniqueHeads compositeRules_innerFirst
          compositeRules_nestedOnce (S := baseSet d.enabled) _ hnested
        rw [← composite_mem_normalizeSet rv64 ⟨r', hr', rfl⟩, hset]
        exact hc.1
    · rintro ⟨hI, hE⟩
      have hE' : ExtFlag.misa .E ∈ normalizeSet rv64 d.enabled := by
        rw [hset]
        exact hE
      exact (misaE_mem_normalizeSet.mp hE').2 hI
    · intro hC
      rw [← h] at hC ⊢
      exact misaC_normalizeExtensions hC
  · exact Normal.stays

/-! ## How many calls it takes -/

/-- One call is enough unless a composite is nested or "G" stands with "E" alone. -/
theorem normal_normalizeExtensions_iff (d : RVMExtDescriptor) (rv64 : Bool) :
    Normal (normalizeExtensions d rv64) rv64 ↔
      (∀ c ∈ nestedComposites, d.get c = 0) ∧
        ¬ (d.misaExt .E ≠ 0 ∧ d.misaExt .G ≠ 0 ∧ d.misaExt .I = 0) := by
  have hcomposites : (∀ r ∈ compositeRules,
        (normalizeExtensions d rv64).get r.composite = 0) ↔
      ∀ c ∈ nestedComposites, d.get c = 0 := by
    have hleft : (∀ r ∈ compositeRules,
          (normalizeExtensions d rv64).get r.composite = 0) ↔
        ∀ c ∈ heads compositeRules, c ∉ sweep compositeRules (baseSet d.enabled) := by
      constructor
      · rintro h c ⟨r, hr, rfl⟩ hc
        have hmem := (composite_mem_normalizeSet rv64 ⟨r, hr, rfl⟩).mpr hc
        exact (get_normalizeExtensions_ne_zero d rv64 _).mpr hmem (h r hr)
      · intro h r hr
        by_contra hne
        have hmem := (get_normalizeExtensions_ne_zero d rv64 _).mp hne
        exact h _ ⟨r, hr, rfl⟩ ((composite_mem_normalizeSet rv64 ⟨r, hr, rfl⟩).mp hmem)
    rw [hleft, sweep_baseSet_disjoint_heads_iff]
    exact ⟨fun h c hc => by_contra (h c hc), fun h c hc hne => hne (h c hc)⟩
  have hE : (normalizeExtensions d rv64).misaExt .E ≠ 0 ↔
      d.misaExt .E ≠ 0 ∧ d.misaExt .I = 0 := by
    have hmem := (get_normalizeExtensions_ne_zero d rv64 (.misa .E)).trans
      misaE_mem_normalizeSet
    rw [mem_enabled, mem_enabled, not_not] at hmem
    exact hmem
  have hI : (normalizeExtensions d rv64).misaExt .I ≠ 0 ↔
      d.misaExt .I ≠ 0 ∨ d.misaExt .G ≠ 0 :=
    (get_normalizeExtensions_ne_zero d rv64 (.misa .I)).trans misaI_mem_normalizeSet
  constructor
  · intro h
    refine ⟨hcomposites.mp h.noComposite, ?_⟩
    rintro ⟨he, hg, hi⟩
    exact h.oneBase ⟨hI.mpr (Or.inr hg), hE.mpr ⟨he, hi⟩⟩
  · rintro ⟨hnested, hEG⟩
    refine ⟨hcomposites.mpr hnested, ?_, misaC_normalizeExtensions⟩
    rintro ⟨hIs, hEs⟩
    obtain ⟨he, hi⟩ := hE.mp hEs
    rcases hI.mp hIs with hi' | hg
    · exact hi' hi
    · exact hEG ⟨he, hg, hi⟩

/-- What a call leaves has neither nested composites nor "G". -/
theorem normal_twice (d : RVMExtDescriptor) (rv64 : Bool) :
    Normal (normalizeExtensions (normalizeExtensions d rv64) rv64) rv64 := by
  rw [normal_normalizeExtensions_iff]
  have hnested : ∀ c ∈ nested compositeRules, (normalizeExtensions d rv64).get c = 0 := by
    intro c hc
    have hhead : c ∈ heads compositeRules := by
      obtain ⟨r, hr, rfl, -⟩ := hc
      exact ⟨r, hr, rfl⟩
    by_contra hne
    have hmem := (get_normalizeExtensions_ne_zero d rv64 c).mp hne
    exact sweep_disjoint_nested compositeRules_uniqueHeads compositeRules_innerFirst
      compositeRules_nestedOnce c hc ((composite_mem_normalizeSet rv64 hhead).mp hmem)
  constructor
  · exact fun c hc => hnested c ((mem_nested_iff c).mpr hc)
  · rintro ⟨-, hG, -⟩
    have hhead : ExtFlag.misa .G ∈ heads compositeRules := ⟨_, List.mem_cons_self, rfl⟩
    have hmem := (get_normalizeExtensions_ne_zero d rv64 (.misa .G)).mp hG
    rw [composite_mem_normalizeSet rv64 hhead, mem_sweep_baseSet (by decide)] at hmem
    rcases hmem with ⟨-, hnot⟩ | ⟨r, hr, -, hx⟩
    · exact hnot hhead
    · exact (misa_E_C_G_not_component r hr).2.2 hx

/-- **Two calls settle every descriptor**, bytes and size fields included, and
one call does exactly when no nested composite and not "E" with "G" alone is
asked for. -/
theorem normalizeExtensions_settles (d : RVMExtDescriptor) (rv64 : Bool) :
    normalizeExtensions (normalizeExtensions (normalizeExtensions d rv64) rv64) rv64 =
        normalizeExtensions (normalizeExtensions d rv64) rv64 ∧
      (normalizeExtensions (normalizeExtensions d rv64) rv64 =
          normalizeExtensions d rv64 ↔
        (∀ c ∈ nestedComposites, d.get c = 0) ∧
          ¬ (d.misaExt .E ≠ 0 ∧ d.misaExt .G ≠ 0 ∧ d.misaExt .I = 0)) := by
  constructor
  · exact (normal_twice d rv64).stays
  · rw [normalizeExtensions_eq_self_iff, normal_normalizeExtensions_iff]

/-! ## Printing what was parsed -/

theorem get_recordedDescriptor (s : Text) (f : ExtFlag) :
    (recordedDescriptor s).get f = if f ∈ recorded s then 1 else 0 := by
  rw [recordedDescriptor, get_setAll, get_rvmInitExtDescriptor]

/-- The flags a canonical string names are in normal form. -/
theorem normal_of_canonicalSet {d : RVMExtDescriptor} {rv64 : Bool} {S : Set ExtFlag}
    (h : ∀ f, d.get f ≠ 0 ↔ f ∈ canonicalSet rv64 S)
    (hbits : ∀ f, d.get f ≠ 0 → d.get f = 1) : Normal d rv64 := by
  have hinputs : CRule rv64 d.enabled ↔ CRule rv64 (closure compositeRules S) := by
    apply CRule_congr
    intro f hf
    obtain ⟨hhead, hE, hC, -⟩ := cInputs_outer f hf
    rw [mem_enabled, h]
    constructor
    · rintro ⟨⟨hmem, -, -⟩ | ⟨rfl, -⟩, -⟩
      · exact hmem
      · exact absurd rfl hC
    · exact fun hmem => ⟨Or.inl ⟨hmem, hhead, fun he => hE he.1⟩, (cInputs_shown f hf).2.2⟩
  refine ⟨?_, ?_, ?_⟩
  · intro r hr
    by_contra hne
    rcases ((h _).mp hne).1 with ⟨-, hnot, -⟩ | ⟨hC, -⟩
    · exact hnot ⟨r, hr, rfl⟩
    · exact misaC_not_head ⟨r, hr, hC⟩
  · rintro ⟨hI, hE⟩
    have hI' : ExtFlag.misa .I ∈ closure compositeRules S := by
      rcases ((h (.misa .I)).mp hI).1 with ⟨hmem, -, -⟩ | ⟨hC, -⟩
      · exact hmem
      · cases hC
    rcases ((h (.misa .E)).mp hE).1 with ⟨-, -, hnot⟩ | ⟨hC, -⟩
    · exact hnot ⟨rfl, hI'⟩
    · cases hC
  · intro hC
    apply hbits (.misa .C)
    exact (h _).mpr ⟨Or.inr ⟨rfl, hinputs.mp hC⟩, misa_not_outOfBand .C⟩

section Reparsed

variable {s : Text} {d : RVMExtDescriptor} {rv64 : Bool}

theorem shown_of_parsed (h : parseIsaString s = .ok (d, rv64)) :
    shown d rv64 = canonicalSet rv64 {f | f ∈ recorded s} := by
  rw [((parseIsaString_eq_ok_iff s d rv64).mp h).2, shown_parsed]

/-- Recorded from the printed string is what was printed, in either case. -/
theorem mem_recorded_printed (h : parseIsaString s = .ok (d, rv64)) (lowercase : Bool)
    (f : ExtFlag) : f ∈ recorded (createIsaString d rv64 lowercase) ↔
      f ∈ canonicalSet rv64 {f | f ∈ recorded s} := by
  rw [createIsaString_eq_canonical, mem_recorded_canonical rv64 lowercase
    (reservedLetters_not_shown d rv64), shown_of_parsed h]
  refine ⟨And.right, fun hf => ⟨?_, hf⟩⟩
  exact (closedSet_spellable (fun g hg => recorded_spellable g hg) f hf.1).1

theorem recordedDescriptor_printed (h : parseIsaString s = .ok (d, rv64))
    (lowercase : Bool) : recordedDescriptor (createIsaString d rv64 lowercase) =
      recordedDescriptor (createIsaString d rv64 false) := by
  apply ext_get ((sameSizes_recordedDescriptor _).trans
    (sameSizes_recordedDescriptor _).symm)
  intro f
  rw [get_recordedDescriptor, get_recordedDescriptor]
  exact if_congr ((mem_recorded_printed h lowercase f).trans
    (mem_recorded_printed h false f).symm) rfl rfl

theorem normal_recorded_printed (h : parseIsaString s = .ok (d, rv64)) :
    Normal (recordedDescriptor (createIsaString d rv64 false)) rv64 := by
  have hget : ∀ f, (recordedDescriptor (createIsaString d rv64 false)).get f ≠ 0 ↔
      f ∈ recorded (createIsaString d rv64 false) := by
    intro f
    exact mem_enabled_recordedDescriptor
  apply normal_of_canonicalSet (S := {f | f ∈ recorded s})
  · exact fun f => (hget f).trans (mem_recorded_printed h false f)
  · intro f hf
    rw [get_recordedDescriptor, if_pos ((hget f).mp hf)]

/-- The printer shows all that was recorded from the printed string. -/
theorem shown_recorded_printed (h : parseIsaString s = .ok (d, rv64)) :
    shown (recordedDescriptor (createIsaString d rv64 false)) rv64 =
      canonicalSet rv64 {f | f ∈ recorded s} := by
  ext f
  have hmem : (recordedDescriptor (createIsaString d rv64 false)).get f ≠ 0 ↔
      f ∈ canonicalSet rv64 {f | f ∈ recorded s} :=
    mem_enabled_recordedDescriptor.trans (mem_recorded_printed h false f)
  rw [mem_shown, ← get_normalizeExtensions_ne_zero, (normal_recorded_printed h).stays, hmem,
    (sameSizes_recordedDescriptor _).inRange_iff]
  refine ⟨And.left, fun hf => ⟨hf, ?_⟩⟩
  obtain ⟨hnamed, hres⟩ := closedSet_spellable (fun g hg => recorded_spellable g hg) f hf.1
  exact ⟨(named_iff_inRange f).mp hnamed, hres, hf.2⟩

theorem base_parsed (h : parseIsaString s = .ok (d, rv64)) :
    d.misaExt .I ≠ 0 ∨ d.misaExt .E ≠ 0 := by
  obtain ⟨hacc, hd⟩ := (parseIsaString_eq_ok_iff s d rv64).mp h
  have hset : d.enabled = normalizeSet rv64 (recordedDescriptor s).enabled := by
    rw [hd, enabled_normalizeExtensions]
  have hbase : .misa .I ∈ (recordedDescriptor s).enabled ∨
      .misa .E ∈ (recordedDescriptor s).enabled ∨
      .misa .G ∈ (recordedDescriptor s).enabled := by
    simp only [mem_enabled_recordedDescriptor, misa_mem_recorded]
    exact hacc.base
  have hleft := (@base_mem_normalizeSet rv64 _).mpr hbase
  rw [← hset] at hleft
  exact hleft

/-- **Printing an accepted string settles it.** Parsed back in either case, it
gives one descriptor in normal form, which is printed as the same string. -/
theorem createIsaString_parsed_settles (h : parseIsaString s = .ok (d, rv64)) :
    ∃ d', normalizeExtensions d' rv64 = d' ∧ ∀ lowercase,
      parseIsaString (createIsaString d rv64 lowercase) = .ok (d', rv64) ∧
        createIsaString d' rv64 lowercase = createIsaString d rv64 lowercase := by
  have hnormal := normal_recorded_printed h
  have hbase : d.misaExt .I ≠ 0 ∨ d.misaExt .E ≠ 0 ∨ d.misaExt .G ≠ 0 :=
    (base_parsed h).imp_right Or.inl
  refine ⟨_, hnormal.stays, fun lowercase => ⟨?_, ?_⟩⟩
  · rw [parseIsaString_printed rv64 lowercase hbase, recordedDescriptor_printed h,
      hnormal.stays]
  · rw [createIsaString_eq_canonical (recordedDescriptor _), shown_recorded_printed h,
      createIsaString_eq_canonical d, shown_of_parsed h]

end Reparsed

/-- `rv32gc_zk`, which a parse alone leaves with a composite. -/
theorem createIsaString_parsed_settles_rv32gc_zk :
    ∃ d, parseIsaString "rv32gc_zk".toList = .ok (d, false) ∧
      ∃ d', normalizeExtensions d' false = d' ∧ ∀ lowercase,
        parseIsaString (createIsaString d false lowercase) = .ok (d', false) ∧
          createIsaString d' false lowercase = createIsaString d false lowercase := by
  obtain ⟨d, hd⟩ : ∃ d, parseIsaString "rv32gc_zk".toList = .ok (d, false) :=
    parseIsaString_ok_of_toOption (by decide +kernel)
  exact ⟨d, hd, createIsaString_parsed_settles hd⟩

/-! ## What a printed string tells -/

end Rvmi.Isa
