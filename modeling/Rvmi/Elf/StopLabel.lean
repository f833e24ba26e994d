import Rvmi.Elf.Loaded

/-!
# The stop address

The loader takes the first symbol table in section order and looks for the stop
label in this table alone. A stripped image has no table to take.
-/

namespace Rvmi.Elf

open Rvmi.Foundation Rvmi.Log

variable {σ : Type} {M : LoaderModel σ} {image : Image} {w w' : LoadWorld σ} {u : Unit}
  {load : Text → Option Image} {path : Text} {iterations : Nat}

/-! ## Stripped images -/

/-- What the warning promises of an image, whether or not it is stripped. -/
structure DefaultsWhenStripped (M : LoaderModel σ) (load : Text → Option Image) (path : Text)
    (image : Image) (w : LoadWorld σ) : Prop where
  inRange : ∀ iterations w',
    parseELFAndInit M load path iterations w ≠ .error .undefinedBehaviour w'
  default : ¬ image.HasSymbolTable → ∃ iterations s w',
    parseELFAndInit M load path iterations w = .ok () w' ∧ M.setStopPC 1 s = (.SUCCESS, w'.model)

/-- The search for a symbol table has to succeed. -/
theorem defaultsWhenStripped_iff (hload : load path = some image) {s : σ}
    (h : LoadsTo M image w.model s) :
    DefaultsWhenStripped M load path image w ↔ image.HasSymbolTable := by
  constructor
  · intro hdefaults
    by_contra hstripped
    obtain ⟨cerr, hreaches⟩ := parseELFAndInit_of_loadsTo hload h
    obtain ⟨w', hnone⟩ := findSymtab_none (w := ⟨s, cerr⟩) hstripped
    have herror : initStopPC M image 0 ⟨s, cerr⟩ = .error .undefinedBehaviour w' :=
      bind_error hnone
    exact hdefaults.inRange 0 w' ((hreaches 0).trans herror)
  · intro htable
    refine ⟨fun iterations w' herror => ?_, fun hstripped => absurd htable hstripped⟩
    exact parseELFAndInit_error hload htable herror rfl

/-- An executable without symbol tables: one byte of code at its entry point. -/
def strippedImage : Image where
  machine := EM_RISCV
  elfClass := ELFCLASS64
  entry := 0x1000
  segments := [⟨PT_LOAD, 0x1000, 1, 1, [0x73], List.length_singleton⟩]
  sections := [⟨0, []⟩, ⟨1, []⟩]

/-- The same executable with a full symbol table behind its other sections. -/
def labelledImage : Image :=
  { strippedImage with
    sections := strippedImage.sections ++ [⟨SHT_SYMTAB, [⟨[], 0⟩, ⟨kSymEnd, 0x1001⟩]⟩] }

theorem loadsTo_strippedImage (s : Ram) :
    LoadsTo ramModel strippedImage s
      { s with pc := 0x1000, mem := storeBytes s.mem 0x1000 [0x73] } where
  header := ⟨rfl, .inl rfl⟩
  segments := ⟨{ s with pc := 0x1000 }, rfl,
    .cons (.written rfl (by decide) (by decide) rfl) (.nil _)⟩

theorem defaultsWhenStripped_iff_labelledImage :
    DefaultsWhenStripped ramModel (elfio labelledImage) [] labelledImage ⟨.filled 0, []⟩ ↔
      labelledImage.HasSymbolTable :=
  defaultsWhenStripped_iff rfl ⟨⟨rfl, .inl rfl⟩, (loadsTo_strippedImage (.filled 0)).segments⟩

/-- The stripped executable is loadable, and it is not loaded as the warning says. -/
theorem defaultsWhenStripped_fails :
    (∃ s, LoadsTo ramModel strippedImage (.filled 0) s) ∧
      ¬ DefaultsWhenStripped ramModel (elfio strippedImage) [] strippedImage ⟨.filled 0, []⟩ :=
  ⟨⟨_, loadsTo_strippedImage (.filled 0)⟩, fun h => h.inRange 0 _ rfl⟩

/-! ## Several tables -/

namespace Section

def DefinesLabel (sec : Section) : Prop := ∃ sym ∈ sec.symbols, sym.name = kSymEnd

end Section

namespace Image

/-- Some symbol table has a stop label with this value. -/
def DefinesStop (image : Image) (value : UInt64) : Prop :=
  ∃ sec ∈ image.sections, sec.IsSymbolTable ∧
    ∃ sym ∈ sec.symbols, sym.name = kSymEnd ∧ sym.value = value

/-- The symbol table that is taken has a stop label. -/
def FirstTableDefines (image : Image) : Prop :=
  ∃ sec, image.symtab? = some sec ∧ sec.DefinesLabel

end Image

/-- A run stops where the image says, and nowhere when the image does not say. -/
structure StopsAtLabel (image : Image) (stopPC : UInt64) : Prop where
  defined : (∃ value, image.DefinesStop value) → image.DefinesStop stopPC
  undefined : ¬ (∃ value, image.DefinesStop value) → stopPC = 1

/-- The loop has passed no label so far. This also holds when the index wraps around. -/
theorem passed_step {symbols : List Symbol} {i : UInt32}
    (hpassed : ∀ sym ∈ symbols.take i.toNat, sym.name ≠ kSymEnd) (hi : i.toNat < symbols.length)
    (hname : symbols[i.toNat].name ≠ kSymEnd) :
    ∀ sym ∈ symbols.take (i + 1).toNat, sym.name ≠ kSymEnd := by
  have hlt := i.toNat_lt
  have hone : (1 : UInt32).toNat = 1 := rfl
  rw [UInt32.toNat_add, hone]
  by_cases hwrap : i.toNat + 1 = 2 ^ 32
  -- the index starts over, and no symbol stands in front of it
  · rw [hwrap, Nat.mod_self, List.take_zero]
    intro sym hsym
    cases hsym
  · rw [Nat.mod_eq_of_lt (by omega), List.take_succ_eq_append_getElem hi]
    intro sym hsym
    rcases List.mem_append.mp hsym with hsym | hsym
    · exact hpassed sym hsym
    · rw [List.mem_singleton.mp hsym]
      exact hname

/-- A loop that ends has found a label of the table, or there is none. -/
theorem stopLoop_spec {symbols : List Symbol} {i : UInt32} {stopPC : UInt64}
    (hpassed : ∀ sym ∈ symbols.take i.toNat, sym.name ≠ kSymEnd)
    (h : stopLoop symbols iterations i = some stopPC) :
    (∃ sym ∈ symbols, sym.name = kSymEnd ∧ sym.value = stopPC) ∨
      (∀ sym ∈ symbols, sym.name ≠ kSymEnd) ∧ stopPC = 1 := by
  -- on the iterations that are left; `hpassed` is the invariant
  induction iterations generalizing i with
  | zero => cases h
  | succ remaining ih =>
      unfold stopLoop at h
      by_cases hi : i.toNat < symbols.length
      · rw [dif_pos hi] at h
        by_cases hname : symbols[i.toNat].name = kSymEnd
        · rw [if_pos hname] at h
          cases h
          exact .inl ⟨symbols[i.toNat], List.getElem_mem hi, hname, rfl⟩
        · rw [if_neg hname] at h
          exact ih (passed_step hpassed hi hname) h
      · rw [dif_neg hi] at h
        cases h
        rw [List.take_of_length_le (by omega)] at hpassed
        exact .inr ⟨hpassed, rfl⟩

/-- The loop ends if the table has fewer symbols than the index can count. -/
theorem stopLoop_returns {symbols : List Symbol} (hsymbols : symbols.length < 2 ^ 32)
    {i : UInt32} (hi : i.toNat ≤ symbols.length)
    (hiterations : symbols.length < i.toNat + iterations) :
    ∃ stopPC, stopLoop symbols iterations i = some stopPC := by
  induction iterations generalizing i with
  | zero => omega
  | succ remaining ih =>
      unfold stopLoop
      by_cases hlt : i.toNat < symbols.length
      · rw [dif_pos hlt]
        by_cases hname : symbols[i.toNat].name = kSymEnd
        · rw [if_pos hname]
          exact ⟨_, rfl⟩
        · rw [if_neg hname]
          have hone : (1 : UInt32).toNat = 1 := rfl
          have hnext : (i + 1).toNat = i.toNat + 1 := by
            rw [UInt32.toNat_add, hone, Nat.mod_eq_of_lt (by omega)]
          exact ih (by omega) (by omega)
      · rw [dif_neg hlt]
        exact ⟨1, rfl⟩

/-- An image with a symbol table is loaded if the calls of the model succeed. -/
theorem parseELFAndInit_returns (hload : load path = some image) {s : σ}
    (h : LoadsTo M image w.model s) {symtab : Section} (hfind : image.symtab? = some symtab)
    (hsymbols : symtab.symbols.length < 2 ^ 32) (hiterations : symtab.symbols.length < iterations)
    (hset : ∀ addr s, (M.setStopPC addr s).1 = .SUCCESS) :
    ∃ w', parseELFAndInit M load path iterations w = .ok () w' := by
  obtain ⟨cerr, hreaches⟩ := parseELFAndInit_of_loadsTo hload h
  obtain ⟨stopPC, hstop⟩ := stopLoop_returns hsymbols (i := 0) (Nat.zero_le _)
    (by rw [UInt32.toNat_zero, Nat.zero_add]; exact hiterations)
  have hfound : findStopPC iterations symtab ⟨s, cerr⟩ = .ok stopPC ⟨s, cerr⟩ :=
    findStopPC_eq_ok_iff.mpr ⟨hstop, rfl⟩
  refine ⟨⟨(M.setStopPC stopPC s).2, cerr⟩, ?_⟩
  rw [hreaches, initStopPC_of_found hfind, bind_ok hfound]
  exact checkedCall_eq_ok_iff.mpr ⟨Prod.ext (hset stopPC s) rfl, rfl⟩

/-- What the loader takes for the stop address. -/
theorem stopPC_cases {symtab : Section} {stopPC : UInt64} (hfind : image.symtab? = some symtab)
    (hstop : stopLoop symtab.symbols iterations 0 = some stopPC) :
    image.FirstTableDefines ∧ image.DefinesStop stopPC ∨
      ¬ image.FirstTableDefines ∧ stopPC = 1 := by
  obtain ⟨hmem, htable⟩ := Image.symtab?_spec hfind
  rcases stopLoop_spec (by simp) hstop with ⟨sym, hsym, hname, hvalue⟩ | ⟨hnone, hdefault⟩
  · exact .inl ⟨⟨symtab, hfind, sym, hsym, hname⟩, symtab, hmem, htable, sym, hsym, hname, hvalue⟩
  · refine .inr ⟨?_, hdefault⟩
    rintro ⟨sec, hsec, sym, hsym, hname⟩
    rw [hfind] at hsec
    cases hsec
    exact hnone sym hsym hname

/-- The table that is taken has to have the label, if the value that counts is not
the default anyway. -/
theorem stopsAtLabel_iff {stopPC : σ → UInt64}
    (hset : ∀ addr s s', M.setStopPC addr s = (.SUCCESS, s') → stopPC s' = addr)
    (hload : load path = some image)
    (h : parseELFAndInit M load path iterations w = .ok u w') :
    StopsAtLabel image (stopPC w'.model) ↔
      image.FirstTableDefines ∨ ¬ (∃ value, image.DefinesStop value) ∨ image.DefinesStop 1 := by
  obtain ⟨s, symtab, addr, _, hfind, hstop, hend⟩ := parseELFAndInit_ok hload h
  rw [hset addr s w'.model hend]
  rcases stopPC_cases hfind hstop with ⟨hfirst, hdefines⟩ | ⟨hfirst, rfl⟩
  · constructor
    · intro _
      exact .inl hfirst
    · intro _
      exact ⟨fun _ => hdefines, fun hnone => absurd ⟨addr, hdefines⟩ hnone⟩
  · constructor
    -- the table that was taken has no label, so the default was set
    · intro hstops
      by_cases hany : ∃ value, image.DefinesStop value
      · exact .inr (.inr (hstops.defined hany))
      · exact .inr (.inl hany)
    · intro hcase
      refine ⟨fun hany => ?_, fun _ => rfl⟩
      rcases hcase with hyes | hnone | hone
      · exact absurd hyes hfirst
      · exact absurd hany hnone
      · exact hone

theorem stopsAtLabel_iff_labelledImage : ∃ w' : LoadWorld Ram,
    parseELFAndInit ramModel (elfio labelledImage) [] 2 ⟨.filled 0, []⟩ = .ok () w' ∧
      (StopsAtLabel labelledImage w'.model.stopPC ↔
        labelledImage.FirstTableDefines ∨ ¬ (∃ value, labelledImage.DefinesStop value) ∨
          labelledImage.DefinesStop 1) := by
  have hset : ∀ addr s s', ramModel.setStopPC addr s = (.SUCCESS, s') → s'.stopPC = addr := by
    rintro addr s s' ⟨⟩
    rfl
  have hload : elfio labelledImage [] = some labelledImage := rfl
  have hrun : parseELFAndInit ramModel (elfio labelledImage) [] 2 ⟨.filled 0, []⟩ =
      .ok () ⟨⟨storeBytes (fun _ => 0) 0x1000 [0x73], 0x1000, 0x1001⟩, []⟩ := rfl
  exact ⟨_, hrun, stopsAtLabel_iff hset hload hrun⟩

/-- A dynamically linked executable: the label is in the full table, which comes
behind the dynamic one. -/
def dynamicImage : Image :=
  { strippedImage with
    sections := [⟨0, []⟩, ⟨SHT_DYNSYM, [⟨[], 0⟩]⟩, ⟨SHT_SYMTAB, [⟨[], 0⟩, ⟨kSymEnd, 0x1001⟩]⟩] }

theorem stopsAtLabel_fails : ∃ w' : LoadWorld Ram,
    parseELFAndInit ramModel (elfio dynamicImage) [] 2 ⟨.filled 0, []⟩ = .ok () w' ∧
      ¬ StopsAtLabel dynamicImage w'.model.stopPC := by
  refine ⟨⟨⟨storeBytes (fun _ => 0) 0x1000 [0x73], 0x1000, 1⟩, []⟩, rfl, fun hstops => ?_⟩
  obtain ⟨sec, hsec, _, sym, hsym, hname, hvalue⟩ := hstops.defined ⟨0x1001,
    ⟨SHT_SYMTAB, [⟨[], 0⟩, ⟨kSymEnd, 0x1001⟩]⟩, by simp [dynamicImage], .inl rfl,
    ⟨kSymEnd, 0x1001⟩, by simp, rfl, rfl⟩
  have hall : ∀ sec ∈ dynamicImage.sections, ∀ sym ∈ sec.symbols,
      ¬ (sym.name = kSymEnd ∧ sym.value = 1) := by decide
  exact hall sec hsec sym hsym ⟨hname, hvalue⟩

end Rvmi.Elf
