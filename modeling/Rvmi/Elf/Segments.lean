import Rvmi.Elf.Loaded

/-!
# Memory behind the loader

The loader writes the file bytes of the loadable segments in program header order
and nothing else: the part of a segment that has no file bytes keeps what was in
memory before the call.
-/

namespace Rvmi.Elf

open Rvmi.Foundation Rvmi.Log

variable {σ : Type} {M : LoaderModel σ} {mem : σ → UInt64 → UInt8} {image : Image}
  {w w' : LoadWorld σ} {u : Unit} {load : Text → Option Image} {path : Text} {iterations : Nat}

/-- `mem` are the memory contents of a model: a write that succeeds stores exactly the
given bytes, and the program counter and the stop address are not in memory. -/
structure HoldsMemory (M : LoaderModel σ) (mem : σ → UInt64 → UInt8) : Prop where
  writeMem : ∀ addr data s s', M.writeMem addr data s = (.SUCCESS, s') →
    mem s' = storeBytes (mem s) addr data
  setPC : ∀ pc s s', M.setPC pc s = (.SUCCESS, s') → mem s' = mem s
  setStopPC : ∀ stopPC s s', M.setStopPC stopPC s = (.SUCCESS, s') → mem s' = mem s

/-! ## Writes of the segments -/

namespace Segment

def fileWrite (seg : Segment) : MemStateType := ⟨seg.physicalAddress, seg.data⟩

theorem covers_fileWrite_iff (seg : Segment) (a : UInt64) :
    seg.fileWrite.Covers a ↔ seg.FileBacked a := by
  show (a - seg.physicalAddress).toNat < seg.data.length ↔ _
  rw [seg.length_data]
  rfl

theorem length_fileWrite_le (seg : Segment) : seg.fileWrite.data.length ≤ 2 ^ 64 := by
  show seg.data.length ≤ 2 ^ 64
  rw [seg.length_data]
  exact Nat.le_of_lt seg.fileSize.toNat_lt

theorem data_eq_nil {seg : Segment} (h : seg.fileSize = 0) : seg.data = [] := by
  apply List.eq_nil_of_length_eq_zero
  rw [seg.length_data, h]
  rfl

end Segment

namespace Image

/-- The file bytes of the loadable segments, in program header order. -/
def fileWrites (image : Image) : List MemStateType := image.loads.map Segment.fileWrite

end Image

/-- The loop over the segments leaves the file bytes of the loadable ones. -/
theorem SegmentsLoaded.mem_eq (hM : HoldsMemory M mem) {segs : List Segment} {s s' : σ}
    (h : SegmentsLoaded M segs s s') :
    mem s' = overlay (mem s)
      ((segs.filter fun seg => seg.IsLoad).map Segment.fileWrite) := by
  induction h with
  | nil s => rfl
  | @cons seg segs s s₁ s' hseg _ ih =>
      rw [ih]
      by_cases hload : seg.IsLoad
      · rw [List.filter_cons_of_pos (by simpa using hload), List.map_cons, overlay_cons]
        cases hseg with
        | skipped hskip =>
            -- loadable and skipped: there are no bytes to write
            have hdata := Segment.data_eq_nil (hskip.resolve_left (not_not_intro hload))
            show _ = overlay (storeBytes (mem s) seg.physicalAddress seg.data) _
            rw [hdata]
            rfl
        | written _ _ _ hwrite =>
            rw [hM.writeMem _ _ _ _ hwrite]
            rfl
      · rw [List.filter_cons_of_neg (by simpa using hload)]
        cases hseg with
        | skipped _ => rfl
        | written hload' _ _ _ => exact absurd hload' hload

/-- No loaded segment has more bytes in the file than in memory. -/
theorem SegmentsLoaded.fits {segs : List Segment} {s s' : σ} (h : SegmentsLoaded M segs s s') :
    ∀ seg ∈ segs, seg.IsLoad → seg.fileSize ≤ seg.memorySize := by
  induction h with
  | nil s =>
      intro seg hseg
      cases hseg
  | @cons seg segs s s₁ s' hseg _ ih =>
      refine List.forall_mem_cons.mpr ⟨fun hload => ?_, ih⟩
      cases hseg with
      | skipped hskip =>
          rw [hskip.resolve_left (not_not_intro hload)]
          exact UInt64.zero_le
      | written _ hfits _ _ => exact hfits

/-- A call that returns has overlaid memory with the file bytes of the image. -/
theorem parseELFAndInit_mem (hM : HoldsMemory M mem) (hload : load path = some image)
    (h : parseELFAndInit M load path iterations w = .ok u w') :
    mem w'.model = overlay (mem w.model) image.fileWrites ∧
      ∀ seg ∈ image.loads, seg.fileSize ≤ seg.memorySize := by
  obtain ⟨s, _, stopPC, hloads, _, _, hstop⟩ := parseELFAndInit_ok hload h
  obtain ⟨s₁, hpc, hsegs⟩ := hloads.segments
  constructor
  · rw [hM.setStopPC _ _ _ hstop, hsegs.mem_eq hM, hM.setPC _ _ _ hpc]
    rfl
  · intro seg hseg
    obtain ⟨hmem, hload⟩ := List.mem_filter.mp hseg
    exact hsegs.fits seg hmem (of_decide_eq_true hload)

theorem length_fileWrites_le :
    ∀ write ∈ image.fileWrites, write.data.length ≤ 2 ^ 64 := by
  intro write hwrite
  obtain ⟨seg, _, rfl⟩ := List.mem_map.mp hwrite
  exact seg.length_fileWrite_le

namespace Segment

theorem FileBacked.occupies {seg : Segment} {a : UInt64} (h : seg.FileBacked a)
    (hfits : seg.fileSize ≤ seg.memorySize) : seg.Occupies a :=
  Nat.lt_of_lt_of_le h hfits

end Segment

/-! ## Segments that overlap -/

/-- The program counter is what `setPC` was given; memory and the stop address are
somewhere else. -/
structure HoldsPC (M : LoaderModel σ) : Prop where
  setPC : ∀ pc s s', M.setPC pc s = (.SUCCESS, s') → M.readPC s' = pc
  writeMem : ∀ addr data s s', M.writeMem addr data s = (.SUCCESS, s') → M.readPC s' = M.readPC s
  setStopPC : ∀ stopPC s s', M.setStopPC stopPC s = (.SUCCESS, s') → M.readPC s' = M.readPC s

theorem SegmentsLoaded.readPC_eq (hM : HoldsPC M) {segs : List Segment} {s s' : σ}
    (h : SegmentsLoaded M segs s s') : M.readPC s' = M.readPC s := by
  induction h with
  | nil s => rfl
  | cons hseg _ ih =>
      rw [ih]
      cases hseg with
      | skipped _ => rfl
      | written _ _ _ hwrite => exact hM.writeMem _ _ _ _ hwrite

theorem parseELFAndInit_readPC (hM : HoldsPC M) (hload : load path = some image)
    (h : parseELFAndInit M load path iterations w = .ok u w') :
    M.readPC w'.model = image.entry := by
  obtain ⟨s, _, stopPC, hloads, _, _, hstop⟩ := parseELFAndInit_ok hload h
  obtain ⟨s₁, hpc, hsegs⟩ := hloads.segments
  rw [hM.setStopPC _ _ _ hstop, hsegs.readPC_eq hM]
  exact hM.setPC _ _ _ hpc

/-- Where some members of a list have a property, one of them is the last. -/
theorem exists_last {α : Type} {p : α → Prop} {l : List α} (h : ∃ x ∈ l, p x) :
    ∃ before x after, l = before ++ x :: after ∧ p x ∧ ∀ y ∈ after, ¬ p y := by
  induction l with
  | nil =>
      obtain ⟨x, hx, _⟩ := h
      cases hx
  | cons x l ih =>
      by_cases hlater : ∃ y ∈ l, p y
      · obtain ⟨before, y, after, rfl, hy, hafter⟩ := ih hlater
        exact ⟨x :: before, y, after, rfl, hy, hafter⟩
      · obtain ⟨y, hy, hp⟩ := h
        rcases List.mem_cons.mp hy with rfl | hmem
        · exact ⟨[], y, l, rfl, hp, fun z hz hpz => hlater ⟨z, hz, hpz⟩⟩
        · exact absurd ⟨y, hmem, hp⟩ hlater

/-- The last segment in program header order with a byte for an address decides it. -/
theorem overlay_fileWrites_last (m : UInt64 → UInt8) {before after : List Segment}
    {seg : Segment} (hloads : image.loads = before ++ seg :: after) {a : UInt64}
    (hseg : seg.FileBacked a) (hafter : ∀ later ∈ after, ¬ later.FileBacked a) :
    seg.data[(a - seg.physicalAddress).toNat]? = some (overlay m image.fileWrites a) := by
  have hlength : ∀ write ∈ image.fileWrites, write.data.length ≤ 2 ^ 64 := length_fileWrites_le
  have hsplit : image.fileWrites =
      before.map Segment.fileWrite ++ seg.fileWrite :: after.map Segment.fileWrite := by
    unfold Image.fileWrites
    rw [hloads, List.map_append, List.map_cons]
  have hcovers : seg.fileWrite.Covers a := (seg.covers_fileWrite_iff a).mpr hseg
  have hlater : ∀ write ∈ after.map Segment.fileWrite, ¬ write.Covers a := by
    intro write hwrite hcovers'
    obtain ⟨later, hmem, rfl⟩ := List.mem_map.mp hwrite
    exact hafter later hmem ((later.covers_fileWrite_iff a).mp hcovers')
  rw [hsplit] at hlength ⊢
  rw [overlay_of_last hlength hcovers hlater]
  exact List.getElem?_eq_getElem hcovers

/-- An address outside of all loadable segments keeps its byte. -/
theorem overlay_fileWrites_outside (hfits : ∀ seg ∈ image.loads, seg.fileSize ≤ seg.memorySize)
    (m : UInt64 → UInt8) {a : UInt64} (h : ∀ seg ∈ image.loads, ¬ seg.Occupies a) :
    overlay m image.fileWrites a = m a := by
  refine overlay_of_not_covered length_fileWrites_le fun write hwrite hcovers => ?_
  obtain ⟨seg, hseg, rfl⟩ := List.mem_map.mp hwrite
  have hfile : seg.FileBacked a := (seg.covers_fileWrite_iff a).mp hcovers
  exact h seg hseg (hfile.occupies (hfits seg hseg))

/-- Loading is an overlay: the program counter is the entry point, the last segment with
a byte for an address decides it, and outside of the segments nothing changes. -/
theorem parseELFAndInit_overlays (hM : HoldsMemory M mem) (hpc : HoldsPC M)
    (hload : load path = some image)
    (h : parseELFAndInit M load path iterations w = .ok u w') :
    M.readPC w'.model = image.entry ∧
      (∀ a, (∃ seg ∈ image.loads, seg.FileBacked a) →
        ∃ before seg after, image.loads = before ++ seg :: after ∧ seg.FileBacked a ∧
          (∀ later ∈ after, ¬ later.FileBacked a) ∧
          seg.data[(a - seg.physicalAddress).toNat]? = some (mem w'.model a)) ∧
      (∀ a, (∀ seg ∈ image.loads, ¬ seg.Occupies a) → mem w'.model a = mem w.model a) ∧
      ∀ seg ∈ image.loads, seg.fileSize ≤ seg.memorySize := by
  obtain ⟨hmem, hfits⟩ := parseELFAndInit_mem hM hload h
  refine ⟨parseELFAndInit_readPC hpc hload h, fun a hbacked => ?_, fun a houtside => ?_, hfits⟩
  · obtain ⟨before, seg, after, hloads, hseg, hafter⟩ := exists_last hbacked
    refine ⟨before, seg, after, hloads, hseg, hafter, ?_⟩
    rw [hmem]
    exact overlay_fileWrites_last _ hloads hseg hafter
  · rw [hmem]
    exact overlay_fileWrites_outside hfits _ houtside

theorem holdsMemory_ramModel : HoldsMemory ramModel Ram.mem where
  writeMem := by
    rintro addr data s s' ⟨⟩
    rfl
  setPC := by
    rintro pc s s' ⟨⟩
    rfl
  setStopPC := by
    rintro stopPC s s' ⟨⟩
    rfl

theorem holdsPC_ramModel : HoldsPC ramModel where
  setPC := by
    rintro pc s s' ⟨⟩
    rfl
  writeMem := by
    rintro addr data s s' ⟨⟩
    rfl
  setStopPC := by
    rintro stopPC s s' ⟨⟩
    rfl

/-- Two segments that overlap in the byte at `0x1001`. -/
def overlappingImage : Image where
  machine := EM_RISCV
  elfClass := ELFCLASS64
  entry := 0x1000
  segments := [⟨PT_LOAD, 0x1000, 2, 2, [0x13, 0x01], rfl⟩, ⟨PT_LOAD, 0x1001, 1, 4, [0x93], rfl⟩]
  sections := [⟨SHT_SYMTAB, []⟩]

theorem parseELFAndInit_overlays_overlappingImage : ∃ w' : LoadWorld Ram,
    parseELFAndInit ramModel (elfio overlappingImage) [] 1 ⟨.filled 0xff, []⟩ = .ok () w' ∧
      w'.model.pc = 0x1000 ∧ w'.model.mem 0x2000 = 0xff := by
  have hload : elfio overlappingImage [] = some overlappingImage := rfl
  have hrun : parseELFAndInit ramModel (elfio overlappingImage) [] 1 ⟨.filled 0xff, []⟩ =
      .ok () ⟨⟨storeBytes (storeBytes (fun _ => 0xff) 0x1000 [0x13, 0x01]) 0x1001 [0x93],
        0x1000, 1⟩, []⟩ := rfl
  obtain ⟨hpc, _, houtside, _⟩ :=
    parseELFAndInit_overlays holdsMemory_ramModel holdsPC_ramModel hload hrun
  exact ⟨_, hrun, hpc, houtside 0x2000 (by decide)⟩

/-! ## Contents of disjoint segments -/

namespace Segment

/-- Byte `j` of a segment: its bytes in the file, then zeros. -/
def contents (seg : Segment) (j : Nat) : UInt8 :=
  if h : j < seg.data.length then seg.data[j] else 0

/-- The address of byte `j`. -/
def address (seg : Segment) (j : Nat) : UInt64 := seg.physicalAddress + UInt64.ofNat j

theorem toNat_address_sub {seg : Segment} {j : Nat} (hj : j < seg.memorySize.toNat) :
    (seg.address j - seg.physicalAddress).toNat = j := by
  have hlt := seg.memorySize.toNat_lt
  have hoffset : seg.address j - seg.physicalAddress = UInt64.ofNat j := by
    unfold address
    rw [UInt64.add_comm, UInt64.add_sub_cancel]
  rw [hoffset, UInt64.toNat_ofNat', Nat.mod_eq_of_lt (by omega)]

theorem occupies_address {seg : Segment} {j : Nat} (hj : j < seg.memorySize.toNat) :
    seg.Occupies (seg.address j) := by
  unfold Occupies
  rw [toNat_address_sub hj]
  exact hj

end Segment

namespace Image

/-- No address lies in two loadable segments. -/
def Disjoint (image : Image) : Prop :=
  image.loads.Pairwise fun seg seg' => ∀ a, ¬ (seg.Occupies a ∧ seg'.Occupies a)

/-- Every loadable segment is in memory as its program header says. -/
def HasContents (image : Image) (m : UInt64 → UInt8) : Prop :=
  ∀ seg ∈ image.loads, ∀ j < seg.memorySize.toNat, m (seg.address j) = seg.contents j

/-- Memory is zero where a loadable segment has no byte in the file. -/
def ZeroTails (image : Image) (m : UInt64 → UInt8) : Prop :=
  ∀ seg ∈ image.loads, ∀ j < seg.memorySize.toNat, seg.fileSize.toNat ≤ j →
    m (seg.address j) = 0

end Image

/-- At an address of one segment no other segment writes. -/
theorem Image.Disjoint.not_covers (hdisjoint : image.Disjoint)
    (hfits : ∀ seg ∈ image.loads, seg.fileSize ≤ seg.memorySize) {before after : List Segment}
    {seg : Segment} (hloads : image.loads = before ++ seg :: after) {a : UInt64}
    (hoccupies : seg.Occupies a) :
    (∀ write ∈ before.map Segment.fileWrite, ¬ write.Covers a) ∧
      ∀ write ∈ after.map Segment.fileWrite, ¬ write.Covers a := by
  unfold Image.Disjoint at hdisjoint
  rw [hloads] at hdisjoint hfits
  obtain ⟨_, hlater, hearlier⟩ := List.pairwise_append.mp hdisjoint
  have hother : ∀ seg' ∈ before ++ seg :: after, seg'.fileWrite.Covers a → seg'.Occupies a :=
    fun seg' hmem hcovers => ((seg'.covers_fileWrite_iff a).mp hcovers).occupies (hfits seg' hmem)
  constructor
  · intro write hwrite hcovers
    obtain ⟨seg', hbefore, rfl⟩ := List.mem_map.mp hwrite
    have hoccupies' := hother seg' (List.mem_append_left _ hbefore) hcovers
    exact hearlier seg' hbefore seg List.mem_cons_self a ⟨hoccupies', hoccupies⟩
  · intro write hwrite hcovers
    obtain ⟨seg', hafter, rfl⟩ := List.mem_map.mp hwrite
    have hmem := List.mem_append_right before (List.mem_cons_of_mem seg hafter)
    exact (List.pairwise_cons.mp hlater).1 seg' hafter a ⟨hoccupies, hother seg' hmem hcovers⟩

/-- In disjoint segments a byte comes from the file or was there before. -/
theorem overlay_fileWrites_address (hdisjoint : image.Disjoint)
    (hfits : ∀ seg ∈ image.loads, seg.fileSize ≤ seg.memorySize) (m : UInt64 → UInt8)
    {seg : Segment} (hseg : seg ∈ image.loads) {j : Nat} (hj : j < seg.memorySize.toNat) :
    overlay m image.fileWrites (seg.address j) =
      if h : j < seg.data.length then seg.data[j] else m (seg.address j) := by
  obtain ⟨before, after, hloads⟩ := List.append_of_mem hseg
  obtain ⟨hbefore, hafter⟩ :=
    hdisjoint.not_covers hfits hloads (Segment.occupies_address hj)
  have hlength : ∀ write ∈ image.fileWrites, write.data.length ≤ 2 ^ 64 := length_fileWrites_le
  have hsplit : image.fileWrites =
      before.map Segment.fileWrite ++ seg.fileWrite :: after.map Segment.fileWrite := by
    unfold Image.fileWrites
    rw [hloads, List.map_append, List.map_cons]
  have hcovers : seg.fileWrite.Covers (seg.address j) ↔ j < seg.data.length := by
    unfold MemStateType.Covers
    show (seg.address j - seg.physicalAddress).toNat < seg.data.length ↔ _
    rw [Segment.toNat_address_sub hj]
  rw [hsplit] at hlength ⊢
  by_cases hfile : j < seg.data.length
  · rw [dif_pos hfile, overlay_of_last hlength (hcovers.mpr hfile) hafter]
    simp only [List.get_eq_getElem, Segment.fileWrite, Segment.toNat_address_sub hj]
  · rw [dif_neg hfile]
    refine overlay_of_not_covered hlength fun write hwrite => ?_
    rcases List.mem_append.mp hwrite with hwrite | hwrite
    · exact hbefore write hwrite
    · rcases List.mem_cons.mp hwrite with rfl | hwrite
      · exact fun h => hfile (hcovers.mp h)
      · exact hafter write hwrite

/-- The loader leaves the contents of the segments if memory was zero where they
have no byte in the file. -/
theorem hasContents_iff (hM : HoldsMemory M mem) (hdisjoint : image.Disjoint)
    (hload : load path = some image)
    (h : parseELFAndInit M load path iterations w = .ok u w') :
    image.HasContents (mem w'.model) ↔ image.ZeroTails (mem w.model) := by
  obtain ⟨hmem, hfits⟩ := parseELFAndInit_mem hM hload h
  rw [hmem]
  constructor
  · intro hcontents seg hseg j hj htail
    have hbyte := hcontents seg hseg j hj
    -- no file byte was written here, so the zero was there before
    have hnot : ¬ j < seg.data.length := by
      rw [seg.length_data]
      omega
    rw [overlay_fileWrites_address hdisjoint hfits _ hseg hj, dif_neg hnot] at hbyte
    rw [hbyte]
    exact dif_neg hnot
  · intro hzero seg hseg j hj
    rw [overlay_fileWrites_address hdisjoint hfits _ hseg hj]
    unfold Segment.contents
    by_cases hfile : j < seg.data.length
    · rw [dif_pos hfile, dif_pos hfile]
    · rw [dif_neg hfile, dif_neg hfile]
      apply hzero seg hseg j hj
      rw [← seg.length_data]
      omega

/-- An executable with one byte of code and one byte of zero-initialised data. -/
def bssImage : Image where
  machine := EM_RISCV
  elfClass := ELFCLASS64
  entry := 0x1000
  segments := [⟨PT_LOAD, 0x1000, 1, 1, [0x73], rfl⟩, ⟨PT_LOAD, 0x2000, 0, 1, [], rfl⟩]
  sections := [⟨SHT_SYMTAB, []⟩]

theorem disjoint_bssImage : bssImage.Disjoint := by
  refine List.pairwise_cons.mpr ⟨?_, List.pairwise_singleton _ _⟩
  intro seg hseg a
  rw [List.mem_singleton.mp hseg]
  rintro ⟨hcode, hdata⟩
  have hcode : (a - 0x1000).toNat < 1 := hcode
  have hdata : (a - 0x2000).toNat < 1 := hdata
  have h1000 : (0x1000 : UInt64).toNat = 0x1000 := rfl
  have h2000 : (0x2000 : UInt64).toNat = 0x2000 := rfl
  have hlt := a.toNat_lt
  rw [UInt64.toNat_sub] at hcode hdata
  omega

theorem hasContents_iff_bssImage : ∃ w' : LoadWorld Ram,
    parseELFAndInit ramModel (elfio bssImage) [] 1 ⟨.filled 0, []⟩ = .ok () w' ∧
      (bssImage.HasContents w'.model.mem ↔ bssImage.ZeroTails (Ram.filled 0).mem) := by
  have hload : elfio bssImage [] = some bssImage := rfl
  have hrun : parseELFAndInit ramModel (elfio bssImage) [] 1 ⟨.filled 0, []⟩ =
      .ok () ⟨⟨storeBytes (fun _ => 0) 0x1000 [0x73], 0x1000, 1⟩, []⟩ := rfl
  exact ⟨_, hrun, hasContents_iff holdsMemory_ramModel disjoint_bssImage hload hrun⟩

/-- On a memory that is not zero, the zero-initialised byte keeps what was there. -/
theorem hasContents_fails : bssImage.Disjoint ∧ ∃ w' : LoadWorld Ram,
    parseELFAndInit ramModel (elfio bssImage) [] 1 ⟨.filled 0xff, []⟩ = .ok () w' ∧
      ¬ bssImage.HasContents w'.model.mem := by
  have hrun : parseELFAndInit ramModel (elfio bssImage) [] 1 ⟨.filled 0xff, []⟩ =
      .ok () ⟨⟨storeBytes (fun _ => 0xff) 0x1000 [0x73], 0x1000, 1⟩, []⟩ := rfl
  refine ⟨disjoint_bssImage, _, hrun, fun hcontents => ?_⟩
  have hbyte : storeBytes (fun _ => 0xff) 0x1000 [0x73] 0x2000 = 0 :=
    hcontents ⟨PT_LOAD, 0x2000, 0, 1, [], rfl⟩ (List.mem_cons_of_mem _ List.mem_cons_self) 0
      (by decide)
  exact absurd hbyte (by decide)

end Rvmi.Elf
