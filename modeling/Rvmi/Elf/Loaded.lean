import Rvmi.Elf.Load
import Rvmi.Log.Overlay

/-!
# What the loader does to a model

A call of `parseELFAndInit` that returns has set the program counter, has gone
through the segments one after the other and has set the stop address. Each part
of the loader has one rule that says when it returns and in which state; a run is
put together from these and taken apart into them.
-/

namespace Rvmi.Elf

open Rvmi.Foundation Rvmi.Log

variable {σ : Type} {M : LoaderModel σ} {image : Image} {w w' : LoadWorld σ} {u : Unit}

/-! ## Calls on the model -/

theorem checkedCall_eq_ok_iff {f : σ → RVMErrorCode × σ} :
    checkedCall f w = .ok u w' ↔ f w.model = (.SUCCESS, w'.model) ∧ w'.cerr = w.cerr := by
  show (call f >>= checkAndThrow) w = .ok u w' ↔ _
  have hcall : call f w = .ok (f w.model).1 { w with model := (f w.model).2 } := rfl
  rw [bind_ok hcall]
  unfold checkAndThrow
  rw [throwIf_eq_ok_iff, not_not]
  constructor
  · rintro ⟨hcode, rfl⟩
    exact ⟨Prod.ext hcode rfl, rfl⟩
  · rintro ⟨hf, hcerr⟩
    obtain ⟨model, cerr⟩ := w'
    cases hcerr
    rw [hf]
    exact ⟨rfl, rfl⟩

theorem checkedCall_error {f : σ → RVMErrorCode × σ} {e : LoadFailure}
    (h : checkedCall f w = .error e w') : ∃ code, e = .modelError code := by
  rcases bind_eq_error_iff.mp h with hcall | ⟨err, w₁, _, hthrow⟩
  · cases hcall
  · unfold checkAndThrow at hthrow
    obtain ⟨_, rfl, _⟩ := throwIf_eq_error_iff.mp hthrow
    exact ⟨err, rfl⟩

/-! ## Header -/

structure ValidHeader (image : Image) : Prop where
  machine : image.machine = EM_RISCV
  elfClass : image.elfClass = ELFCLASS64 ∨ image.elfClass = ELFCLASS32

theorem readImage_eq {load : Text → Option Image} {path : Text} (h : load path = some image)
    (w : LoadWorld σ) : readImage load path w = .ok image w := by
  unfold readImage
  rw [h]
  rfl

theorem checkMachine_eq_ok_iff {path : Text} :
    checkMachine path image w = .ok u w' ↔ image.machine = EM_RISCV ∧ w' = w := by
  unfold checkMachine
  rw [throwIf_eq_ok_iff, not_not]

theorem warnIf_eq (condition : Bool) (text : Text) (w : LoadWorld σ) :
    ∃ cerr, warnIf condition text w = .ok () { w with cerr := cerr } := by
  cases condition with
  | true => exact ⟨w.cerr ++ text, rfl⟩
  | false => exact ⟨w.cerr, rfl⟩

/-- The class of the file decides whether the header is valid; the width of the
simulator only decides what is printed. -/
theorem checkClass_cases (M : LoaderModel σ) (image : Image) (w : LoadWorld σ) :
    (image.elfClass = ELFCLASS64 ∨ image.elfClass = ELFCLASS32) ∧
      (∃ cerr, checkClass M image w = .ok () { w with cerr := cerr }) ∨
    ¬ (image.elfClass = ELFCLASS64 ∨ image.elfClass = ELFCLASS32) ∧
      checkClass M image w = .error (.runtimeError "Invalid ELF class".toList) w := by
  show _ ∧ (∃ cerr, (if image.elfClass = ELFCLASS64 then warnIf _ _
    else if image.elfClass = ELFCLASS32 then warnIf _ _ else throw _ : Load σ Unit) w = _) ∨
    _ ∧ (if image.elfClass = ELFCLASS64 then warnIf _ _
      else if image.elfClass = ELFCLASS32 then warnIf _ _ else throw _ : Load σ Unit) w = _
  by_cases h64 : image.elfClass = ELFCLASS64
  · rw [if_pos h64]
    exact .inl ⟨.inl h64, warnIf_eq _ _ w⟩
  · rw [if_neg h64]
    by_cases h32 : image.elfClass = ELFCLASS32
    · rw [if_pos h32]
      exact .inl ⟨.inr h32, warnIf_eq _ _ w⟩
    · rw [if_neg h32]
      exact .inr ⟨fun h => h.elim h64 h32, rfl⟩

/-! ## Segments -/

/-- What the loop body does with one segment. -/
inductive SegmentLoaded (M : LoaderModel σ) (seg : Segment) (s : σ) : σ → Prop
  | skipped (hskip : ¬ seg.IsLoad ∨ seg.fileSize = 0) : SegmentLoaded M seg s s
  | written {s' : σ} (hload : seg.IsLoad) (hfits : seg.fileSize ≤ seg.memorySize)
      (hbytes : seg.fileSize ≠ 0)
      (hwrite : M.writeMem seg.physicalAddress seg.data s = (.SUCCESS, s')) :
      SegmentLoaded M seg s s'

inductive SegmentsLoaded (M : LoaderModel σ) : List Segment → σ → σ → Prop
  | nil (s : σ) : SegmentsLoaded M [] s s
  | cons {seg : Segment} {segs : List Segment} {s s₁ s' : σ} (hseg : SegmentLoaded M seg s s₁)
      (hsegs : SegmentsLoaded M segs s₁ s') : SegmentsLoaded M (seg :: segs) s s'

theorem checkSizes_eq_ok_iff {seg : Segment} :
    checkSizes seg w = .ok u w' ↔ seg.fileSize ≤ seg.memorySize ∧ w' = w := by
  unfold checkSizes
  rw [throwIf_eq_ok_iff, UInt64.not_lt]

theorem loadSegment_eq_ok_iff {seg : Segment} :
    loadSegment M seg w = .ok u w' ↔
      SegmentLoaded M seg w.model w'.model ∧ w'.cerr = w.cerr := by
  unfold loadSegment
  constructor
  · intro h
    by_cases hload : seg.type = PT_LOAD
    · rw [if_neg (not_not_intro hload)] at h
      obtain ⟨_, w₁, hsizes, hrest⟩ := bind_eq_ok_iff.mp h
      obtain ⟨hfits, rfl⟩ := checkSizes_eq_ok_iff.mp hsizes
      by_cases hsize : seg.fileSize = 0
      · rw [if_pos hsize] at hrest
        cases hrest
        exact ⟨.skipped (.inr hsize), rfl⟩
      · rw [if_neg hsize] at hrest
        obtain ⟨hwrite, hcerr⟩ := checkedCall_eq_ok_iff.mp hrest
        exact ⟨.written hload hfits hsize hwrite, hcerr⟩
    · rw [if_pos hload] at h
      cases h
      exact ⟨.skipped (.inl hload), rfl⟩
  · rintro ⟨hseg, hcerr⟩
    obtain ⟨model, cerr⟩ := w'
    cases hcerr
    cases hseg with
    | skipped hskip =>
        by_cases hload : seg.type = PT_LOAD
        -- a segment without bytes in the file cannot fail the comparison of the sizes
        · have hsize : seg.fileSize = 0 := hskip.resolve_left (not_not_intro hload)
          have hfits : seg.fileSize ≤ seg.memorySize := by
            rw [hsize]
            exact UInt64.zero_le
          have hchecked : checkSizes seg w = .ok () w := checkSizes_eq_ok_iff.mpr ⟨hfits, rfl⟩
          rw [if_neg (not_not_intro hload), bind_ok hchecked, if_pos hsize]
          rfl
        · rw [if_pos hload]
          rfl
    | written hload hfits hbytes hwrite =>
        have hchecked : checkSizes seg w = .ok () w := checkSizes_eq_ok_iff.mpr ⟨hfits, rfl⟩
        have htype : seg.type = PT_LOAD := hload
        rw [if_neg (not_not_intro htype), bind_ok hchecked, if_neg hbytes]
        exact checkedCall_eq_ok_iff.mpr ⟨hwrite, rfl⟩

/-- The loop over the segments returns exactly when every segment is skipped or written. -/
theorem loadSegments_eq_ok_iff {segs : List Segment} :
    loadSegments M segs w = .ok u w' ↔
      SegmentsLoaded M segs w.model w'.model ∧ w'.cerr = w.cerr := by
  induction segs generalizing w with
  | nil =>
      constructor
      · intro h
        cases h
        exact ⟨.nil _, rfl⟩
      · rintro ⟨hsegs, hcerr⟩
        obtain ⟨model, cerr⟩ := w'
        cases hcerr
        cases hsegs
        rfl
  | cons seg segs ih =>
      show (loadSegment M seg >>= fun _ => loadSegments M segs) w = .ok u w' ↔ _
      rw [bind_eq_ok_iff]
      constructor
      · rintro ⟨_, w₁, hseg, hsegs⟩
        obtain ⟨hseg, hcerr₁⟩ := loadSegment_eq_ok_iff.mp hseg
        obtain ⟨hsegs, hcerr₂⟩ := ih.mp hsegs
        exact ⟨.cons hseg hsegs, hcerr₂.trans hcerr₁⟩
      · rintro ⟨hsegs, hcerr⟩
        cases hsegs with
        | @cons _ _ _ s₁ _ hseg hsegs =>
            exact ⟨(), ⟨s₁, w.cerr⟩, loadSegment_eq_ok_iff.mpr ⟨hseg, rfl⟩,
              ih.mpr ⟨hsegs, hcerr⟩⟩

theorem loadSegment_error {seg : Segment} {e : LoadFailure}
    (h : loadSegment M seg w = .error e w') : e ≠ .undefinedBehaviour := by
  unfold loadSegment at h
  split at h
  · cases h
  · rcases bind_eq_error_iff.mp h with hsizes | ⟨_, w₁, _, hrest⟩
    · unfold checkSizes at hsizes
      obtain ⟨_, rfl, _⟩ := throwIf_eq_error_iff.mp hsizes
      exact LoadFailure.noConfusion
    · split at hrest
      · cases hrest
      · obtain ⟨code, rfl⟩ := checkedCall_error hrest
        exact LoadFailure.noConfusion

theorem loadSegments_error {segs : List Segment} {e : LoadFailure}
    (h : loadSegments M segs w = .error e w') : e ≠ .undefinedBehaviour := by
  induction segs generalizing w with
  | nil => cases h
  | cons seg segs ih =>
      rcases bind_eq_error_iff.mp h with hseg | ⟨_, w₁, _, hsegs⟩
      · exact loadSegment_error hseg
      · exact ih hsegs

/-! ## Stop address -/

theorem findSymtab_some {symtab : Section} (h : image.symtab? = some symtab) :
    findSymtab image w = .ok symtab w := by
  unfold findSymtab
  rw [h]
  rfl

/-- Without a symbol table the past-the-end iterator is dereferenced. -/
theorem findSymtab_none (h : ¬ image.HasSymbolTable) :
    ∃ w', findSymtab image w = .error .undefinedBehaviour w' := by
  unfold findSymtab
  rw [Image.symtab?_eq_none_iff.mpr h]
  exact ⟨_, rfl⟩

theorem findStopPC_eq_ok_iff {symtab : Section} {iterations : Nat} {stopPC : UInt64} :
    findStopPC iterations symtab w = .ok stopPC w' ↔
      stopLoop symtab.symbols iterations 0 = some stopPC ∧ w' = w := by
  unfold findStopPC
  cases stopLoop symtab.symbols iterations 0 with
  | none =>
      constructor
      · intro h
        cases h
      · rintro ⟨h, _⟩
        cases h
  | some found =>
      constructor
      · intro h
        cases h
        exact ⟨rfl, rfl⟩
      · rintro ⟨⟨⟩, rfl⟩
        rfl

theorem initStopPC_of_found {symtab : Section} {iterations : Nat}
    (h : image.symtab? = some symtab) :
    initStopPC M image iterations w =
      (findStopPC iterations symtab >>= fun stopPC => checkedCall (M.setStopPC stopPC)) w :=
  bind_ok (findSymtab_some h)

theorem initStopPC_ok {iterations : Nat} (h : initStopPC M image iterations w = .ok u w') :
    ∃ symtab stopPC, image.symtab? = some symtab ∧
      stopLoop symtab.symbols iterations 0 = some stopPC ∧
      M.setStopPC stopPC w.model = (.SUCCESS, w'.model) := by
  cases hfind : image.symtab? with
  | none =>
      obtain ⟨w₁, hnone⟩ := findSymtab_none (w := w) (Image.symtab?_eq_none_iff.mp hfind)
      have herror : initStopPC M image iterations w = .error .undefinedBehaviour w₁ :=
        bind_error hnone
      rw [herror] at h
      cases h
  | some symtab =>
      rw [initStopPC_of_found hfind] at h
      obtain ⟨stopPC, w₁, hstop, hset⟩ := bind_eq_ok_iff.mp h
      obtain ⟨hloop, rfl⟩ := findStopPC_eq_ok_iff.mp hstop
      exact ⟨symtab, stopPC, rfl, hloop, (checkedCall_eq_ok_iff.mp hset).1⟩

/-- The section iterator is only dereferenced past the end when there is no symbol table. -/
theorem initStopPC_error {iterations : Nat} {e : LoadFailure} (htable : image.HasSymbolTable)
    (h : initStopPC M image iterations w = .error e w') : e ≠ .undefinedBehaviour := by
  cases hfind : image.symtab? with
  | none => exact absurd htable (Image.symtab?_eq_none_iff.mp hfind)
  | some symtab =>
      rw [initStopPC_of_found hfind] at h
      rcases bind_eq_error_iff.mp h with hstop | ⟨stopPC, w₁, _, hset⟩
      · unfold findStopPC at hstop
        cases hloop : stopLoop symtab.symbols iterations 0 <;> rw [hloop] at hstop <;> cases hstop
        exact LoadFailure.noConfusion
      · obtain ⟨code, rfl⟩ := checkedCall_error hset
        exact LoadFailure.noConfusion

/-! ## The whole call -/

/-- The header is valid and every call up to the last segment succeeds. -/
structure LoadsTo (M : LoaderModel σ) (image : Image) (s s' : σ) : Prop where
  header : ValidHeader image
  segments : ∃ s₁, M.setPC image.entry s = (.SUCCESS, s₁) ∧
    SegmentsLoaded M image.segments s₁ s'

variable {load : Text → Option Image} {path : Text} {iterations : Nat}

theorem parseELFAndInit_of_loadsTo (hload : load path = some image) {s : σ}
    (h : LoadsTo M image w.model s) :
    ∃ cerr, ∀ iterations, parseELFAndInit M load path iterations w =
      initStopPC M image iterations ⟨s, cerr⟩ := by
  obtain ⟨s₁, hpc, hsegs⟩ := h.segments
  have hmachine : checkMachine path image w = .ok () w :=
    checkMachine_eq_ok_iff.mpr ⟨h.header.machine, rfl⟩
  rcases checkClass_cases M image w with ⟨_, cerr, hclass⟩ | ⟨hnot, _⟩
  · have hset : checkedCall (M.setPC image.entry) { w with cerr := cerr } = .ok () ⟨s₁, cerr⟩ :=
      checkedCall_eq_ok_iff.mpr ⟨hpc, rfl⟩
    have hplaced : loadSegments M image.segments ⟨s₁, cerr⟩ = .ok () ⟨s, cerr⟩ :=
      loadSegments_eq_ok_iff.mpr ⟨hsegs, rfl⟩
    refine ⟨cerr, fun iterations => ?_⟩
    unfold parseELFAndInit
    rw [bind_ok (readImage_eq hload w), bind_ok hmachine, bind_ok hclass, bind_ok hset,
      bind_ok hplaced]
  · exact absurd h.header.elfClass hnot

/-- A call that returns has loaded the segments and then set the stop address. -/
theorem parseELFAndInit_ok (hload : load path = some image)
    (h : parseELFAndInit M load path iterations w = .ok u w') :
    ∃ s symtab stopPC, LoadsTo M image w.model s ∧ image.symtab? = some symtab ∧
      stopLoop symtab.symbols iterations 0 = some stopPC ∧
      M.setStopPC stopPC s = (.SUCCESS, w'.model) := by
  unfold parseELFAndInit at h
  rw [bind_ok (readImage_eq hload w)] at h
  obtain ⟨_, w₁, hheader, hrest₁⟩ := bind_eq_ok_iff.mp h
  obtain ⟨hmachine, rfl⟩ := checkMachine_eq_ok_iff.mp hheader
  obtain ⟨_, w₂, hclass, hrest₂⟩ := bind_eq_ok_iff.mp hrest₁
  obtain ⟨_, w₃, hset, hrest₃⟩ := bind_eq_ok_iff.mp hrest₂
  obtain ⟨_, w₄, hsegs, hrest₄⟩ := bind_eq_ok_iff.mp hrest₃
  rcases checkClass_cases M image w₁ with ⟨hvalid, cerr, hok⟩ | ⟨_, herror⟩
  · rw [hok] at hclass
    cases hclass
    obtain ⟨hpc, _⟩ := checkedCall_eq_ok_iff.mp hset
    obtain ⟨hplaced, _⟩ := loadSegments_eq_ok_iff.mp hsegs
    obtain ⟨symtab, stopPC, hfind, hstop, hend⟩ := initStopPC_ok hrest₄
    exact ⟨w₄.model, symtab, stopPC, ⟨⟨hmachine, hvalid⟩, w₃.model, hpc, hplaced⟩,
      hfind, hstop, hend⟩
  · rw [herror] at hclass
    cases hclass

theorem parseELFAndInit_error {e : LoadFailure} (hload : load path = some image)
    (htable : image.HasSymbolTable) (h : parseELFAndInit M load path iterations w = .error e w') :
    e ≠ .undefinedBehaviour := by
  unfold parseELFAndInit at h
  rw [bind_ok (readImage_eq hload w)] at h
  -- stage by stage, in the order of the source
  rcases bind_eq_error_iff.mp h with hmachine | ⟨_, w₁, _, h⟩
  · unfold checkMachine at hmachine
    obtain ⟨_, rfl, _⟩ := throwIf_eq_error_iff.mp hmachine
    exact LoadFailure.noConfusion
  rcases bind_eq_error_iff.mp h with hclass | ⟨_, w₂, _, h⟩
  · rcases checkClass_cases M image w₁ with ⟨_, cerr, hok⟩ | ⟨_, herror⟩
    · rw [hok] at hclass
      cases hclass
    · rw [herror] at hclass
      cases hclass
      exact LoadFailure.noConfusion
  rcases bind_eq_error_iff.mp h with hset | ⟨_, w₃, _, h⟩
  · obtain ⟨code, rfl⟩ := checkedCall_error hset
    exact LoadFailure.noConfusion
  rcases bind_eq_error_iff.mp h with hsegs | ⟨_, w₄, _, h⟩
  · exact loadSegments_error hsegs
  · exact initStopPC_error htable h

/-! ## A simulator with a flat memory -/

structure Ram where
  mem : UInt64 → UInt8
  pc : UInt64 := 0
  stopPC : UInt64 := 0

def Ram.filled (byte : UInt8) : Ram where
  mem _ := byte

/-- Every address can be written and no call fails. -/
def ramModel : LoaderModel Ram where
  executeInstr s := ⟨.SUCCESS, [], s⟩
  readPC s := s.pc
  readXReg _ _ := (.SUCCESS, 0)
  readFReg _ _ := (.SUCCESS, 0)
  readCSR _ _ := (.SUCCESS, 0)
  rv64 _ := true
  setPC pc s := (.SUCCESS, { s with pc := pc })
  writeMem addr data s := (.SUCCESS, { s with mem := storeBytes s.mem addr data })
  setStopPC stopPC s := (.SUCCESS, { s with stopPC := stopPC })

/-- ELFIO where every path leads to this image. -/
def elfio (image : Image) : Text → Option Image := fun _ => some image

end Rvmi.Elf
