import Rvmi.Elf.Segments

/-!
# Loads that fail

A load can fail in front of the segments, at one of them or behind the last. The loader
undoes nothing, so what is in memory when it stops are the file bytes of the segments in
front of the failure, complete and in order, and no byte of another one. What a refused
call has done to the simulator by itself is added to that, and nothing else.
-/

namespace Rvmi.Elf

open Rvmi.Foundation Rvmi.Log

variable {σ : Type} {M : LoaderModel σ} {mem : σ → UInt64 → UInt8} {image : Image}
  {w w' : LoadWorld σ} {load : Text → Option Image} {path : Text} {iterations : Nat}

theorem checkedCall_eq_error_iff {f : σ → RVMErrorCode × σ} {e : LoadFailure} :
    checkedCall f w = .error e w' ↔
      ∃ code, f w.model = (code, w'.model) ∧ code ≠ .SUCCESS ∧ e = .modelError code ∧
        w'.cerr = w.cerr := by
  show (call f >>= checkAndThrow) w = .error e w' ↔ _
  have hcall : call f w = .ok (f w.model).1 { w with model := (f w.model).2 } := rfl
  rw [bind_ok hcall]
  unfold checkAndThrow
  rw [throwIf_eq_error_iff]
  constructor
  · rintro ⟨hcode, rfl, rfl⟩
    exact ⟨_, rfl, hcode, rfl, rfl⟩
  · rintro ⟨code, hf, hcode, rfl, hcerr⟩
    obtain ⟨model, cerr⟩ := w'
    cases hcerr
    rw [hf]
    exact ⟨hcode, rfl, rfl⟩

/-! ## The segment at which a load stops -/

/-- In the state `s` the segment is refused: for its sizes, with nothing done, or by the
simulator, which is left in `s'`. -/
inductive Refused (M : LoaderModel σ) (s : σ) (seg : Segment) : LoadFailure → σ → Prop
  | sizes (hsizes : seg.memorySize < seg.fileSize) :
      Refused M s seg (.runtimeError ("Invalid ELF segment: file size (".toList ++
        decDigits seg.fileSize.toNat ++ ") is greater than memory size (".toList ++
        decDigits seg.memorySize.toNat ++ ")".toList)) s
  | write {s' : σ} {code : RVMErrorCode} (hfits : seg.fileSize ≤ seg.memorySize)
      (hbytes : seg.fileSize ≠ 0)
      (hwrite : M.writeMem seg.physicalAddress seg.data s = (code, s'))
      (hcode : code ≠ .SUCCESS) : Refused M s seg (.modelError code) s'

theorem loadSegment_refused {seg : Segment} {e : LoadFailure}
    (h : loadSegment M seg w = .error e w') :
    seg.IsLoad ∧ Refused M w.model seg e w'.model := by
  unfold loadSegment at h
  by_cases hload : seg.type = PT_LOAD
  · rw [if_neg (not_not_intro hload)] at h
    rcases bind_eq_error_iff.mp h with hcheck | ⟨_, w₁, hcheck, hrest⟩
    · unfold checkSizes at hcheck
      obtain ⟨hsizes, rfl, rfl⟩ := throwIf_eq_error_iff.mp hcheck
      exact ⟨hload, .sizes hsizes⟩
    · obtain ⟨hfits, rfl⟩ := checkSizes_eq_ok_iff.mp hcheck
      by_cases hbytes : seg.fileSize = 0
      · rw [if_pos hbytes] at hrest
        cases hrest
      · rw [if_neg hbytes] at hrest
        obtain ⟨code, hwrite, hcode, rfl, _⟩ := checkedCall_eq_error_iff.mp hrest
        exact ⟨hload, .write hfits hbytes hwrite hcode⟩
  · rw [if_pos hload] at h
    cases h

/-- The loadable segments of a list. -/
abbrev loadable (segs : List Segment) : List Segment := segs.filter fun seg => seg.IsLoad

theorem loadable_cons_of_isLoad {seg : Segment} (segs : List Segment) (hload : seg.IsLoad) :
    loadable (seg :: segs) = seg :: loadable segs :=
  List.filter_cons_of_pos (decide_eq_true hload)

theorem loadable_cons_of_not {seg : Segment} (segs : List Segment) (hload : ¬ seg.IsLoad) :
    loadable (seg :: segs) = loadable segs :=
  List.filter_cons_of_neg fun h => hload (of_decide_eq_true h)

theorem isLoad_of_loadable {segs loaded rest : List Segment}
    (hsplit : loadable segs = loaded ++ rest) : ∀ seg ∈ loaded, seg.IsLoad := by
  intro seg hseg
  have hmem : seg ∈ loadable segs := hsplit ▸ List.mem_append_left rest hseg
  exact of_decide_eq_true (List.mem_filter.mp hmem).2

theorem eq_of_segmentLoaded {seg : Segment} {s s' : σ} (h : SegmentLoaded M seg s s')
    (hload : ¬ seg.IsLoad) : s' = s := by
  cases h with
  | skipped _ => rfl
  | written hload' _ _ _ => exact absurd hload' hload

/-- A segment that is not loadable does nothing. -/
theorem segmentsLoaded_loadable {segs : List Segment} {s s' : σ} (h : SegmentsLoaded M segs s s') :
    SegmentsLoaded M (loadable segs) s s' := by
  induction h with
  | nil s => exact .nil s
  | @cons seg segs s s₁ s' hseg _ ih =>
      by_cases hload : seg.IsLoad
      · rw [loadable_cons_of_isLoad segs hload]
        exact .cons hseg ih
      · rw [loadable_cons_of_not segs hload, ← eq_of_segmentLoaded hseg hload]
        exact ih

theorem loadSegments_refused {segs : List Segment} {e : LoadFailure}
    (h : loadSegments M segs w = .error e w') :
    ∃ loaded seg rest s, loadable segs = loaded ++ seg :: rest ∧
      SegmentsLoaded M loaded w.model s ∧ Refused M s seg e w'.model := by
  induction segs generalizing w with
  | nil => cases h
  | cons seg segs ih =>
      rcases bind_eq_error_iff.mp h with hseg | ⟨_, w₁, hseg, hrest⟩
      · obtain ⟨hload, hrefused⟩ := loadSegment_refused hseg
        exact ⟨[], seg, loadable segs, w.model, loadable_cons_of_isLoad segs hload, .nil _, hrefused⟩
      · obtain ⟨hloaded, _⟩ := loadSegment_eq_ok_iff.mp hseg
        obtain ⟨loaded, stop, rest, s, hsplit, hsegs, hrefused⟩ := ih hrest
        by_cases hload : seg.IsLoad
        · refine ⟨seg :: loaded, stop, rest, s, ?_, .cons hloaded hsegs, hrefused⟩
          rw [loadable_cons_of_isLoad segs hload, hsplit]
          rfl
        · rw [eq_of_segmentLoaded hloaded hload] at hsegs
          rw [loadable_cons_of_not segs hload]
          exact ⟨loaded, stop, rest, s, hsplit, hsegs, hrefused⟩

/-! ## The whole call -/

/-- Where a call that began in `s₀` fails and in which state it leaves the simulator: it
has come to `s` by calls that succeeded, with the segments in front of the failure and those
that are left, the refused one first. Only the call that fails changes the state `s`. -/
inductive StoppedBy (M : LoaderModel σ) (path : Text) (image : Image) (iterations : Nat) (s₀ : σ) :
    σ → List Segment → List Segment → LoadFailure → σ → Prop
  | machine (hwrong : image.machine ≠ EM_RISCV) :
      StoppedBy M path image iterations s₀ s₀ [] image.loads (.runtimeError
        ("Invalid file \"".toList ++ path ++ "\": expected RISC-V ELF file".toList)) s₀
  | elfClass (hmachine : image.machine = EM_RISCV)
      (hwrong : ¬ (image.elfClass = ELFCLASS64 ∨ image.elfClass = ELFCLASS32)) :
      StoppedBy M path image iterations s₀ s₀ [] image.loads
        (.runtimeError "Invalid ELF class".toList) s₀
  | entry {s' : σ} {code : RVMErrorCode} (hheader : ValidHeader image)
      (hset : M.setPC image.entry s₀ = (code, s')) (hcode : code ≠ .SUCCESS) :
      StoppedBy M path image iterations s₀ s₀ [] image.loads (.modelError code) s'
  | segment {loaded rest : List Segment} {seg : Segment} {e : LoadFailure} {s₁ s s' : σ}
      (hheader : ValidHeader image) (hset : M.setPC image.entry s₀ = (.SUCCESS, s₁))
      (hsegs : SegmentsLoaded M loaded s₁ s) (hsplit : image.loads = loaded ++ seg :: rest)
      (hrefused : Refused M s seg e s') :
      StoppedBy M path image iterations s₀ s loaded (seg :: rest) e s'
  | noSymbols {s : σ} (hloads : LoadsTo M image s₀ s) (hnone : ¬ image.HasSymbolTable) :
      StoppedBy M path image iterations s₀ s image.loads [] .undefinedBehaviour s
  | search {s : σ} {symtab : Section} (hloads : LoadsTo M image s₀ s)
      (hfind : image.symtab? = some symtab)
      (hloop : stopLoop symtab.symbols iterations 0 = none) :
      StoppedBy M path image iterations s₀ s image.loads [] .running s
  | stopPC {s s' : σ} {symtab : Section} {stopPC : UInt64} {code : RVMErrorCode}
      (hloads : LoadsTo M image s₀ s) (hfind : image.symtab? = some symtab)
      (hloop : stopLoop symtab.symbols iterations 0 = some stopPC)
      (hset : M.setStopPC stopPC s = (code, s')) (hcode : code ≠ .SUCCESS) :
      StoppedBy M path image iterations s₀ s image.loads [] (.modelError code) s'

section Stopped

variable {s₀ s s' : σ} {loaded rest : List Segment} {e : LoadFailure}
  (h : StoppedBy M path image iterations s₀ s loaded rest e s')

include h

theorem StoppedBy.split : image.loads = loaded ++ rest := by
  cases h with
  | machine _ => rfl
  | elfClass _ _ => rfl
  | entry _ _ _ => rfl
  | segment _ _ _ hsplit _ => exact hsplit
  | noSymbols _ _ => exact (List.append_nil _).symm
  | search _ _ _ => exact (List.append_nil _).symm
  | stopPC _ _ _ _ _ => exact (List.append_nil _).symm

/-- In front of the segments nothing is loaded; behind, the loaded ones have been written. -/
theorem StoppedBy.loaded_cases :
    loaded = [] ∧ s = s₀ ∨
      ∃ s₁, M.setPC image.entry s₀ = (.SUCCESS, s₁) ∧ SegmentsLoaded M loaded s₁ s := by
  have hall (hloads : LoadsTo M image s₀ s) :
      ∃ s₁, M.setPC image.entry s₀ = (.SUCCESS, s₁) ∧ SegmentsLoaded M image.loads s₁ s := by
    obtain ⟨s₁, hset, hsegs⟩ := hloads.segments
    exact ⟨s₁, hset, segmentsLoaded_loadable hsegs⟩
  cases h with
  | machine _ => exact .inl ⟨rfl, rfl⟩
  | elfClass _ _ => exact .inl ⟨rfl, rfl⟩
  | entry _ _ _ => exact .inl ⟨rfl, rfl⟩
  | segment _ hset hsegs _ _ => exact .inr ⟨_, hset, hsegs⟩
  | noSymbols hloads _ => exact .inr (hall hloads)
  | search hloads _ _ => exact .inr (hall hloads)
  | stopPC hloads _ _ _ _ => exact .inr (hall hloads)

theorem StoppedBy.fits : ∀ seg ∈ loaded, seg.fileSize ≤ seg.memorySize := by
  intro seg hseg
  rcases h.loaded_cases with ⟨rfl, _⟩ | ⟨s₁, _, hsegs⟩
  · cases hseg
  · exact hsegs.fits seg hseg (isLoad_of_loadable h.split seg hseg)

theorem StoppedBy.mem_eq (hM : HoldsMemory M mem) :
    mem s = overlay (mem s₀) (loaded.map Segment.fileWrite) := by
  rcases h.loaded_cases with ⟨rfl, rfl⟩ | ⟨s₁, hset, hsegs⟩
  · rfl
  · have hloaded : loadable loaded = loaded := List.filter_eq_self.mpr fun seg hseg =>
      decide_eq_true (isLoad_of_loadable h.split seg hseg)
    have hmem := hsegs.mem_eq hM
    rw [hM.setPC _ _ _ hset] at hmem
    exact hmem.trans (congrArg (fun segs => overlay _ (segs.map Segment.fileWrite)) hloaded)

end Stopped

theorem initStopPC_stopped {s₀ : σ} {e : LoadFailure} (hloads : LoadsTo M image s₀ w.model)
    (h : initStopPC M image iterations w = .error e w') :
    StoppedBy M path image iterations s₀ w.model image.loads [] e w'.model := by
  cases hfind : image.symtab? with
  | none =>
      unfold initStopPC findSymtab at h
      rw [hfind] at h
      cases h
      exact .noSymbols hloads (Image.symtab?_eq_none_iff.mp hfind)
  | some symtab =>
      rw [initStopPC_of_found hfind] at h
      rcases bind_eq_error_iff.mp h with hstop | ⟨stopPC, w₁, hstop, hset⟩
      · unfold findStopPC at hstop
        cases hloop : stopLoop symtab.symbols iterations 0 with
        | some stopPC =>
            rw [hloop] at hstop
            cases hstop
        | none =>
            rw [hloop] at hstop
            cases hstop
            exact .search hloads hfind hloop
      · obtain ⟨hloop, rfl⟩ := findStopPC_eq_ok_iff.mp hstop
        obtain ⟨code, hcall, hcode, rfl, _⟩ := checkedCall_eq_error_iff.mp hset
        exact .stopPC hloads hfind hloop hcall hcode

/-- A call that fails stops somewhere. -/
theorem parseELFAndInit_stopped (hload : load path = some image) {e : LoadFailure}
    (h : parseELFAndInit M load path iterations w = .error e w') :
    ∃ s loaded rest, StoppedBy M path image iterations w.model s loaded rest e w'.model := by
  unfold parseELFAndInit at h
  rw [bind_ok (readImage_eq hload w)] at h
  rcases bind_eq_error_iff.mp h with hmachine | ⟨_, w₁, hmachine, hrest₁⟩
  · unfold checkMachine at hmachine
    obtain ⟨hwrong, rfl, rfl⟩ := throwIf_eq_error_iff.mp hmachine
    exact ⟨_, _, _, .machine hwrong⟩
  obtain ⟨hvalid, rfl⟩ := checkMachine_eq_ok_iff.mp hmachine
  rcases checkClass_cases M image w₁ with ⟨hwidth, cerr, hclass⟩ | ⟨hwrong, hclass⟩
  swap
  · rw [bind_error hclass] at hrest₁
    cases hrest₁
    exact ⟨_, _, _, .elfClass hvalid hwrong⟩
  have hheader : ValidHeader image := ⟨hvalid, hwidth⟩
  rw [bind_ok hclass] at hrest₁
  rcases bind_eq_error_iff.mp hrest₁ with hset | ⟨_, w₂, hset, hrest₂⟩
  · obtain ⟨code, hcall, hcode, rfl, _⟩ := checkedCall_eq_error_iff.mp hset
    exact ⟨_, _, _, .entry hheader hcall hcode⟩
  obtain ⟨hpc, _⟩ := checkedCall_eq_ok_iff.mp hset
  rcases bind_eq_error_iff.mp hrest₂ with hsegs | ⟨_, w₃, hsegs, hrest₃⟩
  · obtain ⟨loaded, seg, rest, s, hsplit, hloaded, hrefused⟩ := loadSegments_refused hsegs
    exact ⟨s, loaded, seg :: rest, .segment hheader hpc hloaded hsplit hrefused⟩
  · obtain ⟨hsegs, _⟩ := loadSegments_eq_ok_iff.mp hsegs
    exact ⟨_, _, _, initStopPC_stopped ⟨hheader, _, hpc, hsegs⟩ hrest₃⟩

/-- A call that fails stops with the file bytes of the segments in front of the failure in
memory, and these fit; it leaves the simulator there, or behind the one call it refused. -/
theorem parseELFAndInit_partial (hM : HoldsMemory M mem) (hload : load path = some image)
    {e : LoadFailure} (h : parseELFAndInit M load path iterations w = .error e w') :
    ∃ s loaded rest, image.loads = loaded ++ rest ∧
      (∀ seg ∈ loaded, seg.fileSize ≤ seg.memorySize) ∧
      mem s = overlay (mem w.model) (loaded.map Segment.fileWrite) ∧
      StoppedBy M path image iterations w.model s loaded rest e w'.model := by
  obtain ⟨s, loaded, rest, hstopped⟩ := parseELFAndInit_stopped hload h
  exact ⟨s, loaded, rest, hstopped.split, hstopped.fits, hstopped.mem_eq hM, hstopped⟩

/-! ## A simulator whose memory ends -/

/-- Nothing can be written from `0x2000` on, and what was in memory is lost by the attempt. -/
def smallModel : LoaderModel Ram where
  toModel := ramModel.toModel
  rv64 := ramModel.rv64
  setPC := ramModel.setPC
  writeMem addr data s :=
    if addr < 0x2000 then ramModel.writeMem addr data s else (.UNRECOVERABLE_ERROR, .filled 0xff)
  setStopPC := ramModel.setStopPC

theorem holdsMemory_smallModel : HoldsMemory smallModel Ram.mem where
  writeMem addr data s s' h := by
    by_cases haddr : addr < 0x2000
    · have hwrite : ramModel.writeMem addr data s = (.SUCCESS, s') := (if_pos haddr).symm.trans h
      exact holdsMemory_ramModel.writeMem addr data s s' hwrite
    · cases (if_neg haddr).symm.trans h
  setPC := holdsMemory_ramModel.setPC
  setStopPC := holdsMemory_ramModel.setStopPC

/-- The second of two segments is refused. -/
def highImage : Image where
  machine := EM_RISCV
  elfClass := ELFCLASS64
  entry := 0x1000
  segments := [⟨PT_LOAD, 0x1000, 1, 1, [0x13], List.length_singleton⟩,
    ⟨PT_LOAD, 0x2000, 1, 1, [0x93], List.length_singleton⟩]
  sections := [⟨SHT_SYMTAB, []⟩]

theorem parseELFAndInit_partial_highImage : ∃ w' : LoadWorld Ram,
    parseELFAndInit smallModel (elfio highImage) [] 1 ⟨.filled 0, []⟩ =
        .error (.modelError .UNRECOVERABLE_ERROR) w' ∧
      ∃ s loaded rest, highImage.loads = loaded ++ rest ∧
        (∀ seg ∈ loaded, seg.fileSize ≤ seg.memorySize) ∧
        s.mem = overlay (Ram.filled 0).mem (loaded.map Segment.fileWrite) ∧
        StoppedBy smallModel [] highImage 1 (.filled 0) s loaded rest
          (.modelError .UNRECOVERABLE_ERROR) w'.model := by
  have hrun : ∃ w' : LoadWorld Ram, parseELFAndInit smallModel (elfio highImage) [] 1
      ⟨.filled 0, []⟩ = .error (.modelError .UNRECOVERABLE_ERROR) w' := ⟨_, rfl⟩
  obtain ⟨w', hrun⟩ := hrun
  have hload : elfio highImage [] = some highImage := rfl
  exact ⟨w', hrun, parseELFAndInit_partial holdsMemory_smallModel hload hrun⟩

end Rvmi.Elf
