import Rvmi.Isa.Canonical
import Rvmi.Isa.Parse
import Rvmi.Launch.CommandLine

/-!
# The configuration of the model

`RVMConfig`, the `Builder` that fills it and what the launchers fill in. Both launchers
force the supervisor mode and the paging modes of the bitness, whatever ISA string they
are given; an ISA string printed from the configuration does not show it.
-/

namespace Rvmi.Launch

open Rvmi.Foundation Rvmi.Log Rvmi.Elf Rvmi.Isa RVMExtDescriptor

/-! ## `RVMConfig` -/

structure RVMMemoryRegion where
  start : UInt64
  size : UInt64
  name : Option Text
deriving DecidableEq, Repr

/-- `char` arrays without an initialiser of their own. -/
def zeroExtDescriptor : RVMExtDescriptor where
  zExtSize := 0
  xExtSize := 0
  sExtSize := 0
  misaExt := fun _ => 0
  zExt := fun _ => 0
  sExt := fun _ => 0
  xExt := fun _ => 0

/-- A member that is a null pointer is `none`. A callback function changes the object
behind the handler, so of the handler only whether there is one is kept. -/
structure RVMConfig (H : Type) where
  memoryRegions : List RVMMemoryRegion := []
  rv64 : Bool := false
  vlen : UInt32 := 0
  enableMisalignedAccess : Bool := false
  mode : RVMStopMode := .NEVER
  stopAddr : UInt64 := 0
  logFilePath : Option Text := none
  debugLogFilePath : Option Text := none
  callbackHandler : Bool := false
  memReadCallback : Option (H → UInt64 → List UInt8 → H) := none
  memUpdateCallback : Option (H → UInt64 → List UInt8 → H) := none
  xRegUpdateCallback : Option (H → RVMXReg → RVMRegT → H) := none
  fRegUpdateCallback : Option (H → RVMFReg → RVMRegT → H) := none
  vRegUpdateCallback : Option (H → RVMVReg → List UInt8 → H) := none
  csrUpdateCallback : Option (H → RVMCSR → RVMRegT → H) := none
  pcUpdateCallback : Option (H → UInt64 → H) := none
  changeMaskAgnosticElems : Bool := false
  changeTailAgnosticElems : Bool := false
  extensions : RVMExtDescriptor := zeroExtDescriptor

variable {H σ : Type}

/-- What a model does with an event: no callback is called without a handler, and none
that was not registered. -/
def RVMConfig.notify (config : RVMConfig H) (h : H) (event : Callback) : H :=
  if config.callbackHandler then
    match event with
    | .memRead addr data => (config.memReadCallback.map fun f => f h addr data).getD h
    | .memUpdate addr data => (config.memUpdateCallback.map fun f => f h addr data).getD h
    | .xRegUpdate reg value => (config.xRegUpdateCallback.map fun f => f h reg value).getD h
    | .fRegUpdate reg value => (config.fRegUpdateCallback.map fun f => f h reg value).getD h
    | .vRegUpdate reg data => (config.vRegUpdateCallback.map fun f => f h reg data).getD h
    | .csRegUpdate reg value => (config.csrUpdateCallback.map fun f => f h reg value).getD h
  else h

/-! ## `State::Builder` -/

namespace Builder

def addMemoryRegion (start size : UInt64) (name : Option Text) (config : RVMConfig H) :
    RVMConfig H := { config with memoryRegions := config.memoryRegions ++ [⟨start, size, name⟩] }

def setRV64Isa (config : RVMConfig H) : RVMConfig H := { config with rv64 := true }

def setRV32Isa (config : RVMConfig H) : RVMConfig H := { config with rv64 := false }

def registerCallbackHandler (config : RVMConfig H) : RVMConfig H :=
  { config with callbackHandler := true }

def registerMemReadCallback (callback : H → UInt64 → List UInt8 → H) (config : RVMConfig H) :
    RVMConfig H := { config with memReadCallback := some callback }

def registerMemUpdateCallback (callback : H → UInt64 → List UInt8 → H) (config : RVMConfig H) :
    RVMConfig H := { config with memUpdateCallback := some callback }

def registerXRegUpdateCallback (callback : H → RVMXReg → RVMRegT → H) (config : RVMConfig H) :
    RVMConfig H := { config with xRegUpdateCallback := some callback }

def registerFRegUpdateCallback (callback : H → RVMFReg → RVMRegT → H) (config : RVMConfig H) :
    RVMConfig H := { config with fRegUpdateCallback := some callback }

def registerVRegUpdateCallback (callback : H → RVMVReg → List UInt8 → H) (config : RVMConfig H) :
    RVMConfig H := { config with vRegUpdateCallback := some callback }

def registerCSRUpdateCallback (callback : H → RVMCSR → RVMRegT → H) (config : RVMConfig H) :
    RVMConfig H := { config with csrUpdateCallback := some callback }

/-- The three size fields are copied with the arrays. -/
def setExtensions (ext : RVMExtDescriptor) (config : RVMConfig H) : RVMConfig H :=
  { config with extensions := ext }

def setVLEN (vlen : UInt32) (config : RVMConfig H) : RVMConfig H := { config with vlen := vlen }

def enableMisalignedAccess (config : RVMConfig H) : RVMConfig H :=
  { config with enableMisalignedAccess := true }

def setLogPath (logFilePath : Text) (config : RVMConfig H) : RVMConfig H :=
  { config with logFilePath := some logFilePath }

def setDebugLogPath (logFilePath : Text) (config : RVMConfig H) : RVMConfig H :=
  { config with debugLogFilePath := some logFilePath }

/-- What `modelCreate` leaves: the code, the message for the error buffer and the model. -/
structure Created (σ : Type) where
  err : RVMErrorCode
  message : Text
  model : σ

def errBufSize : Nat := 200

/-- `std::string(ErrBufSize, '\0')` with a message in it; one that does not fit is cut. -/
def errStr (message : Text) : Text :=
  message.take errBufSize ++ List.replicate (errBufSize - message.length) '\x00'

def build (modelCreate : RVMConfig H → Created σ) (config : RVMConfig H) : Except Text σ :=
  let created := modelCreate config
  if created.err ≠ .SUCCESS then
    .error ("Failed to create RVMState: ".toList ++ errStr created.message)
  else .ok created.model

end Builder

/-! ## What the launchers fill in -/

/-- The extensions without an ISA string. -/
def defaultExtensions : RVMExtDescriptor :=
  rvmInitExtDescriptor.setAll [.misa .I, .misa .M, .misa .A, .misa .C, .misa .F, .misa .D,
    .misa .V, .zext .ICSR]

def flagValue (b : Bool) : UInt8 := if b then 1 else 0

/-- "Model implementations usually always enabled S with an mmu." -/
def withSupervisor (exts : RVMExtDescriptor) (isRV64 : Bool) : RVMExtDescriptor :=
  ((((exts.set (.misa .S) 1).set (.sext .V32) (flagValue (!isRV64))).set
    (.sext .V39) (flagValue isRV64)).set (.sext .V48) (flagValue isRV64)).set
    (.sext .V57) (flagValue isRV64)

/-- The extensions and the bitness the options ask for. -/
def requestedExtensions (options : CommandLineOptions) : Parse (RVMExtDescriptor × Bool) :=
  if options.isaStringOverride.isEmpty then .ok (defaultExtensions, true)
  else parseIsaString options.isaStringOverride

open Builder in
def launchConfig (options : CommandLineOptions) (exts : RVMExtDescriptor) (isRV64 : Bool) :
    RVMConfig ExecutionLogger :=
  let builder : RVMConfig ExecutionLogger := {}
  let builder := builder
    |> addMemoryRegion options.memoryRomStart options.memoryRomSize (some "rom".toList)
    |> addMemoryRegion options.memoryRamStart options.memoryRamSize (some "ram".toList)
    |> setVLEN 128
    |> setLogPath options.modelLogPath
    |> Builder.enableMisalignedAccess
    |> setExtensions (withSupervisor exts isRV64)
    |> registerCallbackHandler
    |> registerMemReadCallback ExecutionLogger.addMemoryRead
    |> registerMemUpdateCallback ExecutionLogger.addMemoryUpdate
    |> registerXRegUpdateCallback (fun logger reg _ => logger.addXRegUpdate reg)
    |> registerFRegUpdateCallback (fun logger reg _ => logger.addFRegUpdate reg)
    |> registerVRegUpdateCallback ExecutionLogger.addVRegUpdate
    |> registerCSRUpdateCallback (fun logger reg _ => logger.addCSRUpdate reg)
  let builder := if isRV64 then setRV64Isa builder else setRV32Isa builder
  match options.debugLogPath with
  | some path => setDebugLogPath path builder
  | none => builder

/-! ## The configuration as a whole -/

/-- The callbacks a model delivers reach the logger as the six functions say. -/
theorem notify_launchConfig (options : CommandLineOptions) (exts : RVMExtDescriptor)
    (isRV64 : Bool) (logger : ExecutionLogger) (event : Callback) :
    (launchConfig options exts isRV64).notify logger event = logger.callback event := by
  unfold launchConfig
  cases isRV64 <;> cases options.debugLogPath <;> cases event <;> rfl

theorem extensions_launchConfig (options : CommandLineOptions) (exts : RVMExtDescriptor)
    (isRV64 : Bool) :
    (launchConfig options exts isRV64).extensions = withSupervisor exts isRV64 ∧
      (launchConfig options exts isRV64).rv64 = isRV64 := by
  unfold launchConfig
  cases isRV64 <;> cases options.debugLogPath <;> exact ⟨rfl, rfl⟩

/-! ## What the launchers force -/

/-- The paging modes that `satp` has with each bitness. -/
def pagingModes (isRV64 : Bool) : List ExtFlag :=
  if isRV64 then [.sext .V39, .sext .V48, .sext .V57] else [.sext .V32]

/-- The flags the launchers overwrite. -/
def forcedFlags : List ExtFlag := .misa .S :: (pagingModes false ++ pagingModes true)

theorem sameSizes_withSupervisor (exts : RVMExtDescriptor) (isRV64 : Bool) :
    SameSizes (withSupervisor exts isRV64) exts := by
  unfold withSupervisor
  refine (sameSizes_set _ _ _).trans ((sameSizes_set _ _ _).trans ?_)
  exact (sameSizes_set _ _ _).trans ((sameSizes_set _ _ _).trans (sameSizes_set _ _ _))

/-- Whatever was asked for, these flags only depend on the bitness; the others are kept. -/
theorem get_withSupervisor (exts : RVMExtDescriptor) (isRV64 : Bool) (f : ExtFlag) :
    (withSupervisor exts isRV64).get f =
      if f ∈ forcedFlags then flagValue (decide (f = .misa .S ∨ f ∈ pagingModes isRV64))
      else exts.get f := by
  unfold withSupervisor
  simp only [get_set]
  by_cases hf : f ∈ forcedFlags
  · rw [if_pos hf]
    have hcases : f = .misa .S ∨ f = .sext .V32 ∨ f = .sext .V39 ∨ f = .sext .V48 ∨
        f = .sext .V57 := by simpa [forcedFlags, pagingModes] using hf
    rcases hcases with rfl | rfl | rfl | rfl | rfl
    · cases isRV64 <;> rfl
    · cases isRV64 <;> rfl
    · cases isRV64 <;> rfl
    · cases isRV64 <;> rfl
    · cases isRV64 <;> rfl
  · have hnot : f ≠ .misa .S ∧ f ≠ .sext .V32 ∧ f ≠ .sext .V39 ∧ f ≠ .sext .V48 ∧
        f ≠ .sext .V57 := by simpa [forcedFlags, pagingModes] using hf
    obtain ⟨hs, h32, h39, h48, h57⟩ := hnot
    rw [if_neg hf, if_neg h57, if_neg h48, if_neg h39, if_neg h32, if_neg hs]

/-- No composite and no inference depends on them, and none of them is printed. -/
theorem forcedFlags_spec : ∀ f ∈ forcedFlags,
    (f ∉ CompositeRule.heads compositeRules ∧ f ∉ cInputs ∧ f ≠ .misa .I) ∧
      (f ∈ reservedLetters ∨ f ∈ outOfBand) := by
  have hheads : ∀ f ∈ forcedFlags, ∀ r ∈ compositeRules, r.composite ≠ f := by decide
  have hrest : ∀ f ∈ forcedFlags,
      (f ∉ cInputs ∧ f ≠ .misa .I) ∧ (f ∈ reservedLetters ∨ f ∈ outOfBand) := by decide
  intro f hf
  obtain ⟨hinputs, hhidden⟩ := hrest f hf
  exact ⟨⟨fun ⟨r, hr, heq⟩ => hheads f hf r hr heq, hinputs⟩, hhidden⟩

theorem shown_withSupervisor (exts : RVMExtDescriptor) (isRV64 rv64 : Bool) :
    shown (withSupervisor exts isRV64) rv64 = shown exts rv64 := by
  have hagree : ∀ f, f ∉ forcedFlags →
      (f ∈ (withSupervisor exts isRV64).enabled ↔ f ∈ exts.enabled) := by
    intro f hf
    rw [mem_enabled, mem_enabled, get_withSupervisor, if_neg hf]
  ext f
  unfold shown
  rw [Set.mem_ofPred_eq, Set.mem_ofPred_eq, get_normalizeExtensions_ne_zero,
    get_normalizeExtensions_ne_zero, (sameSizes_withSupervisor exts isRV64).inRange_iff]
  by_cases hf : f ∈ forcedFlags
  · obtain ⟨_, hhidden⟩ := forcedFlags_spec f hf
    constructor
    · rintro ⟨_, _, hletter, hband⟩
      exact absurd hhidden (not_or.mpr ⟨hletter, hband⟩)
    · rintro ⟨_, _, hletter, hband⟩
      exact absurd hhidden (not_or.mpr ⟨hletter, hband⟩)
  · rw [mem_normalizeSet_congr (fun f hf => (forcedFlags_spec f hf).1) hagree hf]

/-- What the launchers force into the configuration depends on the bitness alone, and it
does not show in an ISA string that is printed from it. -/
theorem launchConfig_isaString (options : CommandLineOptions) (exts : RVMExtDescriptor)
    (isRV64 lowercase : Bool) :
    createIsaString (launchConfig options exts isRV64).extensions
        (launchConfig options exts isRV64).rv64 lowercase =
          createIsaString exts isRV64 lowercase ∧
      ∀ f, f ∈ (launchConfig options exts isRV64).extensions.enabled ↔
        if f ∈ forcedFlags then f = .misa .S ∨ f ∈ pagingModes isRV64 else f ∈ exts.enabled := by
  obtain ⟨hexts, hbits⟩ := extensions_launchConfig options exts isRV64
  rw [hexts, hbits]
  constructor
  · rw [createIsaString_eq_canonical, createIsaString_eq_canonical, shown_withSupervisor]
  · intro f
    rw [mem_enabled, get_withSupervisor]
    by_cases hf : f ∈ forcedFlags
    · rw [if_pos hf, if_pos hf]
      by_cases hmode : f = .misa .S ∨ f ∈ pagingModes isRV64
      · rw [decide_eq_true hmode]
        exact iff_of_true (by decide) hmode
      · rw [decide_eq_false hmode]
        exact iff_of_false (by decide) hmode
    · rw [if_neg hf, if_neg hf]
      rfl

end Rvmi.Launch
