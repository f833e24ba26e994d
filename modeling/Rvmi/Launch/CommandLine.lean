import Rvmi.Foundation.LongOptions
import Rvmi.Foundation.Strtoull
import Rvmi.Launch.Main

/-!
# The command line

`parseCommandLine` of `DriverUtils.cpp` and the dump of the options it ends with. The
options read once the model has been built are those of `DriverOptions`; the others say
which model that is and where its logs go.
-/

namespace Rvmi.Launch

open Rvmi.Foundation Rvmi.Log

/-! ## Options -/

def kDefaultMemStart : UInt64 := 0x80000000
def kDefaultMemSize : UInt64 := 0x10000

/-- All fields of `DriverOptions`, with their defaults. -/
@[ext] structure CommandLineOptions extends DriverOptions where
  interfaceVersionSymbol : Text := "RVMInterfaceVersion".toList
  vTableSymbol : Text := "RVMVTable".toList
  libraryPath : Text := "-".toList
  jsonExecLog : Text := []
  memoryRomStart : UInt64 := kDefaultMemStart
  memoryRomSize : UInt64 := kDefaultMemSize
  memoryRamStart : UInt64 := kDefaultMemStart
  memoryRamSize : UInt64 := kDefaultMemSize
  modelLogPath : Text := "rvm.log".toList
  debugLogPath : Option Text := none
  isaStringOverride : Text := []

/-- `D_RVM_OPTIONS` -/
inductive SimOptions where
  | DebugLogPath
  | ModelLogPath
  | ExecFile
  | IsaStringOverride
  | StopMode
deriving DecidableEq, Repr

inductive ExtOpts where
  | ModelLib
  | AllowExceptions
  | OutputState
  | JsonExecLog
  | RomStart
  | RomSize
  | RamStart
  | RamSize
  | ClearInterrupt
  | NumStepsBeforeInt
deriving DecidableEq, Repr

def simOpt2Str : SimOptions → Text
  | .DebugLogPath => "rvm-debug-log-path".toList
  | .ModelLogPath => "rvm-model-log-path".toList
  | .ExecFile => "rvm-exec-file-path".toList
  | .IsaStringOverride => "rvm-isa-string".toList
  | .StopMode => "rvm-stop-mode".toList

def extOptName : ExtOpts → Text
  | .ModelLib => "driver-model-lib".toList
  | .AllowExceptions => "driver-allow-exceptions".toList
  | .OutputState => "driver-output-state-file".toList
  | .JsonExecLog => "driver-json-exec-log".toList
  | .RomStart => "driver-model-mem-rom-start".toList
  | .RomSize => "driver-model-mem-rom-size".toList
  | .RamStart => "driver-model-mem-ram-start".toList
  | .RamSize => "driver-model-mem-ram-size".toList
  | .ClearInterrupt => "driver-model-clear-interrupt".toList
  | .NumStepsBeforeInt => "driver-model-num-steps-before-interrupt".toList

/-- `getopt_long` returns 0 and the index for the first kind, the value for the second. -/
abbrev OptionId := SimOptions ⊕ ExtOpts

def optionName : OptionId → Text
  | .inl opt => simOpt2Str opt
  | .inr opt => extOptName opt

def optionIds : List OptionId :=
  [.inl .DebugLogPath, .inl .ModelLogPath, .inl .ExecFile, .inl .IsaStringOverride,
    .inl .StopMode, .inr .ModelLib, .inr .AllowExceptions, .inr .OutputState, .inr .JsonExecLog,
    .inr .RomStart, .inr .RomSize, .inr .RamStart, .inr .RamSize, .inr .ClearInterrupt,
    .inr .NumStepsBeforeInt]

def long_options : List (Text × OptionId) := optionIds.map fun opt => (optionName opt, opt)

/-- What `getopt_long` makes of a name that is no option's, and whether it looks for
options behind operands, is up to the C library and its environment. -/
def getopt (abbreviated : Text → Option OptionId) (permute : Bool) : LongOptions OptionId :=
  .ofTable long_options abbreviated permute

/-! ## `parseCommandLine` -/

/-- The function returns `nullopt`, or a number cannot be read. -/
inductive CommandLineFailure where
  | usage
  | number (reason : NumberFailure)
deriving DecidableEq, Repr

def parseMemoryTrait (memTrait : Text) : Except CommandLineFailure UInt64 :=
  match stoull memTrait with
  | .ok value => .ok value
  | .error reason => .error (.number reason)

/-- The body of the loop. The argument of the option that clears the interrupt is not
looked at. -/
def setOption (result : CommandLineOptions) (opt : OptionId) (optarg : Text) :
    Except CommandLineFailure CommandLineOptions :=
  match opt with
  | .inl .ModelLogPath => .ok { result with modelLogPath := optarg }
  | .inl .DebugLogPath => .ok { result with debugLogPath := some optarg }
  | .inl .ExecFile => .ok { result with executableFile := optarg }
  | .inl .IsaStringOverride => .ok { result with isaStringOverride := optarg }
  | .inl .StopMode => .ok { result with stopMode := optarg }
  | .inr .OutputState => .ok { result with stateFile := optarg }
  | .inr .ModelLib => .ok { result with libraryPath := optarg }
  | .inr .AllowExceptions => .ok { result with allowExceptions := optarg }
  | .inr .JsonExecLog => .ok { result with jsonExecLog := optarg }
  | .inr .ClearInterrupt => .ok { result with clearInterrupt := true }
  | .inr .NumStepsBeforeInt => do
      let value ← parseMemoryTrait optarg
      return { result with numStepsBeforeInt := value }
  | .inr .RomStart => do
      let value ← parseMemoryTrait optarg
      return { result with memoryRomStart := value }
  | .inr .RomSize => do
      let value ← parseMemoryTrait optarg
      return { result with memoryRomSize := value }
  | .inr .RamStart => do
      let value ← parseMemoryTrait optarg
      return { result with memoryRamStart := value }
  | .inr .RamSize => do
      let value ← parseMemoryTrait optarg
      return { result with memoryRamSize := value }

def parseCommandLine (abbreviated : Text → Option OptionId) (permute : Bool) (args : List Text) :
    Except CommandLineFailure CommandLineOptions :=
  (getopt abbreviated permute).scan setOption .usage args {}

/-! ## `DriverOptions::dump` -/

def dumpOptionField (optString value : Text) : Text :=
  dashes ++ optString ++ " ".toList ++ value ++ "\n".toList

/-- The fields in the order in which they are dumped. The path of the debug log is not
among them. -/
def dumpFields (o : CommandLineOptions) : List (OptionId × Text) :=
  [(.inr .ModelLib, o.libraryPath),
    (.inr .OutputState, o.stateFile),
    (.inr .JsonExecLog, o.jsonExecLog),
    (.inr .AllowExceptions, o.allowExceptions),
    (.inr .RomStart, tohs o.memoryRomStart 0),
    (.inr .RomSize, tohs o.memoryRomSize 0),
    (.inr .RamStart, tohs o.memoryRamStart 0),
    (.inr .RamSize, tohs o.memoryRamSize 0),
    (.inl .IsaStringOverride, o.isaStringOverride),
    (.inl .ModelLogPath, o.modelLogPath),
    (.inl .ExecFile, o.executableFile),
    (.inl .StopMode, o.stopMode),
    (.inr .ClearInterrupt, if o.clearInterrupt then "1".toList else "0".toList),
    (.inr .NumStepsBeforeInt, decDigits o.numStepsBeforeInt.toNat)]

def dump (o : CommandLineOptions) : Text :=
  dumpOptionField "VTable".toList o.vTableSymbol ++
    (dumpFields o).flatMap fun field => dumpOptionField (optionName field.1) field.2

/-! ## The options that settings stand for -/

def isNumeric : OptionId → Bool
  | .inr .RomStart | .inr .RomSize | .inr .RamStart | .inr .RamSize => true
  | .inr .NumStepsBeforeInt => true
  | _ => false

/-- A number is asked for only where the option is one. -/
def Readable (setting : OptionId × Text) : Prop :=
  isNumeric setting.1 = true → ∃ value, stoull setting.2 = .ok value

def numberOf (text : Text) : UInt64 :=
  match stoull text with
  | .ok value => value
  | .error _ => 0

/-- Every field has what its option was given, or else what it had. -/
def assigned (o : CommandLineOptions) (arg : OptionId → Option Text) : CommandLineOptions where
  executableFile := (arg (.inl .ExecFile)).getD o.executableFile
  stopMode := (arg (.inl .StopMode)).getD o.stopMode
  stateFile := (arg (.inr .OutputState)).getD o.stateFile
  allowExceptions := (arg (.inr .AllowExceptions)).getD o.allowExceptions
  numStepsBeforeInt := ((arg (.inr .NumStepsBeforeInt)).map numberOf).getD o.numStepsBeforeInt
  clearInterrupt := (arg (.inr .ClearInterrupt)).isSome || o.clearInterrupt
  interfaceVersionSymbol := o.interfaceVersionSymbol
  vTableSymbol := o.vTableSymbol
  libraryPath := (arg (.inr .ModelLib)).getD o.libraryPath
  jsonExecLog := (arg (.inr .JsonExecLog)).getD o.jsonExecLog
  memoryRomStart := ((arg (.inr .RomStart)).map numberOf).getD o.memoryRomStart
  memoryRomSize := ((arg (.inr .RomSize)).map numberOf).getD o.memoryRomSize
  memoryRamStart := ((arg (.inr .RamStart)).map numberOf).getD o.memoryRamStart
  memoryRamSize := ((arg (.inr .RamSize)).map numberOf).getD o.memoryRamSize
  modelLogPath := (arg (.inl .ModelLogPath)).getD o.modelLogPath
  debugLogPath := (arg (.inl .DebugLogPath)).or o.debugLogPath
  isaStringOverride := (arg (.inl .IsaStringOverride)).getD o.isaStringOverride

/-- One option was given. -/
def single (opt : OptionId) (optarg : Text) (opt' : OptionId) : Option Text :=
  if opt = opt' then some optarg else none

theorem getD_or {α : Type} (a b : Option α) (c : α) : (a.or b).getD c = a.getD (b.getD c) := by
  cases a with
  | none => rfl
  | some a => rfl

/-- Assigning twice is assigning once, where the later argument counts. -/
theorem assigned_assigned (o : CommandLineOptions) (arg arg' : OptionId → Option Text) :
    assigned (assigned o arg) arg' = assigned o fun opt => (arg' opt).or (arg opt) := by
  unfold assigned
  simp only [getD_or, Option.map_or, Option.or_assoc, Option.isSome_or, Bool.or_assoc]

theorem assigned_none (o : CommandLineOptions) : assigned o (fun _ => none) = o := rfl

section SetOption

variable {o o' : CommandLineOptions} {opt : OptionId} {optarg : Text}

theorem parseMemoryTrait_of_ok {value : UInt64} (h : stoull optarg = .ok value) :
    parseMemoryTrait optarg = .ok value := by
  unfold parseMemoryTrait
  rw [h]

theorem parseMemoryTrait_of_error {reason : NumberFailure} (h : stoull optarg = .error reason) :
    parseMemoryTrait optarg = .error (.number reason) := by
  unfold parseMemoryTrait
  rw [h]

theorem numberOf_of_ok {value : UInt64} (h : stoull optarg = .ok value) :
    numberOf optarg = value := by
  unfold numberOf
  rw [h]

/-- A readable setting is the assignment of its option. -/
theorem setOption_of_readable (h : Readable (opt, optarg)) :
    setOption o opt optarg = .ok (assigned o (single opt optarg)) := by
  cases hnumeric : isNumeric opt with
  | false =>
      rcases opt with opt | opt <;> cases opt <;> first | rfl | cases hnumeric
  | true =>
      obtain ⟨value, hvalue⟩ := h hnumeric
      have hnumber := numberOf_of_ok hvalue
      rcases opt with opt | opt <;> cases opt <;>
        first
          | exact (congrArg (· >>= _) (parseMemoryTrait_of_ok hvalue)).trans (by rw [← hnumber]; rfl)
          | cases hnumeric

theorem setOption_of_error {reason : NumberFailure} (hnumeric : isNumeric opt = true)
    (h : stoull optarg = .error reason) : setOption o opt optarg = .error (.number reason) := by
  rcases opt with opt | opt <;> cases opt <;>
    first
      | exact congrArg (· >>= _) (parseMemoryTrait_of_error h)
      | cases hnumeric

theorem readable_or_error (setting : OptionId × Text) :
    Readable setting ∨
      isNumeric setting.1 = true ∧ ∃ reason, stoull setting.2 = .error reason := by
  cases hnumeric : isNumeric setting.1 with
  | false => exact .inl fun h => by rw [hnumeric] at h; cases h
  | true =>
      cases hvalue : stoull setting.2 with
      | ok value => exact .inl fun _ => ⟨value, hvalue⟩
      | error reason => exact .inr ⟨rfl, reason, rfl⟩

theorem setOption_eq_ok_iff :
    setOption o opt optarg = .ok o' ↔
      Readable (opt, optarg) ∧ o' = assigned o (single opt optarg) := by
  rcases readable_or_error (opt, optarg) with h | ⟨hnumeric, reason, herror⟩
  · rw [setOption_of_readable h]
    constructor
    · rintro ⟨⟩
      exact ⟨h, rfl⟩
    · rintro ⟨_, rfl⟩
      rfl
  · rw [setOption_of_error hnumeric herror]
    constructor
    · intro h
      cases h
    · rintro ⟨h, _⟩
      obtain ⟨value, hvalue⟩ := h hnumeric
      rw [herror] at hvalue
      cases hvalue

theorem setOption_eq_error_iff {e : CommandLineFailure} :
    setOption o opt optarg = .error e ↔
      isNumeric opt = true ∧ ∃ reason, stoull optarg = .error reason ∧ e = .number reason := by
  rcases readable_or_error (opt, optarg) with h | ⟨hnumeric, reason, herror⟩
  · rw [setOption_of_readable h]
    constructor
    · intro h
      cases h
    · rintro ⟨hnumeric, reason, herror, _⟩
      obtain ⟨value, hvalue⟩ := h hnumeric
      rw [herror] at hvalue
      cases hvalue
  · rw [setOption_of_error hnumeric herror]
    constructor
    · rintro ⟨⟩
      exact ⟨hnumeric, reason, herror, rfl⟩
    · rintro ⟨_, reason', herror', rfl⟩
      rw [herror] at herror'
      cases herror'
      rfl

end SetOption

/-! ## What is accepted -/

open LongOptions

/-- The settings can all be read, and the last one of an option counts. -/
theorem applyAll_setOption_iff {settings : List (OptionId × Text)} {o o' : CommandLineOptions} :
    applyAll setOption settings o = .ok o' ↔
      (∀ s ∈ settings, Readable s) ∧ o' = assigned o (lastArgument settings) := by
  induction settings generalizing o with
  | nil =>
      constructor
      · intro h
        cases h
        exact ⟨fun s hs => absurd hs List.not_mem_nil, (assigned_none _).symm⟩
      · rintro ⟨_, rfl⟩
        rfl
  | cons s settings ih =>
      have hlast : assigned (assigned o (single s.1 s.2)) (lastArgument settings) =
          assigned o (lastArgument (s :: settings)) := by
        rw [assigned_assigned]
        congr 1
        funext opt
        exact (lastArgument_cons s settings opt).symm
      rw [applyAll_cons]
      constructor
      · intro h
        cases hs : setOption o s.1 s.2 with
        | error e =>
            rw [hs] at h
            cases h
        | ok o₁ =>
            rw [hs] at h
            obtain ⟨hreadable, rfl⟩ := setOption_eq_ok_iff.mp hs
            obtain ⟨hall, rfl⟩ := ih.mp h
            refine ⟨?_, hlast⟩
            intro s' hs'
            rcases List.mem_cons.mp hs' with rfl | hs'
            · exact hreadable
            · exact hall s' hs'
      · rintro ⟨hall, rfl⟩
        have hs := setOption_of_readable (o := o) (hall s List.mem_cons_self)
        rw [hs]
        exact ih.mpr ⟨fun s' hs' => hall s' (List.mem_cons_of_mem _ hs'), hlast.symm⟩

section Parse

variable {abbreviated : Text → Option OptionId} {permute : Bool} {args : List Text}

theorem parseCommandLine_eq_ok_iff {o : CommandLineOptions} :
    parseCommandLine abbreviated permute args = .ok o ↔
      ∃ settings rest, (getopt abbreviated permute).Spells args settings rest ∧
        (getopt abbreviated permute).Ends rest ∧ (∀ s ∈ settings, Readable s) ∧
        o = assigned {} (lastArgument settings) := by
  unfold parseCommandLine
  rw [scan_eq_ok_iff]
  simp only [applyAll_setOption_iff]

theorem parseCommandLine_eq_usage_iff :
    parseCommandLine abbreviated permute args = .error .usage ↔
      ∃ settings rest, (getopt abbreviated permute).Spells args settings rest ∧
        (∀ s ∈ settings, Readable s) ∧ (getopt abbreviated permute).Rejects rest := by
  unfold parseCommandLine
  rw [scan_eq_error_iff]
  constructor
  · rintro ⟨settings, rest, hspells, hall | ⟨⟨o, hall⟩, hrejects, _⟩⟩
    · obtain ⟨_, s, _, o, _, _, hs⟩ := applyAll_eq_error_iff.mp hall
      obtain ⟨_, _, _, hne⟩ := setOption_eq_error_iff.mp hs
      cases hne
    · exact ⟨settings, rest, hspells, (applyAll_setOption_iff.mp hall).1, hrejects⟩
  · rintro ⟨settings, rest, hspells, hreadable, hrejects⟩
    exact ⟨settings, rest, hspells,
      .inr ⟨⟨_, applyAll_setOption_iff.mpr ⟨hreadable, rfl⟩⟩, hrejects, rfl⟩⟩

/-- The words up to the first number that cannot be read spell the settings up to it. -/
theorem parseCommandLine_eq_number_iff {reason : NumberFailure} :
    parseCommandLine abbreviated permute args = .error (.number reason) ↔
      ∃ settings opt optarg rest,
        (getopt abbreviated permute).Spells args (settings ++ [(opt, optarg)]) rest ∧
        (∀ s ∈ settings, Readable s) ∧ isNumeric opt = true ∧ stoull optarg = .error reason := by
  unfold parseCommandLine
  rw [scan_eq_error_iff]
  constructor
  · rintro ⟨settings, rest, hspells, hall | ⟨_, _, hne⟩⟩
    · obtain ⟨front, ⟨opt, optarg⟩, back, o, rfl, hfront, hs⟩ := applyAll_eq_error_iff.mp hall
      obtain ⟨hnumeric, reason', herror, heq⟩ := setOption_eq_error_iff.mp hs
      cases heq
      rw [List.append_cons] at hspells
      obtain ⟨mid, hspells, _⟩ := hspells.cut
      exact ⟨front, opt, optarg, mid, hspells, (applyAll_setOption_iff.mp hfront).1, hnumeric, herror⟩
    · cases hne
  · rintro ⟨settings, opt, optarg, rest, hspells, hreadable, hnumeric, herror⟩
    refine ⟨settings ++ [(opt, optarg)], rest, hspells, .inl ?_⟩
    apply applyAll_eq_error_iff.mpr
    exact ⟨settings, (opt, optarg), [], _, rfl, applyAll_setOption_iff.mpr ⟨hreadable, rfl⟩,
      setOption_of_error hnumeric herror⟩

/-- A command line is accepted exactly when it spells readable settings up to the end of
the options, and then the last argument of every option counts. Otherwise the first word
that is wrong says what happens: no option, or a number that cannot be read. -/
theorem parseCommandLine_decides (abbreviated : Text → Option OptionId) (permute : Bool)
    (args : List Text) :
    (∀ o, parseCommandLine abbreviated permute args = .ok o ↔
      ∃ settings rest, (getopt abbreviated permute).Spells args settings rest ∧
        (getopt abbreviated permute).Ends rest ∧ (∀ s ∈ settings, Readable s) ∧
        o = assigned {} (lastArgument settings)) ∧
    (parseCommandLine abbreviated permute args = .error .usage ↔
      ∃ settings rest, (getopt abbreviated permute).Spells args settings rest ∧
        (∀ s ∈ settings, Readable s) ∧ (getopt abbreviated permute).Rejects rest) ∧
    (∀ reason, parseCommandLine abbreviated permute args = .error (.number reason) ↔
      ∃ settings opt optarg rest,
        (getopt abbreviated permute).Spells args (settings ++ [(opt, optarg)]) rest ∧
        (∀ s ∈ settings, Readable s) ∧ isNumeric opt = true ∧
        stoull optarg = .error reason) :=
  ⟨fun _ => parseCommandLine_eq_ok_iff, parseCommandLine_eq_usage_iff,
    fun _ => parseCommandLine_eq_number_iff⟩

end Parse

/-! ## Reading the dump back -/

theorem nodup_long_options : (long_options.map Prod.fst).Nodup := by
  decide +kernel

theorem mem_optionIds (opt : OptionId) : opt ∈ optionIds := by
  unfold optionIds
  rcases opt with opt | opt <;> cases opt <;> simp

/-- Every option can be given by its own name. -/
theorem find_getopt (abbreviated : Text → Option OptionId) (permute : Bool) (opt : OptionId) :
    (getopt abbreviated permute).find (optionName opt) = some opt :=
  find_ofTable nodup_long_options (List.mem_map_of_mem (mem_optionIds opt)) abbreviated permute

/-- A name ends where a word of the command line or a line of the dump goes on. -/
theorem optionName_spec (opt : OptionId) :
    optionName opt ≠ [] ∧ '=' ∉ optionName opt ∧ ' ' ∉ optionName opt ∧ '\n' ∉ optionName opt := by
  rcases opt with opt | opt <;> cases opt <;> decide +kernel

/-- Every setting as two words. -/
def settingWords (settings : List (OptionId × Text)) : List Text :=
  settings.flatMap fun s => [dashes ++ optionName s.1, s.2]

theorem spells_settingWords (abbreviated : Text → Option OptionId) (permute : Bool)
    (settings : List (OptionId × Text)) :
    (getopt abbreviated permute).Spells (settingWords settings) settings [] := by
  induction settings with
  | nil => exact .nil []
  | cons s settings ih =>
      obtain ⟨hne, hname, -⟩ := optionName_spec s.1
      exact .separate hne hname (find_getopt abbreviated permute s.1) ih

/-- The words of a line of the dump: the name with its dashes, and the value. -/
def lineWords (line : Text) : List Text :=
  [line.takeWhile (· ≠ ' '), (line.dropWhile (· ≠ ' ')).tail]

/-- The dump as a command line. Its first line names the table of the library, which is
no option. -/
def dumpedWords (text : Text) : List Text := (text.splitOn '\n').dropLast.tail.flatMap lineWords

/-- A line of the dump without its end. -/
def fieldLine (optString value : Text) : Text := dashes ++ optString ++ ' ' :: value

theorem dump_eq_lines (o : CommandLineOptions) :
    dump o = (fieldLine "VTable".toList o.vTableSymbol ::
      (dumpFields o).map fun field => fieldLine (optionName field.1) field.2).flatMap
        fun line => line ++ ['\n'] := by
  have hline (optString value : Text) :
      dumpOptionField optString value = fieldLine optString value ++ ['\n'] := by
    show dashes ++ optString ++ [' '] ++ value ++ ['\n'] =
      (dashes ++ optString ++ ' ' :: value) ++ ['\n']
    rw [List.append_assoc (dashes ++ optString)]
    rfl
  unfold dump
  rw [List.flatMap_cons, List.flatMap_map, hline]
  exact congrArg _ (List.flatMap_congr fun field _ => hline _ _)

theorem lineWords_fieldLine (opt : OptionId) (value : Text) :
    lineWords (fieldLine (optionName opt) value) = [dashes ++ optionName opt, value] := by
  have hblank : ∀ c ∈ dashes ++ optionName opt, decide (c ≠ ' ') = true := by
    have hdashes : ' ' ∉ dashes := by decide
    intro c hc
    apply decide_eq_true
    rintro rfl
    rcases List.mem_append.mp hc with hc | hc
    · exact hdashes hc
    · exact (optionName_spec opt).2.2.1 hc
  obtain ⟨htake, hdrop⟩ := takeWhile_append_stop (r := ' ' :: value) hblank
    fun c hc => by rw [← Option.some.inj hc]; rfl
  unfold lineWords fieldLine
  rw [htake, hdrop]
  rfl

/-- The texts among the values of the dump. -/
def dumpTexts (o : CommandLineOptions) : List Text :=
  [o.vTableSymbol, o.libraryPath, o.stateFile, o.jsonExecLog, o.allowExceptions,
    o.isaStringOverride, o.modelLogPath, o.executableFile, o.stopMode]

theorem not_mem_tohs (v : UInt64) (width : Nat) : '\n' ∉ tohs v width := fun h =>
  absurd (isHexChar_hexNumeral width v.toNat '\n' h) (by decide)

theorem not_mem_decDigits (n : Nat) : '\n' ∉ decDigits n := fun h =>
  absurd (isDigit_decDigits n '\n' h) (by decide)

/-- A line is one line when the text in it is. -/
theorem not_mem_fieldLine {o : CommandLineOptions} (h : ∀ text ∈ dumpTexts o, '\n' ∉ text) :
    ∀ line ∈ fieldLine "VTable".toList o.vTableSymbol ::
      (dumpFields o).map fun field => fieldLine (optionName field.1) field.2, '\n' ∉ line := by
  have hline {optString value : Text} (hname : '\n' ∉ optString) (hvalue : '\n' ∉ value) :
      '\n' ∉ fieldLine optString value := by
    have hdashes : '\n' ∉ dashes := by decide
    unfold fieldLine
    simp only [List.mem_append, List.mem_cons]
    rintro ((hmem | hmem) | heq | hmem)
    · exact hdashes hmem
    · exact hname hmem
    · exact absurd heq (by decide)
    · exact hvalue hmem
  have hname (opt : OptionId) : '\n' ∉ optionName opt := (optionName_spec opt).2.2.2
  have hvalue : ∀ field ∈ dumpFields o, '\n' ∉ field.2 := by
    unfold dumpTexts at h
    unfold dumpFields
    simp only [List.forall_mem_cons, List.not_mem_nil, false_implies, implies_true, and_true] at h ⊢
    obtain ⟨_, hlibrary, hstate, hlog, hexceptions, hisa, hmodelLog, hfile, hmode⟩ := h
    refine ⟨hlibrary, hstate, hlog, hexceptions, not_mem_tohs _ _, not_mem_tohs _ _,
      not_mem_tohs _ _, not_mem_tohs _ _, hisa, hmodelLog, hfile, hmode, ?_, not_mem_decDigits _⟩
    cases o.clearInterrupt <;> decide
  intro line hmem
  rcases List.mem_cons.mp hmem with rfl | hmem
  · exact hline (by decide) (h _ List.mem_cons_self)
  · obtain ⟨field, hfield, rfl⟩ := List.mem_map.mp hmem
    exact hline (hname field.1) (hvalue field hfield)

theorem dumpedWords_dump {o : CommandLineOptions} (h : ∀ text ∈ dumpTexts o, '\n' ∉ text) :
    dumpedWords (dump o) = settingWords (dumpFields o) := by
  unfold dumpedWords settingWords
  rw [dump_eq_lines, splitOn_lines '\n' (not_mem_fieldLine h), List.dropLast_concat, List.tail_cons,
    List.flatMap_map]
  exact List.flatMap_congr fun field _ => lineWords_fieldLine field.1 field.2

/-! ## Numbers that were dumped -/

theorem stoull_tohs (v : UInt64) : stoull (tohs v 0) = .ok v := by
  have h := stoull_hexNumeral v.toNat_lt
  rw [UInt64.ofNat_toNat] at h
  exact h

theorem stoull_decDigits_toNat (v : UInt64) : stoull (decDigits v.toNat) = .ok v := by
  have h := stoull_decDigits v.toNat_lt
  rw [UInt64.ofNat_toNat] at h
  exact h

theorem readable_dumpFields (o : CommandLineOptions) : ∀ s ∈ dumpFields o, Readable s := by
  have htext {opt : OptionId} {value : Text} (h : isNumeric opt = false) :
      Readable (opt, value) := fun hnumeric => absurd (h.symm.trans hnumeric) Bool.false_ne_true
  have hnumber (opt : OptionId) (v : UInt64) : Readable (opt, tohs v 0) :=
    fun _ => ⟨v, stoull_tohs v⟩
  unfold dumpFields
  simp only [List.forall_mem_cons, List.not_mem_nil, false_implies, implies_true, and_true]
  refine ⟨htext rfl, htext rfl, htext rfl, htext rfl, hnumber _ _, hnumber _ _, hnumber _ _,
    hnumber _ _, htext rfl, htext rfl, htext rfl, htext rfl, htext rfl, ?_⟩
  exact fun _ => ⟨_, stoull_decDigits_toNat _⟩

/-- Every dumped field is given back to the field it was dumped from; any argument clears
the interrupt. -/
theorem assigned_dumpFields (o : CommandLineOptions) :
    assigned {} (lastArgument (dumpFields o)) =
      { o with
        debugLogPath := none
        clearInterrupt := true
        interfaceVersionSymbol := "RVMInterfaceVersion".toList
        vTableSymbol := "RVMVTable".toList } := by
  have hhex (v : UInt64) : numberOf (tohs v 0) = v := numberOf_of_ok (stoull_tohs v)
  have hdec (v : UInt64) : numberOf (decDigits v.toNat) = v :=
    numberOf_of_ok (stoull_decDigits_toNat v)
  apply CommandLineOptions.ext
  case numStepsBeforeInt => exact hdec o.numStepsBeforeInt
  case memoryRomStart => exact hhex o.memoryRomStart
  case memoryRomSize => exact hhex o.memoryRomSize
  case memoryRamStart => exact hhex o.memoryRamStart
  case memoryRamSize => exact hhex o.memoryRamSize
  all_goals rfl

/-- The two names of symbols are no options. -/
theorem symbols_of_parseCommandLine {abbreviated : Text → Option OptionId} {permute : Bool}
    {args : List Text} {o : CommandLineOptions}
    (h : parseCommandLine abbreviated permute args = .ok o) :
    o.interfaceVersionSymbol = "RVMInterfaceVersion".toList ∧
      o.vTableSymbol = "RVMVTable".toList := by
  obtain ⟨_, _, _, _, _, rfl⟩ := parseCommandLine_eq_ok_iff.mp h
  exact ⟨rfl, rfl⟩

/-- The lines of the dump behind the first are a command line for the same options, except
that there is no debug log and that the interrupt is cleared. With the first line the dump
is a command line only if its name abbreviates an option. -/
theorem parseCommandLine_dump {abbreviated : Text → Option OptionId} {permute : Bool}
    {args : List Text} {o : CommandLineOptions}
    (h : parseCommandLine abbreviated permute args = .ok o)
    (hlines : ∀ text ∈ dumpTexts o, '\n' ∉ text) (abbreviated₂ : Text → Option OptionId)
    (permute₂ : Bool) :
    parseCommandLine abbreviated₂ permute₂ (dumpedWords (dump o)) =
        .ok { o with debugLogPath := none, clearInterrupt := true } ∧
      (abbreviated₂ "VTable".toList = none →
        parseCommandLine abbreviated₂ permute₂
          ((dashes ++ "VTable".toList) :: o.vTableSymbol :: dumpedWords (dump o)) =
            .error .usage) := by
  obtain ⟨hversion, htable⟩ := symbols_of_parseCommandLine h
  constructor
  · apply parseCommandLine_eq_ok_iff.mpr
    refine ⟨dumpFields o, [], ?_, .nil, readable_dumpFields o, ?_⟩
    · rw [dumpedWords_dump hlines]
      exact spells_settingWords abbreviated₂ permute₂ (dumpFields o)
    · rw [assigned_dumpFields, ← hversion, ← htable]
  · intro hnone
    apply parseCommandLine_eq_usage_iff.mpr
    refine ⟨[], _, .nil _, fun s hs => absurd hs List.not_mem_nil, ?_⟩
    exact .unknown _ (by decide) hnone

/-- An executable, a size and a debug log, given in three ways. -/
def someWords : List Text :=
  ["--driver-model-mem-ram-size=0x20".toList, "operand".toList, "--rvm-exec-file-path".toList,
    "a.out".toList, "--rvm-debug-log-path".toList, "--".toList]

def someOptions : CommandLineOptions :=
  { executableFile := "a.out".toList, memoryRamSize := 32, debugLogPath := some "--".toList }

theorem parseCommandLine_dump_someOptions :
    parseCommandLine (fun _ => none) true (dumpedWords (dump someOptions)) =
        .ok { someOptions with debugLogPath := none, clearInterrupt := true } ∧
      parseCommandLine (fun _ => none) true
        ((dashes ++ "VTable".toList) :: someOptions.vTableSymbol ::
          dumpedWords (dump someOptions)) = .error .usage := by
  have haccepted : parseCommandLine (fun _ => none) true someWords = .ok someOptions := rfl
  obtain ⟨hrest, hwhole⟩ := parseCommandLine_dump haccepted (by decide) (fun _ => none) true
  exact ⟨hrest, hwhole rfl⟩

end Rvmi.Launch
