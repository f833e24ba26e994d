import Rvmi.Launch.Config

/-!
# The library of the model

The launchers look for a shared library, check the version of its interface and take its
table of functions. `rvm::State` turns that table into the calls they make. The dynamic
linker is a parameter.
-/

namespace Rvmi.Launch

open Rvmi.Foundation Rvmi.Log Rvmi.Elf Rvmi.Isa

/-! ## `rvm::State` -/

def rvm_strerror : RVMErrorCode → Text
  | .INVALID_ARGUMENT => "Invalid argument".toList
  | .INVALID_ADDRESS => "Invalid address".toList
  | .INVALID_MEM_REGION => "Invalid memory region (RVMMemoryRegion)".toList
  | .INCOMPATIBLE => "Library version is incompatible".toList
  | .VALUE_OUT_OF_RANGE => "Value is out of valid range".toList
  | .IDX_OUT_OF_RANGE => "Index is out of valid range".toList
  | .SUCCESS => "Success".toList
  | .UNRECOVERABLE_ERROR => "Unknown".toList

/-- The functions of a library that the launchers reach. `getErrorContext` is given the
buffer, or none for a null pointer, and its size; it leaves both behind. -/
structure RVM_FunctionPointers (σ : Type) extends LoaderModel σ where
  modelCreate : RVMConfig ExecutionLogger → Builder.Created σ
  setStopMode : RVMStopMode → σ → σ
  raiseInterrupt : RVMRegT → σ → RVMErrorCode × σ
  clearInterrupt : RVMRegT → σ → RVMErrorCode × σ
  readVReg : RVMVReg → Option (List Int8) → UInt64 → σ → RVMErrorCode × List Int8 × UInt64
  getErrorContext : Option Text → UInt64 → σ → Text × UInt64

namespace RVM_FunctionPointers

variable {σ : Type} (vTable : RVM_FunctionPointers σ)

/-- `State::getErrorContext`: the size is asked for first, and may have become smaller
when the text is. -/
def errorContext (s : σ) : Text :=
  let (_, size) := vTable.getErrorContext none 0 s
  if size = 0 then []
  else
    let (result, size') := vTable.getErrorContext (some (List.replicate size.toNat '\x00')) size s
    result.take (min result.length size'.toNat)

def state : LauncherModel σ where
  toLoaderModel := vTable.toLoaderModel
  setStopMode := vTable.setStopMode
  raiseInterrupt := vTable.raiseInterrupt
  clearInterrupt := vTable.clearInterrupt
  readVReg := vTable.readVReg
  strerror := rvm_strerror
  getErrorContext := vTable.errorContext

/-- The message as the interface has it: a buffer is filled as far as the message and the
size allow, and the size becomes that of the whole message. -/
structure TellsContext (s : σ) (message : Text) : Prop where
  length_lt : message.length < 2 ^ 64
  size : ∀ size, (vTable.getErrorContext none size s).2 = UInt64.ofNat message.length
  fill : ∀ (buf : Text) (size : UInt64), buf.length = size.toNat →
    vTable.getErrorContext (some buf) size s =
      (message.take size.toNat ++ buf.drop message.length, UInt64.ofNat message.length)

/-- The two calls give the whole message. -/
theorem errorContext_eq {s : σ} {message : Text} (h : vTable.TellsContext s message) :
    vTable.errorContext s = message := by
  have hsize : (UInt64.ofNat message.length).toNat = message.length := by
    rw [UInt64.toNat_ofNat']
    exact Nat.mod_eq_of_lt h.length_lt
  have hnull := h.size 0
  unfold errorContext
  generalize hcall : vTable.getErrorContext none 0 s = r at hnull ⊢
  obtain ⟨buf, size⟩ := r
  obtain rfl : size = UInt64.ofNat message.length := hnull
  by_cases hzero : UInt64.ofNat message.length = 0
  · have hlength : message.length = 0 := by
      rw [← hsize, hzero]
      rfl
    show (if UInt64.ofNat message.length = 0 then [] else _) = message
    rw [if_pos hzero, List.length_eq_zero_iff.mp hlength]
  · have hbuf : (List.replicate (UInt64.ofNat message.length).toNat '\x00').length =
        (UInt64.ofNat message.length).toNat := List.length_replicate
    have hfill := h.fill _ _ hbuf
    rw [hsize, List.take_length, List.drop_of_length_le (Nat.le_of_eq List.length_replicate),
      List.append_nil] at hfill
    show (if UInt64.ofNat message.length = 0 then [] else _) = message
    rw [if_neg hzero, hsize, hfill]
    show message.take (min message.length (UInt64.ofNat message.length).toNat) = message
    rw [hsize, Nat.min_self, List.take_length]

end RVM_FunctionPointers

/-! ## The search -/

/-- An exception that `main` catches with its text, or no normal end. -/
inductive Thrown where
  | exception (what : Text)
  | undefinedBehaviour
deriving DecidableEq, Repr

/-- What was printed, and the logger, before there is a model. -/
structure Terminal where
  cout : Text := []
  cerr : Text := []
  logger : ExecutionLogger := {}

abbrev Setup := EStateM Thrown Terminal

/-- The dynamic linker; a failure comes with the text of `dlerror`. The null handle of a
library that could not be opened stands for the launcher and what was loaded with it. A
table comes with its address as it is printed. -/
structure Linker (σ H : Type) where
  dlopen : Text → Except Text H
  version : Option H → Text → Except Text UInt8
  vTable : Option H → Text → Except Text (Text × RVM_FunctionPointers σ)

variable {σ H : Type}

def report (text : Text) : Setup Unit := modify fun w => { w with cerr := w.cerr ++ text }

def couldNotLoad (dlerror : Text) : Text := "  could not load: ".toList ++ dlerror ++ "\n".toList

def loadLibrary (linker : Linker σ H) (libPath : Text) : Setup (Option H) :=
  match linker.dlopen libPath with
  | .ok handle => pure (some handle)
  | .error dlerror => do
      report (couldNotLoad dlerror)
      return none

/-- `std::filesystem::path::filename` -/
def fileName (path : Text) : Text := (path.reverse.takeWhile (· ≠ '/')).reverse

def cwdLibPath (modelPath : Text) : Text := "./".toList ++ fileName modelPath

def tryingDefault (modelPath : Text) : Text :=
  "  model library path not specified, trying default ".toList ++ modelPath ++ "...\n".toList

def tryingCurrentDir (modelPath : Text) : Text :=
  "  trying to load from current dir ".toList ++ cwdLibPath modelPath ++ "...\n".toList

/-- `modelPath` is the `MODEL_PATH` the launcher was built with. -/
def findModelLibrary (linker : Linker σ H) (modelPath path : Text) : Setup (Option H) :=
  if path ≠ "-".toList then loadLibrary linker path
  else do
    report (tryingDefault modelPath)
    let result ← loadLibrary linker modelPath
    if result.isSome then return result
    else do
      report (tryingCurrentDir modelPath)
      loadLibrary linker (cwdLibPath modelPath)

def RVMAPI_CURRENT_INTERFACE_VERSION : Nat := 38

def noSymbol (symbol dlerror : Text) : Text :=
  "could not get ".toList ++ symbol ++ " symbol: ".toList ++ dlerror ++ "\n".toList

def incompatibleVersion (version : UInt8) : Text :=
  "incompatible model interface version! got ".toList ++ decDigits version.toNat ++
    ", expecting: ".toList ++ decDigits RVMAPI_CURRENT_INTERFACE_VERSION ++ "\n".toList

def symbolOrThrow {α : Type} (symbol : Text) : Except Text α → Setup α
  | .ok a => pure a
  | .error dlerror => throw (.exception (noSymbol symbol dlerror))

def loadModelLibrary (linker : Linker σ H) (modelPath : Text) (options : CommandLineOptions) :
    Setup (RVM_FunctionPointers σ) := do
  let libHandle ← findModelLibrary linker modelPath options.libraryPath
  let version ← symbolOrThrow options.interfaceVersionSymbol
    (linker.version libHandle options.interfaceVersionSymbol)
  if version.toNat ≠ RVMAPI_CURRENT_INTERFACE_VERSION then
    throw (.exception (incompatibleVersion version))
  else do
    let (pointer, vTable) ← symbolOrThrow options.vTableSymbol
      (linker.vTable libHandle options.vTableSymbol)
    modify fun w => { w with cout := w.cout ++ "VTablePtr: ".toList ++ pointer ++ "\n".toList }
    return vTable

/-! ## What the search finds and prints -/

/-- The paths that are tried, each with what is printed before. -/
def attempts (modelPath path : Text) : List (Text × Text) :=
  if path ≠ "-".toList then [([], path)]
  else [(tryingDefault modelPath, modelPath), (tryingCurrentDir modelPath, cwdLibPath modelPath)]

/-- The first library of a list that can be opened. -/
def opened (linker : Linker σ H) (attempts : List (Text × Text)) : Option H :=
  attempts.findSome? fun attempt => (linker.dlopen attempt.2).toOption

/-- One line for every path up to that library, and one for every failure. -/
def searchText (linker : Linker σ H) : List (Text × Text) → Text
  | [] => []
  | (announcement, path) :: attempts =>
      match linker.dlopen path with
      | .ok _ => announcement
      | .error dlerror => announcement ++ couldNotLoad dlerror ++ searchText linker attempts

section Search

variable {linker : Linker σ H} {path : Text} {handle : H} {dlerror : Text} {w : Terminal}

theorem loadLibrary_of_ok (h : linker.dlopen path = .ok handle) :
    loadLibrary linker path w = .ok (some handle) w := by
  unfold loadLibrary
  rw [h]
  rfl

theorem loadLibrary_of_error (h : linker.dlopen path = .error dlerror) :
    loadLibrary linker path w = .ok none { w with cerr := w.cerr ++ couldNotLoad dlerror } := by
  unfold loadLibrary
  rw [h]
  rfl

theorem opened_cons_of_ok {announcement : Text} {attempts : List (Text × Text)}
    (h : linker.dlopen path = .ok handle) :
    opened linker ((announcement, path) :: attempts) = some handle := by
  unfold opened
  rw [List.findSome?_cons, h]
  rfl

theorem opened_cons_of_error {announcement : Text} {attempts : List (Text × Text)}
    (h : linker.dlopen path = .error dlerror) :
    opened linker ((announcement, path) :: attempts) = opened linker attempts := by
  unfold opened
  rw [List.findSome?_cons, h]
  rfl

theorem searchText_cons_of_ok {announcement : Text} {attempts : List (Text × Text)}
    (h : linker.dlopen path = .ok handle) :
    searchText linker ((announcement, path) :: attempts) = announcement := by
  unfold searchText
  rw [h]

theorem searchText_cons_of_error {announcement : Text} {attempts : List (Text × Text)}
    (h : linker.dlopen path = .error dlerror) :
    searchText linker ((announcement, path) :: attempts) =
      announcement ++ couldNotLoad dlerror ++ searchText linker attempts := by
  conv_lhs => unfold searchText
  rw [h]

end Search

/-- A library that is named is not replaced by another; without a name the default comes
before the current directory. -/
theorem findModelLibrary_eq (linker : Linker σ H) (modelPath path : Text) (w : Terminal) :
    findModelLibrary linker modelPath path w =
      .ok (opened linker (attempts modelPath path))
        { w with cerr := w.cerr ++ searchText linker (attempts modelPath path) } := by
  unfold findModelLibrary attempts
  by_cases hnamed : path ≠ "-".toList
  · rw [if_pos hnamed, if_pos hnamed]
    cases hopen : linker.dlopen path with
    | ok handle =>
        rw [loadLibrary_of_ok hopen, opened_cons_of_ok hopen, searchText_cons_of_ok hopen,
          List.append_nil]
    | error dlerror =>
        rw [loadLibrary_of_error hopen, opened_cons_of_error hopen, searchText_cons_of_error hopen]
        show _ = EStateM.Result.ok none
          { w with cerr := w.cerr ++ ([] ++ couldNotLoad dlerror ++ []) }
        rw [List.append_nil, List.nil_append]
  · rw [if_neg hnamed, if_neg hnamed]
    show (loadLibrary linker modelPath >>= _)
      { w with cerr := w.cerr ++ tryingDefault modelPath } = _
    cases hdefault : linker.dlopen modelPath with
    | ok handle =>
        rw [bind_ok (loadLibrary_of_ok hdefault), opened_cons_of_ok hdefault,
          searchText_cons_of_ok hdefault]
        rfl
    | error dlerror =>
        rw [bind_ok (loadLibrary_of_error hdefault), opened_cons_of_error hdefault,
          searchText_cons_of_error hdefault]
        show loadLibrary linker (cwdLibPath modelPath) { w with
          cerr := w.cerr ++ tryingDefault modelPath ++ couldNotLoad dlerror ++
            tryingCurrentDir modelPath } = _
        cases hcwd : linker.dlopen (cwdLibPath modelPath) with
        | ok handle =>
            rw [loadLibrary_of_ok hcwd, opened_cons_of_ok hcwd, searchText_cons_of_ok hcwd]
            simp only [List.append_assoc]
        | error dlerror' =>
            rw [loadLibrary_of_error hcwd, opened_cons_of_error hcwd,
              searchText_cons_of_error hcwd]
            show _ = EStateM.Result.ok none { w with
              cerr := w.cerr ++ (tryingDefault modelPath ++ couldNotLoad dlerror ++
                (tryingCurrentDir modelPath ++ couldNotLoad dlerror' ++ [])) }
            simp only [List.append_assoc, List.append_nil]

/-- The table of a library whose interface has the expected version. -/
structure Provides (linker : Linker σ H) (options : CommandLineOptions) (libHandle : Option H)
    (pointer : Text) (vTable : RVM_FunctionPointers σ) : Prop where
  version : ∃ version : UInt8, linker.version libHandle options.interfaceVersionSymbol = .ok version ∧
    version.toNat = RVMAPI_CURRENT_INTERFACE_VERSION
  table : linker.vTable libHandle options.vTableSymbol = .ok (pointer, vTable)

/-- No other version gets past the test. A library that was not found is not an error by
itself: its symbols are then looked for in the launcher. -/
theorem loadModelLibrary_eq_ok_iff {linker : Linker σ H} {modelPath : Text}
    {options : CommandLineOptions} {w w' : Terminal} {vTable : RVM_FunctionPointers σ} :
    loadModelLibrary linker modelPath options w = .ok vTable w' ↔
      ∃ pointer, Provides linker options
          (opened linker (attempts modelPath options.libraryPath)) pointer vTable ∧
        w' = { w with
          cout := w.cout ++ "VTablePtr: ".toList ++ pointer ++ "\n".toList
          cerr := w.cerr ++ searchText linker (attempts modelPath options.libraryPath) } := by
  unfold loadModelLibrary
  rw [bind_ok (findModelLibrary_eq linker modelPath options.libraryPath w)]
  generalize opened linker (attempts modelPath options.libraryPath) = libHandle
  cases hversion : linker.version libHandle options.interfaceVersionSymbol with
  | error dlerror =>
      constructor
      · intro h
        cases h
      · rintro ⟨_, ⟨⟨_, hfound, _⟩, _⟩, _⟩
        rw [hversion] at hfound
        cases hfound
  | ok version =>
      show (if version.toNat ≠ RVMAPI_CURRENT_INTERFACE_VERSION then _ else _ : Setup _) _ = _ ↔ _
      by_cases hexpected : version.toNat ≠ RVMAPI_CURRENT_INTERFACE_VERSION
      · rw [if_pos hexpected]
        constructor
        · intro h
          cases h
        · rintro ⟨_, ⟨⟨_, hfound, hequal⟩, _⟩, _⟩
          rw [hversion] at hfound
          cases hfound
          exact absurd hequal hexpected
      · rw [if_neg hexpected]
        cases htable : linker.vTable libHandle options.vTableSymbol with
        | error dlerror =>
            constructor
            · intro h
              cases h
            · rintro ⟨_, ⟨_, hfound⟩, _⟩
              rw [htable] at hfound
              cases hfound
        | ok found =>
            obtain ⟨pointer, vTable'⟩ := found
            constructor
            · intro h
              cases h
              exact ⟨pointer, ⟨⟨version, hversion, not_not.mp hexpected⟩, htable⟩, rfl⟩
            · rintro ⟨_, ⟨_, hfound⟩, rfl⟩
              rw [htable] at hfound
              cases hfound
              rfl

end Rvmi.Launch
