import Rvmi.Foundation.Numerals
import Rvmi.Foundation.Runs
import Rvmi.Elf.Image
import Rvmi.Log.Model

/-!
# `parseELFAndInit`

The loader sets the program counter, writes the file bytes of the loadable
segments and sets the stop address to the value of the symbol `_sim_end`. ELFIO
is a parameter that reads a path to an image. The calls on the model are
parameters too; a call that fails may leave any state behind.
-/

namespace Rvmi.Elf

open Rvmi.Foundation Rvmi.Log

/-- The calls by which the loader changes a model, and its configuration. -/
structure LoaderModel (σ : Type) extends Model σ where
  rv64 : σ → Bool
  setPC : UInt64 → σ → RVMErrorCode × σ
  writeMem : UInt64 → List UInt8 → σ → RVMErrorCode × σ
  setStopPC : UInt64 → σ → RVMErrorCode × σ

/-- A thrown exception, or no normal return: `undefinedBehaviour` is a dereferenced
past-the-end iterator, `running` a loop that is still running when the number of
iterations it was given is used up. -/
inductive LoadFailure where
  | runtimeError (what : Text)
  | modelError (code : RVMErrorCode)
  | undefinedBehaviour
  | running
deriving DecidableEq, Repr

structure LoadWorld (σ : Type) where
  model : σ
  cerr : Text := []

abbrev Load (σ : Type) := EStateM LoadFailure (LoadWorld σ)

variable {σ : Type} (M : LoaderModel σ)

def checkAndThrow (err : RVMErrorCode) : Load σ Unit :=
  if err ≠ .SUCCESS then throw (.modelError err) else pure ()

def warn (text : Text) : Load σ Unit := modify fun w => { w with cerr := w.cerr ++ text }

def call (f : σ → RVMErrorCode × σ) : Load σ RVMErrorCode := do
  let w ← get
  let (err, model) := f w.model
  set { w with model := model }
  return err

/-- `Err = …; checkAndThrow(RVM, Err);` -/
def checkedCall (f : σ → RVMErrorCode × σ) : Load σ Unit := do
  let err ← call f
  checkAndThrow err

/-! ## Header -/

def readImage (load : Text → Option Image) (path : Text) : Load σ Image :=
  match load path with
  | some image => pure image
  | none => throw (.runtimeError ("could not load ELF at \"".toList ++ path ++ "\"".toList))

def checkMachine (path : Text) (image : Image) : Load σ Unit :=
  if image.machine ≠ EM_RISCV then
    throw (.runtimeError
      ("Invalid file \"".toList ++ path ++ "\": expected RISC-V ELF file".toList))
  else pure ()

def warnIf (condition : Bool) (text : Text) : Load σ Unit :=
  if condition then warn text else pure ()

/-- An executable of the other width is only warned about. -/
def checkClass (image : Image) : Load σ Unit := do
  let w ← get
  if image.elfClass = ELFCLASS64 then
    warnIf (!M.rv64 w.model)
      ("warning: launching 64-bit executable on a 32-bit simulator. ".toList ++
        "Hope, you know what you are doing\n".toList)
  else if image.elfClass = ELFCLASS32 then
    warnIf (M.rv64 w.model)
      ("warning: launching 32-bit executable on a 64-bit simulator. ".toList ++
        "Hope, you know what you are doing\n".toList)
  else throw (.runtimeError "Invalid ELF class".toList)

/-! ## Segments -/

def checkSizes (seg : Segment) : Load σ Unit :=
  if seg.memorySize < seg.fileSize then
    throw (.runtimeError ("Invalid ELF segment: file size (".toList ++
      decDigits seg.fileSize.toNat ++ ") is greater than memory size (".toList ++
      decDigits seg.memorySize.toNat ++ ")".toList))
  else pure ()

def loadSegment (seg : Segment) : Load σ Unit :=
  if seg.type ≠ PT_LOAD then pure ()
  else do
    checkSizes seg
    if seg.fileSize = 0 then pure ()
    else checkedCall (M.writeMem seg.physicalAddress seg.data)

def loadSegments : List Segment → Load σ Unit
  | [] => pure ()
  | seg :: segments => do
      loadSegment M seg
      loadSegments segments

/-! ## Stop label -/

def kSymEnd : Text := "_sim_end".toList

/-- The section behind `Symtab`. When there is none, the warning is printed and
`Symtab` is dereferenced all the same. -/
def findSymtab (image : Image) : Load σ Section :=
  match image.symtab? with
  | some symtab => pure symtab
  | none => do
      warn ("warning: failed to find symbol table in ELF. Default entry ".toList ++
        "addresses will be used.".toList)
      throw .undefinedBehaviour

/-- The loop over the symbols, with the number of iterations it may still take. Its
index is an `unsigned` and wraps around, the number of symbols has 64 bits. -/
def stopLoop (symbols : List Symbol) : Nat → UInt32 → Option UInt64
  | 0, _ => none
  | remaining + 1, i =>
      if h : i.toNat < symbols.length then
        if symbols[i.toNat].name = kSymEnd then some symbols[i.toNat].value
        else stopLoop symbols remaining (i + 1)
      else some 1

def findStopPC (iterations : Nat) (symtab : Section) : Load σ UInt64 :=
  match stopLoop symtab.symbols iterations 0 with
  | some stopPC => pure stopPC
  | none => throw .running

def initStopPC (image : Image) (iterations : Nat) : Load σ Unit := do
  let symtab ← findSymtab image
  let stopPC ← findStopPC iterations symtab
  checkedCall (M.setStopPC stopPC)

def parseELFAndInit (load : Text → Option Image) (path : Text) (iterations : Nat) :
    Load σ Unit := do
  let image ← readImage load path
  checkMachine path image
  checkClass M image
  checkedCall (M.setPC image.entry)
  loadSegments M image.segments
  initStopPC M image iterations

end Rvmi.Elf
