import Rvmi.Log.Model
import Rvmi.Log.PrintUtils

/-!
# `ExecutionLogger`

The logger of `DriverUtils.cpp` with the callbacks that feed it. Callbacks
append to the lists of the current update whether or not a log is open;
everything else returns at once when it is not. A read that fails throws out
of the function, and the text written up to that point stays in the file.
-/

namespace Rvmi.Log

open Rvmi.Foundation

/-! ## Updates -/

structure MemStateType where
  addr : UInt64
  data : List UInt8
deriving DecidableEq, Repr

structure VectorRegUpdateType where
  regIndex : RVMVReg
  data : List UInt8
deriving DecidableEq, Repr

def kUninitializedValue : UInt64 := 0xffffffffffffffff

/-- `PC` and `FCSR` start indeterminate; nothing reads them before they are set. -/
structure StateUpdate where
  memReads : List MemStateType := []
  memWrites : List MemStateType := []
  gpr : List RVMXReg := []
  fpr : List RVMFReg := []
  vReg : List VectorRegUpdateType := []
  csr : List RVMCSR := []
  pc : UInt64 := 0
  fcsr : UInt64 := 0
deriving DecidableEq, Repr

def StateUpdate.clear (u : StateUpdate) : StateUpdate :=
  { u with
    memReads := []
    memWrites := []
    gpr := []
    fpr := []
    vReg := []
    pc := kUninitializedValue
    fcsr := kUninitializedValue }

/-- `OS` is the text written so far, if the file is open. -/
structure ExecutionLogger where
  pcBefore : UInt64 := kUninitializedValue
  fcsrBefore : UInt64 := kUninitializedValue
  update : StateUpdate := {}
  os : Option Text := none
deriving DecidableEq

namespace ExecutionLogger

def addMemoryRead (l : ExecutionLogger) (addr : UInt64) (data : List UInt8) : ExecutionLogger :=
  { l with update.memReads := l.update.memReads ++ [⟨addr, data⟩] }

def addMemoryUpdate (l : ExecutionLogger) (addr : UInt64) (data : List UInt8) :
    ExecutionLogger :=
  { l with update.memWrites := l.update.memWrites ++ [⟨addr, data⟩] }

def addXRegUpdate (l : ExecutionLogger) (reg : RVMXReg) : ExecutionLogger :=
  { l with update.gpr := l.update.gpr ++ [reg] }

def addFRegUpdate (l : ExecutionLogger) (reg : RVMFReg) : ExecutionLogger :=
  { l with update.fpr := l.update.fpr ++ [reg] }

def addVRegUpdate (l : ExecutionLogger) (reg : RVMVReg) (data : List UInt8) : ExecutionLogger :=
  { l with update.vReg := l.update.vReg ++ [⟨reg, data⟩] }

def addCSRUpdate (l : ExecutionLogger) (reg : RVMCSR) : ExecutionLogger :=
  { l with update.csr := l.update.csr ++ [reg] }

/-- The six callback functions; the register values they are given are not used. -/
def callback (l : ExecutionLogger) : Callback → ExecutionLogger
  | .memRead addr data => l.addMemoryRead addr data
  | .memUpdate addr data => l.addMemoryUpdate addr data
  | .xRegUpdate reg _ => l.addXRegUpdate reg
  | .fRegUpdate reg _ => l.addFRegUpdate reg
  | .vRegUpdate reg data => l.addVRegUpdate reg data
  | .csRegUpdate reg _ => l.addCSRUpdate reg

def deliver (l : ExecutionLogger) (cbs : List Callback) : ExecutionLogger :=
  cbs.foldl callback l

/-- The constructor. Whether the file can be opened is up to the file system. -/
def construct (execLogPath : Text) (opens : Bool) : Except Text ExecutionLogger :=
  if execLogPath.isEmpty then .ok {}
  else if opens then
    .ok { os := some ("\x7b\n".toList ++ "  \"execution\": [\n".toList ++
      "    \x7b\x7d,\n".toList) }
  else .error ("could not open execution log: ".toList ++ execLogPath ++ "\n".toList)

/-- The destructor: the text that is left in the file. -/
def destroy (l : ExecutionLogger) : Option Text :=
  l.os.map fun text => text ++ "    \x7b\x7d\n".toList ++ "  ]\n".toList ++ "\x7d".toList

end ExecutionLogger

/-! ## Text of an update -/

/-- The body of the loops that put `Separator` between what they emit. -/
def emitSeparated {m : Type → Type} [Monad m] {α : Type} (emit : α → m Text) :
    Text → Text → List α → m Text
  | _, ss, [] => pure ss
  | separator, ss, it :: rest => do
      let text ← emit it
      emitSeparated emit ", ".toList (ss ++ separator ++ text) rest

def quote (t : Text) : Text := "\"".toList ++ t ++ "\"".toList

/-- `"…": ["0x…", …]` -/
def emitBytes (name : Text) (data : List UInt8) : Text :=
  let bytes : Id Text :=
    emitSeparated (fun byte : UInt8 => pure (quote (tohs byte.toUInt64 2))) [] [] data
  quote name ++ ": [".toList ++ bytes.run ++ "]".toList

def emitMemoryState (memState : MemStateType) : Text :=
  emitBytes (tohs memState.addr) memState.data

def emitMemoryStateList (states : List MemStateType) : Text :=
  (emitSeparated (fun it => pure (emitMemoryState it)) [] [] states : Id Text).run

/-- A register is printed as its letter and its number. -/
def registerName (letter : Char) (reg : Fin 32) : Text := letter :: decDigits reg.val

def emitChangeVRegister (vUpdate : VectorRegUpdateType) : Text :=
  emitBytes (registerName 'v' vUpdate.regIndex) vUpdate.data

def emitChangeVRegisters (updates : List VectorRegUpdateType) : Text :=
  (emitSeparated (fun it => pure (emitChangeVRegister it)) [] [] updates : Id Text).run

/-- The body of the loops over the changed registers: the value is read when
the register is printed. -/
def emitRegister (letter : Char) (read : Fin 32 → RVMErrorCode × RVMRegT) (it : Fin 32) :
    Except RVMErrorCode Text :=
  let (err, value) := read it
  if err ≠ .SUCCESS then .error err
  else .ok (quote (registerName letter it) ++ ": ".toList ++ quote (tohs value))

def emitChangeRegisters (letter : Char) (read : Fin 32 → RVMErrorCode × RVMRegT) :
    List (Fin 32) → Except RVMErrorCode Text :=
  emitSeparated (emitRegister letter read) [] []

def emitChangeXRegisters {σ : Type} (M : Model σ) (s : σ) (regs : List RVMXReg) :
    Except RVMErrorCode Text :=
  emitChangeRegisters 'x' (fun reg => M.readXReg reg s) regs

def emitChangeFRegisters {σ : Type} (M : Model σ) (s : σ) (regs : List RVMFReg) :
    Except RVMErrorCode Text :=
  emitChangeRegisters 'f' (fun reg => M.readFReg reg s) regs

/-! ## Running against a model -/

structure World (σ : Type) where
  model : σ
  logger : ExecutionLogger

/-- Code that works on the model and the logger and may throw; what it did
before it throws stays done. -/
abbrev Sim (σ : Type) := EStateM RVMErrorCode (World σ)

section Sim

variable {σ : Type}

def checkAndThrow (err : RVMErrorCode) : Sim σ Unit :=
  if err ≠ .SUCCESS then throw err else pure ()

def modifyLogger (f : ExecutionLogger → ExecutionLogger) : Sim σ Unit :=
  modify fun w => { w with logger := f w.logger }

def write (t : Text) : Sim σ Unit :=
  modifyLogger fun l => { l with os := l.os.map fun text => text ++ t }

/-- `if (!list.empty()) OS << ", \"name\": {" << body << "}";` The name is
written before the body is evaluated. -/
def writeSection {α : Type} (name : Text) (list : List α)
    (body : List α → Except RVMErrorCode Text) : Sim σ Unit := do
  if !list.isEmpty then
    write (", ".toList ++ (quote name ++ ": \x7b".toList))
    match body list with
    | .ok text => write text
    | .error err => throw err
    write "\x7d".toList

def logPreRetireState (M : Model σ) : Sim σ Unit := do
  let w ← get
  if w.logger.os.isNone then return
  modifyLogger fun l => { l with pcBefore := M.readPC w.model }
  let (err, fcsr) := M.readCSR RVM_CSR_FCSR w.model
  modifyLogger fun l => { l with fcsrBefore := fcsr }
  checkAndThrow err
  modifyLogger fun l => { l with update := l.update.clear }

/-- The text `logRetiredState` writes once the state has been read. -/
def writeRecord (M : Model σ) (s : σ) (l : ExecutionLogger) : Sim σ Unit := do
  write ("    \x7b ".toList ++ (quote "pc_before".toList ++ ": ".toList ++ quote (tohs l.pcBefore)))
  write (", ".toList ++ (quote "pc_after".toList ++ ": ".toList ++ quote (tohs l.update.pc)))
  writeSection "gpr".toList l.update.gpr (emitChangeXRegisters M s)
  writeSection "fpr".toList l.update.fpr (emitChangeFRegisters M s)
  writeSection "vreg".toList l.update.vReg (fun list => pure (emitChangeVRegisters list))
  writeSection "mem".toList l.update.memWrites (fun list => pure (emitMemoryStateList list))
  writeSection "mem_reads".toList l.update.memReads (fun list => pure (emitMemoryStateList list))
  if l.fcsrBefore ≠ l.update.fcsr then
    write (", ".toList ++ (quote "fcsr".toList ++ ": ".toList ++ quote (tohs l.update.fcsr)))
  write " \x7d,\n".toList

def logRetiredState (M : Model σ) : Sim σ Unit := do
  let w ← get
  if w.logger.os.isNone then return
  modifyLogger fun l => { l with update.pc := M.readPC w.model }
  let (err, fcsr) := M.readCSR RVM_CSR_FCSR w.model
  modifyLogger fun l => { l with update.fcsr := fcsr }
  checkAndThrow err
  writeRecord M w.model (← get).logger

/-- `RVM.executeInstr()`, with the callbacks the model delivers to the logger. -/
def executeInstr (M : Model σ) : Sim σ RVMSimExecStatus := do
  let w ← get
  let step := M.executeInstr w.model
  set ({ model := step.next, logger := w.logger.deliver step.callbacks } : World σ)
  return step.status

def retireInstr (M : Model σ) : Sim σ RVMSimExecStatus := do
  logPreRetireState M
  let result ← executeInstr M
  logRetiredState M
  return result

end Sim

end Rvmi.Log
