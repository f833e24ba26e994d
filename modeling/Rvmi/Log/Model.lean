import Rvmi.Foundation.Text

/-!
# The model behind `rvm::State`

What the launcher sees of a simulator: one instruction can be executed, which
delivers callbacks on the way, and the architectural state can be read. The
read functions take a `const RVMState *`, so they are functions of the model's
state. Like in C, a read returns an error code and leaves a value in its out
parameter.
-/

namespace Rvmi.Log

/-- `RVMErrorCode` -/
inductive RVMErrorCode where
  | SUCCESS
  | INVALID_ARGUMENT
  | INVALID_ADDRESS
  | VALUE_OUT_OF_RANGE
  | IDX_OUT_OF_RANGE
  | INVALID_MEM_REGION
  | INCOMPATIBLE
  | UNRECOVERABLE_ERROR
deriving DecidableEq, Repr

/-- `RVMSimExecStatus`; `other` stands for the values that a later interface may add. -/
inductive RVMSimExecStatus where
  | SUCCESS
  | FINISH
  | EXCEPTION
  | other (code : UInt32)
deriving DecidableEq, Repr

abbrev RVMRegT := UInt64

/-- `RVM_X_REG_0` to `RVM_X_REG_31`; an enumerator is printed as its number. -/
abbrev RVMXReg := Fin 32
abbrev RVMFReg := Fin 32
abbrev RVMVReg := Fin 32
abbrev RVMCSR := UInt32

def RVM_CSR_FCSR : RVMCSR := 3
def RVM_CSR_MCAUSE : RVMCSR := 0x342

/-- A call of one of the six registered callback functions. -/
inductive Callback where
  | memRead (addr : UInt64) (data : List UInt8)
  | memUpdate (addr : UInt64) (data : List UInt8)
  | xRegUpdate (reg : RVMXReg) (value : RVMRegT)
  | fRegUpdate (reg : RVMFReg) (value : RVMRegT)
  | vRegUpdate (reg : RVMVReg) (data : List UInt8)
  | csRegUpdate (reg : RVMCSR) (value : RVMRegT)
deriving DecidableEq, Repr

namespace Callback

def xReg? : Callback → Option RVMXReg
  | xRegUpdate reg _ => some reg
  | _ => none

def fReg? : Callback → Option RVMFReg
  | fRegUpdate reg _ => some reg
  | _ => none

def csr? : Callback → Option RVMCSR
  | csRegUpdate reg _ => some reg
  | _ => none

end Callback

/-- What one `executeInstr` does: its result, the callbacks it delivers and the
state it leaves. -/
structure Step (σ : Type) where
  status : RVMSimExecStatus
  callbacks : List Callback
  next : σ

structure Model (σ : Type) where
  executeInstr : σ → Step σ
  readPC : σ → UInt64
  readXReg : RVMXReg → σ → RVMErrorCode × RVMRegT
  readFReg : RVMFReg → σ → RVMErrorCode × RVMRegT
  readCSR : RVMCSR → σ → RVMErrorCode × RVMRegT

namespace Model

variable {σ : Type} (M : Model σ)

/-- The state behind one instruction. -/
def next (s : σ) : σ := (M.executeInstr s).next

def FCSRReadable (s : σ) : Prop := (M.readCSR RVM_CSR_FCSR s).1 = .SUCCESS

instance (s : σ) : Decidable (M.FCSRReadable s) :=
  inferInstanceAs (Decidable ((M.readCSR RVM_CSR_FCSR s).1 = .SUCCESS))

def fcsr (s : σ) : RVMRegT := (M.readCSR RVM_CSR_FCSR s).2

end Model

end Rvmi.Log
