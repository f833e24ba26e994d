import Rvmi.Elf.Load
import Rvmi.Log.PrintUtils

/-!
# `dumpState`

The text a launcher leaves behind: the registers, a separator and four control
registers. Every line has a length that does not depend on the values, so for one
length of the vector registers the text determines what it was printed from.
-/

namespace Rvmi.Launch

open Rvmi.Foundation Rvmi.Log Rvmi.Elf

def RVM_CSR_MSTATUS : RVMCSR := 0x300
def RVM_CSR_MISA : RVMCSR := 0x301
def RVM_CSR_MTVEC : RVMCSR := 0x305

def RVM_V_REG_0 : RVMVReg := ⟨0, Nat.succ_pos 31⟩

inductive RVMStopMode where
  | NEVER
  | BY_PC
deriving DecidableEq, Repr

/-- The calls the launchers make beside those of the loader. `readVReg` is given the
buffer, or none for a null pointer, and the size; it leaves both behind. -/
structure LauncherModel (σ : Type) extends LoaderModel σ where
  setStopMode : RVMStopMode → σ → σ
  raiseInterrupt : RVMRegT → σ → RVMErrorCode × σ
  clearInterrupt : RVMRegT → σ → RVMErrorCode × σ
  readVReg : RVMVReg → Option (List Int8) → UInt64 → σ → RVMErrorCode × List Int8 × UInt64
  strerror : RVMErrorCode → Text
  getErrorContext : σ → Text

/-- How a launcher ends early: in one of the ways of the loader, or in an `assert`. -/
inductive LaunchFailure where
  | failure (reason : LoadFailure)
  | assertionFailed
deriving DecidableEq, Repr

variable {σ τ : Type}

/-! ## The text -/

def registerLine (name : Text) (i : Nat) (value : Text) : Text :=
  name ++ "(".toList ++ printRegNumber i ++ "): ".toList ++ value ++ "\n".toList

def registerLines (name : Text) (values : Fin 32 → Text) (regs : List (Fin 32)) : List Text :=
  regs.map fun i => registerLine name i.val (values i)

def csrLine (name : Text) (value : RVMRegT) : Text :=
  name ++ ": ".toList ++ tohs value ++ "\n".toList

def checkRead (read : RVMErrorCode × RVMRegT) : Except LaunchFailure RVMRegT :=
  let (err, value) := read
  if err ≠ .SUCCESS then .error (.failure (.modelError err)) else .ok value

/-- The body of the loops over the scalar registers. -/
def dumpRegister (name : Text) (read : Fin 32 → RVMErrorCode × RVMRegT) (os : Text)
    (i : Fin 32) : Except LaunchFailure Text := do
  let value ← checkRead (read i)
  return os ++ registerLine name i.val (tohs value)

def dumpRegisters (name : Text) (read : Fin 32 → RVMErrorCode × RVMRegT) (os : Text) :
    Except LaunchFailure Text :=
  (List.finRange 32).foldlM (dumpRegister name read) os

/-- The stream, the buffer for vector registers and its size. -/
structure VectorDump where
  os : Text
  rvvData : List Int8
  dataSize : UInt64

/-- The body of the loop over the vector registers; the buffer and the size stay for
the next register. -/
def dumpVRegister (M : LauncherModel σ) (s : σ) (d : VectorDump) (i : RVMVReg) :
    Except LaunchFailure VectorDump :=
  let (err, rvvData, dataSize) := M.readVReg i (some d.rvvData) d.dataSize s
  if err ≠ .SUCCESS then .error (.failure (.modelError err))
  else .ok ⟨d.os ++ registerLine "V".toList i.val (tohsVector rvvData), rvvData, dataSize⟩

/-- The buffer is as long as the first vector register says when it is asked for its size. -/
def dumpVRegisters (M : LauncherModel σ) (s : σ) (os : Text) : Except LaunchFailure Text := do
  let (err, _, dataSize) := M.readVReg RVM_V_REG_0 none 16 s
  if err ≠ .SUCCESS then .error .assertionFailed
  else do
    let d ← (List.finRange 32).foldlM (dumpVRegister M s)
      ⟨os, List.replicate dataSize.toNat 0, dataSize⟩
    return d.os

def dumpCSR (M : LauncherModel σ) (s : σ) (name : Text) (reg : RVMCSR) (os : Text) :
    Except LaunchFailure Text := do
  let value ← checkRead (M.readCSR reg s)
  return os ++ csrLine name value

def dumpState (M : LauncherModel σ) (s : σ) : Except LaunchFailure Text := do
  let os ← dumpRegisters "GPR".toList (fun reg => M.readXReg reg s) []
  let os ← dumpRegisters "FPR".toList (fun reg => M.readFReg reg s) os
  let os ← dumpVRegisters M s os
  let os := os ++ "___\n".toList
  let os ← dumpCSR M s "MISA".toList RVM_CSR_MISA os
  let os ← dumpCSR M s "MSTATUS".toList RVM_CSR_MSTATUS os
  let os ← dumpCSR M s "MCAUSE".toList RVM_CSR_MCAUSE os
  dumpCSR M s "MTVEC".toList RVM_CSR_MTVEC os

/-! ## The state behind the text -/

/-- What the launcher reads of a model whose vector registers have `vlenb` bytes. -/
@[ext] structure DumpedState (vlenb : Nat) where
  x : RVMXReg → RVMRegT
  f : RVMFReg → RVMRegT
  v : RVMVReg → { data : List Int8 // data.length = vlenb }
  misa : RVMRegT
  mstatus : RVMRegT
  mcause : RVMRegT
  mtvec : RVMRegT

/-- Every read of the state succeeds with the values of `a`; a null buffer is told the
length of the vector registers, and a buffer of that length is filled. -/
structure Reads (M : LauncherModel σ) (s : σ) (vlenb : UInt64) (a : DumpedState vlenb.toNat) :
    Prop where
  xReg : ∀ reg, M.readXReg reg s = (.SUCCESS, a.x reg)
  fReg : ∀ reg, M.readFReg reg s = (.SUCCESS, a.f reg)
  vRegSize : ∀ reg size, ∃ data, M.readVReg reg none size s = (.SUCCESS, data, vlenb)
  vReg : ∀ reg data, data.length = vlenb.toNat →
    M.readVReg reg (some data) vlenb s = (.SUCCESS, (a.v reg).val, vlenb)
  misa : M.readCSR RVM_CSR_MISA s = (.SUCCESS, a.misa)
  mstatus : M.readCSR RVM_CSR_MSTATUS s = (.SUCCESS, a.mstatus)
  mcause : M.readCSR RVM_CSR_MCAUSE s = (.SUCCESS, a.mcause)
  mtvec : M.readCSR RVM_CSR_MTVEC s = (.SUCCESS, a.mtvec)

namespace DumpedState

variable {vlenb : Nat}

def csrLines (a : DumpedState vlenb) : List Text :=
  ["___\n".toList, csrLine "MISA".toList a.misa, csrLine "MSTATUS".toList a.mstatus,
    csrLine "MCAUSE".toList a.mcause, csrLine "MTVEC".toList a.mtvec]

/-- The lines of a dump. -/
def lines (a : DumpedState vlenb) : List Text :=
  registerLines "GPR".toList (fun i => tohs (a.x i)) (List.finRange 32) ++
    registerLines "FPR".toList (fun i => tohs (a.f i)) (List.finRange 32) ++
    registerLines "V".toList (fun i => tohsVector (a.v i).val) (List.finRange 32) ++
    a.csrLines

end DumpedState

/-! ## The dump of a state that can be read -/

theorem checkRead_success (value : RVMRegT) : checkRead (.SUCCESS, value) = .ok value := rfl

theorem flatten_registerLines_cons (name : Text) (values : Fin 32 → Text) (i : Fin 32)
    (regs : List (Fin 32)) :
    (registerLines name values (i :: regs)).flatten =
      registerLine name i.val (values i) ++ (registerLines name values regs).flatten := by
  unfold registerLines
  rw [List.map_cons, List.flatten_cons]

theorem dumpRegisters_eq (name : Text) {read : Fin 32 → RVMErrorCode × RVMRegT}
    {value : Fin 32 → RVMRegT} (h : ∀ i, read i = (.SUCCESS, value i)) (os : Text) :
    dumpRegisters name read os =
      .ok (os ++ (registerLines name (fun i => tohs (value i)) (List.finRange 32)).flatten) := by
  unfold dumpRegisters
  induction List.finRange 32 generalizing os with
  | nil => exact congrArg Except.ok (List.append_nil os).symm
  | cons i regs ih =>
      have hline : dumpRegister name read os i =
          .ok (os ++ registerLine name i.val (tohs (value i))) := by
        unfold dumpRegister
        rw [h i, checkRead_success]
        rfl
      rw [List.foldlM_cons, hline, flatten_registerLines_cons, ← List.append_assoc]
      exact ih _

/-- The buffer has the length of a register before each of the reads. -/
theorem foldlM_dumpVRegister {M : LauncherModel σ} {s : σ} {vlenb : UInt64}
    {a : DumpedState vlenb.toNat} (h : Reads M s vlenb a) (regs : List RVMVReg) {d : VectorDump}
    (hdata : d.rvvData.length = vlenb.toNat) (hsize : d.dataSize = vlenb) :
    ∃ d', regs.foldlM (dumpVRegister M s) d = .ok d' ∧ d'.os =
      d.os ++ (registerLines "V".toList (fun i => tohsVector (a.v i).val) regs).flatten := by
  induction regs generalizing d with
  | nil => exact ⟨d, rfl, (List.append_nil d.os).symm⟩
  | cons i regs ih =>
      have hread : dumpVRegister M s d i = .ok
          ⟨d.os ++ registerLine "V".toList i.val (tohsVector (a.v i).val), (a.v i).val, vlenb⟩ := by
        unfold dumpVRegister
        rw [hsize, h.vReg i d.rvvData hdata]
        rfl
      obtain ⟨d', hrest, hos⟩ := ih
        (d := ⟨d.os ++ registerLine "V".toList i.val (tohsVector (a.v i).val), (a.v i).val, vlenb⟩)
        (a.v i).property rfl
      refine ⟨d', ?_, ?_⟩
      · rw [List.foldlM_cons, hread]
        exact hrest
      · rw [hos, flatten_registerLines_cons, List.append_assoc]

theorem dumpVRegisters_eq {M : LauncherModel σ} {s : σ} {vlenb : UInt64}
    {a : DumpedState vlenb.toNat} (h : Reads M s vlenb a) (os : Text) :
    dumpVRegisters M s os = .ok (os ++
      (registerLines "V".toList (fun i => tohsVector (a.v i).val) (List.finRange 32)).flatten) := by
  obtain ⟨data, hsize⟩ := h.vRegSize RVM_V_REG_0 16
  have hlength : (List.replicate vlenb.toNat (0 : Int8)).length = vlenb.toNat :=
    List.length_replicate
  obtain ⟨d, hloop, hos⟩ := foldlM_dumpVRegister h (List.finRange 32)
    (d := ⟨os, List.replicate vlenb.toNat 0, vlenb⟩) hlength rfl
  unfold dumpVRegisters
  rw [hsize]
  show ((List.finRange 32).foldlM (dumpVRegister M s) _ >>= fun d => pure d.os) = _
  rw [hloop]
  exact congrArg Except.ok hos

theorem dumpCSR_eq {M : LauncherModel σ} {s : σ} {reg : RVMCSR} {value : RVMRegT} (name os : Text)
    (h : M.readCSR reg s = (.SUCCESS, value)) :
    dumpCSR M s name reg os = .ok (os ++ csrLine name value) := by
  unfold dumpCSR
  rw [h, checkRead_success]
  rfl

theorem dumpState_eq {M : LauncherModel σ} {s : σ} {vlenb : UInt64} {a : DumpedState vlenb.toNat}
    (h : Reads M s vlenb a) : dumpState M s = .ok a.lines.flatten := by
  unfold dumpState
  rw [dumpRegisters_eq "GPR".toList h.xReg]
  show (dumpRegisters _ _ _ >>= _) = _
  rw [dumpRegisters_eq "FPR".toList h.fReg]
  show (dumpVRegisters _ _ _ >>= _) = _
  rw [dumpVRegisters_eq h]
  show (dumpCSR _ _ _ _ _ >>= _) = _
  rw [dumpCSR_eq "MISA".toList _ h.misa]
  show (dumpCSR _ _ _ _ _ >>= _) = _
  rw [dumpCSR_eq "MSTATUS".toList _ h.mstatus]
  show (dumpCSR _ _ _ _ _ >>= _) = _
  rw [dumpCSR_eq "MCAUSE".toList _ h.mcause]
  show dumpCSR _ _ _ _ _ = _
  rw [dumpCSR_eq "MTVEC".toList _ h.mtvec]
  unfold DumpedState.lines DumpedState.csrLines
  simp only [List.flatten_append, List.flatten_cons, List.flatten_nil, List.append_nil,
    List.nil_append, List.append_assoc]

/-! ## Two dumps -/

theorem length_registerLine (name : Text) (i : Nat) {value value' : Text}
    (h : value.length = value'.length) :
    (registerLine name i value).length = (registerLine name i value').length := by
  unfold registerLine
  simp only [List.length_append, h]

theorem registerLine_inj {name : Text} {i : Nat} {value value' : Text}
    (h : registerLine name i value = registerLine name i value') : value = value' :=
  List.append_cancel_left (List.append_cancel_right h)

theorem length_registerLines (name : Text) (values : Fin 32 → Text) (regs : List (Fin 32)) :
    (registerLines name values regs).length = regs.length := List.length_map _

theorem map_length_registerLines (name : Text) {values values' : Fin 32 → Text}
    (h : ∀ i, (values i).length = (values' i).length) (regs : List (Fin 32)) :
    (registerLines name values regs).map List.length =
      (registerLines name values' regs).map List.length := by
  unfold registerLines
  rw [List.map_map, List.map_map]
  exact List.map_congr_left fun i _ => length_registerLine name i.val (h i)

theorem registerLines_inj {name : Text} {values values' : Fin 32 → Text}
    (h : registerLines name values (List.finRange 32) =
      registerLines name values' (List.finRange 32)) (i : Fin 32) : values i = values' i :=
  registerLine_inj (List.map_inj_left.mp h i (List.mem_finRange i))

theorem length_csrLine (name : Text) (value value' : RVMRegT) :
    (csrLine name value).length = (csrLine name value').length := by
  unfold csrLine
  simp only [List.length_append, length_tohs]

theorem csrLine_inj {name : Text} {value value' : RVMRegT}
    (h : csrLine name value = csrLine name value') : value = value' :=
  tohs_injective (List.append_cancel_left (List.append_cancel_right h))

namespace DumpedState

variable {vlenb : Nat}

theorem length_tohs_eq (value value' : RVMRegT) : (tohs value).length = (tohs value').length := by
  rw [length_tohs, length_tohs]

theorem length_tohsVector_eq (a a' : DumpedState vlenb) (i : RVMVReg) :
    (tohsVector (a.v i).val).length = (tohsVector (a'.v i).val).length := by
  rw [length_tohsVector, length_tohsVector, (a.v i).property, (a'.v i).property]

/-- A line has the same length in every dump. -/
theorem map_length_lines (a a' : DumpedState vlenb) :
    a.lines.map List.length = a'.lines.map List.length := by
  unfold lines csrLines
  simp only [List.map_append, List.map_cons, List.map_nil]
  rw [map_length_registerLines "GPR".toList fun i => length_tohs_eq (a.x i) (a'.x i),
    map_length_registerLines "FPR".toList fun i => length_tohs_eq (a.f i) (a'.f i),
    map_length_registerLines "V".toList (length_tohsVector_eq a a'),
    length_csrLine _ a.misa a'.misa, length_csrLine _ a.mstatus a'.mstatus,
    length_csrLine _ a.mcause a'.mcause, length_csrLine _ a.mtvec a'.mtvec]

theorem lines_injective : Function.Injective (lines : DumpedState vlenb → List Text) := by
  intro a a' h
  obtain ⟨hregs, hcsrs⟩ := List.append_inj' h rfl
  obtain ⟨hscalars, hv⟩ := List.append_inj' hregs (by rw [length_registerLines, length_registerLines])
  obtain ⟨hx, hf⟩ := List.append_inj' hscalars (by rw [length_registerLines, length_registerLines])
  injection hcsrs with _ hcsrs
  injection hcsrs with hmisa hcsrs
  injection hcsrs with hmstatus hcsrs
  injection hcsrs with hmcause hcsrs
  injection hcsrs with hmtvec _
  apply DumpedState.ext
  · funext i
    exact tohs_injective (registerLines_inj hx i)
  · funext i
    exact tohs_injective (registerLines_inj hf i)
  · funext i
    apply Subtype.ext
    exact tohsVector_inj ((a.v i).property.trans (a'.v i).property.symm) (registerLines_inj hv i)
  · exact csrLine_inj hmisa
  · exact csrLine_inj hmstatus
  · exact csrLine_inj hmcause
  · exact csrLine_inj hmtvec

/-- The text of a dump can be cut into its lines, since their lengths are known. -/
theorem flatten_lines_inj {a a' : DumpedState vlenb} (h : a.lines.flatten = a'.lines.flatten) :
    a = a' := lines_injective (List.eq_iff_flatten_eq.mpr ⟨h, map_length_lines a a'⟩)

end DumpedState

/-- Two states with vector registers of one length are dumped alike exactly when they
agree on the registers, the vector bytes and the four control registers. -/
theorem dumpState_eq_iff {M : LauncherModel σ} {N : LauncherModel τ} {s : σ} {s' : τ}
    {vlenb : UInt64} {a a' : DumpedState vlenb.toNat} (h : Reads M s vlenb a)
    (h' : Reads N s' vlenb a') :
    ∃ text text', dumpState M s = .ok text ∧ dumpState N s' = .ok text' ∧
      (text = text' ↔ (∀ reg, a.x reg = a'.x reg) ∧ (∀ reg, a.f reg = a'.f reg) ∧
        (∀ reg, (a.v reg).val = (a'.v reg).val) ∧ a.misa = a'.misa ∧
        a.mstatus = a'.mstatus ∧ a.mcause = a'.mcause ∧ a.mtvec = a'.mtvec) := by
  refine ⟨a.lines.flatten, a'.lines.flatten, dumpState_eq h, dumpState_eq h', ?_⟩
  constructor
  · intro heq
    obtain rfl := DumpedState.flatten_lines_inj heq
    exact ⟨fun _ => rfl, fun _ => rfl, fun _ => rfl, rfl, rfl, rfl, rfl⟩
  · rintro ⟨hx, hf, hv, hmisa, hmstatus, hmcause, hmtvec⟩
    obtain rfl : a = a' := DumpedState.ext (funext hx) (funext hf)
      (funext fun reg => Subtype.ext (hv reg)) hmisa hmstatus hmcause hmtvec
    rfl

/-! ## A simulator that is its architectural state -/

/-- Nothing is executed, and the vector registers have 16 bytes. -/
def archModel : LauncherModel (DumpedState 16) where
  executeInstr a := ⟨.SUCCESS, [], a⟩
  readPC _ := 0
  readXReg reg a := (.SUCCESS, a.x reg)
  readFReg reg a := (.SUCCESS, a.f reg)
  readCSR reg a := (.SUCCESS,
    if reg = RVM_CSR_MISA then a.misa else if reg = RVM_CSR_MSTATUS then a.mstatus
    else if reg = RVM_CSR_MCAUSE then a.mcause else a.mtvec)
  rv64 _ := true
  setPC _ a := (.SUCCESS, a)
  writeMem _ _ a := (.SUCCESS, a)
  setStopPC _ a := (.SUCCESS, a)
  setStopMode _ a := a
  raiseInterrupt _ a := (.SUCCESS, a)
  clearInterrupt _ a := (.SUCCESS, a)
  readVReg reg _ _ a := (.SUCCESS, (a.v reg).val, 16)
  strerror _ := []
  getErrorContext _ := []

theorem reads_archModel (a : DumpedState 16) : Reads archModel a 16 a where
  xReg _ := rfl
  fReg _ := rfl
  vRegSize reg _ := ⟨(a.v reg).val, rfl⟩
  vReg _ _ _ := rfl
  misa := rfl
  mstatus := rfl
  mcause := rfl
  mtvec := rfl

/-- Every register holds the value `fill`, every vector byte too. -/
def DumpedState.filled (fill : UInt64) : DumpedState 16 where
  x _ := fill
  f _ := fill
  v _ := ⟨List.replicate 16 fill.toUInt8.toInt8, List.length_replicate⟩
  misa := fill
  mstatus := fill
  mcause := fill
  mtvec := fill

theorem dumpState_eq_iff_archModel : ∃ text text',
    dumpState archModel (.filled 0) = .ok text ∧ dumpState archModel (.filled 0xff) = .ok text' ∧
      text ≠ text' := by
  obtain ⟨text, text', htext, htext', hiff⟩ :=
    dumpState_eq_iff (reads_archModel (.filled 0)) (reads_archModel (.filled 0xff))
  refine ⟨text, text', htext, htext', fun heq => ?_⟩
  have hzero : (0 : UInt64) = 0xff := (hiff.mp heq).1 0
  exact absurd hzero (by decide)

end Rvmi.Launch
