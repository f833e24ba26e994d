import Mathlib.Logic.Function.Iterate
import Rvmi.Log.Driver

/-!
# Replaying a log

The records of a log are applied to an architectural state one after the other:
the last value of a register counts, the bytes of a write go to consecutive
addresses, and the control register changes only where a record says so. When
the callbacks of a model are complete, this reproduces the model's own states.
-/

namespace Rvmi.Log

open Rvmi.Foundation

variable {σ : Type}

/-! ## Architectural states -/

structure ArchState where
  x : RVMXReg → RVMRegT
  f : RVMFReg → RVMRegT
  fcsr : RVMRegT
  pc : UInt64
  mem : UInt64 → UInt8

/-- The bytes go to consecutive addresses, modulo the size of the address space. -/
def storeBytes (mem : UInt64 → UInt8) (addr : UInt64) : List UInt8 → UInt64 → UInt8
  | [] => mem
  | byte :: bytes => storeBytes (Function.update mem addr byte) (addr + 1) bytes

def overlay (mem : UInt64 → UInt8) (writes : List MemStateType) : UInt64 → UInt8 :=
  writes.foldl (fun mem w => storeBytes mem w.addr w.data) mem

def setRegisters (regs : Fin 32 → RVMRegT) (updates : List (Fin 32 × RVMRegT)) :
    Fin 32 → RVMRegT :=
  updates.foldl (fun regs u => Function.update regs u.1 u.2) regs

def applyRecord (a : ArchState) (r : InstrRecord) : ArchState where
  x := setRegisters a.x r.gpr
  f := setRegisters a.f r.fpr
  fcsr := r.fcsr.getD a.fcsr
  pc := r.pcAfter
  mem := overlay a.mem r.mem

def replay (a : ArchState) (rs : List InstrRecord) : ArchState := rs.foldl applyRecord a

/-! ## Complete models -/

/-- The state of a model whose memory contents are `mem`. -/
def archState (M : Model σ) (mem : σ → UInt64 → UInt8) (s : σ) : ArchState where
  x reg := (M.readXReg reg s).2
  f reg := (M.readFReg reg s).2
  fcsr := M.fcsr s
  pc := M.readPC s
  mem := mem s

/-- Every read succeeds, a register that differs behind an instruction had a
callback, and memory changes by the callbacks in order. -/
structure Complete (M : Model σ) (mem : σ → UInt64 → UInt8) : Prop where
  readXReg : ∀ reg s, (M.readXReg reg s).1 = .SUCCESS
  readFReg : ∀ reg s, (M.readFReg reg s).1 = .SUCCESS
  readCSR : ∀ csr s, (M.readCSR csr s).1 = .SUCCESS
  xRegUpdate : ∀ s reg, (M.readXReg reg (M.next s)).2 ≠ (M.readXReg reg s).2 →
    reg ∈ (M.executeInstr s).callbacks.filterMap Callback.xReg?
  fRegUpdate : ∀ s reg, (M.readFReg reg (M.next s)).2 ≠ (M.readFReg reg s).2 →
    reg ∈ (M.executeInstr s).callbacks.filterMap Callback.fReg?
  memUpdate : ∀ s, mem (M.next s) =
    overlay (mem s) ((M.executeInstr s).callbacks.filterMap Callback.memUpdate?)

/-! ## One instruction -/

/-- Registers that are set to the values read for them have these values; the
others keep theirs. -/
theorem setRegisters_withValue (read : Fin 32 → RVMErrorCode × RVMRegT) (listed : List (Fin 32))
    (regs : Fin 32 → RVMRegT) (reg : Fin 32) :
    setRegisters regs (listed.map (withValue read)) reg =
      if reg ∈ listed then (read reg).2 else regs reg := by
  induction listed generalizing regs with
  | nil => rfl
  | cons r listed ih =>
      show setRegisters (Function.update regs r (read r).2) (listed.map (withValue read)) reg = _
      rw [ih]
      by_cases hmem : reg ∈ listed
      · rw [if_pos hmem, if_pos (List.mem_cons_of_mem _ hmem)]
      · rw [if_neg hmem]
        by_cases hr : reg = r
        · subst hr
          rw [if_pos List.mem_cons_self, Function.update_self]
        · rw [Function.update_of_ne hr, if_neg (by simp [hr, hmem])]

/-- Listing every register that changed is enough. -/
theorem setRegisters_complete {read : Fin 32 → RVMErrorCode × RVMRegT} {listed : List (Fin 32)}
    {regs : Fin 32 → RVMRegT} (h : ∀ reg, (read reg).2 ≠ regs reg → reg ∈ listed) :
    setRegisters regs (listed.map (withValue read)) = fun reg => (read reg).2 := by
  ext1 reg
  rw [setRegisters_withValue]
  by_cases hmem : reg ∈ listed
  · rw [if_pos hmem]
  · rw [if_neg hmem]
    by_contra hne
    exact hmem (h reg (Ne.symm hne))

section Complete

variable {M : Model σ} {mem : σ → UInt64 → UInt8}

/-- Applying the record of an instruction is executing it. -/
theorem applyRecord_observe (h : Complete M mem) (s : σ) :
    applyRecord (archState M mem s) (observe M s) = archState M mem (M.next s) := by
  have hx : setRegisters (archState M mem s).x (observe M s).gpr =
      (archState M mem (M.next s)).x := setRegisters_complete (h.xRegUpdate s)
  have hf : setRegisters (archState M mem s).f (observe M s).fpr =
      (archState M mem (M.next s)).f := setRegisters_complete (h.fRegUpdate s)
  have hfcsr : (observe M s).fcsr.getD (M.fcsr s) = M.fcsr (M.next s) := by
    by_cases hsame : M.fcsr s = M.fcsr (M.next s)
    · have hnone : (observe M s).fcsr = none := if_neg (not_not_intro hsame)
      rw [hnone, Option.getD_none, hsame]
    · have hsome : (observe M s).fcsr = some (M.fcsr (M.next s)) := if_pos hsame
      rw [hsome, Option.getD_some]
  have hmem := (h.memUpdate s).symm
  unfold applyRecord
  rw [hx, hf]
  congr 1

/-! ## Runs -/

theorem instrReadable_of_complete (h : Complete M mem) (s : σ) : InstrReadable M s where
  before := h.readCSR _ s
  after := h.readCSR _ (M.next s)
  gpr reg _ := h.readXReg reg (M.next s)
  fpr reg _ := h.readFReg reg (M.next s)

theorem readsSucceed_replicate (h : Complete M mem) (n : Nat) (s : σ) :
    ReadsSucceed M s (List.replicate n .retireInstr) := by
  induction n generalizing s with
  | zero => trivial
  | succ n ih => exact ⟨instrReadable_of_complete h s, ih (M.next s)⟩

theorem stateAfter_replicate (n : Nat) (s : σ) :
    stateAfter M s (List.replicate n .retireInstr) = M.next^[n] s := by
  induction n generalizing s with
  | zero => rfl
  | succ n ih => exact ih (M.next s)

theorem length_records_replicate (n : Nat) (s : σ) :
    (records M s (List.replicate n .retireInstr)).length = n := by
  induction n generalizing s with
  | zero => rfl
  | succ n ih => exact congrArg (· + 1) (ih (M.next s))

theorem getElem?_records_replicate (n k : Nat) (s : σ) :
    (records M s (List.replicate n .retireInstr))[k]? =
      if k < n then some (observe M (M.next^[k] s)) else none := by
  induction n generalizing k s with
  | zero => rfl
  | succ n ih =>
      show (observe M s :: records M (M.next s) (List.replicate n .retireInstr))[k]? = _
      cases k with
      | zero => rfl
      | succ k =>
          rw [List.getElem?_cons_succ, ih, Function.iterate_succ_apply]
          simp

/-- Replaying the first `k` records is executing `k` instructions. -/
theorem replay_take_records (h : Complete M mem) {k n : Nat} (hk : k ≤ n) (s : σ) :
    replay (archState M mem s) ((records M s (List.replicate n .retireInstr)).take k) =
      archState M mem (M.next^[k] s) := by
  induction n generalizing k s with
  | zero =>
      obtain rfl : k = 0 := by omega
      rfl
  | succ n ih =>
      cases k with
      | zero => rfl
      | succ k =>
          show replay (applyRecord (archState M mem s) (observe M s))
            ((records M (M.next s) (List.replicate n .retireInstr)).take k) = _
          rw [applyRecord_observe h, ih (by omega), Function.iterate_succ_apply]

theorem loopResult_of_complete (h : Complete M mem) (allowExceptions : Text) (limit : Nat)
    (s : σ) : ∃ execSuccess, loopResult M allowExceptions limit s = .ok execSuccess := by
  have hverdict (s : σ) : ∃ answer, verdict M allowExceptions s = .ok answer := by
    unfold verdict
    cases (M.executeInstr s).status with
    | SUCCESS => exact ⟨none, rfl⟩
    | FINISH => exact ⟨some true, rfl⟩
    | other code => exact ⟨some false, rfl⟩
    | EXCEPTION =>
        have hread := h.readCSR RVM_CSR_MCAUSE (M.next s)
        have hallowed : exceptionVerdict M allowExceptions (M.next s) =
            if exceptionAllowed allowExceptions (M.readCSR RVM_CSR_MCAUSE (M.next s)).2 then
              .ok none
            else .ok (some false) := if_neg (not_not_intro hread)
        show ∃ answer, exceptionVerdict M allowExceptions (M.next s) = .ok answer
        rw [hallowed]
        split
        · exact ⟨none, rfl⟩
        · exact ⟨some false, rfl⟩
  induction limit generalizing s with
  | zero => exact ⟨false, rfl⟩
  | succ limit ih =>
      obtain ⟨answer, hanswer⟩ := hverdict s
      unfold loopResult
      rw [hanswer]
      cases answer with
      | none => exact ih (M.next s)
      | some execSuccess => exact ⟨execSuccess, rfl⟩

/-- Replaying the log of the step loop reproduces the model after every step,
and the program counters of consecutive records meet. -/
theorem stepLoop_log_replays {path : Text} {l : ExecutionLogger} (hpath : path ≠ [])
    (hl : ExecutionLogger.construct path true = .ok l) (h : Complete M mem)
    (allowExceptions : Text) (limit : Nat) (s : σ) (before : List Callback) :
    ∃ execSuccess w text rs,
      stepLoop M allowExceptions limit ⟨s, l.deliver before⟩ = .ok execSuccess w ∧
      w.model = M.next^[stepsRun M allowExceptions limit s] s ∧
      w.logger.destroy = some text ∧ decodeLog text = some rs ∧
      rs.length = stepsRun M allowExceptions limit s ∧
      (∀ k ≤ rs.length,
        replay (archState M mem s) (rs.take k) = archState M mem (M.next^[k] s)) ∧
      ∀ k r r', rs[k]? = some r → rs[k + 1]? = some r' → r.pcAfter = r'.pcBefore := by
  have hopen : (l.deliver before).os = some (openLog []) :=
    (os_deliver l before).trans (construct_open hpath hl).1
  have hreads := readsSucceed_replicate h (stepsRun M allowExceptions limit s) s
  obtain ⟨w, hrun, hmodel, hos⟩ :=
    runEvents_appends _ (w := ⟨s, l.deliver before⟩) hopen hreads
  obtain ⟨execSuccess, hresult⟩ := loopResult_of_complete h allowExceptions limit s
  have hloop : stepLoop M allowExceptions limit ⟨s, l.deliver before⟩ =
      ended w (loopResult M allowExceptions limit s) := stepLoop_eq M allowExceptions limit hrun
  rw [hresult] at hloop
  rw [List.nil_append] at hos
  have hlength := length_records_replicate (M := M) (stepsRun M allowExceptions limit s) s
  refine ⟨execSuccess, w, _, _, hloop, ?_, destroy_eq hos, decodeLog_closed _, hlength, ?_, ?_⟩
  · rw [hmodel, stateAfter_replicate]
  · intro k hk
    exact replay_take_records h (hlength ▸ hk) s
  · intro k r r' hr hr'
    rw [getElem?_records_replicate] at hr hr'
    split at hr' <;> cases hr'
    split at hr <;> cases hr
    rw [Function.iterate_succ_apply']
    rfl

end Complete

/-- The memory of `counterModel`: every count at its own address. -/
def counterMem (n : Nat) (addr : UInt64) : UInt8 := if addr.toNat < n then addr.toUInt8 else 0

theorem complete_counterModel : Complete counterModel counterMem where
  readXReg _ _ := rfl
  readFReg _ _ := rfl
  readCSR _ _ := rfl
  xRegUpdate n reg h := by
    by_cases hreg : reg = 1
    · subst hreg
      exact List.mem_cons_self
    · exact absurd (by simp [counterModel, hreg]) h
  fRegUpdate _ _ h := absurd rfl h
  memUpdate n := by
    have hnext : counterMem (n + 1) =
        Function.update (counterMem n) (UInt64.ofNat n) (UInt64.ofNat n).toUInt8 := by
      ext1 addr
      unfold counterMem
      by_cases haddr : addr = UInt64.ofNat n
      · subst haddr
        have hlt : (UInt64.ofNat n).toNat < n + 1 := by
          rw [UInt64.toNat_ofNat']
          exact Nat.lt_succ_of_le (Nat.mod_le _ _)
        rw [Function.update_self, if_pos hlt]
      · have hne : addr.toNat ≠ n := by
          rintro rfl
          exact haddr (UInt64.ofNat_toNat).symm
        rw [Function.update_of_ne haddr]
        by_cases hlt : addr.toNat < n
        · rw [if_pos hlt, if_pos (by omega)]
        · rw [if_neg hlt, if_neg (by omega)]
    exact hnext

theorem stepLoop_log_replays_counter :
    ∃ execSuccess w text rs,
      stepLoop counterModel [] 5 ⟨0, freshLog.deliver [.memUpdate 0 [1]]⟩ = .ok execSuccess w ∧
      w.model = counterModel.next^[stepsRun counterModel [] 5 0] 0 ∧
      w.logger.destroy = some text ∧ decodeLog text = some rs ∧
      rs.length = stepsRun counterModel [] 5 0 ∧
      (∀ k ≤ rs.length, replay (archState counterModel counterMem 0) (rs.take k) =
        archState counterModel counterMem (counterModel.next^[k] 0)) ∧
      ∀ k r r', rs[k]? = some r → rs[k + 1]? = some r' → r.pcAfter = r'.pcBefore :=
  stepLoop_log_replays (by decide) construct_freshLog complete_counterModel [] 5 0
    [.memUpdate 0 [1]]

end Rvmi.Log
