import Mathlib.Logic.Function.Iterate
import Rvmi.Log.Run

/-!
# The step loop of the launcher

The loop of `main` retires instructions until one of them ends the run or the
step limit is reached. What an instruction means for the loop is decided by the
model alone, so is the number of steps, and the loop does to the model and to
the log what that many calls of `retireInstr` do.
-/

namespace Rvmi.Log

open Rvmi.Foundation

variable {σ : Type}

def MAX_ALLOWED_STEPS : Nat := 1000000

/-- `--allow-exceptions`: everything, or breakpoints only. -/
def exceptionAllowed (allowExceptions : Text) (mcause : RVMRegT) : Bool :=
  decide (allowExceptions = "all".toList) ||
    (decide (allowExceptions = "ebreak".toList) && decide (mcause = 3))

/-- The branches on the result of a step: `none` continues, `some` breaks with
that value of `ExecSuccess`. -/
def checkResult (M : Model σ) (allowExceptions : Text) :
    RVMSimExecStatus → Sim σ (Option Bool)
  | .SUCCESS => pure none
  | .FINISH => pure (some true)
  | .EXCEPTION => do
      let w ← get
      let (err, mcause) := M.readCSR RVM_CSR_MCAUSE w.model
      checkAndThrow err
      if exceptionAllowed allowExceptions mcause then return none
      return some false
  | .other _ => pure (some false)

/-- The loop with the number of steps it may still take; the result is `ExecSuccess`. -/
def stepLoop (M : Model σ) (allowExceptions : Text) : Nat → Sim σ Bool
  | 0 => pure false
  | remaining + 1 => do
      let result ← retireInstr M
      match ← checkResult M allowExceptions result with
      | none => stepLoop M allowExceptions remaining
      | some execSuccess => return execSuccess

def mainLoop (M : Model σ) (allowExceptions : Text) : Sim σ Bool :=
  stepLoop M allowExceptions MAX_ALLOWED_STEPS

/-! ## The run of the loop -/

/-- What an exception means to the loop, in the state behind the instruction. -/
def exceptionVerdict (M : Model σ) (allowExceptions : Text) (s' : σ) :
    Except RVMErrorCode (Option Bool) :=
  let (err, mcause) := M.readCSR RVM_CSR_MCAUSE s'
  if err ≠ .SUCCESS then .error err
  else if exceptionAllowed allowExceptions mcause then .ok none
  else .ok (some false)

/-- What the loop does behind the instruction executed in `s`. -/
def verdict (M : Model σ) (allowExceptions : Text) (s : σ) : Except RVMErrorCode (Option Bool) :=
  match (M.executeInstr s).status with
  | .SUCCESS => .ok none
  | .FINISH => .ok (some true)
  | .EXCEPTION => exceptionVerdict M allowExceptions (M.next s)
  | .other _ => .ok (some false)

/-- The number of instructions the loop executes. -/
def stepsRun (M : Model σ) (allowExceptions : Text) : Nat → σ → Nat
  | 0, _ => 0
  | remaining + 1, s =>
      match verdict M allowExceptions s with
      | .ok none => stepsRun M allowExceptions remaining (M.next s) + 1
      | _ => 1

def loopResult (M : Model σ) (allowExceptions : Text) : Nat → σ → Except RVMErrorCode Bool
  | 0, _ => .ok false
  | remaining + 1, s =>
      match verdict M allowExceptions s with
      | .ok none => loopResult M allowExceptions remaining (M.next s)
      | .ok (some execSuccess) => .ok execSuccess
      | .error err => .error err

/-- The loop ends with this result in this world. -/
def ended (w : World σ) : Except RVMErrorCode Bool → EStateM.Result RVMErrorCode (World σ) Bool
  | .ok execSuccess => .ok execSuccess w
  | .error err => .error err w

/-- The branches only read the model. -/
theorem checkResult_eq (M : Model σ) (allowExceptions : Text) {s : σ} {w : World σ}
    (hw : w.model = M.next s) :
    checkResult M allowExceptions (M.executeInstr s).status w =
      match verdict M allowExceptions s with
      | .ok answer => .ok answer w
      | .error err => .error err w := by
  unfold verdict
  cases hstatus : (M.executeInstr s).status with
  | SUCCESS => rfl
  | FINISH => rfl
  | other code => rfl
  | EXCEPTION =>
      show (checkAndThrow (M.readCSR RVM_CSR_MCAUSE w.model).1 >>= _) w =
        match exceptionVerdict M allowExceptions (M.next s) with
        | .ok answer => .ok answer w
        | .error err => .error err w
      rw [← hw]
      by_cases herr : (M.readCSR RVM_CSR_MCAUSE w.model).1 = .SUCCESS
      · have hok : exceptionVerdict M allowExceptions w.model =
            if exceptionAllowed allowExceptions (M.readCSR RVM_CSR_MCAUSE w.model).2 then .ok none
            else .ok (some false) := if_neg (not_not_intro herr)
        rw [checkAndThrow_success herr, hok]
        show (if exceptionAllowed allowExceptions (M.readCSR RVM_CSR_MCAUSE w.model).2 then
          pure none else pure (some false) : Sim σ (Option Bool)) w = _
        cases exceptionAllowed allowExceptions (M.readCSR RVM_CSR_MCAUSE w.model).2 <;> rfl
      · have herror : exceptionVerdict M allowExceptions w.model =
            .error (M.readCSR RVM_CSR_MCAUSE w.model).1 := if_pos herr
        rw [checkAndThrow_error herr, herror]
        rfl

theorem stepLoop_continue {M : Model σ} {allowExceptions : Text} {w w₁ : World σ}
    {status : RVMSimExecStatus} (hretire : retireInstr M w = .ok status w₁)
    (hcheck : checkResult M allowExceptions status w₁ = .ok none w₁) (remaining : Nat) :
    stepLoop M allowExceptions (remaining + 1) w = stepLoop M allowExceptions remaining w₁ := by
  show (retireInstr M >>= _) w = _
  rw [bind_ok hretire]
  exact bind_ok hcheck

/-- The loop does what that many calls of `retireInstr` do. -/
theorem stepLoop_eq (M : Model σ) (allowExceptions : Text) (limit : Nat) {w w' : World σ}
    (h : runEvents M (List.replicate (stepsRun M allowExceptions limit w.model) .retireInstr) w =
      .ok () w') :
    stepLoop M allowExceptions limit w = ended w' (loopResult M allowExceptions limit w.model) := by
  induction limit generalizing w with
  | zero =>
      cases h
      rfl
  | succ limit ih =>
      have hcount : ∃ n, stepsRun M allowExceptions (limit + 1) w.model = n + 1 := by
        unfold stepsRun
        split
        · exact ⟨_, rfl⟩
        · exact ⟨0, rfl⟩
      rcases hcount with ⟨n, hn⟩
      rw [hn, List.replicate_succ] at h
      obtain ⟨status, w₁, hretire, hrest⟩ := runEvents_retire_inv h
      obtain ⟨rfl, hmodel⟩ := model_of_retireInstr hretire
      have hcheck := checkResult_eq M allowExceptions hmodel
      unfold stepsRun at hn
      unfold loopResult
      cases hverdict : verdict M allowExceptions w.model with
      | error err =>
          simp only [hverdict] at hcheck hn ⊢
          obtain rfl : n = 0 := by omega
          cases hrest
          exact (bind_ok hretire).trans (bind_error hcheck)
      | ok answer =>
          cases answer with
          | some execSuccess =>
              simp only [hverdict] at hcheck hn ⊢
              obtain rfl : n = 0 := by omega
              cases hrest
              exact (bind_ok hretire).trans (bind_ok hcheck)
          | none =>
              simp only [hverdict] at hcheck hn ⊢
              obtain rfl : n = stepsRun M allowExceptions limit (M.next w.model) := by omega
              rw [← hmodel] at hrest
              rw [stepLoop_continue hretire hcheck, ← hmodel]
              exact ih hrest

/-- An iteration of the loop starts in the world that the calls of `retireInstr`
before it have left. -/
theorem stepLoop_iteration (M : Model σ) (allowExceptions : Text) (k remaining : Nat)
    {w w' : World σ} (hcontinue : ∀ j < k, verdict M allowExceptions (M.next^[j] w.model) = .ok none)
    (h : runEvents M (List.replicate k .retireInstr) w = .ok () w') :
    stepLoop M allowExceptions (k + remaining) w = stepLoop M allowExceptions remaining w' := by
  induction k generalizing w with
  | zero =>
      cases h
      rw [Nat.zero_add]
  | succ k ih =>
      rw [List.replicate_succ] at h
      obtain ⟨status, w₁, hretire, hrest⟩ := runEvents_retire_inv h
      obtain ⟨rfl, hmodel⟩ := model_of_retireInstr hretire
      have hcheck := checkResult_eq M allowExceptions hmodel
      have hfirst : verdict M allowExceptions w.model = .ok none := hcontinue 0 (Nat.succ_pos k)
      rw [hfirst] at hcheck
      rw [Nat.succ_add]
      rw [stepLoop_continue hretire hcheck]
      refine ih (fun j hj => ?_) hrest
      rw [hmodel]
      exact hcontinue (j + 1) (Nat.succ_lt_succ hj)

end Rvmi.Log
