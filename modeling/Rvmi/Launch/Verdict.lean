import Rvmi.Foundation.Along
import Rvmi.Foundation.Steps
import Rvmi.Launch.Recording

/-!
# The verdict of the launcher

The step loop of `Driver.cpp` ends with `ExecSuccess` exactly when the run finishes
within the limit and every step before the finish may be passed over. The counter
that is compared with the limit behind the loop tells the two ways out of it apart.
-/

namespace Rvmi.Launch

open Rvmi.Foundation Rvmi.Log Rvmi.Elf

variable {σ : Type}

/-! ## The loop with its messages and the loop without -/

def simWorld (w : LaunchWorld σ) : World σ := ⟨w.model, w.logger⟩

def simFailure (e : RVMErrorCode) : LaunchFailure := .failure (.modelError e)

theorem along_liftSim {α : Type} (x : Sim σ α) : Along simWorld simFailure (liftSim x) x := by
  intro w
  cases hx : x (simWorld w) with
  | ok a v =>
      rw [liftSim_of_ok hx]
      exact .ok a _
  | error e v =>
      rw [liftSim_of_error hx]
      exact .error e _

theorem along_print (text : Text) :
    Along simWorld simFailure (print text) (pure () : Sim σ Unit) := fun _ => .ok () _

variable (M : LauncherModel σ) (allowExceptions : Text)

theorem along_driverResult (result : RVMSimExecStatus) :
    Along simWorld simFailure (driverResult M allowExceptions result)
      (checkResult M.toModel allowExceptions result) := by
  cases result with
  | SUCCESS => exact along_pure none
  | FINISH => exact Along.bind (along_print _) fun _ => along_pure (some true)
  | other code => exact Along.bind (along_print _) fun _ => along_pure (some false)
  | EXCEPTION =>
      refine Along.get_bind fun w => Along.bind (along_liftSim _) fun _ => ?_
      exact Along.ite (along_pure none)
        (Along.bind (along_print _) fun _ => along_pure (some false))

/-- The test behind the loop only changes the result of a loop that ran out of steps. -/
theorem along_limitTest (limit : Nat) (message : Text) (execSuccess : Bool) {i : Nat} (h : i < limit) :
    Along simWorld simFailure (limitTest limit message i execSuccess)
      (pure execSuccess : Sim σ Bool) := by
  unfold limitTest
  rw [if_neg (Nat.ne_of_lt h)]
  exact along_pure execSuccess

theorem along_driverLoop (message : Text) {limit remaining i : Nat} (h : i + remaining = limit) :
    Along simWorld simFailure
      (driverLoop M allowExceptions remaining i >>= fun r => limitTest limit message r.1 r.2)
      (stepLoop M.toModel allowExceptions remaining) := by
  induction remaining generalizing i with
  | zero =>
      obtain rfl : i = limit := h
      show Along _ _ (limitTest i message i true) (pure false)
      unfold limitTest
      rw [if_pos rfl]
      exact Along.bind (along_print message) fun _ => along_pure false
  | succ remaining ih =>
      unfold driverLoop stepLoop
      rw [bind_assoc]
      refine Along.bind (along_liftSim _) fun result => ?_
      rw [bind_assoc]
      refine Along.bind (along_driverResult M allowExceptions result) fun answer => ?_
      cases answer with
      | none => exact ih (by omega)
      | some execSuccess =>
          exact along_limitTest limit message execSuccess (by omega)

theorem along_driverSteps :
    Along simWorld simFailure (driverSteps M allowExceptions)
      (mainLoop M.toModel allowExceptions) :=
  along_driverLoop M allowExceptions _ (Nat.zero_add MAX_ALLOWED_STEPS)

/-! ## Steps that are passed over -/

/-- Every read that the step loop makes succeeds. -/
structure AlwaysReadable (M : Model σ) : Prop where
  fcsr : ∀ s, M.FCSRReadable s
  xReg : ∀ reg s, (M.readXReg reg s).1 = .SUCCESS
  fReg : ∀ reg s, (M.readFReg reg s).1 = .SUCCESS
  mcause : ∀ s, (M.readCSR RVM_CSR_MCAUSE s).1 = .SUCCESS

/-- The instruction succeeds or raises an exception that is allowed. -/
def Continues (M : Model σ) (allowExceptions : Text) (s : σ) : Prop :=
  (M.executeInstr s).status = .SUCCESS ∨
    (M.executeInstr s).status = .EXCEPTION ∧
      (allowExceptions = "all".toList ∨
        allowExceptions = "ebreak".toList ∧ (M.readCSR RVM_CSR_MCAUSE (M.next s)).2 = 3)

theorem Finishes.not_continues {M : Model σ} {allowExceptions : Text} {s : σ} (h : Finishes M s) :
    ¬ Continues M allowExceptions s := by
  rintro (hsuccess | ⟨hexception, _⟩)
  · cases h.symm.trans hsuccess
  · cases h.symm.trans hexception

theorem exceptionAllowed_iff {allowExceptions : Text} {mcause : RVMRegT} :
    exceptionAllowed allowExceptions mcause = true ↔
      allowExceptions = "all".toList ∨ allowExceptions = "ebreak".toList ∧ mcause = 3 := by
  unfold exceptionAllowed
  rw [Bool.or_eq_true, Bool.and_eq_true, decide_eq_true_eq, decide_eq_true_eq, decide_eq_true_eq]

theorem exceptionVerdict_eq {M : Model σ} (hM : AlwaysReadable M) (allowExceptions : Text) (s : σ) :
    exceptionVerdict M allowExceptions s =
      if exceptionAllowed allowExceptions (M.readCSR RVM_CSR_MCAUSE s).2 then .ok none
      else .ok (some false) :=
  if_neg (not_not_intro (hM.mcause s))

theorem verdict_of_continues {M : Model σ} (hM : AlwaysReadable M) {allowExceptions : Text} {s : σ}
    (h : Continues M allowExceptions s) : verdict M allowExceptions s = .ok none := by
  unfold verdict
  rcases h with hsuccess | ⟨hexception, hallowed⟩
  · rw [hsuccess]
  · rw [hexception]
    show exceptionVerdict M allowExceptions (M.next s) = _
    rw [exceptionVerdict_eq hM, if_pos (exceptionAllowed_iff.mpr hallowed)]

/-- A step that is not passed over ends the loop; only a finish ends it well. -/
theorem verdict_of_not_continues {M : Model σ} (hM : AlwaysReadable M) {allowExceptions : Text}
    {s : σ} (h : ¬ Continues M allowExceptions s) :
    ∃ execSuccess, verdict M allowExceptions s = .ok (some execSuccess) ∧
      (execSuccess = true ↔ Finishes M s) := by
  unfold verdict Finishes
  cases hstatus : (M.executeInstr s).status with
  | SUCCESS => exact absurd (.inl hstatus) h
  | FINISH => exact ⟨true, rfl, fun _ => rfl, fun _ => rfl⟩
  | EXCEPTION =>
      have hnot : ¬ exceptionAllowed allowExceptions (M.readCSR RVM_CSR_MCAUSE (M.next s)).2 :=
        fun hallowed => h (.inr ⟨hstatus, exceptionAllowed_iff.mp hallowed⟩)
      refine ⟨false, ?_, Bool.noConfusion, RVMSimExecStatus.noConfusion⟩
      show exceptionVerdict M allowExceptions (M.next s) = _
      rw [exceptionVerdict_eq hM, if_neg hnot]
  | other code => exact ⟨false, rfl, Bool.noConfusion, RVMSimExecStatus.noConfusion⟩

theorem AlwaysReadable.retires {M : Model σ} (hM : AlwaysReadable M) (isOpen : Bool) (s : σ) :
    Retires M isOpen s :=
  fun _ => ⟨hM.fcsr s, hM.fcsr (M.next s), fun reg _ => hM.xReg reg (M.next s),
    fun reg _ => hM.fReg reg (M.next s)⟩

/-! ## The verdict of the loop -/

/-- The number of steps is one more than the number of steps passed over, unless the
limit is reached. -/
theorem stepLoop_verdict {M : Model σ} (hM : AlwaysReadable M) (allowExceptions : Text)
    (limit : Nat) (w : World σ) :
    ∃ execSuccess w' n, stepLoop M allowExceptions limit w = .ok execSuccess w' ∧
      (execSuccess = true ↔
        Reaches M.next (Continues M allowExceptions) (Finishes M) limit w.model) ∧
      n ≤ limit ∧ w'.model = M.next^[n] w.model ∧
      ∀ k, k + 1 < n → Continues M allowExceptions (M.next^[k] w.model) := by
  induction limit generalizing w with
  | zero =>
      refine ⟨false, w, 0, rfl, ?_, Nat.le_refl 0, rfl, ?_⟩
      · constructor
        · exact Bool.noConfusion
        · intro h
          exact absurd h not_reaches_zero
      · intro k hk
        exact absurd hk (Nat.not_lt_zero _)
  | succ limit ih =>
      obtain ⟨logger, hretire, _⟩ := retireInstr_of_retires (hM.retires w.logger.os.isSome w.model)
      have hcheck := checkResult_eq M allowExceptions
        (w := ⟨M.next w.model, logger⟩) (s := w.model) rfl
      rw [reaches_succ_iff]
      by_cases hcontinues : Continues M allowExceptions w.model
      · rw [verdict_of_continues hM hcontinues] at hcheck
        obtain ⟨execSuccess, w', n, hloop, hiff, hn, hmodel, hbefore⟩ := ih ⟨M.next w.model, logger⟩
        have hnot : ¬ Finishes M w.model := fun h => h.not_continues hcontinues
        refine ⟨execSuccess, w', n + 1, ?_, ?_, Nat.succ_le_succ hn, hmodel, fun k hk => ?_⟩
        · rw [stepLoop_continue hretire hcheck]
          exact hloop
        · rw [hiff]
          constructor
          · intro h
            exact .inr ⟨hcontinues, h⟩
          · rintro (h | ⟨_, h⟩)
            · exact absurd h hnot
            · exact h
        · cases k with
          | zero => exact hcontinues
          | succ k => exact hbefore k (Nat.lt_of_succ_lt_succ hk)
      · obtain ⟨execSuccess, hverdict, hiff⟩ := verdict_of_not_continues hM hcontinues
        rw [hverdict] at hcheck
        refine ⟨execSuccess, ⟨M.next w.model, logger⟩, 1, ?_, ?_, Nat.succ_pos limit, rfl, ?_⟩
        · exact (bind_ok hretire).trans (bind_ok hcheck)
        · rw [hiff]
          constructor
          · intro h
            exact .inl h
          · rintro (h | ⟨h, _⟩)
            · exact h
            · exact absurd h hcontinues
        · intro k hk
          exact absurd (Nat.lt_of_succ_lt_succ hk) (Nat.not_lt_zero k)

theorem alwaysReadable_recording {M : LauncherModel σ} (hM : AlwaysReadable M.toModel) :
    AlwaysReadable (recording M).toModel where
  fcsr s := hM.fcsr s.1
  xReg reg s := hM.xReg reg s.1
  fReg reg s := hM.fReg reg s.1
  mcause s := hM.mcause s.1

/-- A property of the model holds in the states that the recording model goes through. -/
theorem reaches_recording_iff {M : LauncherModel σ} {q p : σ → Prop} {limit : Nat} {s : σ}
    {calls : List Call} :
    Reaches (recording M).next (fun s => q s.1) (fun s => p s.1) limit (s, calls) ↔
      Reaches M.next q p limit s := by
  unfold Reaches
  simp only [iterate_next_recording]

/-- `ExecSuccess` is set exactly when the run finishes within the limit behind steps that
succeed or raise an allowed exception; at most that many instructions are executed, and
none behind one that ends the run. -/
theorem driverSteps_verdict {M : LauncherModel σ} (hM : AlwaysReadable M.toModel)
    (allowExceptions : Text) (w : LaunchWorld σ) :
    ∃ execSuccess w', driverSteps (recording M) allowExceptions w.recorded =
        .ok execSuccess w' ∧
      (execSuccess = true ↔ ∃ k < MAX_ALLOWED_STEPS, Finishes M.toModel (M.next^[k] w.model) ∧
        ∀ j < k, Continues M.toModel allowExceptions (M.next^[j] w.model)) ∧
      ∃ n ≤ MAX_ALLOWED_STEPS, w'.calls = instrCalls M w.model n ∧
        ∀ k, k + 1 < n → Continues M.toModel allowExceptions (M.next^[k] w.model) := by
  obtain ⟨execSuccess, v, n, hloop, hiff, hn, hmodel, hbefore⟩ :=
    stepLoop_verdict (alwaysReadable_recording hM) allowExceptions MAX_ALLOWED_STEPS
      (simWorld w.recorded)
  obtain ⟨w', hrun, rfl⟩ := (along_driverSteps (recording M) allowExceptions).of_ok hloop
  have hreaches : Reaches (recording M).next (Continues (recording M).toModel allowExceptions)
      (Finishes (recording M).toModel) MAX_ALLOWED_STEPS (w.model, []) ↔
      Reaches M.next (Continues M.toModel allowExceptions) (Finishes M.toModel)
        MAX_ALLOWED_STEPS w.model :=
    reaches_recording_iff (q := Continues M.toModel allowExceptions) (p := Finishes M.toModel)
  refine ⟨execSuccess, w', hrun, hiff.trans hreaches, n, hn, ?_, fun k hk => ?_⟩
  · have hstate : w'.model = (recording M).next^[n] (w.model, []) := hmodel
    unfold LaunchWorld.calls
    rw [hstate, iterate_next_recording]
    rfl
  · have hcontinues : Continues (recording M).toModel allowExceptions
        ((recording M).next^[k] (w.model, [])) := hbefore k hk
    rw [iterate_next_recording] at hcontinues
    exact hcontinues

theorem alwaysReadable_scriptModel : AlwaysReadable scriptModel.toModel where
  fcsr _ := rfl
  xReg _ _ := rfl
  fReg _ _ := rfl
  mcause _ := rfl

theorem driverSteps_verdict_scriptModel : ∃ w',
    driverSteps (recording scriptModel) "none".toList
      (LaunchWorld.recorded { model := [.SUCCESS, .FINISH] }) = .ok true w' := by
  obtain ⟨execSuccess, w', hrun, hiff, _⟩ :=
    driverSteps_verdict alwaysReadable_scriptModel "none".toList { model := [.SUCCESS, .FINISH] }
  have hfinish : execSuccess = true := by
    refine hiff.mpr ⟨1, by decide, rfl, fun j hj => ?_⟩
    obtain rfl : j = 0 := by omega
    exact .inl rfl
  rw [hfinish] at hrun
  exact ⟨w', hrun⟩

end Rvmi.Launch
