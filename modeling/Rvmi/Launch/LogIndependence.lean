import Rvmi.Elf.StopLabel
import Rvmi.Foundation.Related
import Rvmi.Launch.Recording

/-!
# The launchers without their log

The execution log is written on the side: as long as the reads made for it succeed, a
launcher does the same to the model whether or not there is a log, and whatever has been
recorded in it. Two runs that only differ in their loggers are related all the way.
-/

namespace Rvmi.Launch

open Rvmi.Foundation Rvmi.Log Rvmi.Elf

variable {σ α : Type}

/-- Everything but the logger is the same. -/
structure SameButLog (w w' : LaunchWorld σ) : Prop where
  model : w'.model = w.model
  cerr : w'.cerr = w.cerr
  files : w'.files = w.files
  opens : w'.opens = w.opens

/-! ## Parts that do not touch the logger -/

theorem related_print (text : Text) :
    Related SameButLog (print text : Launcher σ Unit) (print text) :=
  related_modify fun _ _ h => ⟨h.model, congrArg (· ++ text) h.cerr, h.files, h.opens⟩

theorem related_liftLoad (x : Load σ α) : Related SameButLog (liftLoad x) (liftLoad x) := by
  intro w w' h
  have hworld : (⟨w'.model, w'.cerr⟩ : LoadWorld σ) = ⟨w.model, w.cerr⟩ := by rw [h.model, h.cerr]
  cases hx : x ⟨w.model, w.cerr⟩ with
  | ok a v =>
      rw [liftLoad_of_ok hx, liftLoad_of_ok (hworld ▸ hx)]
      exact .ok a ⟨rfl, rfl, h.files, h.opens⟩
  | error e v =>
      rw [liftLoad_of_error hx, liftLoad_of_error (hworld ▸ hx)]
      exact .error _ ⟨rfl, rfl, h.files, h.opens⟩

theorem related_checkAndThrow (err : RVMErrorCode) :
    Related SameButLog (liftSim (Log.checkAndThrow err) : Launcher σ Unit)
      (liftSim (Log.checkAndThrow err)) := by
  intro w w' h
  unfold Log.checkAndThrow
  by_cases herr : err = .SUCCESS
  · rw [if_neg (not_not_intro herr)]
    exact .ok () ⟨h.model, h.cerr, h.files, h.opens⟩
  · rw [if_pos herr]
    exact .error _ ⟨h.model, h.cerr, h.files, h.opens⟩

theorem related_limitTest (limit : Nat) (message : Text) (i : Nat) (execSuccess : Bool) :
    Related SameButLog (limitTest limit message i execSuccess : Launcher σ Bool)
      (limitTest limit message i execSuccess) :=
  Related.ite (Related.bind (related_print message) fun _ => related_pure false)
    (related_pure execSuccess)

/-! ## Steps -/

variable {M : LauncherModel σ}

/-- The reads that are made for the log around an instruction all succeed. -/
def LogReadable (M : Model σ) : Prop := ∀ s, InstrReadable M s

/-- What is written depends on the logger; what is executed does not. -/
theorem related_retireInstr (hM : LogReadable M.toModel) :
    Related SameButLog (liftSim (retireInstr M.toModel)) (liftSim (retireInstr M.toModel)) := by
  intro w w' h
  obtain ⟨logger, hretire, _⟩ :=
    retireInstr_of_retires (w := ⟨w.model, w.logger⟩) fun _ => hM w.model
  obtain ⟨logger', hretire', _⟩ :=
    retireInstr_of_retires (w := ⟨w'.model, w'.logger⟩) fun _ => hM w'.model
  rw [liftSim_of_ok hretire, liftSim_of_ok hretire']
  have hmodel := h.model
  rw [hmodel]
  exact .ok _ ⟨rfl, h.cerr, h.files, h.opens⟩

theorem related_driverResult (allowExceptions : Text) (result : RVMSimExecStatus) :
    Related SameButLog (driverResult M allowExceptions result)
      (driverResult M allowExceptions result) := by
  cases result with
  | SUCCESS => exact related_pure none
  | FINISH => exact Related.bind (related_print _) fun _ => related_pure (some true)
  | other code => exact Related.bind (related_print _) fun _ => related_pure (some false)
  | EXCEPTION =>
      refine Related.get_bind fun w w' h => ?_
      rw [h.model]
      refine Related.bind (related_checkAndThrow _) (fun _ => ?_) w w' h
      exact Related.ite (related_pure none)
        (Related.bind (related_print _) fun _ => related_pure (some false))

theorem related_driverSteps (hM : LogReadable M.toModel) (allowExceptions : Text) :
    Related SameButLog (driverSteps M allowExceptions) (driverSteps M allowExceptions) := by
  have hloop (remaining i : Nat) : Related SameButLog (driverLoop M allowExceptions remaining i)
      (driverLoop M allowExceptions remaining i) := by
    induction remaining generalizing i with
    | zero => exact related_pure _
    | succ remaining ih =>
        unfold driverLoop
        refine Related.bind (related_retireInstr hM) fun result => ?_
        refine Related.bind (related_driverResult allowExceptions result) fun answer => ?_
        cases answer with
        | none => exact ih (i + 1)
        | some execSuccess => exact related_pure _
  exact Related.bind (hloop _ _) fun _ => related_limitTest _ _ _ _

theorem related_interruptLoop (hM : LogReadable M.toModel) {afterStep : Nat → Launcher σ Unit}
    (hafter : ∀ i, Related SameButLog (afterStep i) (afterStep i)) (remaining i : Nat)
    (execSuccess : Bool) :
    Related SameButLog (interruptLoop M afterStep remaining i execSuccess)
      (interruptLoop M afterStep remaining i execSuccess) := by
  induction remaining generalizing i with
  | zero => exact related_pure _
  | succ remaining ih =>
      unfold interruptLoop
      refine Related.bind (related_retireInstr hM) fun result => ?_
      refine Related.ite (Related.bind (related_print _) fun _ => related_pure _) ?_
      refine Related.ite (Related.bind (related_print _) fun _ => related_pure _) ?_
      exact Related.bind (hafter i) fun _ => ih (i + 1)

theorem related_interruptSteps (hM : LogReadable M.toModel) (options : DriverOptions) :
    Related SameButLog (interruptSteps M options) (interruptSteps M options) := by
  have hclear (i : Nat) : Related SameButLog (clearAfterFirst M options.clearInterrupt i)
      (clearAfterFirst M options.clearInterrupt i) :=
    Related.ite (related_liftLoad _) (related_pure ())
  unfold interruptSteps
  refine Related.bind (related_interruptLoop hM (fun _ => related_pure ()) _ 0 true) fun r => ?_
  refine Related.bind (related_limitTest _ _ _ _) fun execSuccess => ?_
  refine Related.bind (related_liftLoad _) fun _ => ?_
  exact Related.bind (related_interruptLoop hM hclear _ 0 execSuccess) fun _ =>
    related_limitTest _ _ _ _

/-! ## The launchers -/

theorem related_writeState (options : DriverOptions) :
    Related SameButLog (writeState M options) (writeState M options) := by
  refine Related.ite (related_pure ()) (Related.get_bind fun w w' h => ?_)
  rw [h.model]
  cases dumpState M w.model with
  | ok serializedState =>
      refine Related.ite (related_print serializedState) (related_modify fun v v' h => ?_) w w' h
      refine ⟨h.model, h.cerr, ?_, h.opens⟩
      show (if v'.opens options.stateFile then v'.files ++ _ else v'.files) =
        if v.opens options.stateFile then v.files ++ _ else v.files
      rw [h.files, h.opens]
  | error e => exact related_throw e w w' h

theorem related_handle (e : LaunchFailure) : Related SameButLog (handle M e) (handle M e) := by
  refine Related.get_bind fun w w' h => ?_
  rw [h.model]
  cases what M w.model e with
  | some text => exact Related.bind (related_print _) (fun _ => related_pure _) w w' h
  | none => exact related_throw e w w' h

theorem related_launch (load : Text → Option Image) (options : DriverOptions) (iterations : Nat)
    {steps : Launcher σ Bool} (hsteps : Related SameButLog steps steps) :
    Related SameButLog (launch M load options iterations steps)
      (launch M load options iterations steps) := by
  have hmode : Related SameButLog
      (modify fun w => { w with model := M.setStopMode (stopModeOf options) w.model } :
        Launcher σ PUnit)
      (modify fun w => { w with model := M.setStopMode (stopModeOf options) w.model }) :=
    related_modify fun w w' h => ⟨congrArg (M.setStopMode _) h.model, h.cerr, h.files, h.opens⟩
  refine Related.tryCatch ?_ related_handle
  refine Related.bind ?_ fun execSuccess => ?_
  · exact Related.ite (related_pure true)
      (Related.bind (related_liftLoad _) fun _ => Related.bind hmode fun _ => hsteps)
  · exact Related.bind (related_writeState options) fun _ => related_pure _

/-- Neither launcher does anything else to the model, prints or writes anything else, or
ends in another way because of the execution log. -/
theorem launchers_ignore_log (hM : LogReadable M.toModel) (load : Text → Option Image)
    (options : DriverOptions) (iterations : Nat) :
    Related SameButLog (driverMain M load options iterations)
        (driverMain M load options iterations) ∧
      Related SameButLog (interruptMain M load options iterations)
        (interruptMain M load options iterations) :=
  ⟨related_launch load options iterations (related_driverSteps hM options.allowExceptions),
    related_launch load options iterations (related_interruptSteps hM options)⟩

theorem logReadable_scriptModel : LogReadable scriptModel.toModel :=
  fun _ => ⟨rfl, rfl, fun _ _ => rfl, fun _ _ => rfl⟩

/-- A script that is run without a log and with one. -/
theorem launchers_ignore_log_script : RelatedResult SameButLog
    (driverMain scriptModel (elfio labelledImage) { executableFile := "a.out".toList } 2
      { model := [.SUCCESS, .EXCEPTION] })
    (driverMain scriptModel (elfio labelledImage) { executableFile := "a.out".toList } 2
      { model := [.SUCCESS, .EXCEPTION], logger := { os := some [] } }) :=
  (launchers_ignore_log logReadable_scriptModel (elfio labelledImage)
    { executableFile := "a.out".toList } 2).1 _ _ ⟨rfl, rfl, rfl, rfl⟩

end Rvmi.Launch
