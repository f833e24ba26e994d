import Rvmi.Elf.Segments
import Rvmi.Launch.Phases
import Rvmi.Launch.Verdict
import Rvmi.Log.Replay

/-!
# The log and the state file

A run of the launcher leaves two accounts of what the simulator did: the log tells every
instruction, and the state file the registers at the end. For a simulator whose callbacks
are complete, they tell the same.
-/

namespace Rvmi.Launch

open Rvmi.Foundation Rvmi.Log Rvmi.Elf

variable {σ : Type}

/-! ## The files stay as they are until the state is written -/

def fileSystem (w : LaunchWorld σ) : List (Text × Text) × (Text → Bool) := (w.files, w.opens)

theorem files_liftSim {α : Type} (x : Sim σ α) : Moves (Same fileSystem) (liftSim x) := by
  intro w
  cases hx : x ⟨w.model, w.logger⟩ with
  | ok a v =>
      rw [liftSim_of_ok hx]
      rfl
  | error e v =>
      rw [liftSim_of_error hx]
      rfl

theorem files_print (text : Text) :
    Moves (Same fileSystem) (print text : Launcher σ Unit) := fun _ => rfl

theorem files_limitTest (limit : Nat) (message : Text) (i : Nat) (execSuccess : Bool) :
    Moves (Same fileSystem) (limitTest limit message i execSuccess : Launcher σ Bool) :=
  Moves.ite (Moves.bind (files_print message) fun _ => moves_pure false) (moves_pure execSuccess)

theorem files_driverResult (M : LauncherModel σ) (allowExceptions : Text)
    (result : RVMSimExecStatus) :
    Moves (Same fileSystem) (driverResult M allowExceptions result) := by
  cases result with
  | SUCCESS => exact moves_pure none
  | FINISH => exact Moves.bind (files_print _) fun _ => moves_pure (some true)
  | other code => exact Moves.bind (files_print _) fun _ => moves_pure (some false)
  | EXCEPTION =>
      refine Moves.get_bind fun w => Moves.bind (files_liftSim _) fun _ => ?_
      exact Moves.ite (moves_pure none)
        (Moves.bind (files_print _) fun _ => moves_pure (some false))

theorem files_driverLoop (M : LauncherModel σ) (allowExceptions : Text) (remaining i : Nat) :
    Moves (Same fileSystem) (driverLoop M allowExceptions remaining i) := by
  induction remaining generalizing i with
  | zero => exact moves_pure (i, true)
  | succ remaining ih =>
      unfold driverLoop
      refine Moves.bind (files_liftSim _) fun result => ?_
      refine Moves.bind (files_driverResult M allowExceptions result) fun answer => ?_
      cases answer with
      | none => exact ih (i + 1)
      | some execSuccess => exact moves_pure (i, execSuccess)

theorem files_driverSteps (M : LauncherModel σ) (allowExceptions : Text) :
    Moves (Same fileSystem) (driverSteps M allowExceptions) :=
  Moves.bind (files_driverLoop M allowExceptions _ 0) fun r => files_limitTest _ _ r.1 r.2

/-! ## A run that logs and dumps -/

/-- The text is the last that the run put on `std::cerr`, or it is in the file, the only one
that the run wrote. A file that cannot be opened is not written. -/
def Written (options : DriverOptions) (state : Text) (w w' : LaunchWorld σ) : Prop :=
  if options.stateFile = "-".toList then
    w'.files = w.files ∧ ∃ messages, w'.cerr = messages ++ state
  else w'.files = if w.opens options.stateFile then w.files ++ [(options.stateFile, state)]
    else w.files

section Run

variable {M : LauncherModel σ} {mem : σ → UInt64 → UInt8} {load : Text → Option Image}
  {options : DriverOptions} {iterations : Nat} {w : LaunchWorld σ} {s : σ}

/-- The loop goes through, and its records lead to the state it leaves. -/
theorem driverSteps_log (hM : Complete M.toModel mem) (allowExceptions : Text)
    (hopen : w.logger.os = some (openLog [])) :
    ∃ execSuccess w' rs, driverSteps M allowExceptions w = .ok execSuccess w' ∧
      w'.logger.os = some (openLog rs) ∧
      replay (archState M.toModel mem w.model) rs = archState M.toModel mem w'.model := by
  let n := stepsRun M.toModel allowExceptions MAX_ALLOWED_STEPS w.model
  let rs := records M.toModel w.model (List.replicate n .retireInstr)
  obtain ⟨v, hrun, hmodel, hos⟩ := runEvents_appends (w := simWorld w) _ hopen
    (readsSucceed_replicate hM n w.model)
  obtain ⟨execSuccess, hresult⟩ :=
    loopResult_of_complete hM allowExceptions MAX_ALLOWED_STEPS w.model
  have hloop : mainLoop M.toModel allowExceptions (simWorld w) = ended v
      (loopResult M.toModel allowExceptions MAX_ALLOWED_STEPS w.model) :=
    stepLoop_eq M.toModel allowExceptions MAX_ALLOWED_STEPS hrun
  rw [hresult] at hloop
  obtain ⟨w', hsteps, rfl⟩ := (along_driverSteps M allowExceptions).of_ok hloop
  refine ⟨execSuccess, w', rs, hsteps, hos, ?_⟩
  have hstate : w'.model = M.next^[n] w.model := hmodel.trans (stateAfter_replicate n w.model)
  have hlength : rs.length = n := length_records_replicate n w.model
  have hreplay := replay_take_records hM (Nat.le_refl n) w.model
  rw [List.take_of_length_le (Nat.le_of_eq hlength)] at hreplay
  rw [hstate]
  exact hreplay

theorem putState_written (options : DriverOptions) (state : Text) (w : LaunchWorld σ) :
    ∃ w', putState options state w = .ok () w' ∧ w'.model = w.model ∧ w'.logger = w.logger ∧
      Written options state w w' := by
  unfold putState Written
  by_cases hcerr : options.stateFile = "-".toList
  · rw [if_pos hcerr]
    refine ⟨_, rfl, rfl, rfl, ?_⟩
    rw [if_pos hcerr]
    exact ⟨rfl, w.cerr, rfl⟩
  · rw [if_neg hcerr]
    refine ⟨_, rfl, rfl, rfl, ?_⟩
    rw [if_neg hcerr]

/-- The part on the executable goes through. -/
theorem runExecutable_log (hM : Complete M.toModel mem)
    (hopen : w.logger.os = some (openLog [])) (hfile : options.executableFile ≠ [])
    (hloaded : Loaded M load options iterations w s) :
    ∃ execSuccess w' rs,
      runExecutable M load options iterations (driverSteps M options.allowExceptions) w =
        .ok execSuccess w' ∧
      fileSystem w' = fileSystem w ∧ w'.logger.os = some (openLog rs) ∧
      replay (archState M.toModel mem s) rs = archState M.toModel mem w'.model := by
  obtain ⟨v, hparse, rfl⟩ := hloaded
  have hload := liftLoad_eq_ok_iff (w := w).mpr ⟨v, hparse, rfl⟩
  obtain ⟨execSuccess, w', rs, hsteps, hos, hreplay⟩ := driverSteps_log
    (w := { w with model := M.setStopMode (stopModeOf options) v.model, cerr := v.cerr })
    hM options.allowExceptions hopen
  have hfiles := (files_driverSteps M options.allowExceptions).ok hsteps
  refine ⟨execSuccess, w', rs, ?_, hfiles, hos, hreplay⟩
  unfold runExecutable
  rw [if_neg fun h => hfile (List.isEmpty_iff.mp h), bind_ok hload]
  exact hsteps

/-- The log is decoded to records that lead from the loaded state to the registers that
the state file tells. -/
theorem driverMain_outputs_agree (vlenb : UInt64) (hM : Complete M.toModel mem)
    (hreads : ∀ s, ∃ a : DumpedState vlenb.toNat, Reads M s vlenb a)
    (hopen : w.logger.os = some (openLog [])) (hfile : options.executableFile ≠ [])
    (hstate : options.stateFile ≠ []) (hloaded : Loaded M load options iterations w s) :
    ∃ status w' log rs, ∃ a : DumpedState vlenb.toNat,
      driverMain M load options iterations w = .ok status w' ∧
      w'.logger.destroy = some log ∧ decodeLog log = some rs ∧
      Written options a.lines.flatten w w' ∧
      replay (archState M.toModel mem s) rs = archState M.toModel mem w'.model ∧
      (replay (archState M.toModel mem s) rs).x = a.x ∧
      (replay (archState M.toModel mem s) rs).f = a.f := by
  obtain ⟨execSuccess, w₁, rs, hrun, hfiles, hos, hreplay⟩ :=
    runExecutable_log hM hopen hfile hloaded
  obtain ⟨a, ha⟩ := hreads w₁.model
  obtain ⟨w', hput, hmodel, hlogger, hwritten⟩ := putState_written options a.lines.flatten w₁
  have hwrite : writeState M options w₁ = .ok () w' :=
    (writeState_of_ok hstate (dumpState_eq ha)).trans hput
  have hbody : launchBody M load options iterations (driverSteps M options.allowExceptions) w =
      .ok (if execSuccess then .SUCCESS else .FAILURE) w' := by
    unfold launchBody
    rw [bind_ok hrun, bind_ok hwrite]
    rfl
  refine ⟨_, w', _, rs, a, tryCatch_ok hbody, destroy_eq (hlogger ▸ hos), decodeLog_closed rs,
    ?_, ?_, ?_, ?_⟩
  · obtain ⟨hfiles, hopens⟩ := Prod.mk.inj hfiles
    unfold Written at hwritten ⊢
    rw [hfiles, hopens] at hwritten
    exact hwritten
  · rw [hmodel]
    exact hreplay
  · rw [hreplay]
    funext reg
    exact congrArg Prod.snd (ha.xReg reg)
  · rw [hreplay]
    funext reg
    exact congrArg Prod.snd (ha.fReg reg)

end Run

/-- The model that counts its instructions, as a simulator without vector registers. -/
def counterSimulator : LauncherModel Nat where
  toModel := counterModel
  rv64 _ := true
  setPC _ n := (.SUCCESS, n)
  writeMem _ _ n := (.SUCCESS, n)
  setStopPC _ n := (.SUCCESS, n)
  setStopMode _ n := n
  raiseInterrupt _ n := (.SUCCESS, n)
  clearInterrupt _ n := (.SUCCESS, n)
  readVReg _ _ _ _ := (.SUCCESS, [], 0)
  strerror _ := []
  getErrorContext _ := []

/-- What is dumped behind `n` instructions. -/
def counterDump (n : Nat) : DumpedState 0 where
  x reg := (counterModel.readXReg reg n).2
  f _ := 0
  v _ := ⟨[], List.length_nil⟩
  misa := 0
  mstatus := 0
  mcause := 0
  mtvec := 0

theorem reads_counterSimulator (n : Nat) : Reads counterSimulator n 0 (counterDump n) where
  xReg _ := rfl
  fReg _ := rfl
  vRegSize _ _ := ⟨[], rfl⟩
  vReg _ _ _ := rfl
  misa := rfl
  mstatus := rfl
  mcause := rfl
  mtvec := rfl

theorem driverMain_outputs_agree_counter :
    ∃ status w' log rs, ∃ a : DumpedState 0,
      driverMain counterSimulator (elfio bssImage) { executableFile := "a.out".toList } 1
        { model := 0, logger := freshLog } = .ok status w' ∧
      w'.logger.destroy = some log ∧ decodeLog log = some rs ∧
      Written { executableFile := "a.out".toList } a.lines.flatten
        { model := 0, logger := freshLog } w' ∧
      replay (archState counterModel counterMem 0) rs =
        archState counterModel counterMem w'.model ∧
      (replay (archState counterModel counterMem 0) rs).x = a.x ∧
      (replay (archState counterModel counterMem 0) rs).f = a.f := by
  have hloaded : Loaded counterSimulator (elfio bssImage) { executableFile := "a.out".toList } 1
      { model := 0, logger := freshLog } 0 := ⟨_, rfl, rfl⟩
  exact driverMain_outputs_agree 0 complete_counterModel
    (fun n => ⟨counterDump n, reads_counterSimulator n⟩) rfl (List.cons_ne_nil _ _)
    (List.cons_ne_nil _ _) hloaded

end Rvmi.Launch
