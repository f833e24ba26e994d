import Rvmi.Launch.DumpState
import Rvmi.Log.Driver

/-!
# The two launchers

`main` of `Driver.cpp` and of `InterruptDriver.cpp`, from where the model has been
built. Both load the executable, run it, write the state and turn `ExecSuccess` into
the exit status; they differ in how they run it.
-/

namespace Rvmi.Launch

open Rvmi.Foundation Rvmi.Log Rvmi.Elf

/-- The options that are read once the model has been built. -/
structure DriverOptions where
  executableFile : Text := []
  stopMode : Text := []
  stateFile : Text := "-".toList
  allowExceptions : Text := "none".toList
  numStepsBeforeInt : UInt64 := 9
  clearInterrupt : Bool := false

/-- The model, the logger, the text on `std::cerr`, what was put into files and which
files can be opened. -/
structure LaunchWorld (σ : Type) where
  model : σ
  logger : ExecutionLogger := {}
  cerr : Text := []
  files : List (Text × Text) := []
  opens : Text → Bool := fun _ => true

abbrev Launcher (σ : Type) := EStateM LaunchFailure (LaunchWorld σ)

inductive ExitStatus where
  | SUCCESS
  | FAILURE
deriving DecidableEq, Repr

variable {σ α : Type}

def liftLoad (x : Load σ α) : Launcher σ α := fun w =>
  match x ⟨w.model, w.cerr⟩ with
  | .ok a v => .ok a { w with model := v.model, cerr := v.cerr }
  | .error e v => .error (.failure e) { w with model := v.model, cerr := v.cerr }

def liftSim (x : Sim σ α) : Launcher σ α := fun w =>
  match x ⟨w.model, w.logger⟩ with
  | .ok a v => .ok a { w with model := v.model, logger := v.logger }
  | .error e v => .error (.failure (.modelError e)) { w with model := v.model, logger := v.logger }

section Lift

variable {w : LaunchWorld σ} {a : α}

theorem liftLoad_of_ok {x : Load σ α} {v : LoadWorld σ} (h : x ⟨w.model, w.cerr⟩ = .ok a v) :
    liftLoad x w = .ok a { w with model := v.model, cerr := v.cerr } := by
  unfold liftLoad
  rw [h]

theorem liftLoad_of_error {x : Load σ α} {e : LoadFailure} {v : LoadWorld σ}
    (h : x ⟨w.model, w.cerr⟩ = .error e v) :
    liftLoad x w = .error (.failure e) { w with model := v.model, cerr := v.cerr } := by
  unfold liftLoad
  rw [h]

theorem liftSim_of_ok {x : Sim σ α} {v : World σ} (h : x ⟨w.model, w.logger⟩ = .ok a v) :
    liftSim x w = .ok a { w with model := v.model, logger := v.logger } := by
  unfold liftSim
  rw [h]

theorem liftSim_of_error {x : Sim σ α} {e : RVMErrorCode} {v : World σ}
    (h : x ⟨w.model, w.logger⟩ = .error e v) :
    liftSim x w =
      .error (.failure (.modelError e)) { w with model := v.model, logger := v.logger } := by
  unfold liftSim
  rw [h]

end Lift

/-- `std::cerr << text` -/
def print (text : Text) : Launcher σ Unit := modify fun w => { w with cerr := w.cerr ++ text }

/-- The test behind a loop. -/
def limitTest (limit : Nat) (message : Text) (i : Nat) (execSuccess : Bool) : Launcher σ Bool :=
  if i = limit then do
    print message
    return false
  else pure execSuccess

variable (M : LauncherModel σ)

/-! ## `Driver.cpp` -/

/-- The branches on the result of a step: `none` continues, `some` breaks with that
value of `ExecSuccess`. -/
def driverResult (allowExceptions : Text) : RVMSimExecStatus → Launcher σ (Option Bool)
  | .SUCCESS => pure none
  | .FINISH => do
      print "proper simulation end\n".toList
      return some true
  | .EXCEPTION => do
      let w ← get
      let (err, mcause) := M.readCSR RVM_CSR_MCAUSE w.model
      liftSim (Log.checkAndThrow err)
      if exceptionAllowed allowExceptions mcause then pure none
      else do
        print ("step failure (unexpected exception ".toList ++ decDigits mcause.toNat ++
          "), terminating\n".toList)
        return some false
  | .other _ => do
      print "unexpected step result\n".toList
      return some false

/-- The loop, with the number of steps it may still take and its counter; the result
is the counter behind the loop and `ExecSuccess`. -/
def driverLoop (allowExceptions : Text) : Nat → Nat → Launcher σ (Nat × Bool)
  | 0, i => pure (i, true)
  | remaining + 1, i => do
      let result ← liftSim (retireInstr M.toModel)
      match ← driverResult M allowExceptions result with
      | none => driverLoop allowExceptions remaining (i + 1)
      | some execSuccess => return (i, execSuccess)

def driverSteps (allowExceptions : Text) : Launcher σ Bool := do
  let (i, execSuccess) ← driverLoop M allowExceptions MAX_ALLOWED_STEPS 0
  limitTest MAX_ALLOWED_STEPS ("maximum number of steps (".toList ++
    decDigits MAX_ALLOWED_STEPS ++ " exceeded\n".toList) i execSuccess

/-! ## `InterruptDriver.cpp` -/

def max_step : Nat := 1000000

/-- `(1 << 63) + 3`: the interrupt bit and the machine software interrupt. -/
def interrupt_cause : RVMRegT := 0x8000000000000003

/-- An enumerator as the number it is compared as. The enumeration has no negative
values; those a later interface may add are behind the three it has. -/
def statusValue : RVMSimExecStatus → Int
  | .SUCCESS => 0
  | .FINISH => 1
  | .EXCEPTION => 2
  | .other code => 3 + code.toNat

/-- Both loops: they differ in what stands at the end of the body. -/
def interruptLoop (afterStep : Nat → Launcher σ Unit) :
    Nat → Nat → Bool → Launcher σ (Nat × Bool)
  | 0, i, execSuccess => pure (i, execSuccess)
  | remaining + 1, i, execSuccess => do
      let result ← liftSim (retireInstr M.toModel)
      if statusValue result < 0 then do
        print "termination by step failure\n".toList
        return (i, false)
      else if statusValue result = 1 then do
        print "proper simulation end\n".toList
        return (i, execSuccess)
      else do
        afterStep i
        interruptLoop afterStep remaining (i + 1) execSuccess

/-- The interrupt is cleared behind the first step. -/
def clearAfterFirst (clearInterrupt : Bool) (i : Nat) : Launcher σ Unit :=
  if i = 0 ∧ clearInterrupt = true then liftLoad (checkedCall (M.clearInterrupt 0))
  else pure ()

def interruptSteps (options : DriverOptions) : Launcher σ Bool := do
  let num_steps_before := options.numStepsBeforeInt.toNat
  let (i, execSuccess) ← interruptLoop M (fun _ => pure ()) num_steps_before 0 true
  let execSuccess ← limitTest max_step "maximum step number exceeded\n".toList i execSuccess
  liftLoad (checkedCall (M.raiseInterrupt interrupt_cause))
  let max_iter := if options.clearInterrupt then max_step else num_steps_before
  let (i, execSuccess) ←
    interruptLoop M (clearAfterFirst M options.clearInterrupt) max_iter 0 execSuccess
  limitTest max_step "maximum step number exceeded\n".toList i execSuccess

/-! ## What the launchers share -/

def stopModeOf (options : DriverOptions) : RVMStopMode :=
  if options.stopMode = "AtLabel".toList then .BY_PC else .NEVER

/-- `if (!Options.RVM_ExecutableFile.empty())`; the result is `ExecSuccess`. -/
def runExecutable (load : Text → Option Image) (options : DriverOptions) (iterations : Nat)
    (steps : Launcher σ Bool) : Launcher σ Bool :=
  if options.executableFile.isEmpty then pure true
  else do
    liftLoad (parseELFAndInit M.toLoaderModel load options.executableFile iterations)
    modify fun w => { w with model := M.setStopMode (stopModeOf options) w.model }
    steps

/-- A file that cannot be opened is silently not written. -/
def putState (options : DriverOptions) (serializedState : Text) : Launcher σ Unit :=
  if options.stateFile = "-".toList then print serializedState
  else modify fun w => { w with
    files := if w.opens options.stateFile then w.files ++ [(options.stateFile, serializedState)]
      else w.files }

def writeState (options : DriverOptions) : Launcher σ Unit :=
  if options.stateFile.isEmpty then pure ()
  else do
    let w ← get
    match dumpState M w.model with
    | .ok serializedState => putState options serializedState
    | .error e => throw e

section State

variable {M : LauncherModel σ} {options : DriverOptions} {w : LaunchWorld σ}

theorem writeState_of_ok {serializedState : Text} (hfile : options.stateFile ≠ [])
    (hdump : dumpState M w.model = .ok serializedState) :
    writeState M options w = putState options serializedState w := by
  unfold writeState
  rw [if_neg fun h => hfile (List.isEmpty_iff.mp h), get_bind, hdump]

theorem writeState_of_error {e : LaunchFailure} (hfile : options.stateFile ≠ [])
    (hdump : dumpState M w.model = .error e) : writeState M options w = .error e w := by
  unfold writeState
  rw [if_neg fun h => hfile (List.isEmpty_iff.mp h), get_bind, hdump]
  rfl

end State

def launchBody (load : Text → Option Image) (options : DriverOptions) (iterations : Nat)
    (steps : Launcher σ Bool) : Launcher σ ExitStatus := do
  let execSuccess ← runExecutable M load options iterations steps
  writeState M options
  return if execSuccess then .SUCCESS else .FAILURE

/-- The text of an exception; the other failures are no exceptions. -/
def what (s : σ) : LaunchFailure → Option Text
  | .failure (.runtimeError text) => some text
  | .failure (.modelError code) => some
      ("while executing model: ".toList ++ M.strerror code ++ ": ".toList ++ M.getErrorContext s)
  | .failure .undefinedBehaviour => none
  | .failure .running => none
  | .assertionFailed => none

/-- `std::cerr << E.what()` prints up to the first null character. -/
def caught (what : Text) : Text := "error: ".toList ++ what.takeWhile (· ≠ '\x00') ++ "\n".toList

/-- `catch (std::exception &E)` -/
def handle (e : LaunchFailure) : Launcher σ ExitStatus := do
  let w ← get
  match what M w.model e with
  | some text => do
      print (caught text)
      return .FAILURE
  | none => throw e

section Handle

variable {M : LauncherModel σ} {e : LaunchFailure} {w : LaunchWorld σ}

theorem handle_of_some {text : Text} (h : what M w.model e = some text) :
    handle M e w = .ok .FAILURE { w with cerr := w.cerr ++ caught text } := by
  unfold handle
  rw [get_bind, h]
  rfl

theorem handle_of_none (h : what M w.model e = none) : handle M e w = .error e w := by
  unfold handle
  rw [get_bind, h]
  rfl

end Handle

def launch (load : Text → Option Image) (options : DriverOptions) (iterations : Nat)
    (steps : Launcher σ Bool) : Launcher σ ExitStatus :=
  tryCatch (launchBody M load options iterations steps) (handle M)

/-- `main` of `Driver.cpp` -/
def driverMain (load : Text → Option Image) (options : DriverOptions) (iterations : Nat) :
    Launcher σ ExitStatus :=
  launch M load options iterations (driverSteps M options.allowExceptions)

/-- `main` of `InterruptDriver.cpp` -/
def interruptMain (load : Text → Option Image) (options : DriverOptions) (iterations : Nat) :
    Launcher σ ExitStatus :=
  launch M load options iterations (interruptSteps M options)

end Rvmi.Launch
