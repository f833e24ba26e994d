import Rvmi.Foundation.Along
import Rvmi.Launch.Recording

/-!
# Launchers of models that behave alike

When a map of the states takes every call of one model to the same call of another
model, each launcher runs alike on the two. A recording model and the model it is made
of are such a pair, so what is recorded is what the launcher does to the model itself.
-/

namespace Rvmi.Launch

open Rvmi.Foundation Rvmi.Log Rvmi.Elf

variable {σ τ α : Type} {f : σ → τ}

/-! ## Instructions -/

/-- The calls around an instruction do the same in `s` and in `f s`. -/
structure SameSteps (M : Model σ) (N : Model τ) (f : σ → τ) : Prop where
  executeInstr : ∀ s, N.executeInstr (f s) =
    ⟨(M.executeInstr s).status, (M.executeInstr s).callbacks, f (M.executeInstr s).next⟩
  readPC : ∀ s, N.readPC (f s) = M.readPC s
  readXReg : ∀ reg s, N.readXReg reg (f s) = M.readXReg reg s
  readFReg : ∀ reg s, N.readFReg reg (f s) = M.readFReg reg s
  readCSR : ∀ reg s, N.readCSR reg (f s) = M.readCSR reg s

def mapWorld (f : σ → τ) (w : World σ) : World τ := ⟨f w.model, w.logger⟩

section Steps

variable {M : Model σ} {N : Model τ}

theorem along_modifyLogger (g : ExecutionLogger → ExecutionLogger) :
    Along (mapWorld f) id (modifyLogger g) (modifyLogger g) :=
  along_modify fun _ => rfl

theorem along_write (t : Text) : Along (mapWorld f) id (write t) (write t) :=
  along_modifyLogger _

theorem along_checkAndThrow (err : RVMErrorCode) :
    Along (mapWorld f) id (Log.checkAndThrow err) (Log.checkAndThrow err) :=
  Along.ite (along_throw (g := id) err) (along_pure ())

theorem along_writeSection {α : Type} (name : Text) (list : List α)
    (body : List α → Except RVMErrorCode Text) :
    Along (mapWorld f) id (writeSection name list body) (writeSection name list body) := by
  unfold writeSection
  refine Along.ite (Along.bind (along_write _) fun _ => ?_) (along_pure _)
  cases body list with
  | ok text => exact Along.bind (along_write _) fun _ => along_write _
  | error err => exact Along.bind (along_throw (g := id) err) fun _ => along_write _

theorem along_logPreRetireState (h : SameSteps M N f) :
    Along (mapWorld f) id (logPreRetireState M) (logPreRetireState N) := by
  unfold logPreRetireState
  refine Along.get_bind fun w => ?_
  simp only [mapWorld, h.readPC, h.readCSR]
  apply Along.ite (along_pure _)
  refine Along.bind (along_modifyLogger _) fun _ => ?_
  refine Along.bind (along_modifyLogger _) fun _ => ?_
  exact Along.bind (along_checkAndThrow _) fun _ => along_modifyLogger _

theorem along_writeRecord (h : SameSteps M N f) (s : σ) (l : ExecutionLogger) :
    Along (mapWorld f) id (writeRecord M s l) (writeRecord N (f s) l) := by
  have hxRegs : emitChangeXRegisters N (f s) = emitChangeXRegisters M s := by
    unfold emitChangeXRegisters
    simp only [h.readXReg]
  have hfRegs : emitChangeFRegisters N (f s) = emitChangeFRegisters M s := by
    unfold emitChangeFRegisters
    simp only [h.readFReg]
  unfold writeRecord
  rw [hxRegs, hfRegs]
  refine Along.bind (along_write _) fun _ => Along.bind (along_write _) fun _ => ?_
  refine Along.bind (along_writeSection _ _ _) fun _ => ?_
  refine Along.bind (along_writeSection _ _ _) fun _ => ?_
  refine Along.bind (along_writeSection _ _ _) fun _ => ?_
  refine Along.bind (along_writeSection _ _ _) fun _ => ?_
  refine Along.bind (along_writeSection _ _ _) fun _ => ?_
  exact Along.ite (Along.bind (along_write _) fun _ => along_write _) (along_write _)

theorem along_logRetiredState (h : SameSteps M N f) :
    Along (mapWorld f) id (logRetiredState M) (logRetiredState N) := by
  unfold logRetiredState
  refine Along.get_bind fun w => ?_
  simp only [mapWorld, h.readPC, h.readCSR]
  apply Along.ite (along_pure _)
  refine Along.bind (along_modifyLogger _) fun _ => ?_
  refine Along.bind (along_modifyLogger _) fun _ => ?_
  refine Along.bind (along_checkAndThrow _) fun _ => ?_
  exact Along.get_bind fun w' => along_writeRecord h w.model w'.logger

theorem along_executeInstr (h : SameSteps M N f) :
    Along (mapWorld f) id (executeInstr M) (executeInstr N) := by
  unfold executeInstr
  refine Along.get_bind fun w => ?_
  simp only [mapWorld, h.executeInstr]
  exact Along.bind (along_set _) fun _ => along_pure _

theorem along_retireInstr (h : SameSteps M N f) :
    Along (mapWorld f) id (retireInstr M) (retireInstr N) := by
  unfold retireInstr
  refine Along.bind (along_logPreRetireState h) fun _ => ?_
  refine Along.bind (along_executeInstr h) fun _ => ?_
  exact Along.bind (along_logRetiredState h) fun _ => along_pure _

end Steps

/-! ## Loading -/

/-- The calls of the loader do the same in `s` and in `f s`. -/
structure SameLoads (M : LoaderModel σ) (N : LoaderModel τ) (f : σ → τ) : Prop where
  rv64 : ∀ s, N.rv64 (f s) = M.rv64 s
  setPC : ∀ pc s, N.setPC pc (f s) = ((M.setPC pc s).1, f (M.setPC pc s).2)
  writeMem : ∀ addr data s,
    N.writeMem addr data (f s) = ((M.writeMem addr data s).1, f (M.writeMem addr data s).2)
  setStopPC : ∀ stopPC s,
    N.setStopPC stopPC (f s) = ((M.setStopPC stopPC s).1, f (M.setStopPC stopPC s).2)

def mapLoad (f : σ → τ) (w : LoadWorld σ) : LoadWorld τ := ⟨f w.model, w.cerr⟩

section Loads

theorem along_warn (text : Text) : Along (mapLoad f) id (warn text) (warn text) :=
  along_modify fun _ => rfl

theorem along_warnIf (condition : Bool) (text : Text) :
    Along (mapLoad f) id (warnIf condition text) (warnIf condition text) :=
  Along.ite (along_warn text) (along_pure ())

theorem along_throwIf {p : Prop} [Decidable p] (e : LoadFailure) :
    Along (mapLoad f) id (if p then throw e else pure () : Load σ Unit)
      (if p then throw e else pure () : Load τ Unit) :=
  Along.ite (along_throw (g := id) e) (along_pure ())

theorem along_checkedCall {call : σ → RVMErrorCode × σ} {call' : τ → RVMErrorCode × τ}
    (h : ∀ s, call' (f s) = ((call s).1, f (call s).2)) :
    Along (mapLoad f) id (checkedCall call) (checkedCall call') := by
  unfold checkedCall Elf.call
  refine Along.bind (Along.get_bind fun w => ?_) fun err => along_throwIf (.modelError err)
  simp only [mapLoad, h]
  exact Along.bind (along_set _) fun _ => along_pure _

variable {M : LoaderModel σ} {N : LoaderModel τ}

theorem along_loadSegments (h : SameLoads M N f) (segs : List Segment) :
    Along (mapLoad f) id (loadSegments M segs) (loadSegments N segs) := by
  induction segs with
  | nil => exact along_pure ()
  | cons seg segs ih =>
      have hwrite : Along (mapLoad f) id (checkedCall (M.writeMem seg.physicalAddress seg.data))
          (checkedCall (N.writeMem seg.physicalAddress seg.data)) :=
        along_checkedCall (h.writeMem seg.physicalAddress seg.data)
      have hseg : Along (mapLoad f) id (loadSegment M seg) (loadSegment N seg) :=
        Along.ite (along_pure ()) (Along.bind (along_throwIf _) fun _ =>
          Along.ite (along_pure ()) hwrite)
      exact Along.bind hseg fun _ => ih

theorem along_initStopPC (h : SameLoads M N f) (image : Image) (iterations : Nat) :
    Along (mapLoad f) id (initStopPC M image iterations) (initStopPC N image iterations) := by
  unfold initStopPC
  refine Along.bind ?_ fun symtab => Along.bind ?_ fun stopPC => ?_
  · unfold findSymtab
    cases image.symtab? with
    | some symtab => exact along_pure symtab
    | none => exact Along.bind (along_warn _) fun _ => along_throw (g := id) LoadFailure.undefinedBehaviour
  · unfold findStopPC
    cases stopLoop symtab.symbols iterations 0 with
    | some stopPC => exact along_pure stopPC
    | none => exact along_throw (g := id) LoadFailure.running
  · exact along_checkedCall (h.setStopPC stopPC)

theorem along_parseELFAndInit (h : SameLoads M N f) (load : Text → Option Image) (path : Text)
    (iterations : Nat) :
    Along (mapLoad f) id (parseELFAndInit M load path iterations)
      (parseELFAndInit N load path iterations) := by
  unfold parseELFAndInit
  refine Along.bind ?_ fun image => Along.bind (along_throwIf _) fun _ => ?_
  · unfold readImage
    cases load path with
    | some image => exact along_pure image
    | none => exact along_throw (g := id) _
  refine Along.bind ?_ fun _ => Along.bind (along_checkedCall (h.setPC image.entry)) fun _ => ?_
  · refine Along.get_bind fun w => ?_
    simp only [mapLoad, h.rv64]
    exact Along.ite (along_warnIf _ _)
      (Along.ite (along_warnIf _ _) (along_throw (g := id) (LoadFailure.runtimeError _)))
  · exact Along.bind (along_loadSegments h image.segments) fun _ =>
      along_initStopPC h image iterations

end Loads

/-! ## Launchers -/

/-- Every call of a launcher does the same in `s` and in `f s`. -/
structure SameLaunches (M : LauncherModel σ) (N : LauncherModel τ) (f : σ → τ) : Prop where
  steps : SameSteps M.toModel N.toModel f
  loads : SameLoads M.toLoaderModel N.toLoaderModel f
  setStopMode : ∀ mode s, N.setStopMode mode (f s) = f (M.setStopMode mode s)
  raiseInterrupt : ∀ cause s, N.raiseInterrupt cause (f s) =
    ((M.raiseInterrupt cause s).1, f (M.raiseInterrupt cause s).2)
  clearInterrupt : ∀ cause s, N.clearInterrupt cause (f s) =
    ((M.clearInterrupt cause s).1, f (M.clearInterrupt cause s).2)
  readVReg : ∀ reg data size s, N.readVReg reg data size (f s) = M.readVReg reg data size s
  strerror : ∀ code, N.strerror code = M.strerror code
  getErrorContext : ∀ s, N.getErrorContext (f s) = M.getErrorContext s

def mapLaunch (f : σ → τ) (w : LaunchWorld σ) : LaunchWorld τ :=
  ⟨f w.model, w.logger, w.cerr, w.files, w.opens⟩

section Launches

theorem alike_liftSim {x : Sim σ α} {y : Sim τ α} (h : Along (mapWorld f) id x y) :
    Along (mapLaunch f) id (liftSim x) (liftSim y) := by
  intro w
  have hres := h ⟨w.model, w.logger⟩
  generalize hx : x ⟨w.model, w.logger⟩ = r, hy : y (mapWorld f ⟨w.model, w.logger⟩) = r' at hres
  cases hres with
  | ok a v =>
      rw [liftSim_of_ok hx, liftSim_of_ok (w := mapLaunch f w) hy]
      exact .ok a _
  | error e v =>
      rw [liftSim_of_error hx, liftSim_of_error (w := mapLaunch f w) hy]
      exact .error (g := id) (LaunchFailure.failure (.modelError e)) _

theorem alike_liftLoad {x : Load σ α} {y : Load τ α} (h : Along (mapLoad f) id x y) :
    Along (mapLaunch f) id (liftLoad x) (liftLoad y) := by
  intro w
  have hres := h ⟨w.model, w.cerr⟩
  generalize hx : x ⟨w.model, w.cerr⟩ = r, hy : y (mapLoad f ⟨w.model, w.cerr⟩) = r' at hres
  cases hres with
  | ok a v =>
      rw [liftLoad_of_ok hx, liftLoad_of_ok (w := mapLaunch f w) hy]
      exact .ok a _
  | error e v =>
      rw [liftLoad_of_error hx, liftLoad_of_error (w := mapLaunch f w) hy]
      exact .error (g := id) (LaunchFailure.failure e) _

theorem along_cerr (text : Text) : Along (mapLaunch f) id (print text) (print text) :=
  along_modify fun _ => rfl

theorem along_limit (limit : Nat) (message : Text) (i : Nat) (execSuccess : Bool) :
    Along (mapLaunch f) id (limitTest limit message i execSuccess)
      (limitTest limit message i execSuccess) :=
  Along.ite (Along.bind (along_cerr message) fun _ => along_pure false) (along_pure execSuccess)

theorem alike_checkedCall {call : σ → RVMErrorCode × σ} {call' : τ → RVMErrorCode × τ}
    (h : ∀ s, call' (f s) = ((call s).1, f (call s).2)) :
    Along (mapLaunch f) id (liftLoad (checkedCall call)) (liftLoad (checkedCall call')) :=
  alike_liftLoad (along_checkedCall h)

variable {M : LauncherModel σ} {N : LauncherModel τ}

theorem alike_driverLoop (h : SameLaunches M N f) (allowExceptions : Text) (remaining i : Nat) :
    Along (mapLaunch f) id (driverLoop M allowExceptions remaining i)
      (driverLoop N allowExceptions remaining i) := by
  induction remaining generalizing i with
  | zero => exact along_pure _
  | succ remaining ih =>
      unfold driverLoop
      refine Along.bind (alike_liftSim (along_retireInstr h.steps)) fun result => ?_
      refine Along.bind ?_ fun answer => ?_
      · cases result with
        | SUCCESS => exact along_pure none
        | FINISH => exact Along.bind (along_cerr _) fun _ => along_pure (some true)
        | other code => exact Along.bind (along_cerr _) fun _ => along_pure (some false)
        | EXCEPTION =>
            refine Along.get_bind fun w => ?_
            simp only [mapLaunch, h.steps.readCSR]
            refine Along.bind (alike_liftSim (along_checkAndThrow _)) fun _ => ?_
            exact Along.ite (along_pure none)
              (Along.bind (along_cerr _) fun _ => along_pure (some false))
      · cases answer with
        | none => exact ih (i + 1)
        | some execSuccess => exact along_pure (i, execSuccess)

theorem alike_driverSteps (h : SameLaunches M N f) (allowExceptions : Text) :
    Along (mapLaunch f) id (driverSteps M allowExceptions) (driverSteps N allowExceptions) :=
  Along.bind (alike_driverLoop h allowExceptions MAX_ALLOWED_STEPS 0) fun _ =>
    along_limit _ _ _ _

theorem alike_clearAfterFirst (h : SameLaunches M N f) (clearInterrupt : Bool) (i : Nat) :
    Along (mapLaunch f) id (clearAfterFirst M clearInterrupt i)
      (clearAfterFirst N clearInterrupt i) :=
  Along.ite (alike_checkedCall (h.clearInterrupt 0)) (along_pure ())

theorem alike_interruptLoop (h : SameLaunches M N f) {afterStep : Nat → Launcher σ Unit}
    {afterStep' : Nat → Launcher τ Unit}
    (hafter : ∀ i, Along (mapLaunch f) id (afterStep i) (afterStep' i)) (remaining i : Nat)
    (execSuccess : Bool) :
    Along (mapLaunch f) id (interruptLoop M afterStep remaining i execSuccess)
      (interruptLoop N afterStep' remaining i execSuccess) := by
  induction remaining generalizing i with
  | zero => exact along_pure _
  | succ remaining ih =>
      unfold interruptLoop
      refine Along.bind (alike_liftSim (along_retireInstr h.steps)) fun result => ?_
      refine Along.ite (Along.bind (along_cerr _) fun _ => along_pure _) ?_
      refine Along.ite (Along.bind (along_cerr _) fun _ => along_pure _) ?_
      exact Along.bind (hafter i) fun _ => ih (i + 1)

theorem alike_interruptSteps (h : SameLaunches M N f) (options : DriverOptions) :
    Along (mapLaunch f) id (interruptSteps M options) (interruptSteps N options) := by
  unfold interruptSteps
  refine Along.bind (alike_interruptLoop h (fun _ => along_pure ()) _ 0 true) fun _ => ?_
  refine Along.bind (along_limit _ _ _ _) fun execSuccess => ?_
  refine Along.bind (alike_checkedCall (h.raiseInterrupt interrupt_cause)) fun _ => ?_
  exact Along.bind (alike_interruptLoop h (alike_clearAfterFirst h _) _ 0 execSuccess) fun _ =>
    along_limit _ _ _ _

/-- A dump only reads. -/
theorem dumpState_alike (h : SameLaunches M N f) (s : σ) :
    dumpState N (f s) = dumpState M s := by
  have hregs : dumpVRegister N (f s) = dumpVRegister M s := by
    unfold dumpVRegister
    simp only [h.readVReg]
  have hvRegs : dumpVRegisters N (f s) = dumpVRegisters M s := by
    unfold dumpVRegisters
    simp only [h.readVReg, hregs]
  have hcsr : dumpCSR N (f s) = dumpCSR M s := by
    unfold dumpCSR
    simp only [h.steps.readCSR]
  unfold dumpState
  simp only [h.steps.readXReg, h.steps.readFReg, hvRegs, hcsr]

theorem along_putState (options : DriverOptions) (serializedState : Text) :
    Along (mapLaunch f) id (putState options serializedState) (putState options serializedState) :=
  Along.ite (along_cerr serializedState) (along_modify fun _ => rfl)

theorem alike_writeState (h : SameLaunches M N f) (options : DriverOptions) :
    Along (mapLaunch f) id (writeState M options) (writeState N options) := by
  by_cases hfile : options.stateFile = []
  · unfold writeState
    rw [hfile]
    exact along_pure ()
  · intro w
    have hsame : dumpState N (mapLaunch f w).model = dumpState M w.model :=
      dumpState_alike h w.model
    cases hdump : dumpState M w.model with
    | ok serializedState =>
        rw [writeState_of_ok hfile hdump, writeState_of_ok hfile (hsame.trans hdump)]
        exact along_putState options serializedState w
    | error e =>
        rw [writeState_of_error hfile hdump, writeState_of_error hfile (hsame.trans hdump)]
        exact .error (g := id) e w

theorem alike_runExecutable (h : SameLaunches M N f) (load : Text → Option Image)
    (options : DriverOptions) (iterations : Nat) {steps : Launcher σ Bool}
    {steps' : Launcher τ Bool} (hsteps : Along (mapLaunch f) id steps steps') :
    Along (mapLaunch f) id (runExecutable M load options iterations steps)
      (runExecutable N load options iterations steps') := by
  refine Along.ite (along_pure true) (Along.bind ?_ fun _ => Along.bind ?_ fun _ => hsteps)
  · exact alike_liftLoad (along_parseELFAndInit h.loads load options.executableFile iterations)
  · refine along_modify fun w => ?_
    simp only [mapLaunch, h.setStopMode]

theorem what_alike (h : SameLaunches M N f) (s : σ) (e : LaunchFailure) :
    what N (f s) e = what M s e := by
  unfold what
  simp only [h.strerror, h.getErrorContext]

theorem alike_handle (h : SameLaunches M N f) (e : LaunchFailure) :
    Along (mapLaunch f) id (handle M e) (handle N e) := by
  intro w
  have hsame : what N (mapLaunch f w).model e = what M w.model e := what_alike h w.model e
  cases hwhat : what M w.model e with
  | some text =>
      rw [handle_of_some hwhat, handle_of_some (hsame.trans hwhat)]
      exact .ok ExitStatus.FAILURE _
  | none =>
      rw [handle_of_none hwhat, handle_of_none (hsame.trans hwhat)]
      exact .error (g := id) e w

theorem alike_launch (h : SameLaunches M N f) (load : Text → Option Image)
    (options : DriverOptions) (iterations : Nat) {steps : Launcher σ Bool}
    {steps' : Launcher τ Bool} (hsteps : Along (mapLaunch f) id steps steps') :
    Along (mapLaunch f) id (launch M load options iterations steps)
      (launch N load options iterations steps') := by
  refine Along.tryCatch ?_ (alike_handle h)
  refine Along.bind (alike_runExecutable h load options iterations hsteps) fun execSuccess => ?_
  exact Along.bind (alike_writeState h options) fun _ => along_pure _

theorem alike_driverMain (h : SameLaunches M N f) (load : Text → Option Image)
    (options : DriverOptions) (iterations : Nat) :
    Along (mapLaunch f) id (driverMain M load options iterations)
      (driverMain N load options iterations) :=
  alike_launch h load options iterations (alike_driverSteps h options.allowExceptions)

theorem alike_interruptMain (h : SameLaunches M N f) (load : Text → Option Image)
    (options : DriverOptions) (iterations : Nat) :
    Along (mapLaunch f) id (interruptMain M load options iterations)
      (interruptMain N load options iterations) :=
  alike_launch h load options iterations (alike_interruptSteps h options)

end Launches

/-! ## Recording -/

/-- Recording only adds the calls. -/
theorem sameLaunches_recording (M : LauncherModel σ) :
    SameLaunches (recording M) M Prod.fst where
  steps := ⟨fun _ => rfl, fun _ => rfl, fun _ _ => rfl, fun _ _ => rfl, fun _ _ => rfl⟩
  loads := ⟨fun _ => rfl, fun _ _ => rfl, fun _ _ _ => rfl, fun _ _ => rfl⟩
  setStopMode _ _ := rfl
  raiseInterrupt _ _ := rfl
  clearInterrupt _ _ := rfl
  readVReg _ _ _ _ := rfl
  strerror _ := rfl
  getErrorContext _ := rfl

/-- Loading leaves the recorded calls alone. -/
theorem sameLoads_recording (M : LauncherModel σ) (calls : List Call) :
    SameLoads M.toLoaderModel (recording M).toLoaderModel fun s => (s, calls) where
  rv64 _ := rfl
  setPC _ _ := rfl
  writeMem _ _ _ := rfl
  setStopPC _ _ := rfl

/-- A launcher does to a recording model what it does to the model: the same exit status,
the same text on `std::cerr`, the same files and the same log. -/
theorem interruptMain_recording (M : LauncherModel σ) (load : Text → Option Image)
    (options : DriverOptions) (iterations : Nat) :
    Along (mapLaunch Prod.fst) id (interruptMain (recording M) load options iterations)
      (interruptMain M load options iterations) :=
  alike_interruptMain (sameLaunches_recording M) load options iterations

theorem driverMain_recording (M : LauncherModel σ) (load : Text → Option Image)
    (options : DriverOptions) (iterations : Nat) :
    Along (mapLaunch Prod.fst) id (driverMain (recording M) load options iterations)
      (driverMain M load options iterations) :=
  alike_driverMain (sameLaunches_recording M) load options iterations

end Rvmi.Launch
