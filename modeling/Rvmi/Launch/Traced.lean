import Rvmi.Foundation.Triples
import Rvmi.Launch.Alike
import Rvmi.Launch.Phases

/-!
# The log of a whole run

A run of a launcher may end in many places: behind a limit, with a call that fails, or in
the middle of a line of the log. Wherever it ends, the instructions that were executed say
what can be read from the log that is left behind.
-/

namespace Rvmi.Launch

open Rvmi.Foundation Rvmi.Log Rvmi.Elf
open Std.Do

set_option mvcgen.warning false

variable {σ : Type}

/-! ## The states in which instructions are executed -/

/-- `M` with the states in which its instructions were executed. -/
def tracing (M : LauncherModel σ) : LauncherModel (σ × List σ) where
  executeInstr s :=
    let step := M.executeInstr s.1
    ⟨step.status, step.callbacks, (step.next, s.2 ++ [s.1])⟩
  readPC s := M.readPC s.1
  readXReg reg s := M.readXReg reg s.1
  readFReg reg s := M.readFReg reg s.1
  readCSR reg s := M.readCSR reg s.1
  rv64 s := M.rv64 s.1
  setPC pc s := ((M.setPC pc s.1).1, ((M.setPC pc s.1).2, s.2))
  writeMem addr data s := ((M.writeMem addr data s.1).1, ((M.writeMem addr data s.1).2, s.2))
  setStopPC stopPC s := ((M.setStopPC stopPC s.1).1, ((M.setStopPC stopPC s.1).2, s.2))
  setStopMode mode s := (M.setStopMode mode s.1, s.2)
  raiseInterrupt cause s :=
    ((M.raiseInterrupt cause s.1).1, ((M.raiseInterrupt cause s.1).2, s.2))
  clearInterrupt cause s :=
    ((M.clearInterrupt cause s.1).1, ((M.clearInterrupt cause s.1).2, s.2))
  readVReg reg data size s := M.readVReg reg data size s.1
  strerror := M.strerror
  getErrorContext s := M.getErrorContext s.1

theorem sameLaunches_tracing (M : LauncherModel σ) : SameLaunches (tracing M) M Prod.fst where
  steps := ⟨fun _ => rfl, fun _ => rfl, fun _ _ => rfl, fun _ _ => rfl, fun _ _ => rfl⟩
  loads := ⟨fun _ => rfl, fun _ _ => rfl, fun _ _ _ => rfl, fun _ _ => rfl⟩
  setStopMode _ _ := rfl
  raiseInterrupt _ _ := rfl
  clearInterrupt _ _ := rfl
  readVReg _ _ _ _ := rfl
  strerror _ := rfl
  getErrorContext _ := rfl

/-- Loading executes nothing. -/
theorem sameLoads_tracing (M : LauncherModel σ) (states : List σ) :
    SameLoads M.toLoaderModel (tracing M).toLoaderModel fun s => (s, states) where
  rv64 _ := rfl
  setPC _ _ := rfl
  writeMem _ _ _ := rfl
  setStopPC _ _ := rfl

/-! ## What is left in the log -/

/-- The text of the log when the instructions executed in these states, and no others,
have been retired or given up. Only the last one can be without its record: a control
register that cannot be read leaves no text of it, another register a broken line. -/
inductive Logged (M : Model σ) : List σ → Text → Prop
  | whole {states : List σ} (hall : ∀ s ∈ states, InstrReadable M s) :
      Logged M states (openLog (states.map (observe M)))
  | unread {states : List σ} {s : σ} (hall : ∀ s ∈ states, InstrReadable M s)
      (hafter : ¬ M.FCSRReadable (M.next s)) :
      Logged M (states ++ [s]) (openLog (states.map (observe M)))
  | broken {states : List σ} {s : σ} {m : Json.Member} {ms : List Json.Member} {key : Text}
      (hall : ∀ s ∈ states, InstrReadable M s) (hafter : M.FCSRReadable (M.next s))
      (hread : ¬ InstrReadable M s) (hm : m.Good) (hms : ∀ m' ∈ ms, m'.Good)
      (hkey : Json.Plain key) :
      Logged M (states ++ [s]) (openLog (states.map (observe M)) ++ brokenLine m ms key)

/-- What a reader finds in the finished log. -/
structure ReadsBack (M : Model σ) (states : List σ) (log : Text) : Prop where
  dropLast : ∀ s ∈ states.dropLast, InstrReadable M s
  whole : (∀ s ∈ states, InstrReadable M s) → decodeLog log = some (states.map (observe M))
  unread : ∀ s, states.getLast? = some s → ¬ M.FCSRReadable (M.next s) →
    decodeLog log = some (states.dropLast.map (observe M))
  broken : ∀ s, states.getLast? = some s → M.FCSRReadable (M.next s) → ¬ InstrReadable M s →
    Json.parse log = none

theorem readsBack_of_logged {M : Model σ} {states : List σ} {text : Text}
    (h : Logged M states text) : ReadsBack M states (text ++ closingText) := by
  cases h with
  | whole hall =>
      have hlast (s : σ) (hs : states.getLast? = some s) : InstrReadable M s :=
        hall s (List.mem_of_getLast? hs)
      refine ⟨?_, fun _ => decodeLog_closed _, ?_, ?_⟩
      · intro s hs
        exact hall s (List.mem_of_mem_dropLast hs)
      · intro s hs hafter
        exact absurd (hlast s hs).after hafter
      · intro s hs _ hread
        exact absurd (hlast s hs) hread
  | @unread states s hall hafter =>
      refine ⟨?_, ?_, ?_, ?_⟩
      · rw [List.dropLast_concat]
        exact hall
      · intro hwhole
        exact absurd (hwhole s List.mem_concat_self).after hafter
      · intro _ _ _
        rw [List.dropLast_concat]
        exact decodeLog_closed _
      · intro s' hs' hafter' _
        rw [List.getLast?_concat] at hs'
        cases hs'
        exact absurd hafter' hafter
  | @broken states s m ms key hall hafter hread hm hms hkey =>
      refine ⟨?_, ?_, ?_, ?_⟩
      · rw [List.dropLast_concat]
        exact hall
      · intro hwhole
        exact absurd (hwhole s List.mem_concat_self) hread
      · intro s' hs' hafter'
        rw [List.getLast?_concat] at hs'
        cases hs'
        exact absurd hafter hafter'
      · intro _ _ _ _
        exact parse_broken _ hm hms hkey

/-! ## One instruction -/

abbrev TracedWorld (σ : Type) := LaunchWorld (σ × List σ)

variable (M : LauncherModel σ)

/-- Every instruction executed so far has its record in the log. -/
def Whole (w : TracedWorld σ) : Prop :=
  (∀ s ∈ w.model.2, InstrReadable M.toModel s) ∧
    w.logger.os = some (openLog (w.model.2.map (observe M.toModel)))

def Accounted (w : TracedWorld σ) : Prop :=
  ∃ text, w.logger.os = some text ∧ Logged M.toModel w.model.2 text

/-- An instruction that fails throws an exception. What is no exception comes from the
loader or from the dump, between two instructions. -/
def FailsAt (e : LaunchFailure) (w : TracedWorld σ) : Prop :=
  Accounted M w ∧ (what (tracing M) w.model e = none → Whole M w)

variable {M}

theorem accounted_of_whole {w : TracedWorld σ} (h : Whole M w) : Accounted M w :=
  ⟨_, h.2, .whole h.1⟩

theorem failsAt_of_whole {e : LaunchFailure} {w : TracedWorld σ} (h : Whole M w) :
    FailsAt M e w := ⟨accounted_of_whole h, fun _ => h⟩

theorem instrReadable_tracing {s : σ} {states : List σ} :
    InstrReadable (tracing M).toModel (s, states) ↔ InstrReadable M.toModel s := by
  constructor
  · intro h
    exact ⟨h.before, h.after, h.gpr, h.fpr⟩
  · intro h
    exact ⟨h.before, h.after, h.gpr, h.fpr⟩

theorem forall_mem_concat {p : σ → Prop} {states : List σ} {s : σ} (hall : ∀ s ∈ states, p s)
    (hs : p s) : ∀ s' ∈ states ++ [s], p s' := by
  intro s' hs'
  rcases List.mem_append.mp hs' with h | h
  · exact hall s' h
  · rw [List.mem_singleton.mp h]
    exact hs

section Retire

variable {w v : World (σ × List σ)} (hall : ∀ s ∈ w.model.2, InstrReadable M.toModel s)
  (hopen : w.logger.os = some (openLog (w.model.2.map (observe M.toModel))))

include hall hopen

/-- An instruction whose reads succeed adds its record. -/
theorem whole_of_retireInstr {status : RVMSimExecStatus}
    (h : retireInstr (tracing M).toModel w = .ok status v) :
    (∀ s ∈ v.model.2, InstrReadable M.toModel s) ∧
      v.logger.os = some (openLog (v.model.2.map (observe M.toModel))) := by
  have hread : InstrReadable (tracing M).toModel w.model :=
    (retires_of_retireInstr h).1 (congrArg Option.isSome hopen)
  obtain ⟨v', hretire, hmodel, hos⟩ := retireInstr_appends hopen hread
  rw [hretire] at h
  cases h
  have hstates : v.model.2 = w.model.2 ++ [w.model.1] := congrArg Prod.snd hmodel
  rw [hstates]
  refine ⟨forall_mem_concat hall (instrReadable_tracing.mp hread), ?_⟩
  rw [hos, List.map_append]
  rfl

/-- One whose reads do not is the last to be executed, or it is not executed. -/
theorem logged_of_retireInstr {e : RVMErrorCode}
    (h : retireInstr (tracing M).toModel w = .error e v) :
    ∃ text, v.logger.os = some text ∧ Logged M.toModel v.model.2 text := by
  have hread : ¬ InstrReadable (tracing M).toModel w.model := by
    intro hread
    obtain ⟨_, hretire, _⟩ := retireInstr_appends hopen hread
    rw [hretire] at h
    cases h
  obtain ⟨e', v', herror, htext⟩ := retireInstr_error hopen hread
  rw [h] at herror
  cases herror
  by_cases hbefore : (tracing M).FCSRReadable w.model
  · have hstates : v.model.2 = w.model.2 ++ [w.model.1] :=
      congrArg Prod.snd (model_of_retireInstr_error_before hopen hbefore h)
    rw [hstates]
    by_cases hafter : (tracing M).FCSRReadable ((tracing M).next w.model)
    · rw [if_pos ⟨hbefore, hafter⟩] at htext
      obtain ⟨m, ms, key, hm, hms, hkey, hos⟩ := htext
      have hnot : ¬ InstrReadable M.toModel w.model.1 :=
        fun h' => hread (instrReadable_tracing.mpr h')
      exact ⟨_, hos, .broken hall hafter hnot hm hms hkey⟩
    · rw [if_neg fun hboth => hafter hboth.2] at htext
      exact ⟨_, htext, .unread hall hafter⟩
  · obtain ⟨_, _, herror, hmodel⟩ := retireInstr_error_before hopen hbefore
    rw [h] at herror
    cases herror
    rw [if_neg fun hboth => hbefore hboth.1] at htext
    rw [hmodel]
    exact ⟨_, htext, .whole hall⟩

end Retire

theorem triple_retireInstr :
    ⦃fun w => ⌜Whole M w⌝⦄ liftSim (retireInstr (tracing M).toModel)
    ⦃post⟨fun _ w => ⌜Whole M w⌝, fun e w => ⌜FailsAt M e w⌝⟩⦄ := by
  apply triple_of
  · rintro w status w' ⟨hall, hopen⟩ h
    obtain ⟨v, hretire, rfl⟩ := liftSim_eq_ok_iff.mp h
    exact whole_of_retireInstr hall hopen hretire
  · rintro w e w' ⟨hall, hopen⟩ h
    cases hretire : retireInstr (tracing M).toModel ⟨w.model, w.logger⟩ with
    | ok status v =>
        rw [liftSim_of_ok hretire] at h
        cases h
    | error e' v =>
        rw [liftSim_of_error hretire] at h
        cases h
        exact ⟨logged_of_retireInstr hall hopen hretire,
          fun hnone => absurd hnone (Option.some_ne_none _)⟩

/-! ## Parts that execute nothing -/

/-- What a part that executes nothing keeps. -/
def traceAndLog (w : TracedWorld σ) : List σ × ExecutionLogger := (w.model.2, w.logger)

theorem whole_of_same {w w' : TracedWorld σ} (h : Same traceAndLog w w') (hw : Whole M w) :
    Whole M w' := by
  obtain ⟨hstates, hlogger⟩ := Prod.mk.inj h
  unfold Whole
  rw [hstates, hlogger]
  exact hw

theorem accounted_of_same {w w' : TracedWorld σ} (h : Same traceAndLog w w') (hw : Accounted M w) :
    Accounted M w' := by
  obtain ⟨hstates, hlogger⟩ := Prod.mk.inj h
  unfold Accounted
  rw [hstates, hlogger]
  exact hw

theorem kept_liftLoad {α : Type} {x : Load (σ × List σ) α}
    (h : Moves (Same fun w : LoadWorld (σ × List σ) => w.model.2) x) :
    Moves (Same traceAndLog) (liftLoad x) := by
  intro w
  cases hx : x ⟨w.model, w.cerr⟩ with
  | ok a v =>
      rw [liftLoad_of_ok hx]
      exact congrArg (fun states => (states, w.logger)) (h.ok hx)
  | error e v =>
      rw [liftLoad_of_error hx]
      exact congrArg (fun states => (states, w.logger)) (h.error hx)

theorem kept_checkedCall {f : σ × List σ → RVMErrorCode × (σ × List σ)}
    (hf : ∀ s, (f s).2.2 = s.2) : Moves (Same traceAndLog) (liftLoad (checkedCall f)) := by
  refine kept_liftLoad (Moves.bind (fun w => hf w.model) fun err => ?_)
  exact Moves.ite (moves_throw _) (moves_pure ())

/-- Loading is the same with any trace, and keeps it. -/
theorem kept_parseELFAndInit (M : LauncherModel σ) (load : Text → Option Image) (path : Text)
    (iterations : Nat) :
    Moves (Same traceAndLog)
      (liftLoad (parseELFAndInit (tracing M).toLoaderModel load path iterations)) := by
  refine kept_liftLoad fun w => ?_
  have halong := along_parseELFAndInit (sameLoads_tracing M w.model.2) load path iterations
    ⟨w.model.1, w.cerr⟩
  generalize parseELFAndInit M.toLoaderModel load path iterations ⟨w.model.1, w.cerr⟩ = r,
    hr : parseELFAndInit (tracing M).toLoaderModel load path iterations
      (mapLoad (fun s => (s, w.model.2)) ⟨w.model.1, w.cerr⟩) = r' at halong
  have hsame : parseELFAndInit (tracing M).toLoaderModel load path iterations w = r' := hr
  rw [hsame]
  cases halong with
  | ok u v => rfl
  | error e v => rfl

theorem kept_print (text : Text) :
    Moves (Same traceAndLog) (print text : Launcher (σ × List σ) Unit) := fun _ => rfl

theorem kept_limitTest (limit : Nat) (message : Text) (i : Nat) (execSuccess : Bool) :
    Moves (Same traceAndLog)
      (limitTest limit message i execSuccess : Launcher (σ × List σ) Bool) :=
  Moves.ite (Moves.bind (kept_print message) fun _ => moves_pure false) (moves_pure execSuccess)

theorem kept_liftSim_checkAndThrow (err : RVMErrorCode) : Moves (Same traceAndLog)
    (liftSim (Log.checkAndThrow err) : Launcher (σ × List σ) Unit) := by
  intro w
  unfold Log.checkAndThrow
  by_cases herr : err = .SUCCESS
  · rw [if_neg (not_not_intro herr)]
    rfl
  · rw [if_pos herr]
    rfl

theorem kept_driverResult (M : LauncherModel σ) (allowExceptions : Text) (result : RVMSimExecStatus) :
    Moves (Same traceAndLog) (driverResult (tracing M) allowExceptions result) := by
  cases result with
  | SUCCESS => exact moves_pure none
  | FINISH => exact Moves.bind (kept_print _) fun _ => moves_pure (some true)
  | other code => exact Moves.bind (kept_print _) fun _ => moves_pure (some false)
  | EXCEPTION =>
      refine Moves.get_bind fun w => ?_
      refine Moves.bind (kept_liftSim_checkAndThrow _) fun _ => ?_
      exact Moves.ite (moves_pure none)
        (Moves.bind (kept_print _) fun _ => moves_pure (some false))

theorem kept_writeState (M : LauncherModel σ) (options : DriverOptions) :
    Moves (Same traceAndLog) (writeState (tracing M) options) := by
  refine Moves.ite (moves_pure ()) (Moves.get_bind fun w => ?_)
  cases dumpState (tracing M) w.model with
  | ok serializedState =>
      exact Moves.ite (kept_print serializedState) (moves_modify fun _ => rfl)
  | error e => exact moves_throw e

theorem kept_handle (M : LauncherModel σ) (e : LaunchFailure) :
    Moves (Same traceAndLog) (handle (tracing M) e) := by
  refine Moves.get_bind fun w => ?_
  cases what (tracing M) w.model e with
  | some text => exact Moves.bind (kept_print _) fun _ => moves_pure ExitStatus.FAILURE
  | none => exact moves_throw e

theorem triple_of_kept (M : LauncherModel σ) {α : Type} {x : Launcher (σ × List σ) α}
    (h : Moves (Same traceAndLog) x) :
    ⦃fun w => ⌜Whole M w⌝⦄ x ⦃post⟨fun _ w => ⌜Whole M w⌝, fun e w => ⌜FailsAt M e w⌝⟩⦄ :=
  triple_of_moves h (fun _ _ => whole_of_same) fun _ _ => failsAt_of_whole

/-! ## The launchers -/

theorem triple_driverLoop (allowExceptions : Text) (remaining i : Nat) :
    ⦃fun w => ⌜Whole M w⌝⦄ driverLoop (tracing M) allowExceptions remaining i
    ⦃post⟨fun _ w => ⌜Whole M w⌝, fun e w => ⌜FailsAt M e w⌝⟩⦄ := by
  have hresult (result : RVMSimExecStatus) :=
    triple_of_kept M (kept_driverResult M allowExceptions result)
  induction remaining generalizing i with
  | zero => mvcgen [driverLoop]
  | succ remaining ih =>
      mvcgen [driverLoop, triple_retireInstr, hresult, ih]

theorem triple_driverSteps (allowExceptions : Text) :
    ⦃fun w => ⌜Whole M w⌝⦄ driverSteps (tracing M) allowExceptions
    ⦃post⟨fun _ w => ⌜Whole M w⌝, fun e w => ⌜FailsAt M e w⌝⟩⦄ := by
  have hlimit (limit : Nat) (message : Text) (i : Nat) (execSuccess : Bool) :=
    triple_of_kept M (kept_limitTest limit message i execSuccess)
  unfold driverSteps
  mvcgen [triple_driverLoop, hlimit]

theorem triple_clearAfterFirst (clearInterrupt : Bool) (i : Nat) :
    ⦃fun w => ⌜Whole M w⌝⦄ clearAfterFirst (tracing M) clearInterrupt i
    ⦃post⟨fun _ w => ⌜Whole M w⌝, fun e w => ⌜FailsAt M e w⌝⟩⦄ :=
  triple_of_kept M (Moves.ite (kept_checkedCall fun _ => rfl) (moves_pure ()))

theorem triple_interruptLoop (afterStep : Nat → Launcher (σ × List σ) Unit)
    (hafter : ∀ i, ⦃fun w => ⌜Whole M w⌝⦄ afterStep i
      ⦃post⟨fun _ w => ⌜Whole M w⌝, fun e w => ⌜FailsAt M e w⌝⟩⦄)
    (remaining i : Nat) (execSuccess : Bool) :
    ⦃fun w => ⌜Whole M w⌝⦄ interruptLoop (tracing M) afterStep remaining i execSuccess
    ⦃post⟨fun _ w => ⌜Whole M w⌝, fun e w => ⌜FailsAt M e w⌝⟩⦄ := by
  have hprint (text : Text) := triple_of_kept M (kept_print text)
  induction remaining generalizing i with
  | zero => mvcgen [interruptLoop]
  | succ remaining ih =>
      rw [interruptLoop_succ]
      mvcgen [triple_retireInstr, hafter, hprint, ih]

theorem triple_interruptSteps (options : DriverOptions) :
    ⦃fun w => ⌜Whole M w⌝⦄ interruptSteps (tracing M) options
    ⦃post⟨fun _ w => ⌜Whole M w⌝, fun e w => ⌜FailsAt M e w⌝⟩⦄ := by
  have hlimit (limit : Nat) (message : Text) (i : Nat) (execSuccess : Bool) :=
    triple_of_kept M (kept_limitTest limit message i execSuccess)
  have hbefore := triple_interruptLoop (M := M) (fun _ => pure ())
    fun _ => triple_of_kept M (moves_pure ())
  have hbehind := triple_interruptLoop _ (triple_clearAfterFirst (M := M) options.clearInterrupt)
  have hraise := triple_of_kept M
    (kept_checkedCall (f := (tracing M).raiseInterrupt interrupt_cause) fun _ => rfl)
  unfold interruptSteps
  mvcgen [hbefore, hbehind, hlimit, hraise]

/-- What the log tells behind a run on `M`, however it ends: the run on the tracing model
is the same and has the states in which instructions were executed. The log is closed
where `main` returns. Behind a failed assertion, an undefined operation or a search that
does not end no destructor runs, and `unclosed` is what was put into the stream. -/
structure LogTells (M : LauncherModel σ)
    (traced : EStateM.Result LaunchFailure (TracedWorld σ) ExitStatus)
    (r : EStateM.Result LaunchFailure (LaunchWorld σ) ExitStatus) : Prop where
  run : AlongResult (mapLaunch Prod.fst) id traced r
  log : ∀ status w, r = .ok status w → ∃ log, w.logger.destroy = some log ∧
    ReadsBack M.toModel (finalState traced).model.2 log
  success : ∀ w, r = .ok .SUCCESS w →
    ∀ s ∈ (finalState traced).model.2, InstrReadable M.toModel s
  unclosed : ∀ e w, r = .error e w →
    (∀ s ∈ (finalState traced).model.2, InstrReadable M.toModel s) ∧
      w.logger.os = some (openLog ((finalState traced).model.2.map (observe M.toModel)))

section Launch

variable (load : Text → Option Image) (options : DriverOptions) (iterations : Nat)
  {steps : Launcher (σ × List σ) Bool}

theorem triple_launchBody
    (hsteps : ⦃fun w => ⌜Whole M w⌝⦄ steps
      ⦃post⟨fun _ w => ⌜Whole M w⌝, fun e w => ⌜FailsAt M e w⌝⟩⦄) :
    ⦃fun w => ⌜Whole M w⌝⦄ launchBody (tracing M) load options iterations steps
    ⦃post⟨fun _ w => ⌜Whole M w⌝, fun e w => ⌜FailsAt M e w⌝⟩⦄ := by
  have hload := triple_of_kept M (kept_parseELFAndInit M load options.executableFile iterations)
  have hwrite := triple_of_kept M (kept_writeState M options)
  unfold launchBody runExecutable
  mvcgen [hload, hsteps, hwrite]

/-- What is caught is printed, and the log stays as the failure left it. -/
theorem triple_handle (e : LaunchFailure) :
    ⦃fun w => ⌜FailsAt M e w⌝⦄ handle (tracing M) e
    ⦃post⟨fun status w => ⌜Accounted M w ∧ (status = .SUCCESS → Whole M w)⌝,
      fun _ w => ⌜Whole M w⌝⟩⦄ := by
  apply triple_of
  · intro w status w' hfails h
    refine ⟨accounted_of_same ((kept_handle M e).ok h) hfails.1, ?_⟩
    rintro rfl
    exact absurd h (handle_not_success _ e w w')
  · intro w e' w' hfails h
    cases hwhat : what (tracing M) w.model e with
    | some text =>
        rw [handle_of_some hwhat] at h
        cases h
    | none => exact whole_of_same ((kept_handle M e).error h) (hfails.2 hwhat)

theorem triple_launch
    (hsteps : ⦃fun w => ⌜Whole M w⌝⦄ steps
      ⦃post⟨fun _ w => ⌜Whole M w⌝, fun e w => ⌜FailsAt M e w⌝⟩⦄) :
    ⦃fun w => ⌜Whole M w⌝⦄ launch (tracing M) load options iterations steps
    ⦃post⟨fun status w => ⌜Accounted M w ∧ (status = .SUCCESS → Whole M w)⌝,
      fun _ w => ⌜Whole M w⌝⟩⦄ := by
  have hbody := triple_launchBody load options iterations hsteps
  unfold launch
  mvcgen [hbody, triple_handle]
  case vc2.post.success =>
    intro hwhole
    exact ⟨accounted_of_whole hwhole, fun _ => hwhole⟩

theorem logTells_of_triple {x : Launcher (σ × List σ) ExitStatus} {w : TracedWorld σ}
    {r : EStateM.Result LaunchFailure (LaunchWorld σ) ExitStatus}
    (hx : ⦃fun w => ⌜Whole M w⌝⦄ x
      ⦃post⟨fun status w => ⌜Accounted M w ∧ (status = .SUCCESS → Whole M w)⌝,
        fun _ w => ⌜Whole M w⌝⟩⦄)
    (hw : Whole M w) (hrun : AlongResult (mapLaunch Prod.fst) id (x w) r) :
    LogTells M (x w) r := by
  cases htraced : x w with
  | ok status v =>
      obtain ⟨⟨text, hos, hlogged⟩, hsuccess⟩ := ok_of_triple hx hw htraced
      rw [htraced] at hrun
      cases hrun with
      | ok status v =>
          refine ⟨.ok status v, ?_, ?_, fun _ _ h => nomatch h⟩
          · rintro _ _ ⟨⟩
            exact ⟨_, destroy_eq hos, readsBack_of_logged hlogged⟩
          · rintro _ h
            cases h
            exact (hsuccess rfl).1
  | error e v =>
      have hwhole := error_of_triple hx hw htraced
      rw [htraced] at hrun
      cases hrun with
      | error e v =>
          refine ⟨.error e v, fun _ _ h => (nomatch h), fun _ h => (nomatch h), ?_⟩
          rintro _ _ ⟨⟩
          exact hwhole

end Launch

/-- The log that either launcher leaves behind tells, in order, the instructions that were
executed, and all of them behind a success. In a run that ends because a register cannot be
read, only the last of them is missing, or the log is no document at all. -/
theorem launchers_log_readsBack (M : LauncherModel σ) (load : Text → Option Image)
    (options : DriverOptions) (iterations : Nat) (s : σ) (cerr : Text)
    (files : List (Text × Text)) (opens : Text → Bool) :
    LogTells M
        (driverMain (tracing M) load options iterations ⟨(s, []), freshLog, cerr, files, opens⟩)
        (driverMain M load options iterations ⟨s, freshLog, cerr, files, opens⟩) ∧
      LogTells M
        (interruptMain (tracing M) load options iterations
          ⟨(s, []), freshLog, cerr, files, opens⟩)
        (interruptMain M load options iterations ⟨s, freshLog, cerr, files, opens⟩) := by
  have hfresh : Whole M ⟨(s, []), freshLog, cerr, files, opens⟩ :=
    ⟨fun s' hs' => absurd hs' List.not_mem_nil, rfl⟩
  have hsame := sameLaunches_tracing M
  constructor
  · exact logTells_of_triple
      (triple_launch load options iterations (triple_driverSteps options.allowExceptions)) hfresh
      (alike_driverMain hsame load options iterations ⟨(s, []), freshLog, cerr, files, opens⟩)
  · exact logTells_of_triple
      (triple_launch load options iterations (triple_interruptSteps options)) hfresh
      (alike_interruptMain hsame load options iterations ⟨(s, []), freshLog, cerr, files, opens⟩)

end Rvmi.Launch
