import Rvmi.Elf.Segments
import Rvmi.Launch.Library
import Rvmi.Launch.Phases
import Rvmi.Launch.Verdict

/-!
# The launchers as programs

`main` from the command line on: the options, the library, the log, the extensions and the
model come first, and what throws there is caught by the same handler as what throws
later. The exit status of `Driver.cpp` is told by all of it together.
-/

namespace Rvmi.Launch

open Rvmi.Foundation Rvmi.Log Rvmi.Elf Rvmi.Isa

/-! ## `main` up to the model -/

/-- What the launchers are run on: the C library, the dynamic linker and the files. The
texts of exceptions that the C++ library throws are its own. -/
structure System (σ H : Type) where
  abbreviated : Text → Option OptionId
  permute : Bool
  getoptMessage : List Text → Text
  numberWhat : NumberFailure → Text
  outOfRangeWhat : Text
  linker : Linker σ H
  modelPath : Text
  opens : Text → Bool
  load : Text → Option Image
  iterations : Nat

variable {σ H : Type} (sys : System σ H)

/-- The options are dumped where `parseCommandLine` ends. -/
def readOptions (args : List Text) : Setup CommandLineOptions :=
  match parseCommandLine sys.abbreviated sys.permute args with
  | .ok options => do
      report (dump options)
      return options
  | .error .usage => do
      report (sys.getoptMessage args)
      throw (.exception "could not parse command line\n".toList)
  | .error (.number reason) => throw (.exception (sys.numberWhat reason))

def createLogger (options : CommandLineOptions) : Setup Unit :=
  match ExecutionLogger.construct options.jsonExecLog (sys.opens options.jsonExecLog) with
  | .ok logger => modify fun w => { w with logger := logger }
  | .error what => throw (.exception what)

def isaThrown : IsaFailure → Thrown
  | .invalidIsaString inputIsa msg => .exception
      ("Invalid ISA string \"".toList ++ inputIsa ++ "\": ".toList ++ msg)
  | .invalidArgument msg => .exception msg
  | .outOfRange => .exception sys.outOfRangeWhat
  | .undefinedBehaviour => .undefinedBehaviour

def readExtensions (options : CommandLineOptions) : Setup (RVMExtDescriptor × Bool) :=
  match requestedExtensions options with
  | .ok requested => pure requested
  | .error e => throw (isaThrown sys e)

def buildModel (vTable : RVM_FunctionPointers σ) (config : RVMConfig ExecutionLogger) : Setup σ :=
  match Builder.build vTable.modelCreate config with
  | .ok model => pure model
  | .error text => throw (.exception ("failed to build RVMState: ".toList ++ text))

def prepare (args : List Text) : Setup (CommandLineOptions × RVM_FunctionPointers σ × σ) := do
  let options ← readOptions sys args
  let vTable ← loadModelLibrary sys.linker sys.modelPath options
  createLogger sys options
  let (exts, isRV64) ← readExtensions sys options
  let model ← buildModel vTable (launchConfig options exts isRV64)
  return (options, vTable, model)

/-! ## `main` -/

/-- What a run leaves. There is no exit status when it does not end normally, and then the
log is not closed. -/
structure Outcome where
  status : Option ExitStatus
  cout : Text
  cerr : Text
  files : List (Text × Text)
  log : Option Text

/-- The launchers differ in `steps`. -/
def program (steps : LauncherModel σ → DriverOptions → Launcher σ Bool) (args : List Text) :
    Outcome :=
  match prepare sys args {} with
  | .error (.exception what) v =>
      ⟨some .FAILURE, v.cout, v.cerr ++ caught what, [], v.logger.destroy⟩
  | .error .undefinedBehaviour v => ⟨none, v.cout, v.cerr, [], v.logger.os⟩
  | .ok (options, vTable, model) v =>
      let M := vTable.state
      match launch M sys.load options.toDriverOptions sys.iterations
        (steps M options.toDriverOptions)
        { model := model, logger := v.logger, cerr := v.cerr, opens := sys.opens } with
      | .ok status w => ⟨some status, v.cout, w.cerr, w.files, w.logger.destroy⟩
      | .error _ w => ⟨none, v.cout, w.cerr, w.files, w.logger.os⟩

def driverProgram (args : List Text) : Outcome :=
  program sys (fun M options => driverSteps M options.allowExceptions) args

def interruptProgram (args : List Text) : Outcome := program sys interruptSteps args

/-! ## When a model is built -/

/-- Everything up to the model succeeds. -/
structure Prepared (args : List Text) (options : CommandLineOptions) (pointer : Text)
    (vTable : RVM_FunctionPointers σ) (logger : ExecutionLogger) (model : σ) : Prop where
  parsed : parseCommandLine sys.abbreviated sys.permute args = .ok options
  library : Provides sys.linker options
    (opened sys.linker (attempts sys.modelPath options.libraryPath)) pointer vTable
  log : ExecutionLogger.construct options.jsonExecLog (sys.opens options.jsonExecLog) = .ok logger
  model : ∃ exts isRV64 message, requestedExtensions options = .ok (exts, isRV64) ∧
    vTable.modelCreate (launchConfig options exts isRV64) = ⟨.SUCCESS, message, model⟩

/-- What has been printed by then. -/
def preparedTerminal (options : CommandLineOptions) (pointer : Text) (logger : ExecutionLogger) :
    Terminal where
  cout := "VTablePtr: ".toList ++ pointer ++ "\n".toList
  cerr := dump options ++ searchText sys.linker (attempts sys.modelPath options.libraryPath)
  logger := logger

section Prepare

variable {sys} {args : List Text} {options : CommandLineOptions} {w w' : Terminal}

theorem readOptions_eq_ok_iff :
    readOptions sys args w = .ok options w' ↔
      parseCommandLine sys.abbreviated sys.permute args = .ok options ∧
        w' = { w with cerr := w.cerr ++ dump options } := by
  unfold readOptions
  cases hparse : parseCommandLine sys.abbreviated sys.permute args with
  | ok parsed =>
      constructor
      · intro h
        cases h
        exact ⟨rfl, rfl⟩
      · rintro ⟨⟨⟩, rfl⟩
        rfl
  | error reason =>
      refine iff_of_false (fun h => ?_) fun h => by cases h.1
      cases reason with
      | usage => cases h
      | number reason => cases h

theorem createLogger_eq_ok_iff {u : Unit} :
    createLogger sys options w = .ok u w' ↔
      ∃ logger, ExecutionLogger.construct options.jsonExecLog (sys.opens options.jsonExecLog) =
        .ok logger ∧ w' = { w with logger := logger } := by
  unfold createLogger
  cases ExecutionLogger.construct options.jsonExecLog (sys.opens options.jsonExecLog) with
  | ok logger =>
      constructor
      · intro h
        cases h
        exact ⟨logger, rfl, rfl⟩
      · rintro ⟨_, ⟨⟩, rfl⟩
        rfl
  | error what =>
      refine iff_of_false (fun h => ?_) ?_
      · cases h
      · rintro ⟨_, ⟨⟩, _⟩

theorem readExtensions_eq_ok_iff {requested : RVMExtDescriptor × Bool} :
    readExtensions sys options w = .ok requested w' ↔
      requestedExtensions options = .ok requested ∧ w' = w := by
  unfold readExtensions
  cases requestedExtensions options with
  | ok found =>
      constructor
      · intro h
        cases h
        exact ⟨rfl, rfl⟩
      · rintro ⟨⟨⟩, rfl⟩
        rfl
  | error e => exact iff_of_false (fun h => by cases h) fun h => by cases h.1

theorem build_eq_ok_iff {modelCreate : RVMConfig ExecutionLogger → Builder.Created σ}
    {config : RVMConfig ExecutionLogger} {model : σ} :
    Builder.build modelCreate config = .ok model ↔
      ∃ message, modelCreate config = ⟨.SUCCESS, message, model⟩ := by
  unfold Builder.build
  generalize modelCreate config = created
  obtain ⟨err, message, model'⟩ := created
  show (if err ≠ .SUCCESS then _ else _) = _ ↔ _
  by_cases herr : err = .SUCCESS
  · rw [if_neg (not_not_intro herr), herr]
    constructor
    · rintro ⟨⟩
      exact ⟨message, rfl⟩
    · rintro ⟨_, ⟨⟩⟩
      rfl
  · rw [if_pos herr]
    refine iff_of_false (fun h => by cases h) ?_
    rintro ⟨_, ⟨⟩⟩
    exact herr rfl

theorem buildModel_eq_ok_iff {vTable : RVM_FunctionPointers σ} {config : RVMConfig ExecutionLogger}
    {model : σ} :
    buildModel vTable config w = .ok model w' ↔
      (∃ message, vTable.modelCreate config = ⟨.SUCCESS, message, model⟩) ∧ w' = w := by
  rw [← build_eq_ok_iff]
  unfold buildModel
  cases Builder.build vTable.modelCreate config with
  | ok built =>
      constructor
      · intro h
        cases h
        exact ⟨rfl, rfl⟩
      · rintro ⟨⟨⟩, rfl⟩
        rfl
  | error text => exact iff_of_false (fun h => by cases h) fun h => by cases h.1

theorem prepare_eq_ok_iff {vTable : RVM_FunctionPointers σ} {model : σ} :
    prepare sys args {} = .ok (options, vTable, model) w' ↔
      ∃ pointer logger, Prepared sys args options pointer vTable logger model ∧
        w' = preparedTerminal sys options pointer logger := by
  unfold prepare
  constructor
  · intro h
    obtain ⟨_, w₁, hread, hrest₁⟩ := bind_eq_ok_iff.mp h
    obtain ⟨hparsed, rfl⟩ := readOptions_eq_ok_iff.mp hread
    obtain ⟨_, w₂, hload, hrest₂⟩ := bind_eq_ok_iff.mp hrest₁
    obtain ⟨pointer, hlibrary, rfl⟩ := loadModelLibrary_eq_ok_iff.mp hload
    obtain ⟨_, w₃, hcreate, hrest₃⟩ := bind_eq_ok_iff.mp hrest₂
    obtain ⟨logger, hlog, rfl⟩ := createLogger_eq_ok_iff.mp hcreate
    obtain ⟨⟨exts, isRV64⟩, w₄, hrequest, hrest₄⟩ := bind_eq_ok_iff.mp hrest₃
    obtain ⟨hexts, rfl⟩ := readExtensions_eq_ok_iff.mp hrequest
    obtain ⟨_, w₅, hbuild, hrest₅⟩ := bind_eq_ok_iff.mp hrest₄
    obtain ⟨⟨message, hmodel⟩, rfl⟩ := buildModel_eq_ok_iff.mp hbuild
    cases hrest₅
    exact ⟨pointer, logger, ⟨hparsed, hlibrary, hlog, exts, isRV64, message, hexts, hmodel⟩, rfl⟩
  · rintro ⟨pointer, logger, ⟨hparsed, hlibrary, hlog, exts, isRV64, message, hexts, hmodel⟩, rfl⟩
    rw [bind_ok (readOptions_eq_ok_iff.mpr ⟨hparsed, rfl⟩),
      bind_ok (loadModelLibrary_eq_ok_iff.mpr ⟨pointer, hlibrary, rfl⟩),
      bind_ok (createLogger_eq_ok_iff (u := ()).mpr ⟨logger, hlog, rfl⟩),
      bind_ok (readExtensions_eq_ok_iff.mpr ⟨hexts, rfl⟩)]
    show (buildModel vTable (launchConfig options exts isRV64) >>= _) _ = _
    rw [bind_ok (buildModel_eq_ok_iff.mpr ⟨⟨message, hmodel⟩, rfl⟩)]
    rfl

end Prepare

/-! ## Runs that end well -/

/-- The loop goes on behind the step: it is passed over, and the reads that are made for
the log and for the exception succeed. -/
structure PassedOver (M : Model σ) (allowExceptions : Text) (isOpen : Bool) (s : σ) : Prop where
  retires : Retires M isOpen s
  continues : Continues M allowExceptions s
  mcause : (M.executeInstr s).status = .EXCEPTION →
    (M.readCSR RVM_CSR_MCAUSE (M.next s)).1 = .SUCCESS

/-- One of the first `limit` steps finishes, and leaves `s'`, behind steps that are passed
over. -/
def EndsWell (M : Model σ) (allowExceptions : Text) (isOpen : Bool) (limit : Nat) (s s' : σ) :
    Prop :=
  ∃ k < limit, (Retires M isOpen (M.next^[k] s) ∧ Finishes M (M.next^[k] s)) ∧
    (∀ j < k, PassedOver M allowExceptions isOpen (M.next^[j] s)) ∧ s' = M.next^[k + 1] s

section Loop

variable {M : Model σ} {allowExceptions : Text} {isOpen : Bool} {limit : Nat} {s s' : σ}

theorem not_endsWell_zero : ¬ EndsWell M allowExceptions isOpen 0 s s' := by
  rintro ⟨k, hk, _⟩
  exact Nat.not_lt_zero k hk

theorem endsWell_succ_iff :
    EndsWell M allowExceptions isOpen (limit + 1) s s' ↔
      Retires M isOpen s ∧ Finishes M s ∧ s' = M.next s ∨
        PassedOver M allowExceptions isOpen s ∧
          EndsWell M allowExceptions isOpen limit (M.next s) s' := by
  constructor
  · rintro ⟨k, hlt, ⟨hreads, hfinish⟩, hbefore, hstate⟩
    cases k with
    | zero => exact .inl ⟨hreads, hfinish, hstate⟩
    | succ k =>
        have hfirst : PassedOver M allowExceptions isOpen s := hbefore 0 (Nat.succ_pos k)
        refine .inr ⟨hfirst, k, Nat.lt_of_succ_lt_succ hlt, ⟨hreads, hfinish⟩, fun j hj => ?_, hstate⟩
        exact hbefore (j + 1) (Nat.succ_lt_succ hj)
  · rintro (⟨hreads, hfinish, hstate⟩ | ⟨hfirst, k, hlt, hlast, hbefore, hstate⟩)
    · exact ⟨0, Nat.succ_pos limit, ⟨hreads, hfinish⟩, fun j hj => absurd hj (Nat.not_lt_zero j),
        hstate⟩
    · refine ⟨k + 1, Nat.succ_lt_succ hlt, hlast, fun j hj => ?_, hstate⟩
      cases j with
      | zero => exact hfirst
      | succ j => exact hbefore j (Nat.lt_of_succ_lt_succ hj)

theorem endsWell_iff_of_finishes (hreads : Retires M isOpen s) (hfinish : Finishes M s) :
    EndsWell M allowExceptions isOpen (limit + 1) s s' ↔ s' = M.next s := by
  rw [endsWell_succ_iff]
  constructor
  · rintro (⟨_, _, hstate⟩ | ⟨hfirst, _⟩)
    · exact hstate
    · exact absurd hfirst.continues hfinish.not_continues
  · intro hstate
    exact .inl ⟨hreads, hfinish, hstate⟩

theorem endsWell_iff_of_passedOver (hfirst : PassedOver M allowExceptions isOpen s) :
    EndsWell M allowExceptions isOpen (limit + 1) s s' ↔
      EndsWell M allowExceptions isOpen limit (M.next s) s' := by
  rw [endsWell_succ_iff]
  constructor
  · rintro (⟨_, hfinish, _⟩ | ⟨_, hends⟩)
    · exact absurd hfirst.continues hfinish.not_continues
    · exact hends
  · intro hends
    exact .inr ⟨hfirst, hends⟩

theorem not_endsWell_of_not (hfinish : ¬ (Retires M isOpen s ∧ Finishes M s))
    (hfirst : ¬ PassedOver M allowExceptions isOpen s) :
    ¬ EndsWell M allowExceptions isOpen (limit + 1) s s' := by
  rw [endsWell_succ_iff]
  rintro (⟨hreads, hfinish', _⟩ | ⟨hfirst', _⟩)
  · exact hfinish ⟨hreads, hfinish'⟩
  · exact hfirst hfirst'

theorem exceptionVerdict_cases (M : Model σ) (allowExceptions : Text) (s : σ) :
    (M.readCSR RVM_CSR_MCAUSE s).1 ≠ .SUCCESS ∧
        exceptionVerdict M allowExceptions s = .error (M.readCSR RVM_CSR_MCAUSE s).1 ∨
      (M.readCSR RVM_CSR_MCAUSE s).1 = .SUCCESS ∧
        exceptionVerdict M allowExceptions s =
          if exceptionAllowed allowExceptions (M.readCSR RVM_CSR_MCAUSE s).2 then .ok none
          else .ok (some false) := by
  by_cases herr : (M.readCSR RVM_CSR_MCAUSE s).1 = .SUCCESS
  · exact .inr ⟨herr, if_neg (not_not_intro herr)⟩
  · exact .inl ⟨herr, if_pos herr⟩

theorem verdict_of_exception (h : (M.executeInstr s).status = .EXCEPTION) :
    verdict M allowExceptions s = exceptionVerdict M allowExceptions (M.next s) := by
  unfold verdict
  rw [h]

theorem verdict_eq_true_iff :
    verdict M allowExceptions s = .ok (some true) ↔ Finishes M s := by
  cases hstatus : (M.executeInstr s).status with
  | EXCEPTION =>
      refine iff_of_false (fun h => ?_) fun h => by cases hstatus.symm.trans h
      rw [verdict_of_exception hstatus] at h
      rcases exceptionVerdict_cases M allowExceptions (M.next s) with ⟨_, heq⟩ | ⟨_, heq⟩
      · rw [heq] at h
        cases h
      · rw [heq] at h
        by_cases hallowed : exceptionAllowed allowExceptions (M.readCSR RVM_CSR_MCAUSE (M.next s)).2
        · rw [if_pos hallowed] at h
          cases h
        · rw [if_neg hallowed] at h
          cases h
  | _ =>
      unfold verdict Finishes
      rw [hstatus]
      simp

theorem verdict_eq_none_iff :
    verdict M allowExceptions s = .ok none ↔ Continues M allowExceptions s ∧
      ((M.executeInstr s).status = .EXCEPTION →
        (M.readCSR RVM_CSR_MCAUSE (M.next s)).1 = .SUCCESS) := by
  cases hstatus : (M.executeInstr s).status with
  | EXCEPTION =>
      rw [verdict_of_exception hstatus]
      unfold Continues
      rw [hstatus, ← exceptionAllowed_iff]
      rcases exceptionVerdict_cases M allowExceptions (M.next s) with ⟨herr, heq⟩ | ⟨herr, heq⟩
      · rw [heq]
        exact iff_of_false (fun h => by cases h) fun h => herr (h.2 rfl)
      · rw [heq]
        by_cases hallowed : exceptionAllowed allowExceptions (M.readCSR RVM_CSR_MCAUSE (M.next s)).2
        · rw [if_pos hallowed]
          exact iff_of_true rfl ⟨.inr ⟨rfl, hallowed⟩, fun _ => herr⟩
        · rw [if_neg hallowed]
          refine iff_of_false (fun h => by cases h) ?_
          rintro ⟨hsuccess | ⟨_, h⟩, _⟩
          · cases hsuccess
          · exact hallowed h
  | _ =>
      unfold verdict Continues
      rw [hstatus]
      simp

theorem passedOver_iff :
    PassedOver M allowExceptions isOpen s ↔
      Retires M isOpen s ∧ verdict M allowExceptions s = .ok none := by
  rw [verdict_eq_none_iff]
  constructor
  · intro h
    exact ⟨h.retires, h.continues, h.mcause⟩
  · rintro ⟨hreads, hcontinues, hmcause⟩
    exact ⟨hreads, hcontinues, hmcause⟩

theorem not_endsWell_of_verdict {result : Except RVMErrorCode (Option Bool)}
    (hverdict : verdict M allowExceptions s = result) (htrue : result ≠ .ok (some true))
    (hnone : result ≠ .ok none) : ¬ EndsWell M allowExceptions isOpen (limit + 1) s s' := by
  refine not_endsWell_of_not (fun h => htrue ?_) fun h => hnone ?_
  · exact hverdict.symm.trans (verdict_eq_true_iff.mpr h.2)
  · exact hverdict.symm.trans (passedOver_iff.mp h).2

/-- The loop ends well exactly behind the first step that finishes. -/
theorem stepLoop_true_iff (M : Model σ) (allowExceptions : Text) (limit : Nat) (w : World σ) :
    (∃ w', stepLoop M allowExceptions limit w = .ok true w' ∧ w'.model = s') ↔
      EndsWell M allowExceptions w.logger.os.isSome limit w.model s' := by
  induction limit generalizing w with
  | zero =>
      refine iff_of_false ?_ not_endsWell_zero
      rintro ⟨_, ⟨⟩, _⟩
  | succ limit ih =>
      by_cases hreads : Retires M w.logger.os.isSome w.model
      · obtain ⟨logger, hretire, hos⟩ := retireInstr_of_retires hreads
        have hcheck := checkResult_eq M allowExceptions (w := ⟨M.next w.model, logger⟩)
          (s := w.model) rfl
        -- the result of the step is its verdict, and only `none` goes on
        generalize hverdict : verdict M allowExceptions w.model = result at hcheck
        match result with
        | .ok none =>
            have hlater := ih ⟨M.next w.model, logger⟩
            rw [hos] at hlater
            rw [stepLoop_continue hretire hcheck, hlater,
              endsWell_iff_of_passedOver (passedOver_iff.mpr ⟨hreads, hverdict⟩)]
        | .ok (some true) =>
            have hloop : stepLoop M allowExceptions (limit + 1) w =
                .ok true ⟨M.next w.model, logger⟩ := (bind_ok hretire).trans (bind_ok hcheck)
            rw [hloop, endsWell_iff_of_finishes hreads (verdict_eq_true_iff.mp hverdict)]
            constructor
            · rintro ⟨_, ⟨⟩, hstate⟩
              exact hstate.symm
            · rintro rfl
              exact ⟨_, rfl, rfl⟩
        | .ok (some false) =>
            have hloop : stepLoop M allowExceptions (limit + 1) w =
                .ok false ⟨M.next w.model, logger⟩ := (bind_ok hretire).trans (bind_ok hcheck)
            rw [hloop]
            refine iff_of_false ?_ (not_endsWell_of_verdict hverdict (by rintro ⟨⟩) (by rintro ⟨⟩))
            rintro ⟨_, ⟨⟩, _⟩
        | .error err =>
            have hloop : stepLoop M allowExceptions (limit + 1) w =
                .error err ⟨M.next w.model, logger⟩ := (bind_ok hretire).trans (bind_error hcheck)
            rw [hloop]
            refine iff_of_false ?_ (not_endsWell_of_verdict hverdict (by rintro ⟨⟩) (by rintro ⟨⟩))
            rintro ⟨_, ⟨⟩, _⟩
      · refine iff_of_false ?_ (not_endsWell_of_not (fun h => hreads h.1) fun h => hreads h.retires)
        rintro ⟨_, hok, _⟩
        obtain ⟨_, _, hretire, _⟩ := bind_eq_ok_iff.mp hok
        exact hreads (retires_of_retireInstr hretire).1

end Loop

theorem driverSteps_true_iff (M : LauncherModel σ) (allowExceptions : Text) (w : LaunchWorld σ)
    {s' : σ} :
    (∃ w', driverSteps M allowExceptions w = .ok true w' ∧ w'.model = s') ↔
      EndsWell M.toModel allowExceptions w.logger.os.isSome MAX_ALLOWED_STEPS w.model s' := by
  refine Iff.trans ?_ (stepLoop_true_iff M.toModel allowExceptions MAX_ALLOWED_STEPS (simWorld w))
  have halong := along_driverSteps M allowExceptions
  constructor
  · rintro ⟨w', hsteps, hstate⟩
    exact ⟨simWorld w', halong.ok hsteps, hstate⟩
  · rintro ⟨v, hmain, hstate⟩
    obtain ⟨w', hsteps, rfl⟩ := halong.of_ok hmain
    exact ⟨w', hsteps, hstate⟩

/-- There is no executable, or it is loaded and runs up to its end. -/
def Completes (M : LauncherModel σ) (load : Text → Option Image) (options : DriverOptions)
    (iterations : Nat) (w : LaunchWorld σ) (s' : σ) : Prop :=
  options.executableFile = [] ∧ s' = w.model ∨
    options.executableFile ≠ [] ∧ ∃ s, Loaded M load options iterations w s ∧
      EndsWell M.toModel options.allowExceptions w.logger.os.isSome MAX_ALLOWED_STEPS s s'

theorem runExecutable_true_iff {M : LauncherModel σ} {load : Text → Option Image}
    {options : DriverOptions} {iterations : Nat} {w : LaunchWorld σ} {s' : σ} :
    (∃ w', runExecutable M load options iterations (driverSteps M options.allowExceptions) w =
        .ok true w' ∧ w'.model = s') ↔ Completes M load options iterations w s' := by
  unfold runExecutable Completes
  by_cases hfile : options.executableFile = []
  · rw [hfile]
    constructor
    · rintro ⟨w', hok, hstate⟩
      cases hok
      exact .inl ⟨rfl, hstate.symm⟩
    · rintro (⟨_, hstate⟩ | ⟨hne, _⟩)
      · exact ⟨w, rfl, hstate.symm⟩
      · exact absurd rfl hne
  · rw [if_neg fun h => hfile (List.isEmpty_iff.mp h)]
    constructor
    · rintro ⟨w', hok, hstate⟩
      obtain ⟨_, w₁, hload, hrest⟩ := bind_eq_ok_iff.mp hok
      obtain ⟨v, hparse, rfl⟩ := liftLoad_eq_ok_iff.mp hload
      exact .inr ⟨hfile, _, ⟨v, hparse, rfl⟩, (driverSteps_true_iff M _ _).mp ⟨w', hrest, hstate⟩⟩
    · rintro (⟨hnone, _⟩ | ⟨_, s, ⟨v, hparse, rfl⟩, hruns⟩)
      · exact absurd hnone hfile
      · have hload := liftLoad_eq_ok_iff (w := w).mpr ⟨v, hparse, rfl⟩
        obtain ⟨w', hsteps, hstate⟩ := (driverSteps_true_iff M options.allowExceptions
          { w with model := M.setStopMode (stopModeOf options) v.model, cerr := v.cerr }).mpr hruns
        exact ⟨w', (bind_ok hload).trans hsteps, hstate⟩

/-! ## The exit status -/

/-- The world in which the model starts. -/
def preparedWorld (options : CommandLineOptions) (logger : ExecutionLogger) (model : σ) :
    LaunchWorld σ where
  model := model
  logger := logger
  cerr := dump options ++ searchText sys.linker (attempts sys.modelPath options.libraryPath)
  opens := sys.opens

section Status

variable {sys} {steps : LauncherModel σ → DriverOptions → Launcher σ Bool} {args : List Text}

/-- What was prepared is run, and what the run leaves is what the program leaves. -/
theorem program_of_prepared {options : CommandLineOptions} {pointer : Text}
    {vTable : RVM_FunctionPointers σ} {logger : ExecutionLogger} {model : σ}
    (h : Prepared sys args options pointer vTable logger model) :
    program sys steps args =
      match launch vTable.state sys.load options.toDriverOptions sys.iterations
        (steps vTable.state options.toDriverOptions) (preparedWorld sys options logger model) with
      | .ok status w =>
          ⟨some status, "VTablePtr: ".toList ++ pointer ++ "\n".toList, w.cerr, w.files,
            w.logger.destroy⟩
      | .error _ w =>
          ⟨none, "VTablePtr: ".toList ++ pointer ++ "\n".toList, w.cerr, w.files, w.logger.os⟩ := by
  unfold program
  rw [prepare_eq_ok_iff.mpr ⟨pointer, logger, h, rfl⟩]
  rfl

/-- A program that ends well has been prepared, and its run has ended well. -/
theorem program_success_iff :
    (program sys steps args).status = some .SUCCESS ↔
      ∃ options pointer vTable logger model, Prepared sys args options pointer vTable logger model ∧
        ∃ w', launch vTable.state sys.load options.toDriverOptions sys.iterations
          (steps vTable.state options.toDriverOptions) (preparedWorld sys options logger model) =
            .ok .SUCCESS w' := by
  constructor
  · intro h
    cases hprepare : prepare sys args {} with
    | error e v =>
        unfold program at h
        rw [hprepare] at h
        cases e with
        | exception what => cases h
        | undefinedBehaviour => cases h
    | ok prepared v =>
        obtain ⟨options, vTable, model⟩ := prepared
        obtain ⟨pointer, logger, hprepared, rfl⟩ := prepare_eq_ok_iff.mp hprepare
        rw [program_of_prepared hprepared] at h
        refine ⟨options, pointer, vTable, logger, model, hprepared, ?_⟩
        cases hlaunch : launch vTable.state sys.load options.toDriverOptions sys.iterations
          (steps vTable.state options.toDriverOptions) (preparedWorld sys options logger model) with
        | ok status w' =>
            rw [hlaunch] at h
            obtain rfl : status = .SUCCESS := Option.some.inj h
            exact ⟨w', rfl⟩
        | error e w' =>
            rw [hlaunch] at h
            cases h
  · rintro ⟨options, pointer, vTable, logger, model, hprepared, w', hlaunch⟩
    rw [program_of_prepared hprepared, hlaunch]

/-- `Driver.cpp` ends with the exit status for success exactly when the command line is
accepted, a library of the expected version is found, the log and the model can be opened
and built, the executable is loaded and finishes in time behind steps that may be passed
over, with a log only among steps whose reads succeed, and the state can be dumped. -/
theorem driverProgram_success_iff (sys : System σ H) (args : List Text) :
    (driverProgram sys args).status = some .SUCCESS ↔
      ∃ options pointer vTable logger model s',
        Prepared sys args options pointer vTable logger model ∧
        Completes vTable.state sys.load options.toDriverOptions sys.iterations
          (preparedWorld sys options logger model) s' ∧
        Dumpable vTable.state options.toDriverOptions s' := by
  unfold driverProgram
  rw [program_success_iff]
  constructor
  · rintro ⟨options, pointer, vTable, logger, model, hprepared, w', hlaunch⟩
    obtain ⟨w₁, hrun, hwrite⟩ := launch_success_iff.mp hlaunch
    exact ⟨options, pointer, vTable, logger, model, w₁.model, hprepared,
      runExecutable_true_iff.mp ⟨w₁, hrun, rfl⟩, (writeState_ok_iff w₁).mp ⟨w', hwrite⟩⟩
  · rintro ⟨options, pointer, vTable, logger, model, s', hprepared, hcompletes, hdump⟩
    obtain ⟨w₁, hrun, rfl⟩ := runExecutable_true_iff.mpr hcompletes
    obtain ⟨w', hwrite⟩ := (writeState_ok_iff w₁).mpr hdump
    exact ⟨options, pointer, vTable, logger, model, hprepared, w',
      launch_success_iff.mpr ⟨w₁, hrun, hwrite⟩⟩

end Status

/-! ## A system with a scripted simulator -/

def scriptVTable : RVM_FunctionPointers Script where
  toLoaderModel := scriptModel.toLoaderModel
  modelCreate _ := ⟨.SUCCESS, [], [.SUCCESS, .FINISH]⟩
  setStopMode := scriptModel.setStopMode
  raiseInterrupt := scriptModel.raiseInterrupt
  clearInterrupt := scriptModel.clearInterrupt
  readVReg := scriptModel.readVReg
  getErrorContext _ _ _ := ([], 0)

/-- The only library is in the current directory. -/
def scriptLinker : Linker Script Unit where
  dlopen path := if path = "./libRISCVModel.so".toList then .ok () else .error "no such file".toList
  version libHandle _ := if libHandle.isSome then .ok 38 else .error "undefined symbol".toList
  vTable _ _ := .ok ("0x1000".toList, scriptVTable)

def scriptSystem : System Script Unit where
  abbreviated _ := none
  permute := true
  getoptMessage _ := []
  numberWhat _ := "stoull".toList
  outOfRangeWhat := []
  linker := scriptLinker
  modelPath := "/build/libRISCVModel.so".toList
  opens _ := true
  load := elfio bssImage
  iterations := 1

def scriptWords : List Text :=
  ["--rvm-exec-file-path".toList, "a.out".toList, "--driver-json-exec-log".toList,
    "log.json".toList]

def scriptOptions : CommandLineOptions :=
  { executableFile := "a.out".toList, jsonExecLog := "log.json".toList }

/-- Its run ends well, with a log. -/
theorem driverProgram_success_scriptSystem :
    (driverProgram scriptSystem scriptWords).status = some .SUCCESS := by
  have hprepared : Prepared scriptSystem scriptWords scriptOptions "0x1000".toList scriptVTable
      freshLog [.SUCCESS, .FINISH] := by
    refine ⟨rfl, ⟨⟨38, ?_, rfl⟩, rfl⟩, rfl, defaultExtensions, true, [], rfl, rfl⟩
    rfl
  have hreads (s : Script) : Retires scriptVTable.state.toModel true s :=
    fun _ => ⟨rfl, rfl, fun _ _ => rfl, fun _ _ => rfl⟩
  have hcompletes : Completes scriptVTable.state scriptSystem.load scriptOptions.toDriverOptions
      scriptSystem.iterations
      (preparedWorld scriptSystem scriptOptions freshLog [.SUCCESS, .FINISH]) [] := by
    refine .inr ⟨List.cons_ne_nil _ _, [.SUCCESS, .FINISH], ⟨_, rfl, rfl⟩, 1, by decide,
      ⟨hreads _, rfl⟩, fun j hj => ?_, rfl⟩
    obtain rfl : j = 0 := by omega
    exact ⟨hreads _, .inl rfl, fun _ => rfl⟩
  exact (driverProgram_success_iff scriptSystem scriptWords).mpr
    ⟨scriptOptions, _, scriptVTable, freshLog, _, [], hprepared, hcompletes, .inr ⟨_, rfl⟩⟩

end Rvmi.Launch
