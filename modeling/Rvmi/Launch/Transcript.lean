import Rvmi.Launch.Program

/-!
# What a run prints

A run that ends well prints the options, the search for the library, a warning at most,
the end of the simulation and the state, and nothing else. One that ends with the other
exit status prints why.
-/

namespace Rvmi.Launch

open Rvmi.Foundation Rvmi.Log Rvmi.Elf Rvmi.Isa

variable {σ : Type}

/-! ## The loader -/

/-- What is printed about the width of the executable. -/
def widthWarning (M : LoaderModel σ) (image : Image) (s : σ) : Text :=
  if image.elfClass = ELFCLASS64 ∧ M.rv64 s = false then
    "warning: launching 64-bit executable on a 32-bit simulator. ".toList ++
      "Hope, you know what you are doing\n".toList
  else if image.elfClass = ELFCLASS32 ∧ M.rv64 s = true then
    "warning: launching 32-bit executable on a 64-bit simulator. ".toList ++
      "Hope, you know what you are doing\n".toList
  else []

theorem warnIf_ok {condition : Bool} {text : Text} {v v' : LoadWorld σ} {u : Unit}
    (h : warnIf condition text v = .ok u v') :
    v'.cerr = v.cerr ++ if condition = true then text else [] := by
  unfold warnIf at h
  cases condition with
  | true =>
      cases h
      rfl
  | false =>
      cases h
      exact (List.append_nil _).symm

theorem checkClass_cerr {M : LoaderModel σ} {image : Image} {v v' : LoadWorld σ} {u : Unit}
    (h : checkClass M image v = .ok u v') : v'.cerr = v.cerr ++ widthWarning M image v.model := by
  unfold checkClass at h
  rw [get_bind] at h
  have hwidths : ELFCLASS32 ≠ ELFCLASS64 := by decide
  unfold widthWarning
  by_cases h64 : image.elfClass = ELFCLASS64
  · rw [if_pos h64] at h
    have hcerr := warnIf_ok h
    cases hbits : M.rv64 v.model with
    | true =>
        rw [hbits] at hcerr
        rw [if_neg fun h => Bool.noConfusion h.2, if_neg fun h => hwidths (h.1.symm.trans h64)]
        exact hcerr
    | false =>
        rw [hbits] at hcerr
        rw [if_pos ⟨h64, rfl⟩]
        exact hcerr
  · rw [if_neg h64] at h
    by_cases h32 : image.elfClass = ELFCLASS32
    · rw [if_pos h32] at h
      have hcerr := warnIf_ok h
      rw [if_neg fun h => h64 h.1]
      cases hbits : M.rv64 v.model with
      | true =>
          rw [hbits] at hcerr
          rw [if_pos ⟨h32, rfl⟩]
          exact hcerr
      | false =>
          rw [hbits] at hcerr
          rw [if_neg fun h => Bool.noConfusion h.2]
          exact hcerr
    · rw [if_neg h32] at h
      cases h

theorem moves_checkedCall (f : σ → RVMErrorCode × σ) :
    Moves (Same LoadWorld.cerr) (Elf.checkedCall f) := by
  refine Moves.bind (fun _ => rfl) fun err => Moves.ite (moves_throw _) (moves_pure ())

theorem initStopPC_cerr {M : LoaderModel σ} {image : Image} {iterations : Nat}
    {v v' : LoadWorld σ} {u : Unit} (h : initStopPC M image iterations v = .ok u v') :
    v'.cerr = v.cerr := by
  cases hfind : image.symtab? with
  | none =>
      unfold initStopPC findSymtab at h
      rw [hfind] at h
      cases h
  | some symtab =>
      rw [initStopPC_of_found hfind] at h
      obtain ⟨stopPC, w₁, hstop, hset⟩ := bind_eq_ok_iff.mp h
      obtain ⟨_, rfl⟩ := findStopPC_eq_ok_iff.mp hstop
      exact (moves_checkedCall _).ok hset

theorem parseELFAndInit_cerr {M : LoaderModel σ} {load : Text → Option Image} {path : Text}
    {iterations : Nat} {image : Image} {v v' : LoadWorld σ} {u : Unit}
    (hload : load path = some image)
    (h : parseELFAndInit M load path iterations v = .ok u v') :
    v'.cerr = v.cerr ++ widthWarning M image v.model := by
  unfold parseELFAndInit at h
  rw [bind_ok (readImage_eq hload v)] at h
  obtain ⟨_, v₁, hmachine, hrest₁⟩ := bind_eq_ok_iff.mp h
  obtain ⟨_, rfl⟩ := checkMachine_eq_ok_iff.mp hmachine
  obtain ⟨_, v₂, hclass, hrest₂⟩ := bind_eq_ok_iff.mp hrest₁
  obtain ⟨_, v₃, hset, hrest₃⟩ := bind_eq_ok_iff.mp hrest₂
  obtain ⟨_, v₄, hsegs, hrest₄⟩ := bind_eq_ok_iff.mp hrest₃
  have hcerr₃ : v₃.cerr = v₂.cerr := (moves_checkedCall _).ok hset
  rw [initStopPC_cerr hrest₄, (loadSegments_eq_ok_iff.mp hsegs).2, hcerr₃]
  exact checkClass_cerr hclass

/-! ## The steps -/

def simulationEnd : Text := "proper simulation end\n".toList

/-- Why the steps did not end well. -/
inductive Complaint : Text → Prop
  | exception (mcause : RVMRegT) : Complaint ("step failure (unexpected exception ".toList ++
      decDigits mcause.toNat ++ "), terminating\n".toList)
  | unexpected : Complaint "unexpected step result\n".toList
  | limit : Complaint ("maximum number of steps (".toList ++ decDigits MAX_ALLOWED_STEPS ++
      " exceeded\n".toList)

/-- What the steps print tells how they ended. -/
def Told (execSuccess : Bool) (text : Text) : Prop :=
  if execSuccess then text = simulationEnd else Complaint text

theorem cerr_liftSim {α : Type} (x : Sim σ α) : Moves (Same LaunchWorld.cerr) (liftSim x) := by
  intro w
  cases hx : x ⟨w.model, w.logger⟩ with
  | ok a v =>
      rw [liftSim_of_ok hx]
      rfl
  | error e v =>
      rw [liftSim_of_error hx]
      rfl

section Steps

variable {M : LauncherModel σ} {allowExceptions : Text} {w w' : LaunchWorld σ}

/-- A step that goes on prints nothing. -/
theorem driverResult_cerr {result : RVMSimExecStatus} {answer : Option Bool}
    (h : driverResult M allowExceptions result w = .ok answer w') :
    (answer = none → w'.cerr = w.cerr) ∧
      ∀ execSuccess, answer = some execSuccess →
        ∃ text, Told execSuccess text ∧ w'.cerr = w.cerr ++ text := by
  cases result with
  | SUCCESS =>
      cases h
      exact ⟨fun _ => rfl, by rintro _ ⟨⟩⟩
  | FINISH =>
      cases h
      refine ⟨by rintro ⟨⟩, ?_⟩
      rintro _ ⟨⟩
      exact ⟨simulationEnd, rfl, rfl⟩
  | other code =>
      cases h
      refine ⟨by rintro ⟨⟩, ?_⟩
      rintro _ ⟨⟩
      exact ⟨_, .unexpected, rfl⟩
  | EXCEPTION =>
      change (liftSim (Log.checkAndThrow (M.readCSR RVM_CSR_MCAUSE w.model).1) >>= _) w = _ at h
      obtain ⟨_, w₁, hread, hrest⟩ := bind_eq_ok_iff.mp h
      have hcerr : w₁.cerr = w.cerr := (cerr_liftSim _).ok hread
      by_cases hallowed : exceptionAllowed allowExceptions (M.readCSR RVM_CSR_MCAUSE w.model).2
      · rw [if_pos hallowed] at hrest
        cases hrest
        exact ⟨fun _ => hcerr, by rintro _ ⟨⟩⟩
      · rw [if_neg hallowed] at hrest
        cases hrest
        refine ⟨by rintro ⟨⟩, ?_⟩
        rintro _ ⟨⟩
        refine ⟨_, .exception (M.readCSR RVM_CSR_MCAUSE w.model).2, ?_⟩
        rw [← hcerr]

/-- The counter only reaches the end of the steps when nothing has been printed. -/
theorem driverLoop_cerr {remaining i i' : Nat} {execSuccess : Bool}
    (h : driverLoop M allowExceptions remaining i w = .ok (i', execSuccess) w') :
    i' = i + remaining ∧ w'.cerr = w.cerr ∨
      i' < i + remaining ∧ ∃ text, Told execSuccess text ∧ w'.cerr = w.cerr ++ text := by
  induction remaining generalizing i w with
  | zero =>
      cases h
      exact .inl ⟨rfl, rfl⟩
  | succ remaining ih =>
      unfold driverLoop at h
      obtain ⟨result, w₁, hretire, hrest₁⟩ := bind_eq_ok_iff.mp h
      obtain ⟨answer, w₂, hresult, hrest₂⟩ := bind_eq_ok_iff.mp hrest₁
      have hcerr₁ : w₁.cerr = w.cerr := (cerr_liftSim _).ok hretire
      obtain ⟨hnone, hsome⟩ := driverResult_cerr hresult
      rw [hcerr₁] at hnone hsome
      cases answer with
      | none =>
          have hlater := ih hrest₂
          rw [hnone rfl, Nat.succ_add_eq_add_succ] at hlater
          exact hlater
      | some execSuccess' =>
          cases hrest₂
          exact .inr ⟨by omega, hsome _ rfl⟩

theorem limitTest_cases {limit i : Nat} {message : Text} {execSuccess result : Bool}
    (h : limitTest limit message i execSuccess w = .ok result w') :
    i = limit ∧ result = false ∧ w'.cerr = w.cerr ++ message ∨
      i ≠ limit ∧ result = execSuccess ∧ w' = w := by
  unfold limitTest at h
  by_cases hlimit : i = limit
  · rw [if_pos hlimit] at h
    cases h
    exact .inl ⟨hlimit, rfl, rfl⟩
  · rw [if_neg hlimit] at h
    cases h
    exact .inr ⟨hlimit, rfl, rfl⟩

theorem driverSteps_cerr {execSuccess : Bool}
    (h : driverSteps M allowExceptions w = .ok execSuccess w') :
    ∃ text, Told execSuccess text ∧ w'.cerr = w.cerr ++ text := by
  unfold driverSteps at h
  obtain ⟨⟨i, execSuccess₁⟩, w₁, hloop, hlimit⟩ := bind_eq_ok_iff.mp h
  rcases driverLoop_cerr hloop with ⟨hlast, hcerr⟩ | ⟨hearly, text, htold, hcerr⟩
  · rcases limitTest_cases hlimit with ⟨_, rfl, hprinted⟩ | ⟨hne, _, _⟩
    · rw [hcerr] at hprinted
      exact ⟨_, .limit, hprinted⟩
    · exact absurd (hlast.trans (Nat.zero_add _)) hne
  · rcases limitTest_cases hlimit with ⟨hlast, _, _⟩ | ⟨_, rfl, rfl⟩
    · omega
    · exact ⟨text, htold, hcerr⟩

end Steps

/-! ## A run of the model -/

/-- What is printed of the state. -/
def Shown (M : LauncherModel σ) (options : DriverOptions) (s : σ) (text : Text) : Prop :=
  if options.stateFile = "-".toList then dumpState M s = .ok text else text = []

/-- What is printed about the executable and its run. -/
def RunTold (M : LauncherModel σ) (load : Text → Option Image) (options : DriverOptions) (s : σ)
    (execSuccess : Bool) (text : Text) : Prop :=
  options.executableFile = [] ∧ execSuccess = true ∧ text = [] ∨
    options.executableFile ≠ [] ∧ ∃ image told, load options.executableFile = some image ∧
      Told execSuccess told ∧ text = widthWarning M.toLoaderModel image s ++ told

/-- The handler has printed the text of an exception. -/
def EndsInError (cerr : Text) : Prop :=
  ∃ printed what, cerr = printed ++ caught what

section Run

variable {M : LauncherModel σ} {load : Text → Option Image} {options : DriverOptions}
  {iterations : Nat} {w w' : LaunchWorld σ}

theorem readImage_some {path : Text} {image : Image} {v v' : LoadWorld σ}
    (h : readImage load path v = .ok image v') : load path = some image := by
  unfold readImage at h
  cases hload : load path with
  | none =>
      rw [hload] at h
      cases h
  | some found =>
      rw [hload] at h
      cases h
      rfl

theorem runExecutable_cerr {execSuccess : Bool}
    (h : runExecutable M load options iterations (driverSteps M options.allowExceptions) w =
      .ok execSuccess w') :
    ∃ text, RunTold M load options w.model execSuccess text ∧ w'.cerr = w.cerr ++ text := by
  unfold runExecutable at h
  by_cases hfile : options.executableFile = []
  · rw [hfile] at h
    cases h
    exact ⟨[], .inl ⟨hfile, rfl, rfl⟩, (List.append_nil _).symm⟩
  · rw [if_neg fun h => hfile (List.isEmpty_iff.mp h)] at h
    obtain ⟨_, w₁, hlift, hrest⟩ := bind_eq_ok_iff.mp h
    obtain ⟨v, hparse, rfl⟩ := liftLoad_eq_ok_iff.mp hlift
    obtain ⟨image, _, hread, _⟩ := bind_eq_ok_iff.mp hparse
    have hload := readImage_some hread
    have hwarning := parseELFAndInit_cerr hload hparse
    obtain ⟨told, htold, hcerr⟩ := driverSteps_cerr
      (w := { w with model := M.setStopMode (stopModeOf options) v.model, cerr := v.cerr }) hrest
    refine ⟨_, .inr ⟨hfile, image, told, hload, htold, rfl⟩, ?_⟩
    rw [hcerr, ← List.append_assoc]
    exact congrArg (· ++ told) hwarning

theorem writeState_cerr {u : Unit} (h : writeState M options w = .ok u w') :
    ∃ text, Shown M options w'.model text ∧ w'.cerr = w.cerr ++ text := by
  have hmodel : w'.model = w.model := (moves_writeState M options).ok h
  unfold Shown
  rw [hmodel]
  by_cases hfile : options.stateFile = []
  · have hcerr : options.stateFile ≠ "-".toList := by
      rw [hfile]
      decide
    unfold writeState at h
    rw [hfile] at h
    cases h
    refine ⟨[], ?_, (List.append_nil _).symm⟩
    rw [if_neg hcerr]
  · cases hdump : dumpState M w.model with
    | error e =>
        rw [writeState_of_error hfile hdump] at h
        cases h
    | ok state =>
        rw [writeState_of_ok hfile hdump] at h
        unfold putState at h
        by_cases hcerr : options.stateFile = "-".toList
        · rw [if_pos hcerr] at h
          cases h
          refine ⟨state, ?_, rfl⟩
          rw [if_pos hcerr]
        · rw [if_neg hcerr] at h
          cases h
          refine ⟨[], ?_, (List.append_nil _).symm⟩
          rw [if_neg hcerr]

theorem launchBody_cerr {status : ExitStatus}
    (h : launchBody M load options iterations (driverSteps M options.allowExceptions) w =
      .ok status w') :
    ∃ execSuccess text state, (status = .SUCCESS ↔ execSuccess = true) ∧
      RunTold M load options w.model execSuccess text ∧ Shown M options w'.model state ∧
      w'.cerr = w.cerr ++ (text ++ state) := by
  unfold launchBody at h
  obtain ⟨execSuccess, w₁, hrun, hrest⟩ := bind_eq_ok_iff.mp h
  obtain ⟨_, w₂, hwrite, hpure⟩ := bind_eq_ok_iff.mp hrest
  obtain ⟨text, htold, hcerr₁⟩ := runExecutable_cerr hrun
  obtain ⟨state, hshown, hcerr₂⟩ := writeState_cerr hwrite
  cases hpure
  refine ⟨execSuccess, text, state, ?_, htold, hshown, ?_⟩
  · cases execSuccess with
    | true => exact iff_of_true rfl rfl
    | false => exact iff_of_false ExitStatus.noConfusion Bool.noConfusion
  · rw [hcerr₂, hcerr₁, List.append_assoc]

/-- A run prints what its parts tell, or it was ended by an exception. -/
theorem driverMain_cerr {status : ExitStatus}
    (h : driverMain M load options iterations w = .ok status w') :
    (∃ execSuccess text state, (status = .SUCCESS ↔ execSuccess = true) ∧
      RunTold M load options w.model execSuccess text ∧ Shown M options w'.model state ∧
      w'.cerr = w.cerr ++ (text ++ state)) ∨
    status = .FAILURE ∧ EndsInError w'.cerr := by
  unfold driverMain launch at h
  cases hbody : launchBody M load options iterations (driverSteps M options.allowExceptions) w with
  | ok status' w₁ =>
      rw [tryCatch_ok hbody] at h
      cases h
      exact .inl (launchBody_cerr hbody)
  | error e w₁ =>
      rw [tryCatch_error hbody] at h
      right
      cases hwhat : what M w₁.model e with
      | none =>
          rw [handle_of_none hwhat] at h
          cases h
      | some text =>
          rw [handle_of_some hwhat] at h
          cases h
          exact ⟨rfl, w₁.cerr, text, rfl⟩

end Run

/-! ## The whole program -/

/-- What a run of `Driver.cpp` has printed that was not ended by an exception; the state is
the one in which the run has left the model. -/
def Transcript {H : Type} (sys : System σ H) (args : List Text) (execSuccess : Bool) (cerr : Text) :
    Prop :=
  ∃ options pointer vTable logger model, Prepared sys args options pointer vTable logger model ∧
    ∃ status w' text state, driverMain vTable.state sys.load options.toDriverOptions sys.iterations
        (preparedWorld sys options logger model) = .ok status w' ∧
      RunTold vTable.state sys.load options.toDriverOptions model execSuccess text ∧
      Shown vTable.state options.toDriverOptions w'.model state ∧
      cerr = dump options ++ searchText sys.linker (attempts sys.modelPath options.libraryPath) ++
        (text ++ state)

/-- The exit status and what is printed go together: a run that ends well prints nothing
that tells otherwise, and no run ends with the other exit status without printing why. -/
theorem driverProgram_transcript {H : Type} (sys : System σ H) (args : List Text) :
    ((driverProgram sys args).status = some .SUCCESS →
      Transcript sys args true (driverProgram sys args).cerr) ∧
    ((driverProgram sys args).status = some .FAILURE →
      Transcript sys args false (driverProgram sys args).cerr ∨
        EndsInError (driverProgram sys args).cerr) := by
  unfold driverProgram
  cases hprepare : prepare sys args {} with
  | error e v =>
      unfold program
      rw [hprepare]
      cases e with
      | undefinedBehaviour => exact ⟨by rintro ⟨⟩, by rintro ⟨⟩⟩
      | exception what => exact ⟨by rintro ⟨⟩, fun _ => .inr ⟨v.cerr, _, rfl⟩⟩
  | ok prepared v =>
      obtain ⟨options, vTable, model⟩ := prepared
      obtain ⟨pointer, logger, hprepared, rfl⟩ := prepare_eq_ok_iff.mp hprepare
      rw [program_of_prepared hprepared]
      cases hlaunch : driverMain vTable.state sys.load options.toDriverOptions sys.iterations
        (preparedWorld sys options logger model) with
      | error e w' =>
          unfold driverMain at hlaunch
          rw [hlaunch]
          exact ⟨by rintro ⟨⟩, by rintro ⟨⟩⟩
      | ok status w' =>
          have htold := driverMain_cerr hlaunch
          unfold driverMain at hlaunch
          rw [hlaunch]
          rcases htold with ⟨execSuccess, text, state, hstatus, htext, hstate, hcerr⟩ |
            ⟨rfl, herror⟩
          · have htranscript : Transcript sys args execSuccess w'.cerr :=
              ⟨options, pointer, vTable, logger, model, hprepared, status, w', text, state, hlaunch,
                htext, hstate, hcerr⟩
            constructor
            · intro h
              rw [hstatus.mp (Option.some.inj h)] at htranscript
              exact htranscript
            · intro h
              have hnot : execSuccess ≠ true := fun htrue =>
                ExitStatus.noConfusion ((hstatus.mpr htrue).symm.trans (Option.some.inj h))
              rw [Bool.eq_false_of_not_eq_true hnot] at htranscript
              exact .inl htranscript
          · exact ⟨by rintro ⟨⟩, fun _ => .inr herror⟩

end Rvmi.Launch
