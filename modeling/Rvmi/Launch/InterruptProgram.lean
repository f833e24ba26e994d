import Rvmi.Launch.Interrupt
import Rvmi.Launch.Program

/-!
# The interrupt launcher as a program

It ends well exactly when what `main` prepares is there and both loops return beside their
limits, as the recorded calls of a run tell.
-/

namespace Rvmi.Launch

open Rvmi.Foundation Rvmi.Log Rvmi.Elf

variable {σ H : Type}

/-- The executable is loaded, the interrupt is raised between loops that both return, neither
with its counter at the limit, and the state can be written at the end. -/
def GoesThrough (M : LauncherModel σ) (load : Text → Option Image) (options : DriverOptions)
    (iterations : Nat) (w : LaunchWorld σ) : Prop :=
  ∃ s s₂ before after i₁ i₂, Loaded M load options iterations w s ∧
    RunsThrough M options w.logger.os.isSome s s₂ before after i₁ i₂ ∧
    BesideLimit M options s s₂

section Main

variable {M : LauncherModel σ} {load : Text → Option Image} {options : DriverOptions}
  {iterations : Nat} {w : LaunchWorld σ}

/-- A recording model is told nothing but what it records. -/
theorem interruptMain_recorded_iff : (∃ w', interruptMain M load options iterations w =
      .ok .SUCCESS w') ↔
    ∃ w', interruptMain (recording M) load options iterations w.recorded = .ok .SUCCESS w' := by
  have halong := interruptMain_recording M load options iterations
  constructor
  · rintro ⟨w', h⟩
    obtain ⟨v, hv, -⟩ := halong.of_ok (w := w.recorded) h
    exact ⟨v, hv⟩
  · rintro ⟨v, hv⟩
    exact ⟨_, halong.ok hv⟩

/-- Without an executable only the state is written. -/
theorem interruptMain_idle_iff (hnone : options.executableFile = []) :
    (∃ w', interruptMain M load options iterations w = .ok .SUCCESS w') ↔
      Dumpable M options w.model := by
  have hidle : runExecutable M load options iterations (interruptSteps M options) w =
      .ok true w := by
    unfold runExecutable
    rw [hnone]
    rfl
  rw [← writeState_ok_iff]
  constructor
  · rintro ⟨w', h⟩
    obtain ⟨w₁, hrun, hwrite⟩ := launch_success_iff.mp h
    rw [hidle] at hrun
    cases hrun
    exact ⟨w', hwrite⟩
  · rintro ⟨w', hwrite⟩
    exact ⟨w', launch_success_iff.mpr ⟨w, hidle, hwrite⟩⟩

/-- With one, the recorded calls of a success have the interrupt between two loops. -/
theorem interruptMain_goesThrough_iff (hfile : options.executableFile ≠ []) :
    (∃ w', interruptMain M load options iterations w = .ok .SUCCESS w') ↔
      GoesThrough M load options iterations w := by
  rw [interruptMain_recorded_iff]
  constructor
  · rintro ⟨w', h⟩
    obtain ⟨w₂, hrun, hwrite⟩ := launch_success_iff.mp h
    have hkept : w'.model = w₂.model := (moves_writeState _ _).ok hwrite
    rcases runExecutable_recording M load options iterations w
      (interruptSteps (recording M) options) with
      ⟨hnone, _⟩ | ⟨_, _, e, w₁, herror, _⟩ | ⟨_, s, w₁, _, hstart, _, hsteps⟩
    · exact absurd hnone hfile
    · rw [herror] at hrun
      cases hrun
    · rw [hsteps] at hrun
      obtain ⟨before, after, _, _, _, _, _, _, _, _, _, hcalls⟩ :=
        (interruptSteps_success_iff (M := M) (congrArg Prod.snd hstart)).mp ⟨w₂, hrun, rfl⟩
      have hcalls' : w'.calls = before ++ .raiseInterrupt interrupt_cause :: after := by
        rw [← hcalls]
        exact congrArg Prod.snd hkept
      obtain ⟨_, s, s₂, i₁, i₂, hloaded, hthrough, hne₁, hne₂⟩ :=
        runsThrough_of_interruptMain h hcalls'
      exact ⟨s, s₂, before, after, i₁, i₂, hloaded, hthrough,
        hthrough.besideLimit_iff.mpr ⟨hne₁, hne₂⟩⟩
  · rintro ⟨s, s₂, before, after, i₁, i₂, hloaded, hthrough, hbeside⟩
    obtain ⟨hne₁, hne₂⟩ := hthrough.besideLimit_iff.mp hbeside
    obtain ⟨w', hsuccess, _⟩ := interruptMain_of_runsThrough hfile hloaded hthrough hne₁ hne₂
    exact ⟨w', hsuccess⟩

end Main

/-- `InterruptDriver.cpp` ends with the exit status for success exactly when everything in
front of the run can be prepared, and then, without an executable, the state can be dumped,
or, with one, the run goes through. -/
theorem interruptProgram_success_iff (sys : System σ H) (args : List Text) :
    (interruptProgram sys args).status = some .SUCCESS ↔
      ∃ options pointer vTable logger model, Prepared sys args options pointer vTable logger model ∧
        (options.executableFile = [] ∧ Dumpable vTable.state options.toDriverOptions model ∨
          options.executableFile ≠ [] ∧ GoesThrough vTable.state sys.load options.toDriverOptions
            sys.iterations (preparedWorld sys options logger model)) := by
  unfold interruptProgram
  rw [program_success_iff]
  constructor
  · rintro ⟨options, pointer, vTable, logger, model, hprepared, hlaunch⟩
    refine ⟨options, pointer, vTable, logger, model, hprepared, ?_⟩
    by_cases hfile : options.executableFile = []
    · exact .inl ⟨hfile, (interruptMain_idle_iff hfile).mp hlaunch⟩
    · exact .inr ⟨hfile, (interruptMain_goesThrough_iff hfile).mp hlaunch⟩
  · rintro ⟨options, pointer, vTable, logger, model, hprepared, hrun⟩
    refine ⟨options, pointer, vTable, logger, model, hprepared, ?_⟩
    rcases hrun with ⟨hnone, hdump⟩ | ⟨hfile, hthrough⟩
    · exact (interruptMain_idle_iff hnone).mpr hdump
    · exact (interruptMain_goesThrough_iff hfile).mpr hthrough

end Rvmi.Launch
