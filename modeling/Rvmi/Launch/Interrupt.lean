import Rvmi.Launch.Phases
import Rvmi.Elf.Segments

/-!
# Runs of the interrupt launcher

Nothing behind the first loop depends on why that loop ended: the interrupt is raised
and the second loop runs behind a finished simulation too. The results that are taken
for a failure are compared with the wrong values, and the counters only with the limit
itself, so a successful exit status says less than it seems to.
-/

namespace Rvmi.Launch

open Rvmi.Foundation Rvmi.Log Rvmi.Elf

variable {σ : Type} {M : LauncherModel σ}

/-! ## Calls behind a finish -/

/-- No call follows the step that finishes the simulation. -/
def StopsAtFinish (calls : List Call) : Prop :=
  ∀ before after, calls = before ++ .executeInstr .FINISH :: after → after = []

def NoFinish (calls : List Call) : Prop := .executeInstr .FINISH ∉ calls

theorem NoFinish.stopsAtFinish {calls : List Call} (h : NoFinish calls) : StopsAtFinish calls := by
  rintro before after rfl
  exact absurd (List.mem_append_right before List.mem_cons_self) h

/-- The last call may be the finish. -/
theorem NoFinish.stopsAtFinish_append {calls : List Call} (h : NoFinish calls) (call : Call) :
    StopsAtFinish (calls ++ [call]) := by
  intro before after heq
  rcases List.eq_nil_or_concat after with rfl | ⟨after, last, rfl⟩
  · rfl
  · rw [List.concat_eq_append, ← List.cons_append, ← List.append_assoc] at heq
    have hcalls : calls = before ++ .executeInstr .FINISH :: after :=
      List.append_inj_left' heq rfl
    rw [hcalls] at h
    exact absurd (List.mem_append_right before List.mem_cons_self) h

theorem NoFinish.append {calls : List Call} (h : NoFinish calls) {call : Call}
    (hcall : call ≠ .executeInstr .FINISH) : NoFinish (calls ++ [call]) := by
  intro hmem
  rcases List.mem_append.mp hmem with hmem | hmem
  · exact h hmem
  · exact hcall (List.mem_singleton.mp hmem).symm

theorem not_stopsAtFinish {calls calls' : List Call} {call : Call}
    (hmem : .executeInstr .FINISH ∈ calls) (hgrow : calls ++ [call] <+: calls') :
    ¬ StopsAtFinish calls' := by
  intro h
  obtain ⟨before, after, rfl⟩ := List.append_of_mem hmem
  obtain ⟨rest, rfl⟩ := hgrow
  have hnil := h before (after ++ [call] ++ rest) (by
    simp only [List.append_assoc, List.cons_append])
  rw [List.append_assoc] at hnil
  cases (List.append_eq_nil_iff.mp hnil).2

/-! ## What each part of the launcher records -/

section Recorded

variable {clear : Bool} {remaining i : Nat} {execSuccess : Bool}
  {w : LaunchWorld (σ × List Call)}

theorem calls_retire (w : LaunchWorld (σ × List Call)) :
    (finalState (liftSim (retireInstr (recording M).toModel) w)).calls = w.calls ∨
      ∃ result, (finalState (liftSim (retireInstr (recording M).toModel) w)).calls =
        w.calls ++ [.executeInstr result] := by
  cases hretire : liftSim (retireInstr (recording M).toModel) w with
  | ok result w₁ =>
      obtain ⟨_, _, hmodel, _⟩ := retire_recording_ok hretire
      exact .inr ⟨result, congrArg Prod.snd hmodel⟩
  | error e w₁ =>
      obtain ⟨e', v, hrun, hmodel⟩ := liftSim_error hretire
      show w₁.model.2 = w.calls ∨ ∃ result, w₁.model.2 = w.calls ++ [.executeInstr result]
      rw [hmodel]
      rcases model_of_retireInstr_error hrun with hkept | hnext
      · rw [hkept]
        exact .inl rfl
      · rw [hnext]
        exact .inr ⟨_, rfl⟩

theorem calls_clearAfterFirst (clear : Bool) (i : Nat) (w : LaunchWorld (σ × List Call)) :
    (finalState (clearAfterFirst (recording M) clear i w)).calls = w.calls ∨
      (finalState (clearAfterFirst (recording M) clear i w)).calls =
        w.calls ++ [.clearInterrupt 0] := by
  unfold clearAfterFirst
  by_cases hfirst : i = 0 ∧ clear = true
  · rw [if_pos hfirst]
    exact .inr (congrArg Prod.snd (model_checkedCall _ w))
  · rw [if_neg hfirst]
    exact .inl rfl

theorem calls_raiseInterrupt (w : LaunchWorld (σ × List Call)) :
    (finalState (liftLoad (checkedCall ((recording M).raiseInterrupt interrupt_cause)) w)).calls =
      w.calls ++ [.raiseInterrupt interrupt_cause] :=
  congrArg Prod.snd (model_checkedCall _ w)

theorem calls_limitTest (limit : Nat) (message : Text) (i : Nat) (execSuccess : Bool)
    (w : LaunchWorld (σ × List Call)) :
    (finalState (limitTest limit message i execSuccess w)).calls = w.calls :=
  congrArg Prod.snd (moves_limitTest limit message i execSuccess w)

def CallsGrow (w w' : LaunchWorld (σ × List Call)) : Prop := w.calls <+: w'.calls

instance : Std.Refl (CallsGrow (σ := σ)) := ⟨fun _ => List.prefix_rfl⟩

instance : IsTrans (LaunchWorld (σ × List Call)) CallsGrow := ⟨fun _ _ _ => List.IsPrefix.trans⟩

theorem grow_retire : Moves CallsGrow (liftSim (retireInstr (recording M).toModel)) := by
  intro w
  unfold CallsGrow
  rcases calls_retire (M := M) w with hcalls | ⟨result, hcalls⟩
  · rw [hcalls]
  · rw [hcalls]
    exact List.prefix_append _ _

theorem grow_clearAfterFirst (clear : Bool) (i : Nat) :
    Moves CallsGrow (clearAfterFirst (recording M) clear i) := by
  intro w
  unfold CallsGrow
  rcases calls_clearAfterFirst (M := M) clear i w with hcalls | hcalls
  · rw [hcalls]
  · rw [hcalls]
    exact List.prefix_append _ _

theorem grow_interruptLoop (clear : Bool) (remaining i : Nat) (execSuccess : Bool) :
    Moves CallsGrow
      (interruptLoop (recording M) (clearAfterFirst (recording M) clear) remaining i execSuccess) := by
  induction remaining generalizing i with
  | zero => exact moves_pure _
  | succ remaining ih =>
      rw [interruptLoop_succ]
      refine Moves.bind grow_retire fun result => Moves.ite ?_ ?_
      · exact Moves.bind (fun _ => List.prefix_rfl) fun _ => moves_pure _
      · exact Moves.bind (grow_clearAfterFirst clear i) fun _ => ih (i + 1)

theorem noFinish_clearAfterFirst (clear : Bool) (i : Nat) (hno : NoFinish w.calls) :
    NoFinish (finalState (clearAfterFirst (recording M) clear i w)).calls := by
  rcases calls_clearAfterFirst (M := M) clear i w with hcalls | hcalls
  · rw [hcalls]
    exact hno
  · rw [hcalls]
    exact hno.append Call.noConfusion

/-- Within a loop, nothing is called behind a finish or a failure. -/
theorem stopsAtFinish_interruptLoop (hno : NoFinish w.calls) :
    StopsAtFinish (finalState (interruptLoop (recording M) (clearAfterFirst (recording M) clear)
      remaining i execSuccess w)).calls := by
  induction remaining generalizing i w with
  | zero => exact hno.stopsAtFinish
  | succ remaining ih =>
      rw [interruptLoop_succ]
      have hcalls := calls_retire (M := M) w
      cases hretire : liftSim (retireInstr (recording M).toModel) w with
      | error e w₁ =>
          rw [hretire, finalState_error] at hcalls
          rw [bind_error hretire, finalState_error]
          rcases hcalls with hcalls | ⟨result, hcalls⟩
          · rw [hcalls]
            exact hno.stopsAtFinish
          · rw [hcalls]
            exact hno.stopsAtFinish_append _
      | ok result w₁ =>
          obtain ⟨_, _, hmodel, _⟩ := retire_recording_ok hretire
          have hcalls₁ : w₁.calls = w.calls ++ [.executeInstr result] := congrArg Prod.snd hmodel
          rw [bind_ok hretire]
          by_cases hfinish : result = .FINISH
          · rw [if_pos hfinish]
            show StopsAtFinish w₁.calls
            rw [hcalls₁]
            exact hno.stopsAtFinish_append _
          · rw [if_neg hfinish]
            have hno₁ : NoFinish w₁.calls := by
              rw [hcalls₁]
              exact hno.append fun hcall => hfinish (Call.executeInstr.inj hcall)
            have hno₂ := noFinish_clearAfterFirst (M := M) clear i hno₁
            cases hclear : clearAfterFirst (recording M) clear i w₁ with
            | error e w₂ =>
                rw [hclear] at hno₂
                rw [bind_error hclear]
                exact hno₂.stopsAtFinish
            | ok u w₂ =>
                rw [hclear] at hno₂
                rw [bind_ok hclear]
                exact ih hno₂

end Recorded

/-! ## The two loops in sequence -/

/-- The number of steps that the second loop may take. -/
def maxIter (options : DriverOptions) : Nat :=
  if options.clearInterrupt then max_step else options.numStepsBeforeInt.toNat

/-- What follows the first loop, whatever ended it. -/
def secondPhase {τ : Type} (N : LauncherModel τ) (options : DriverOptions) (execSuccess : Bool) :
    Launcher τ Bool := do
  liftLoad (checkedCall (N.raiseInterrupt interrupt_cause))
  let (i, execSuccess) ←
    interruptLoop N (clearAfterFirst N options.clearInterrupt) (maxIter options) 0 execSuccess
  limitTest max_step "maximum step number exceeded\n".toList i execSuccess

theorem interruptSteps_eq {τ : Type} (N : LauncherModel τ) (options : DriverOptions) :
    interruptSteps N options =
      interruptLoop N (clearAfterFirst N false) options.numStepsBeforeInt.toNat 0 true >>= fun r =>
        limitTest max_step "maximum step number exceeded\n".toList r.1 r.2 >>=
          secondPhase N options := by
  rw [clearAfterFirst_false]
  rfl

theorem stopsAtFinish_secondPhase {options : DriverOptions} {execSuccess : Bool}
    {w : LaunchWorld (σ × List Call)} (hno : NoFinish w.calls) :
    StopsAtFinish (finalState (secondPhase (recording M) options execSuccess w)).calls := by
  have hraised : NoFinish (w.calls ++ [.raiseInterrupt interrupt_cause]) :=
    hno.append Call.noConfusion
  have hcalls := calls_raiseInterrupt (M := M) w
  unfold secondPhase
  cases hraise : liftLoad (checkedCall ((recording M).raiseInterrupt interrupt_cause)) w with
  | error e w₁ =>
      rw [hraise, finalState_error] at hcalls
      rw [bind_error hraise, finalState_error, hcalls]
      exact hraised.stopsAtFinish
  | ok u w₁ =>
      rw [hraise, finalState_ok] at hcalls
      rw [bind_ok hraise]
      have hno₁ : NoFinish w₁.calls := by
        rw [hcalls]
        exact hraised
      have hstops : StopsAtFinish (finalState (interruptLoop (recording M)
          (clearAfterFirst (recording M) options.clearInterrupt) (maxIter options) 0
          execSuccess w₁)).calls := stopsAtFinish_interruptLoop hno₁
      cases hloop : interruptLoop (recording M)
        (clearAfterFirst (recording M) options.clearInterrupt) (maxIter options) 0
        execSuccess w₁ with
      | error e w₂ =>
          rw [hloop] at hstops
          rw [bind_error hloop]
          exact hstops
      | ok r w₂ =>
          rw [hloop] at hstops
          rw [bind_ok hloop, calls_limitTest]
          exact hstops

/-- The interrupt is raised first of all. -/
theorem prefix_secondPhase (options : DriverOptions) (execSuccess : Bool)
    (w : LaunchWorld (σ × List Call)) :
    w.calls ++ [.raiseInterrupt interrupt_cause] <+:
      (finalState (secondPhase (recording M) options execSuccess w)).calls := by
  have hcalls := calls_raiseInterrupt (M := M) w
  unfold secondPhase
  rw [← hcalls]
  cases hraise : liftLoad (checkedCall ((recording M).raiseInterrupt interrupt_cause)) w with
  | error e w₁ =>
      rw [bind_error hraise]
      exact List.prefix_rfl
  | ok u w₁ =>
      rw [bind_ok hraise]
      refine Moves.bind (R := CallsGrow) (grow_interruptLoop options.clearInterrupt _ 0 execSuccess)
        (fun r => ?_) w₁
      intro w₂
      unfold CallsGrow
      rw [calls_limitTest]

theorem limitTest_ok (limit : Nat) (message : Text) (i : Nat) (execSuccess : Bool)
    (w : LaunchWorld (σ × List Call)) :
    ∃ execSuccess' w', limitTest limit message i execSuccess w = .ok execSuccess' w' ∧
      w'.model = w.model := by
  unfold limitTest
  by_cases hlimit : i = limit
  · rw [if_pos hlimit]
    exact ⟨false, _, rfl, rfl⟩
  · rw [if_neg hlimit]
    exact ⟨execSuccess, w, rfl, rfl⟩

theorem limitTest_eq_ok_true_iff {limit i : Nat} {message : Text} {execSuccess : Bool}
    {w w' : LaunchWorld (σ × List Call)} :
    limitTest limit message i execSuccess w = .ok true w' ↔
      i ≠ limit ∧ execSuccess = true ∧ w' = w := by
  unfold limitTest
  by_cases hlimit : i = limit
  · rw [if_pos hlimit]
    constructor
    · intro h
      cases h
    · rintro ⟨hne, _⟩
      exact absurd hlimit hne
  · rw [if_neg hlimit]
    constructor
    · intro h
      cases h
      exact ⟨hlimit, rfl, rfl⟩
    · rintro ⟨_, rfl, rfl⟩
      rfl

/-! ## Stopping at the end of the simulation -/

/-- The first loop meets the end of the simulation, and returns. -/
def FirstLoopFinishes (M : LauncherModel σ) (options : DriverOptions) (isOpen : Bool) (s : σ) :
    Prop :=
  Reaches M.next (fun s => Retires M.toModel isOpen s ∧ ¬ Finishes M.toModel s)
    (fun s => Retires M.toModel isOpen s ∧ Finishes M.toModel s)
    options.numStepsBeforeInt.toNat s

theorem interruptSteps_stopsAtFinish_iff {options : DriverOptions}
    {w : LaunchWorld (σ × List Call)} (hcalls : w.calls = []) :
    StopsAtFinish (finalState (interruptSteps (recording M) options w)).calls ↔
      ¬ FirstLoopFinishes M options w.logger.os.isSome w.model.1 := by
  unfold FirstLoopFinishes
  rw [interruptSteps_eq, ← phase_finishes_iff (i := 0)]
  have hno : NoFinish w.calls := by
    rw [hcalls]
    exact List.not_mem_nil
  have hstops : StopsAtFinish (finalState (interruptLoop (recording M)
      (clearAfterFirst (recording M) false) options.numStepsBeforeInt.toNat 0 true w)).calls :=
    stopsAtFinish_interruptLoop hno
  cases hloop : interruptLoop (recording M) (clearAfterFirst (recording M) false)
    options.numStepsBeforeInt.toNat 0 true w with
  | error e w₁ =>
      rw [hloop, finalState_error] at hstops
      rw [bind_error hloop, finalState_error]
      apply iff_of_true hstops
      rintro ⟨calls, i', s', hphase, _⟩
      obtain ⟨w', hok, _⟩ := interruptLoop_of_phase hphase true rfl rfl
      rw [hloop] at hok
      cases hok
  | ok r w₁ =>
      obtain ⟨i₁, execSuccess⟩ := r
      obtain ⟨execSuccess', w₂, hlimit, hmodel⟩ := limitTest_ok max_step
        "maximum step number exceeded\n".toList i₁ execSuccess w₁
      have hcalls₂ : w₂.calls = w₁.calls := congrArg Prod.snd hmodel
      rw [bind_ok hloop]
      show StopsAtFinish (finalState ((limitTest max_step _ i₁ execSuccess >>= _) w₁)).calls ↔ _
      rw [bind_ok hlimit]
      constructor
      · rintro hfinal ⟨calls, i', s', hphase, hmem⟩
        obtain ⟨w', hok, hmodel', _⟩ := interruptLoop_of_phase hphase true rfl rfl
        rw [hloop] at hok
        cases hok
        have hcalls₁ : w₁.calls = w.calls ++ calls := congrArg Prod.snd hmodel'
        have hmem₂ : .executeInstr .FINISH ∈ w₂.calls := by
          rw [hcalls₂, hcalls₁]
          exact List.mem_append_right w.calls hmem
        exact not_stopsAtFinish hmem₂ (prefix_secondPhase options execSuccess' w₂) hfinal
      · intro hnot
        obtain ⟨_, _, calls, hphase, hcalls₁⟩ := phase_of_interruptLoop hloop
        rw [hcalls, List.nil_append] at hcalls₁
        apply stopsAtFinish_secondPhase
        rw [hcalls₂, hcalls₁]
        exact fun hmem => hnot ⟨calls, i₁, w₁.model.1, hphase, hmem⟩

theorem Loaded.unique {load : Text → Option Image} {options : DriverOptions} {iterations : Nat}
    {w : LaunchWorld σ} {s s' : σ} (h : Loaded M load options iterations w s)
    (h' : Loaded M load options iterations w s') : s = s' := by
  obtain ⟨v, hparse, rfl⟩ := h
  obtain ⟨v', hparse', rfl⟩ := h'
  rw [hparse] at hparse'
  cases hparse'
  rfl

/-- No call follows the end of the simulation unless the first loop meets it. -/
theorem interruptMain_stopsAtFinish_iff (M : LauncherModel σ) (load : Text → Option Image)
    (options : DriverOptions) (iterations : Nat) (w : LaunchWorld σ) :
    StopsAtFinish
        (finalState (interruptMain (recording M) load options iterations w.recorded)).calls ↔
      ¬ (options.executableFile ≠ [] ∧ ∃ s, Loaded M load options iterations w s ∧
        FirstLoopFinishes M options w.logger.os.isSome s) := by
  have hmodel : (finalState (interruptMain (recording M) load options iterations
      w.recorded)).model = (finalState (runExecutable (recording M) load options iterations
        (interruptSteps (recording M) options) w.recorded)).model := model_launch w.recorded
  have hcalls : (finalState (interruptMain (recording M) load options iterations
      w.recorded)).calls = (finalState (runExecutable (recording M) load options iterations
        (interruptSteps (recording M) options) w.recorded)).calls := congrArg Prod.snd hmodel
  have hnil : StopsAtFinish [] := by
    intro before after h
    cases (List.append_eq_nil_iff.mp h.symm).2
  rw [hcalls]
  rcases runExecutable_recording M load options iterations w
    (interruptSteps (recording M) options) with
    ⟨hfile, hrun⟩ | ⟨_, hnot, e, w', hrun, hempty⟩ | ⟨hfile, s, w₁, hloaded, hstart, hlogger, hrun⟩
  · rw [hrun, finalState_ok]
    exact iff_of_true hnil fun h => h.1 hfile
  · rw [hrun, finalState_error, hempty]
    exact iff_of_true hnil fun ⟨_, s, hloaded, _⟩ => hnot ⟨s, hloaded⟩
  · have hstate : w₁.model.1 = s := congrArg Prod.fst hstart
    rw [hrun, interruptSteps_stopsAtFinish_iff (congrArg Prod.snd hstart), hstate, hlogger]
    constructor
    · rintro hnot ⟨_, s', hloaded', hfinishes⟩
      rw [hloaded'.unique hloaded] at hfinishes
      exact hnot hfinishes
    · rintro hnot hfinishes
      exact hnot ⟨hfile, s, hloaded, hfinishes⟩

/-- A simulation that ends at its first step is interrupted and executed again. -/
theorem interruptMain_continues_finished :
    ¬ StopsAtFinish (finalState (interruptMain (recording scriptModel) (elfio bssImage)
      { executableFile := "a.out".toList } 1 (LaunchWorld.recorded { model := [.FINISH] }))).calls := by
  intro h
  have hcalls : (finalState (interruptMain (recording scriptModel) (elfio bssImage)
      { executableFile := "a.out".toList } 1 (LaunchWorld.recorded { model := [.FINISH] }))).calls =
      [.executeInstr .FINISH, .raiseInterrupt interrupt_cause, .executeInstr .FINISH] := rfl
  have hnil := h [] [.raiseInterrupt interrupt_cause, .executeInstr .FINISH] hcalls
  cases hnil

/-! ## The successful exit status -/

/-- A successful status means that no step before the interrupt raised an exception and
that neither loop executed more than `max_step` instructions. -/
def SoundSuccess
    (result : EStateM.Result LaunchFailure (LaunchWorld (σ × List Call)) ExitStatus) : Prop :=
  ∀ w', result = .ok .SUCCESS w' → ∀ before after,
    w'.calls = before ++ .raiseInterrupt interrupt_cause :: after →
      .executeInstr .EXCEPTION ∉ before ∧ instrCount before ≤ max_step ∧
        instrCount after ≤ max_step

/-- The loops return, the first from `s` and the second from `s₂` on, with these calls and
counters; the interrupt is raised between them, and the state can be written at the end. -/
def RunsThrough (M : LauncherModel σ) (options : DriverOptions) (isOpen : Bool) (s s₂ : σ)
    (before after : List Call) (i₁ i₂ : Nat) : Prop :=
  ∃ s₁ s₃, Phase M isOpen false options.numStepsBeforeInt.toNat 0 s before i₁ s₁ ∧
    M.raiseInterrupt interrupt_cause s₁ = (.SUCCESS, s₂) ∧
    Phase M isOpen options.clearInterrupt (maxIter options) 0 s₂ after i₂ s₃ ∧
    Dumpable M options s₃

/-- One of the first `n` steps raises an exception, and no step before it finishes. -/
def RaisesException (M : LauncherModel σ) (n : Nat) (s : σ) : Prop :=
  Reaches M.next (fun s => ¬ Finishes M.toModel s)
    (fun s => (M.executeInstr s).status = .EXCEPTION) n s

/-- There are more than `max_step` steps to take, and the simulation goes on for all of
the first `max_step` and one more. -/
def PassesLimit (M : LauncherModel σ) (n : Nat) (s : σ) : Prop :=
  max_step < n ∧ ¬ Reaches M.next (fun s => ¬ Finishes M.toModel s) (Finishes M.toModel)
    (max_step + 1) s

/-- Neither loop, the first from `s` and the second from `s₂` on, is left with its counter
at the limit. -/
def BesideLimit (M : LauncherModel σ) (options : DriverOptions) (s s₂ : σ) : Prop :=
  ¬ LeavesAt M false options.numStepsBeforeInt.toNat max_step s ∧
    ¬ LeavesAt M options.clearInterrupt (maxIter options) max_step s₂

theorem RunsThrough.besideLimit_iff {options : DriverOptions} {isOpen : Bool} {s s₂ : σ}
    {before after : List Call} {i₁ i₂ : Nat}
    (h : RunsThrough M options isOpen s s₂ before after i₁ i₂) :
    BesideLimit M options s s₂ ↔ i₁ ≠ max_step ∧ i₂ ≠ max_step := by
  obtain ⟨_, _, hphase₁, _, hphase₂, _⟩ := h
  unfold BesideLimit
  rw [hphase₁.leavesAt_iff, hphase₂.leavesAt_iff]

theorem secondPhase_eq_ok_true_iff {options : DriverOptions} {execSuccess : Bool}
    {w w' : LaunchWorld (σ × List Call)} :
    secondPhase (recording M) options execSuccess w = .ok true w' ↔
      ∃ w₁ i₂, liftLoad (checkedCall ((recording M).raiseInterrupt interrupt_cause)) w =
          .ok () w₁ ∧
        interruptLoop (recording M) (clearAfterFirst (recording M) options.clearInterrupt)
          (maxIter options) 0 execSuccess w₁ = .ok (i₂, true) w' ∧ i₂ ≠ max_step := by
  unfold secondPhase
  rw [bind_eq_ok_iff]
  constructor
  · rintro ⟨_, w₁, hraise, hrest⟩
    obtain ⟨⟨i₂, execSuccess'⟩, w₂, hloop, hlimit⟩ := bind_eq_ok_iff.mp hrest
    obtain ⟨hne, rfl, rfl⟩ := limitTest_eq_ok_true_iff.mp hlimit
    exact ⟨w₁, i₂, hraise, hloop, hne⟩
  · rintro ⟨w₁, i₂, hraise, hloop, hne⟩
    exact ⟨(), w₁, hraise, (bind_ok hloop).trans (limitTest_eq_ok_true_iff.mpr ⟨hne, rfl, rfl⟩)⟩

theorem raiseInterrupt_recording_iff {w w' : LaunchWorld (σ × List Call)} :
    liftLoad (checkedCall ((recording M).raiseInterrupt interrupt_cause)) w = .ok () w' ↔
      ∃ s₂, M.raiseInterrupt interrupt_cause w.model.1 = (.SUCCESS, s₂) ∧
        w' = { w with model := (s₂, w.calls ++ [.raiseInterrupt interrupt_cause]) } := by
  rw [checkedCall_ok_iff]
  constructor
  · rintro ⟨hcall, hw⟩
    have herr : (M.raiseInterrupt interrupt_cause w.model.1).1 = .SUCCESS := congrArg Prod.fst hcall
    have hmodel : ((M.raiseInterrupt interrupt_cause w.model.1).2,
        w.calls ++ [.raiseInterrupt interrupt_cause]) = w'.model := congrArg Prod.snd hcall
    refine ⟨_, Prod.ext herr rfl, ?_⟩
    rw [hw, ← hmodel]
  · rintro ⟨s₂, hcall, rfl⟩
    refine ⟨?_, rfl⟩
    show ((M.raiseInterrupt interrupt_cause w.model.1).1, _) = _
    rw [hcall]
    rfl

/-- The steps succeed exactly when both loops return with counters beside the limit. -/
theorem interruptSteps_success_iff {options : DriverOptions} {w : LaunchWorld (σ × List Call)}
    (hcalls : w.calls = []) {calls : List Call} {s₃ : σ} :
    (∃ w', interruptSteps (recording M) options w = .ok true w' ∧ w'.model = (s₃, calls)) ↔
      ∃ before after i₁ i₂ s₁ s₂,
        Phase M w.logger.os.isSome false options.numStepsBeforeInt.toNat 0 w.model.1 before i₁ s₁ ∧
        M.raiseInterrupt interrupt_cause s₁ = (.SUCCESS, s₂) ∧
        Phase M w.logger.os.isSome options.clearInterrupt (maxIter options) 0 s₂ after i₂ s₃ ∧
        i₁ ≠ max_step ∧ i₂ ≠ max_step ∧
        calls = before ++ .raiseInterrupt interrupt_cause :: after := by
  rw [interruptSteps_eq]
  constructor
  · rintro ⟨w', hrun, hmodel⟩
    obtain ⟨⟨i₁, execSuccess₁⟩, w₁, hloop₁, hrest⟩ := bind_eq_ok_iff.mp hrun
    obtain ⟨execSuccess, w₂, hlimit, hsecond⟩ := bind_eq_ok_iff.mp hrest
    obtain ⟨w₃, i₂, hraise, hloop₂, hne₂⟩ := secondPhase_eq_ok_true_iff.mp hsecond
    obtain ⟨rfl, hos₁, before, hphase₁, hcalls₁⟩ := phase_of_interruptLoop hloop₁
    obtain ⟨hsuccess, hos₂, after, hphase₂, hcalls₂⟩ := phase_of_interruptLoop hloop₂
    subst hsuccess
    obtain ⟨hne₁, _, rfl⟩ := limitTest_eq_ok_true_iff.mp hlimit
    obtain ⟨s₂, hraised, rfl⟩ := raiseInterrupt_recording_iff.mp hraise
    refine ⟨before, after, i₁, i₂, w₂.model.1, s₂, hphase₁, hraised, ?_, hne₁, hne₂, ?_⟩
    · have hs₃ : w'.model.1 = s₃ := congrArg Prod.fst hmodel
      rw [← hs₃, ← hos₁]
      exact hphase₂
    · have hc : w'.calls = calls := congrArg Prod.snd hmodel
      rw [← hc, hcalls₂]
      show w₂.calls ++ [.raiseInterrupt interrupt_cause] ++ after = _
      rw [hcalls₁, hcalls, List.nil_append, List.append_assoc]
      rfl
  · rintro ⟨before, after, i₁, i₂, s₁, s₂, hphase₁, hraised, hphase₂, hne₁, hne₂, rfl⟩
    obtain ⟨w₁, hloop₁, hmodel₁, hos₁⟩ := interruptLoop_of_phase hphase₁ true rfl rfl
    rw [hcalls, List.nil_append] at hmodel₁
    have hstate₁ : w₁.model.1 = s₁ := congrArg Prod.fst hmodel₁
    rw [← hstate₁] at hraised
    have hraise := raiseInterrupt_recording_iff.mpr ⟨s₂, hraised, rfl⟩
    obtain ⟨w', hloop₂, hmodel₂, _⟩ := interruptLoop_of_phase hphase₂ true
      (w := { w₁ with model := (s₂, w₁.calls ++ [.raiseInterrupt interrupt_cause]) }) hos₁ rfl
    have hsecond : secondPhase (recording M) options true w₁ = .ok true w' :=
      secondPhase_eq_ok_true_iff.mpr ⟨_, i₂, hraise, hloop₂, hne₂⟩
    have hlimit : limitTest max_step "maximum step number exceeded\n".toList i₁ true w₁ =
        .ok true w₁ := limitTest_eq_ok_true_iff.mpr ⟨hne₁, rfl, rfl⟩
    refine ⟨w', (bind_ok hloop₁).trans ((bind_ok hlimit).trans hsecond), ?_⟩
    rw [hmodel₂]
    show (s₃, w₁.calls ++ [.raiseInterrupt interrupt_cause] ++ after) = _
    have hcalls₁ : w₁.calls = before := congrArg Prod.snd hmodel₁
    rw [hcalls₁, List.append_assoc]
    rfl

theorem dumpable_recording_iff {options : DriverOptions} {s : σ × List Call} :
    Dumpable (recording M) options s ↔ Dumpable M options s.1 := by
  have hdump : dumpState M s.1 = dumpState (recording M) s :=
    dumpState_alike (sameLaunches_recording M) s
  unfold Dumpable
  rw [hdump]

section Success

variable {load : Text → Option Image} {options : DriverOptions} {iterations : Nat}
  {w : LaunchWorld σ} {s s₂ : σ} {before after : List Call} {i₁ i₂ : Nat}

/-- A run that goes through with both counters beside the limit is a success. -/
theorem interruptMain_of_runsThrough (hfile : options.executableFile ≠ [])
    (hloaded : Loaded M load options iterations w s)
    (hrun : RunsThrough M options w.logger.os.isSome s s₂ before after i₁ i₂)
    (hne₁ : i₁ ≠ max_step) (hne₂ : i₂ ≠ max_step) :
    ∃ w', interruptMain (recording M) load options iterations w.recorded = .ok .SUCCESS w' ∧
      w'.calls = before ++ .raiseInterrupt interrupt_cause :: after := by
  obtain ⟨s₁, s₃, hphase₁, hraise, hphase₂, hdump⟩ := hrun
  rcases runExecutable_recording M load options iterations w
    (interruptSteps (recording M) options) with
    ⟨hnone, _⟩ | ⟨_, hnot, _⟩ | ⟨_, s', w₁, hloaded', hstart, hlogger, hsteps⟩
  · exact absurd hnone hfile
  · exact absurd ⟨s, hloaded⟩ hnot
  · obtain rfl := hloaded.unique hloaded'
    have hstate : w₁.model.1 = s := congrArg Prod.fst hstart
    rw [← hlogger] at hphase₁ hphase₂
    rw [← hstate] at hphase₁
    obtain ⟨w₂, hsuccess, hmodel⟩ := (interruptSteps_success_iff (congrArg Prod.snd hstart)).mpr
      ⟨before, after, i₁, i₂, s₁, s₂, hphase₁, hraise, hphase₂, hne₁, hne₂, rfl⟩
    have hdump₂ : Dumpable (recording M) options w₂.model := by
      rw [dumpable_recording_iff, hmodel]
      exact hdump
    obtain ⟨w', hwrite⟩ := (writeState_ok_iff w₂).mpr hdump₂
    refine ⟨w', launch_success_iff.mpr ⟨w₂, hsteps.trans hsuccess, hwrite⟩, ?_⟩
    have hkept : w'.model = w₂.model := (moves_writeState _ _).ok hwrite
    unfold LaunchWorld.calls
    rw [hkept, hmodel]

/-- A success that raised the interrupt is such a run. -/
theorem runsThrough_of_interruptMain {w' : LaunchWorld (σ × List Call)}
    (h : interruptMain (recording M) load options iterations w.recorded = .ok .SUCCESS w')
    (hcalls : w'.calls = before ++ .raiseInterrupt interrupt_cause :: after) :
    options.executableFile ≠ [] ∧ ∃ s s₂ i₁ i₂, Loaded M load options iterations w s ∧
      RunsThrough M options w.logger.os.isSome s s₂ before after i₁ i₂ ∧
      i₁ ≠ max_step ∧ i₂ ≠ max_step := by
  obtain ⟨w₂, hrun, hwrite⟩ := launch_success_iff.mp h
  have hkept : w'.model = w₂.model := (moves_writeState _ _).ok hwrite
  have hcalls₂ : w₂.calls = before ++ .raiseInterrupt interrupt_cause :: after := by
    rw [← hcalls]
    exact (congrArg Prod.snd hkept).symm
  have hdump := dumpable_recording_iff.mp ((writeState_ok_iff w₂).mp ⟨w', hwrite⟩)
  rcases runExecutable_recording M load options iterations w
    (interruptSteps (recording M) options) with
    ⟨_, hidle⟩ | ⟨_, _, e, w₁, herror, _⟩ | ⟨hfile, s, w₁, hloaded, hstart, hlogger, hsteps⟩
  · rw [hidle] at hrun
    cases hrun
    cases (List.append_eq_nil_iff.mp hcalls₂.symm).2
  · rw [herror] at hrun
    cases hrun
  · rw [hsteps] at hrun
    obtain ⟨before₀, after₀, i₁, i₂, s₁, s₂, hphase₁, hraise, hphase₂, hne₁, hne₂, hsplit⟩ :=
      (interruptSteps_success_iff (congrArg Prod.snd hstart)).mp ⟨w₂, hrun, rfl⟩
    -- the interrupt is raised once, so there is one way to cut the calls there
    have hsame := hsplit.symm.trans hcalls₂
    obtain ⟨rfl, _, rfl⟩ := (List.append_cons_inj_of_notMem
      (hphase₁.raiseInterrupt_not_mem _) (hphase₂.raiseInterrupt_not_mem _)).mp hsame
    have hstate : w₁.model.1 = s := congrArg Prod.fst hstart
    rw [hlogger] at hphase₁ hphase₂
    rw [hstate] at hphase₁
    exact ⟨hfile, s, s₂, i₁, i₂, hloaded,
      ⟨s₁, w₂.model.1, hphase₁, hraise, hphase₂, hdump⟩, hne₁, hne₂⟩

end Success

/-- The counter of the second loop can only pass the limit when nothing is cleared, since
the number of its steps is the limit otherwise. -/
theorem secondLoop_passes_iff {options : DriverOptions} {isOpen : Bool} {s s' : σ}
    {calls : List Call} {i : Nat}
    (h : Phase M isOpen options.clearInterrupt (maxIter options) 0 s calls i s') :
    max_step < i ↔ options.clearInterrupt = false ∧
      PassesLimit M options.numStepsBeforeInt.toNat s := by
  unfold maxIter at h
  cases hclear : options.clearInterrupt with
  | true =>
      rw [hclear, if_pos rfl] at h
      have hle := h.le
      exact iff_of_false (by omega) fun h => Bool.noConfusion h.1
  | false =>
      rw [hclear, if_neg Bool.false_ne_true] at h
      have hpasses := h.passes_iff max_step
      rw [Nat.zero_add] at hpasses
      exact hpasses.trans ⟨fun h => ⟨rfl, h⟩, fun h => h.2⟩

/-- What a run that goes through would have to report. -/
theorem RunsThrough.unsound_iff {options : DriverOptions} {isOpen : Bool} {s s₂ : σ}
    {before after : List Call} {i₁ i₂ : Nat}
    (h : RunsThrough M options isOpen s s₂ before after i₁ i₂) :
    (.executeInstr .EXCEPTION ∈ before ∨ max_step < i₁ ∨ max_step < i₂) ↔
      (RaisesException M options.numStepsBeforeInt.toNat s ∨
        PassesLimit M options.numStepsBeforeInt.toNat s ∨
        options.clearInterrupt = false ∧ PassesLimit M options.numStepsBeforeInt.toNat s₂) := by
  obtain ⟨_, _, hphase₁, _, hphase₂, _⟩ := h
  have hpasses := hphase₁.passes_iff max_step
  rw [Nat.zero_add] at hpasses
  exact or_congr hphase₁.exception_mem_iff (or_congr hpasses (secondLoop_passes_iff hphase₂))

/-- The exit status is sound unless a run goes through in which a step before the
interrupt raises an exception, or a loop goes on past the limit. -/
theorem interruptMain_soundSuccess_iff (M : LauncherModel σ) (load : Text → Option Image)
    (options : DriverOptions) (iterations : Nat) (w : LaunchWorld σ) :
    SoundSuccess (interruptMain (recording M) load options iterations w.recorded) ↔
      ¬ (options.executableFile ≠ [] ∧ ∃ s s₂ before after i₁ i₂,
        Loaded M load options iterations w s ∧
        RunsThrough M options w.logger.os.isSome s s₂ before after i₁ i₂ ∧
        BesideLimit M options s s₂ ∧
        (RaisesException M options.numStepsBeforeInt.toNat s ∨
          PassesLimit M options.numStepsBeforeInt.toNat s ∨
          options.clearInterrupt = false ∧
            PassesLimit M options.numStepsBeforeInt.toNat s₂)) := by
  constructor
  · rintro hsound ⟨hfile, s, s₂, before, after, i₁, i₂, hloaded, hrun, hbeside, hbad⟩
    obtain ⟨hne₁, hne₂⟩ := hrun.besideLimit_iff.mp hbeside
    obtain ⟨w', hsuccess, hcalls⟩ := interruptMain_of_runsThrough hfile hloaded hrun hne₁ hne₂
    obtain ⟨hno, hbefore, hafter⟩ := hsound w' hsuccess before after hcalls
    rw [← hrun.unsound_iff] at hbad
    obtain ⟨_, _, hphase₁, _, hphase₂, _⟩ := hrun
    have hcount₁ := hphase₁.counter
    have hcount₂ := hphase₂.counter
    rcases hbad with hexception | hpassed₁ | hpassed₂
    · exact hno hexception
    · omega
    · omega
  · intro hnot w' hsuccess before after hcalls
    obtain ⟨hfile, s, s₂, i₁, i₂, hloaded, hrun, hne₁, hne₂⟩ :=
      runsThrough_of_interruptMain hsuccess hcalls
    have hgood : ¬ (.executeInstr .EXCEPTION ∈ before ∨ max_step < i₁ ∨ max_step < i₂) := by
      rw [hrun.unsound_iff]
      exact fun hbad =>
        hnot ⟨hfile, s, s₂, before, after, i₁, i₂, hloaded, hrun,
          hrun.besideLimit_iff.mpr ⟨hne₁, hne₂⟩, hbad⟩
    obtain ⟨hno, hle⟩ := not_or.mp hgood
    obtain ⟨_, _, hphase₁, _, hphase₂, _⟩ := hrun
    have hcount₁ := hphase₁.counter
    have hcount₂ := hphase₂.counter
    exact ⟨hno, by omega, by omega⟩

/-- An exception before the interrupt goes unnoticed. -/
theorem interruptMain_ignores_exception :
    ¬ SoundSuccess (interruptMain (recording scriptModel) (elfio bssImage)
      { executableFile := "a.out".toList, numStepsBeforeInt := 1 } 1
      (LaunchWorld.recorded { model := [.EXCEPTION] })) := by
  intro hsound
  have hrun : ∃ w', interruptMain (recording scriptModel) (elfio bssImage)
      { executableFile := "a.out".toList, numStepsBeforeInt := 1 } 1
      (LaunchWorld.recorded { model := [.EXCEPTION] }) = .ok .SUCCESS w' ∧
      w'.calls = [.executeInstr .EXCEPTION] ++
        .raiseInterrupt interrupt_cause :: [.executeInstr .FINISH] := ⟨_, rfl, rfl⟩
  obtain ⟨w', hsuccess, hcalls⟩ := hrun
  exact (hsound w' hsuccess _ _ hcalls).1 (List.mem_singleton.mpr rfl)

end Rvmi.Launch
