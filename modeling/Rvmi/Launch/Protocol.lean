import Rvmi.Launch.Interrupt

/-!
# The calls of the interrupt launcher

An automaton reads the calls that run the simulator and move its interrupt line, and
accepts what a run of the launcher makes, whichever simulator is behind the interface
and wherever the run breaks off. What holds of every run is read off its words.
-/

namespace Rvmi.Launch

open Rvmi.Foundation Rvmi.Log Rvmi.Elf

/-! ## The automaton -/

/-- What became of the interrupt. -/
inductive Line where
  | unraised
  /-- It is to be cleared behind the next instruction. -/
  | raised
  /-- That instruction has been executed. -/
  | due
  | settled
deriving DecidableEq, Repr

/-- The line behind an instruction that goes on. -/
def Line.stepped : Line → Line
  | .raised => .due
  | line => line

theorem Line.stepped_eq_unraised_iff {line : Line} : line.stepped = .unraised ↔ line = .unraised := by
  cases line <;> decide

theorem Line.stepped_eq_due_iff {line : Line} :
    line.stepped = .due ↔ line = .raised ∨ line = .due := by
  cases line <;> decide

theorem Line.stepped_eq_settled_iff {line : Line} : line.stepped = .settled ↔ line = .settled := by
  cases line <;> decide

theorem Line.stepped_ne_raised {line : Line} : line.stepped ≠ .raised := by
  cases line <;> decide

/-- The line and the number of steps that the loop may still take. -/
structure Stage where
  line : Line
  left : Nat
deriving DecidableEq, Repr

namespace Stage

def start (options : DriverOptions) : Stage := ⟨.unraised, options.numStepsBeforeInt.toNat⟩

def raised (options : DriverOptions) : Stage :=
  ⟨if options.clearInterrupt then .raised else .settled, maxIter options⟩

def advance (options : DriverOptions) (stage : Stage) : Call → Option Stage
  | .executeInstr result =>
      if stage.line = .due ∨ stage.left = 0 then none
      else if result = .FINISH then some ⟨stage.line, 0⟩
      else some ⟨stage.line.stepped, stage.left - 1⟩
  | .raiseInterrupt cause =>
      if stage = ⟨.unraised, 0⟩ ∧ cause = interrupt_cause then some (raised options) else none
  | .clearInterrupt cause =>
      if stage.line = .due ∧ cause = 0 then some ⟨.settled, stage.left⟩ else none

def follow (options : DriverOptions) (stage : Stage) (calls : List Call) : Option Stage :=
  calls.foldlM (advance options) stage

theorem raised_line_ne (options : DriverOptions) : (raised options).line ≠ .unraised := by
  unfold raised
  cases options.clearInterrupt with
  | true => exact Line.noConfusion
  | false => exact Line.noConfusion

/-! ## Words -/

section Words

variable {options : DriverOptions} {stage stage' : Stage} {call : Call} {calls calls' : List Call}

theorem follow_cons_eq_some_iff :
    follow options stage (call :: calls) = some stage' ↔
      ∃ stage₁, advance options stage call = some stage₁ ∧
        follow options stage₁ calls = some stage' := by
  unfold follow
  rw [List.foldlM_cons]
  exact Option.bind_eq_some_iff

theorem follow_append_eq_some_iff :
    follow options stage (calls ++ calls') = some stage' ↔
      ∃ stage₁, follow options stage calls = some stage₁ ∧
        follow options stage₁ calls' = some stage' := by
  unfold follow
  rw [List.foldlM_append]
  exact Option.bind_eq_some_iff

theorem follow_concat_eq_some_iff :
    follow options stage (calls ++ [call]) = some stage' ↔
      ∃ stage₁, follow options stage calls = some stage₁ ∧
        advance options stage₁ call = some stage' := by
  rw [follow_append_eq_some_iff]
  constructor
  · rintro ⟨stage₁, hcalls, hcall⟩
    obtain ⟨_, hadvance, ⟨⟩⟩ := follow_cons_eq_some_iff.mp hcall
    exact ⟨stage₁, hcalls, hadvance⟩
  · rintro ⟨stage₁, hcalls, hadvance⟩
    exact ⟨stage₁, hcalls, follow_cons_eq_some_iff.mpr ⟨stage', hadvance, rfl⟩⟩

theorem advance_instr_eq_some_iff {result : RVMSimExecStatus} :
    advance options stage (.executeInstr result) = some stage' ↔
      stage.line ≠ .due ∧ stage.left ≠ 0 ∧
        (result = .FINISH ∧ stage' = ⟨stage.line, 0⟩ ∨
          result ≠ .FINISH ∧ stage' = ⟨stage.line.stepped, stage.left - 1⟩) := by
  simp only [advance]
  by_cases hstuck : stage.line = .due ∨ stage.left = 0
  · rw [if_pos hstuck]
    refine iff_of_false (Option.some_ne_none _).symm fun ⟨hline, hleft, _⟩ => ?_
    rcases hstuck with hstuck | hstuck
    · exact hline hstuck
    · exact hleft hstuck
  · rw [if_neg hstuck]
    obtain ⟨hline, hleft⟩ := not_or.mp hstuck
    by_cases hfinish : result = .FINISH
    · rw [if_pos hfinish, Option.some_inj]
      constructor
      · exact fun h => ⟨hline, hleft, .inl ⟨hfinish, h.symm⟩⟩
      · rintro ⟨_, _, ⟨_, h⟩ | ⟨hnot, _⟩⟩
        · exact h.symm
        · exact absurd hfinish hnot
    · rw [if_neg hfinish, Option.some_inj]
      constructor
      · exact fun h => ⟨hline, hleft, .inr ⟨hfinish, h.symm⟩⟩
      · rintro ⟨_, _, ⟨h, _⟩ | ⟨_, h⟩⟩
        · exact absurd h hfinish
        · exact h.symm

theorem exists_advance_instr {line : Line} (hline : line ≠ .due) (left : Nat)
    (result : RVMSimExecStatus) :
    ∃ stage', advance options ⟨line, left + 1⟩ (.executeInstr result) = some stage' := by
  by_cases hfinish : result = .FINISH
  · exact ⟨_, advance_instr_eq_some_iff.mpr ⟨hline, Nat.succ_ne_zero left, .inl ⟨hfinish, rfl⟩⟩⟩
  · exact ⟨_, advance_instr_eq_some_iff.mpr ⟨hline, Nat.succ_ne_zero left, .inr ⟨hfinish, rfl⟩⟩⟩

theorem advance_raise_eq_some_iff {cause : RVMRegT} :
    advance options stage (.raiseInterrupt cause) = some stage' ↔
      stage = ⟨.unraised, 0⟩ ∧ cause = interrupt_cause ∧ stage' = raised options := by
  simp only [advance]
  by_cases hraise : stage = ⟨.unraised, 0⟩ ∧ cause = interrupt_cause
  · rw [if_pos hraise, Option.some_inj]
    exact ⟨fun h => ⟨hraise.1, hraise.2, h.symm⟩, fun h => h.2.2.symm⟩
  · rw [if_neg hraise]
    exact iff_of_false (Option.some_ne_none _).symm fun h => hraise ⟨h.1, h.2.1⟩

theorem advance_clear_eq_some_iff {cause : RVMRegT} :
    advance options stage (.clearInterrupt cause) = some stage' ↔
      stage.line = .due ∧ cause = 0 ∧ stage' = ⟨.settled, stage.left⟩ := by
  simp only [advance]
  by_cases hclear : stage.line = .due ∧ cause = 0
  · rw [if_pos hclear, Option.some_inj]
    exact ⟨fun h => ⟨hclear.1, hclear.2, h.symm⟩, fun h => h.2.2.symm⟩
  · rw [if_neg hclear]
    exact iff_of_false (Option.some_ne_none _).symm fun h => hclear ⟨h.1, h.2.1⟩

/-- Behind the second loop no call is made. -/
theorem eq_nil_of_follow (hleft : stage.left = 0) (hdue : stage.line ≠ .due)
    (hraised : stage.line ≠ .unraised) (h : follow options stage calls = some stage') :
    calls = [] := by
  cases calls with
  | nil => rfl
  | cons call calls =>
      obtain ⟨stage₁, hadvance, _⟩ := follow_cons_eq_some_iff.mp h
      cases call with
      | executeInstr result =>
          exact absurd hleft (advance_instr_eq_some_iff.mp hadvance).2.1
      | raiseInterrupt cause =>
          exact absurd (congrArg Stage.line (advance_raise_eq_some_iff.mp hadvance).1) hraised
      | clearInterrupt cause => exact absurd (advance_clear_eq_some_iff.mp hadvance).1 hdue

end Words

end Stage

/-! ## The launcher makes words -/

section Sound

variable {σ : Type} {M : LauncherModel σ} {options : DriverOptions} {clear : Bool}
  {line : Line} {remaining i : Nat} {execSuccess : Bool} {w : LaunchWorld (σ × List Call)}

/-- The stage that a world has reached. -/
def Stands (options : DriverOptions) (w : LaunchWorld (σ × List Call)) (stage : Stage) : Prop :=
  (Stage.start options).follow options w.calls = some stage

theorem Stands.call {stage stage' : Stage} {w' : LaunchWorld (σ × List Call)} {call : Call}
    (h : Stands options w stage) (hcalls : w'.calls = w.calls ++ [call])
    (hadvance : stage.advance options call = some stage') : Stands options w' stage' := by
  unfold Stands
  rw [hcalls]
  exact Stage.follow_concat_eq_some_iff.mpr ⟨stage, h, hadvance⟩

theorem Stands.same {stage : Stage} {w' : LaunchWorld (σ × List Call)}
    (h : Stands options w stage) (hcalls : w'.calls = w.calls) : Stands options w' stage := by
  unfold Stands
  rw [hcalls]
  exact h

/-- The line at the head of an iteration. -/
structure AtHead (clear : Bool) (i : Nat) (line : Line) : Prop where
  raised_iff : line = .raised ↔ i = 0 ∧ clear = true
  not_due : line ≠ .due

theorem atHead_raised (options : DriverOptions) :
    AtHead options.clearInterrupt 0 (Stage.raised options).line := by
  unfold Stage.raised
  cases options.clearInterrupt with
  | true => exact ⟨iff_of_true rfl ⟨rfl, rfl⟩, Line.noConfusion⟩
  | false => exact ⟨iff_of_false Line.noConfusion fun h => Bool.noConfusion h.2, Line.noConfusion⟩

theorem atHead_unraised : AtHead false 0 .unraised :=
  ⟨iff_of_false Line.noConfusion fun h => Bool.noConfusion h.2, Line.noConfusion⟩

theorem atHead_settled (clear : Bool) (i : Nat) : AtHead clear (i + 1) .settled :=
  ⟨iff_of_false Line.noConfusion fun h => Nat.succ_ne_zero i h.1, Line.noConfusion⟩

/-- Where nothing is to be cleared the line stays as it is. -/
theorem AtHead.next (h : AtHead clear i line) (hlater : ¬ (i = 0 ∧ clear = true)) :
    line.stepped = line ∧ AtHead clear (i + 1) line := by
  have hnot : line ≠ .raised := fun hline => hlater (h.raised_iff.mp hline)
  constructor
  · cases line with
    | raised => exact absurd rfl hnot
    | _ => rfl
  · exact ⟨iff_of_false hnot fun h => Nat.succ_ne_zero i h.1, h.not_due⟩

/-- What holds of a stage in which a loop has returned. -/
structure LoopOver (line : Line) (stage : Stage) : Prop where
  left_eq : stage.left = 0
  not_due : stage.line ≠ .due
  unraised_iff : stage.line = .unraised ↔ line = .unraised

theorem LoopOver.of_line {line' : Line} {stage : Stage} (h : LoopOver line' stage)
    (hline : line' = .unraised ↔ line = .unraised) : LoopOver line stage :=
  ⟨h.left_eq, h.not_due, h.unraised_iff.trans hline⟩

theorem stands_clearAfterFirst (hhead : AtHead clear i line)
    (hstands : Stands options w ⟨line.stepped, remaining⟩) :
    ∃ line', Stands options (finalState (clearAfterFirst (recording M) clear i w))
        ⟨line', remaining⟩ ∧
      AtHead clear (i + 1) line' ∧ (line' = .unraised ↔ line = .unraised) := by
  unfold clearAfterFirst
  by_cases hfirst : i = 0 ∧ clear = true
  · obtain rfl := hhead.raised_iff.mpr hfirst
    rw [if_pos hfirst]
    have hcalls : (finalState (liftLoad (checkedCall ((recording M).clearInterrupt 0)) w)).calls =
        w.calls ++ [.clearInterrupt 0] := congrArg Prod.snd (model_checkedCall _ w)
    exact ⟨.settled, hstands.call hcalls (Stage.advance_clear_eq_some_iff.mpr ⟨rfl, rfl, rfl⟩),
      atHead_settled clear i, iff_of_false Line.noConfusion Line.noConfusion⟩
  · obtain ⟨hstepped, hhead'⟩ := hhead.next hfirst
    rw [if_neg hfirst]
    rw [hstepped] at hstands
    exact ⟨line, hstands, hhead', Iff.rfl⟩

/-- A loop makes a word wherever it breaks off, and one that returns has nothing to clear. -/
theorem stands_interruptLoop (execSuccess : Bool) (hhead : AtHead clear i line)
    (hstands : Stands options w ⟨line, remaining⟩) :
    ∃ stage, Stands options (finalState (interruptLoop (recording M)
        (clearAfterFirst (recording M) clear) remaining i execSuccess w)) stage ∧
      ∀ r w', interruptLoop (recording M) (clearAfterFirst (recording M) clear) remaining i
        execSuccess w = .ok r w' → LoopOver line stage := by
  induction remaining generalizing i line w with
  | zero =>
      refine ⟨⟨line, 0⟩, hstands, fun _ _ _ => ?_⟩
      exact ⟨rfl, hhead.not_due, Iff.rfl⟩
  | succ remaining ih =>
      rw [interruptLoop_succ]
      have hcalls := calls_retire (M := M) w
      cases hretire : liftSim (retireInstr (recording M).toModel) w with
      | error e w₁ =>
          rw [hretire, finalState_error] at hcalls
          rw [bind_error hretire, finalState_error]
          rcases hcalls with hcalls | ⟨result, hcalls⟩
          · refine ⟨_, hstands.same hcalls, ?_⟩
            rintro r w' ⟨⟩
          · obtain ⟨stage, hadvance⟩ := Stage.exists_advance_instr hhead.not_due remaining result
            refine ⟨stage, hstands.call hcalls hadvance, ?_⟩
            rintro r w' ⟨⟩
      | ok result w₁ =>
          obtain ⟨_, _, hmodel, _⟩ := retire_recording_ok hretire
          have hcalls₁ : w₁.calls = w.calls ++ [.executeInstr result] := congrArg Prod.snd hmodel
          rw [bind_ok hretire]
          by_cases hfinish : result = .FINISH
          · have hstands₁ : Stands options w₁ ⟨line, 0⟩ :=
              hstands.call hcalls₁ (Stage.advance_instr_eq_some_iff.mpr
                ⟨hhead.not_due, Nat.succ_ne_zero _, .inl ⟨hfinish, rfl⟩⟩)
            rw [if_pos hfinish]
            exact ⟨_, hstands₁, fun _ _ _ => ⟨rfl, hhead.not_due, Iff.rfl⟩⟩
          · have hstands₁ : Stands options w₁ ⟨line.stepped, remaining⟩ :=
              hstands.call hcalls₁ (Stage.advance_instr_eq_some_iff.mpr
                ⟨hhead.not_due, Nat.succ_ne_zero _, .inr ⟨hfinish, rfl⟩⟩)
            obtain ⟨line', hstands₂, hhead', hraised⟩ :=
              stands_clearAfterFirst (M := M) hhead hstands₁
            rw [if_neg hfinish]
            cases hclear : clearAfterFirst (recording M) clear i w₁ with
            | error e w₂ =>
                rw [hclear] at hstands₂
                rw [bind_error hclear]
                refine ⟨_, hstands₂, ?_⟩
                rintro r w' ⟨⟩
            | ok u w₂ =>
                rw [hclear] at hstands₂
                rw [bind_ok hclear]
                obtain ⟨stage, hstage, hover⟩ := ih hhead' hstands₂
                exact ⟨stage, hstage, fun r w' hrun => (hover r w' hrun).of_line hraised⟩

theorem stands_secondPhase (hstands : Stands options w ⟨.unraised, 0⟩) :
    ∃ stage, Stands options (finalState (secondPhase (recording M) options execSuccess w)) stage ∧
      ∀ success w', secondPhase (recording M) options execSuccess w = .ok success w' →
        LoopOver .settled stage := by
  unfold secondPhase
  have hcalls := calls_raiseInterrupt (M := M) w
  have hstands₁ := hstands.call hcalls (Stage.advance_raise_eq_some_iff.mpr ⟨rfl, rfl, rfl⟩)
  cases hraise : liftLoad (checkedCall ((recording M).raiseInterrupt interrupt_cause)) w with
  | error e w₁ =>
      rw [hraise] at hstands₁
      rw [bind_error hraise]
      refine ⟨_, hstands₁, ?_⟩
      rintro success w' ⟨⟩
  | ok u w₁ =>
      rw [hraise, finalState_ok] at hstands₁
      rw [bind_ok hraise]
      obtain ⟨stage, hstage, hover⟩ :=
        stands_interruptLoop (M := M) execSuccess (atHead_raised options) hstands₁
      cases hloop : interruptLoop (recording M)
        (clearAfterFirst (recording M) options.clearInterrupt) (maxIter options) 0
        execSuccess w₁ with
      | error e w₂ =>
          rw [hloop] at hstage
          rw [bind_error hloop]
          refine ⟨stage, hstage, ?_⟩
          rintro success w' ⟨⟩
      | ok r w₂ =>
          rw [hloop] at hstage
          rw [bind_ok hloop]
          have hline : (Stage.raised options).line = .unraised ↔ Line.settled = .unraised :=
            iff_of_false (Stage.raised_line_ne options) Line.noConfusion
          exact ⟨stage, hstage.same (calls_limitTest _ _ _ _ w₂),
            fun _ _ _ => (hover r w₂ hloop).of_line hline⟩

theorem stands_interruptSteps (options : DriverOptions) (hcalls : w.calls = []) :
    ∃ stage, Stands options (finalState (interruptSteps (recording M) options w)) stage ∧
      ∀ success w', interruptSteps (recording M) options w = .ok success w' →
        LoopOver .settled stage := by
  have hstart : Stands options w ⟨.unraised, options.numStepsBeforeInt.toNat⟩ := by
    unfold Stands
    rw [hcalls]
    rfl
  rw [interruptSteps_eq]
  obtain ⟨stage, hstage, hover⟩ :=
    stands_interruptLoop (M := M) true atHead_unraised hstart
  cases hloop : interruptLoop (recording M) (clearAfterFirst (recording M) false)
    options.numStepsBeforeInt.toNat 0 true w with
  | error e w₁ =>
      rw [hloop] at hstage
      rw [bind_error hloop]
      refine ⟨stage, hstage, ?_⟩
      rintro success w' ⟨⟩
  | ok r w₁ =>
      rw [hloop, finalState_ok] at hstage
      have hover := hover r w₁ hloop
      have hstands : Stands options w₁ ⟨.unraised, 0⟩ := by
        rw [← hover.unraised_iff.mpr rfl, ← hover.left_eq]
        exact hstage
      obtain ⟨execSuccess', w₂, hlimit, hmodel⟩ := limitTest_ok max_step
        "maximum step number exceeded\n".toList r.1 r.2 w₁
      rw [bind_ok hloop]
      show ∃ stage, Stands options (finalState ((limitTest max_step _ r.1 r.2 >>= _) w₁)) stage ∧
        ∀ success w', (limitTest max_step _ r.1 r.2 >>= _) w₁ = .ok success w' → _
      rw [bind_ok hlimit]
      exact stands_secondPhase (hstands.same (congrArg Prod.snd hmodel))

end Sound

/-! ## Runs and words -/

section Runs

variable {σ : Type}

theorem calls_interruptMain (M : LauncherModel σ) (load : Text → Option Image)
    (options : DriverOptions) (iterations : Nat) (w : LaunchWorld σ) :
    (finalState (interruptMain (recording M) load options iterations w.recorded)).calls =
      (finalState (runExecutable (recording M) load options iterations
        (interruptSteps (recording M) options) w.recorded)).calls :=
  congrArg Prod.snd (model_launch w.recorded)

/-- Every run makes a word, also one that breaks off. -/
theorem exists_stands_interruptMain (M : LauncherModel σ) (load : Text → Option Image)
    (options : DriverOptions) (iterations : Nat) (w : LaunchWorld σ) :
    ∃ stage, Stands options
      (finalState (interruptMain (recording M) load options iterations w.recorded)) stage := by
  have hcalls := calls_interruptMain M load options iterations w
  rcases runExecutable_recording M load options iterations w
    (interruptSteps (recording M) options) with
    ⟨_, hrun⟩ | ⟨_, _, e, w', hrun, hempty⟩ | ⟨_, s, w₁, _, hstart, _, hrun⟩
  · have hnil : Stands options w.recorded (Stage.start options) := rfl
    rw [hrun, finalState_ok] at hcalls
    exact ⟨_, hnil.same hcalls⟩
  · rw [hrun, finalState_error, hempty] at hcalls
    refine ⟨Stage.start options, ?_⟩
    unfold Stands
    rw [hcalls]
    rfl
  · obtain ⟨stage, hstage, _⟩ :=
      stands_interruptSteps (M := M) options (congrArg Prod.snd hstart)
    rw [hrun] at hcalls
    exact ⟨stage, hstage.same hcalls⟩

end Runs

/-! ## What holds of every word -/

namespace Stage

variable {options : DriverOptions} {stage stage' : Stage} {calls : List Call}

theorem instrCount_concat_instr (calls : List Call) (result : RVMSimExecStatus) :
    instrCount (calls ++ [.executeInstr result]) = instrCount calls + 1 := by
  unfold instrCount
  rw [List.countP_append]
  rfl

/-- Before the interrupt, steps are counted down, and none is left behind a finish. -/
theorem unraised_spec (h : (start options).follow options calls = some stage)
    (hline : stage.line = .unraised) :
    (∀ cause, .raiseInterrupt cause ∉ calls) ∧
      instrCount calls ≤ options.numStepsBeforeInt.toNat ∧
      (instrCount calls + stage.left = options.numStepsBeforeInt.toNat ∨
        stage.left = 0 ∧ ∃ earlier, calls = earlier ++ [.executeInstr .FINISH]) := by
  induction calls using List.reverseRecOn generalizing stage with
  | nil =>
      cases h
      exact ⟨fun _ => List.not_mem_nil, Nat.zero_le _, .inl (Nat.zero_add _)⟩
  | append_singleton calls call ih =>
      obtain ⟨stage₁, hcalls, hadvance⟩ := follow_concat_eq_some_iff.mp h
      cases call with
      | raiseInterrupt cause =>
          obtain ⟨_, _, rfl⟩ := advance_raise_eq_some_iff.mp hadvance
          exact absurd hline (raised_line_ne options)
      | clearInterrupt cause =>
          obtain ⟨_, _, rfl⟩ := advance_clear_eq_some_iff.mp hadvance
          cases hline
      | executeInstr result =>
          obtain ⟨_, hleft, hnext⟩ := advance_instr_eq_some_iff.mp hadvance
          have hline₁ : stage₁.line = .unraised := by
            rcases hnext with ⟨_, rfl⟩ | ⟨_, rfl⟩
            · exact hline
            · exact Line.stepped_eq_unraised_iff.mp hline
          obtain ⟨hno, _, hcount⟩ := ih hcalls hline₁
          have hcount : instrCount calls + stage₁.left = options.numStepsBeforeInt.toNat :=
            hcount.resolve_right fun h => hleft h.1
          rw [instrCount_concat_instr]
          refine ⟨fun cause hmem => ?_, by omega, ?_⟩
          · rcases List.mem_append.mp hmem with hmem | hmem
            · exact hno cause hmem
            · cases List.mem_singleton.mp hmem
          · rcases hnext with ⟨rfl, rfl⟩ | ⟨_, rfl⟩
            · exact .inr ⟨rfl, calls, rfl⟩
            · left
              show _ + 1 + (stage₁.left - 1) = _
              omega

/-- Behind the interrupt, no other is raised and the steps are bounded. -/
theorem raised_spec (h : stage.follow options calls = some stage') (hline : stage.line ≠ .unraised) :
    (∀ cause, .raiseInterrupt cause ∉ calls) ∧ instrCount calls ≤ stage.left := by
  induction calls generalizing stage with
  | nil => exact ⟨fun _ => List.not_mem_nil, Nat.zero_le _⟩
  | cons call calls ih =>
      obtain ⟨stage₁, hadvance, hcalls⟩ := follow_cons_eq_some_iff.mp h
      cases call with
      | raiseInterrupt cause =>
          obtain ⟨rfl, _, _⟩ := advance_raise_eq_some_iff.mp hadvance
          exact absurd rfl hline
      | clearInterrupt cause =>
          obtain ⟨_, _, rfl⟩ := advance_clear_eq_some_iff.mp hadvance
          obtain ⟨hno, hcount⟩ := ih hcalls Line.noConfusion
          exact ⟨fun cause hmem => hno cause (List.mem_of_ne_of_mem Call.noConfusion hmem), hcount⟩
      | executeInstr result =>
          obtain ⟨_, hleft, hnext⟩ := advance_instr_eq_some_iff.mp hadvance
          have hstage₁ : stage₁.line ≠ .unraised ∧ stage₁.left + 1 ≤ stage.left := by
            rcases hnext with ⟨_, rfl⟩ | ⟨_, rfl⟩
            · exact ⟨hline, Nat.one_le_iff_ne_zero.mpr hleft⟩
            · refine ⟨fun h => hline (Line.stepped_eq_unraised_iff.mp h), ?_⟩
              show stage.left - 1 + 1 ≤ stage.left
              omega
          obtain ⟨hno, hcount⟩ := ih hcalls hstage₁.1
          have hcons : instrCount (.executeInstr result :: calls) = instrCount calls + 1 :=
            List.countP_cons_of_pos rfl
          rw [hcons]
          exact ⟨fun cause hmem => hno cause (List.mem_of_ne_of_mem Call.noConfusion hmem),
            by omega⟩

/-- The interrupt has just been raised. -/
theorem raised_last (h : (start options).follow options calls = some stage)
    (hline : stage.line = .raised) (hleft : stage.left ≠ 0) :
    options.clearInterrupt = true ∧
      ∃ earlier, calls = earlier ++ [.raiseInterrupt interrupt_cause] := by
  rcases List.eq_nil_or_concat' calls with rfl | ⟨earlier, call, rfl⟩
  · cases h
    cases hline
  · obtain ⟨stage₁, _, hadvance⟩ := follow_concat_eq_some_iff.mp h
    cases call with
    | raiseInterrupt cause =>
        obtain ⟨_, rfl, rfl⟩ := advance_raise_eq_some_iff.mp hadvance
        refine ⟨?_, earlier, rfl⟩
        unfold raised at hline
        cases hclear : options.clearInterrupt with
        | true => rfl
        | false =>
            rw [hclear] at hline
            cases hline
    | clearInterrupt cause =>
        obtain ⟨_, _, rfl⟩ := advance_clear_eq_some_iff.mp hadvance
        cases hline
    | executeInstr result =>
        obtain ⟨_, _, ⟨_, rfl⟩ | ⟨_, rfl⟩⟩ := advance_instr_eq_some_iff.mp hadvance
        · exact absurd rfl hleft
        · exact absurd hline Line.stepped_ne_raised

/-- The interrupt has been raised, and one instruction executed since. -/
theorem due_last (h : (start options).follow options calls = some stage)
    (hline : stage.line = .due) :
    options.clearInterrupt = true ∧ ∃ earlier result, result ≠ .FINISH ∧
      calls = earlier ++ [.raiseInterrupt interrupt_cause, .executeInstr result] := by
  rcases List.eq_nil_or_concat' calls with rfl | ⟨earlier, call, rfl⟩
  · cases h
    cases hline
  · obtain ⟨stage₁, hearlier, hadvance⟩ := follow_concat_eq_some_iff.mp h
    cases call with
    | raiseInterrupt cause =>
        obtain ⟨_, _, rfl⟩ := advance_raise_eq_some_iff.mp hadvance
        exact absurd hline (atHead_raised options).not_due
    | clearInterrupt cause =>
        obtain ⟨_, _, rfl⟩ := advance_clear_eq_some_iff.mp hadvance
        cases hline
    | executeInstr result =>
        obtain ⟨hdue, hleft, ⟨_, rfl⟩ | ⟨hnot, rfl⟩⟩ := advance_instr_eq_some_iff.mp hadvance
        · exact absurd hline hdue
        · have hraised := (Line.stepped_eq_due_iff.mp hline).resolve_right hdue
          obtain ⟨hclear, before, rfl⟩ := raised_last hearlier hraised hleft
          exact ⟨hclear, before, result, hnot, List.append_assoc _ _ _⟩

/-- What is settled stays settled. -/
theorem settled_spec (h : stage.follow options calls = some stage') (hline : stage.line = .settled)
    (cause : RVMRegT) : .clearInterrupt cause ∉ calls := by
  induction calls generalizing stage with
  | nil => exact List.not_mem_nil
  | cons call calls ih =>
      obtain ⟨stage₁, hadvance, hcalls⟩ := follow_cons_eq_some_iff.mp h
      cases call with
      | raiseInterrupt cause =>
          obtain ⟨rfl, _, _⟩ := advance_raise_eq_some_iff.mp hadvance
          cases hline
      | clearInterrupt cause =>
          cases hline.symm.trans (advance_clear_eq_some_iff.mp hadvance).1
      | executeInstr result =>
          have hline₁ : stage₁.line = .settled := by
            obtain ⟨_, _, ⟨_, rfl⟩ | ⟨_, rfl⟩⟩ := advance_instr_eq_some_iff.mp hadvance
            · exact hline
            · show stage.line.stepped = .settled
              rw [hline]
              rfl
          exact fun hmem => ih hcalls hline₁ (List.mem_of_ne_of_mem Call.noConfusion hmem)

theorem exists_raise (h : (start options).follow options calls = some stage)
    (hline : stage.line ≠ .unraised) : .raiseInterrupt interrupt_cause ∈ calls := by
  induction calls using List.reverseRecOn generalizing stage with
  | nil =>
      cases h
      exact absurd rfl hline
  | append_singleton calls call ih =>
      obtain ⟨stage₁, hcalls, hadvance⟩ := follow_concat_eq_some_iff.mp h
      cases call with
      | raiseInterrupt cause =>
          obtain ⟨_, rfl, _⟩ := advance_raise_eq_some_iff.mp hadvance
          exact List.mem_append_right calls List.mem_cons_self
      | clearInterrupt cause =>
          obtain ⟨hdue, _, _⟩ := advance_clear_eq_some_iff.mp hadvance
          have hraised : stage₁.line ≠ .unraised := fun h => Line.noConfusion (h.symm.trans hdue)
          exact List.mem_append_left _ (ih hcalls hraised)
      | executeInstr result =>
          have hraised : stage₁.line ≠ .unraised := by
            obtain ⟨_, _, ⟨_, rfl⟩ | ⟨_, rfl⟩⟩ := advance_instr_eq_some_iff.mp hadvance
            · exact hline
            · exact fun h => hline (Line.stepped_eq_unraised_iff.mpr h)
          exact List.mem_append_left _ (ih hcalls hraised)

theorem exists_clear (h : (start options).follow options calls = some stage)
    (hline : stage.line = .settled) (hclear : options.clearInterrupt = true) :
    .clearInterrupt 0 ∈ calls := by
  induction calls using List.reverseRecOn generalizing stage with
  | nil =>
      cases h
      cases hline
  | append_singleton calls call ih =>
      obtain ⟨stage₁, hcalls, hadvance⟩ := follow_concat_eq_some_iff.mp h
      cases call with
      | raiseInterrupt cause =>
          obtain ⟨_, _, rfl⟩ := advance_raise_eq_some_iff.mp hadvance
          unfold raised at hline
          rw [hclear] at hline
          cases hline
      | clearInterrupt cause =>
          obtain ⟨_, rfl, _⟩ := advance_clear_eq_some_iff.mp hadvance
          exact List.mem_append_right calls List.mem_cons_self
      | executeInstr result =>
          have hsettled : stage₁.line = .settled := by
            obtain ⟨_, _, ⟨_, rfl⟩ | ⟨_, rfl⟩⟩ := advance_instr_eq_some_iff.mp hadvance
            · exact hline
            · exact Line.stepped_eq_settled_iff.mp hline
          exact List.mem_append_left _ (ih hcalls hsettled)

/-- An interrupt that is raised and never cleared is followed by the finish alone. -/
theorem raised_over (h : (start options).follow options calls = some stage)
    (hline : stage.line = .raised) (hleft : stage.left = 0) :
    ∃ earlier, calls =
      earlier ++ [.raiseInterrupt interrupt_cause, .executeInstr .FINISH] := by
  rcases List.eq_nil_or_concat' calls with rfl | ⟨earlier, call, rfl⟩
  · cases h
    cases hline
  · obtain ⟨stage₁, hearlier, hadvance⟩ := follow_concat_eq_some_iff.mp h
    cases call with
    | raiseInterrupt cause =>
        obtain ⟨_, _, rfl⟩ := advance_raise_eq_some_iff.mp hadvance
        obtain ⟨_, hclear⟩ := (atHead_raised options).raised_iff.mp hline
        unfold raised maxIter at hleft
        rw [hclear] at hleft
        cases hleft
    | clearInterrupt cause =>
        obtain ⟨_, _, rfl⟩ := advance_clear_eq_some_iff.mp hadvance
        cases hline
    | executeInstr result =>
        obtain ⟨_, hnonzero, ⟨rfl, rfl⟩ | ⟨_, rfl⟩⟩ := advance_instr_eq_some_iff.mp hadvance
        · obtain ⟨_, before, rfl⟩ := raised_last hearlier hline hnonzero
          exact ⟨before, List.append_assoc _ _ _⟩
        · exact absurd hline Line.stepped_ne_raised

end Stage

/-- How the interrupt is handled: it is raised once, not before its time, and cleared once,
behind the first instruction that follows it; the instructions on both sides are bounded. -/
structure Orderly (options : DriverOptions) (calls : List Call) : Prop where
  bounded : ∀ before, before <+: calls → (∀ cause, .raiseInterrupt cause ∉ before) →
    instrCount before ≤ options.numStepsBeforeInt.toNat
  raised : ∀ before cause after, calls = before ++ .raiseInterrupt cause :: after →
    cause = interrupt_cause ∧
      (instrCount before = options.numStepsBeforeInt.toNat ∨
        ∃ earlier, before = earlier ++ [.executeInstr .FINISH]) ∧
      (∀ cause', .raiseInterrupt cause' ∉ before) ∧ (∀ cause', .raiseInterrupt cause' ∉ after) ∧
      instrCount after ≤ maxIter options
  cleared : ∀ before cause after, calls = before ++ .clearInterrupt cause :: after →
    cause = 0 ∧ options.clearInterrupt = true ∧
      (∃ earlier result, result ≠ .FINISH ∧
        before = earlier ++ [.raiseInterrupt interrupt_cause, .executeInstr result]) ∧
      ∀ cause', .clearInterrupt cause' ∉ after

/-- The interrupt was raised, and cleared if that was asked for, unless the simulation
ended at once. -/
structure Served (options : DriverOptions) (calls : List Call) : Prop where
  raised : .raiseInterrupt interrupt_cause ∈ calls
  cleared : options.clearInterrupt = true → .clearInterrupt 0 ∈ calls ∨
    ∃ earlier, calls = earlier ++ [.raiseInterrupt interrupt_cause, .executeInstr .FINISH]

theorem orderly_of_follow {options : DriverOptions} {calls : List Call} {stage : Stage}
    (h : (Stage.start options).follow options calls = some stage) : Orderly options calls where
  bounded := by
    rintro before ⟨after, rfl⟩ hno
    obtain ⟨stage₁, hbefore, _⟩ := Stage.follow_append_eq_some_iff.mp h
    by_cases hline : stage₁.line = .unraised
    · exact (Stage.unraised_spec hbefore hline).2.1
    · exact absurd (Stage.exists_raise hbefore hline) (hno _)
  raised := by
    rintro before cause after rfl
    obtain ⟨_, hbefore, hrest⟩ := Stage.follow_append_eq_some_iff.mp h
    obtain ⟨_, hadvance, hafter⟩ := Stage.follow_cons_eq_some_iff.mp hrest
    obtain ⟨rfl, rfl, rfl⟩ := Stage.advance_raise_eq_some_iff.mp hadvance
    obtain ⟨hno, _, hcount⟩ := Stage.unraised_spec hbefore rfl
    obtain ⟨hno', hcount'⟩ := Stage.raised_spec hafter (Stage.raised_line_ne options)
    exact ⟨rfl, hcount.imp id And.right, hno, hno', hcount'⟩
  cleared := by
    rintro before cause after rfl
    obtain ⟨_, hbefore, hrest⟩ := Stage.follow_append_eq_some_iff.mp h
    obtain ⟨_, hadvance, hafter⟩ := Stage.follow_cons_eq_some_iff.mp hrest
    obtain ⟨hdue, rfl, rfl⟩ := Stage.advance_clear_eq_some_iff.mp hadvance
    obtain ⟨hclear, hlast⟩ := Stage.due_last hbefore hdue
    exact ⟨rfl, hclear, hlast, Stage.settled_spec hafter rfl⟩

theorem served_of_follow {options : DriverOptions} {calls : List Call} {stage : Stage}
    (h : (Stage.start options).follow options calls = some stage)
    (hover : LoopOver .settled stage) : Served options calls where
  raised := Stage.exists_raise h fun hline => Line.noConfusion (hover.unraised_iff.mp hline)
  cleared := by
    intro hclear
    cases hline : stage.line with
    | unraised => cases hover.unraised_iff.mp hline
    | due => exact absurd hline hover.not_due
    | settled => exact .inl (Stage.exists_clear h hline hclear)
    | raised => exact .inr (Stage.raised_over h hline hover.left_eq)

theorem served_of_success {σ : Type} {M : LauncherModel σ} {load : Text → Option Image}
    {options : DriverOptions} {iterations : Nat} {w : LaunchWorld σ}
    {w' : LaunchWorld (σ × List Call)} (hfile : options.executableFile ≠ [])
    (h : interruptMain (recording M) load options iterations w.recorded = .ok .SUCCESS w') :
    Served options w'.calls := by
  obtain ⟨w₂, hrun, hwrite⟩ := launch_success_iff.mp h
  have hkept : w'.calls = w₂.calls := congrArg Prod.snd ((moves_writeState _ _).ok hwrite)
  rcases runExecutable_recording M load options iterations w
    (interruptSteps (recording M) options) with
    ⟨hnone, _⟩ | ⟨_, _, e, w₁, herror, _⟩ | ⟨_, s, w₁, _, hstart, _, hsteps⟩
  · exact absurd hnone hfile
  · rw [herror] at hrun
    cases hrun
  · obtain ⟨stage, hstage, hover⟩ :=
      stands_interruptSteps (M := M) options (congrArg Prod.snd hstart)
    rw [hsteps] at hrun
    rw [hrun] at hstage
    rw [hkept]
    exact served_of_follow hstage (hover true w₂ hrun)

/-- The interrupt is handled in order in every run, and served in every successful one. -/
theorem interruptMain_orderly {σ : Type} (M : LauncherModel σ) (load : Text → Option Image)
    (options : DriverOptions) (iterations : Nat) (w : LaunchWorld σ) :
    Orderly options
        (finalState (interruptMain (recording M) load options iterations w.recorded)).calls ∧
      ∀ w', interruptMain (recording M) load options iterations w.recorded = .ok .SUCCESS w' →
        options.executableFile ≠ [] → Served options w'.calls := by
  obtain ⟨stage, hstage⟩ := exists_stands_interruptMain M load options iterations w
  exact ⟨orderly_of_follow hstage, fun w' hsuccess hfile => served_of_success hfile hsuccess⟩

end Rvmi.Launch
