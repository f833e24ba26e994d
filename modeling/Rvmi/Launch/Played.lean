import Rvmi.Launch.Protocol

/-!
# Every word is played

The automaton of the calls accepts no more than it has to: a simulator that knows the
calls it will get makes the launcher call any word that is accepted, and breaks the run
off behind it.
-/

namespace Rvmi.Launch

open Rvmi.Foundation Rvmi.Log Rvmi.Elf

/-- A simulator that knows the calls it will get. Behind the last of them no control
register can be read. -/
def playModel : LauncherModel (List Call) where
  executeInstr s :=
    let result := match s.head? with
      | some (.executeInstr result) => result
      | _ => .FINISH
    ⟨result, [], s.tail⟩
  readPC _ := 0
  readXReg _ _ := (.SUCCESS, 0)
  readFReg _ _ := (.SUCCESS, 0)
  readCSR _ s := (if s.isEmpty then .UNRECOVERABLE_ERROR else .SUCCESS, 0)
  rv64 _ := true
  setPC _ s := (.SUCCESS, s)
  writeMem _ _ s := (.SUCCESS, s)
  setStopPC _ s := (.SUCCESS, s)
  setStopMode _ s := s
  raiseInterrupt _ s := (.SUCCESS, s.tail)
  clearInterrupt _ s := (.SUCCESS, s.tail)
  readVReg _ data _ _ := (.SUCCESS, data.getD [], 0)
  strerror _ := []
  getErrorContext _ := []

section Play

variable {options : DriverOptions} {clear : Bool} {line : Line} {remaining i : Nat}
  {execSuccess : Bool} {stage : Stage} {w : LaunchWorld (List Call × List Call)}
  {t : Text} {call : Call} {result : RVMSimExecStatus} {rest : List Call}

theorem fcsrReadable_play_iff {s : List Call} : playModel.FCSRReadable s ↔ s ≠ [] := by
  cases s with
  | nil => exact iff_of_false RVMErrorCode.noConfusion fun h => h rfl
  | cons call rest => exact iff_of_true rfl (List.cons_ne_nil call rest)

/-- Nothing is called behind the end of the word. -/
theorem retire_play_nil (hopen : w.logger.os = some t) (hstate : w.model.1 = []) :
    ∃ e w', liftSim (retireInstr (recording playModel).toModel) w = .error e w' ∧
      w'.calls = w.calls := by
  have hbefore : ¬ (recording playModel).FCSRReadable w.model :=
    fun h => fcsrReadable_play_iff.mp h hstate
  obtain ⟨e, v, hretire, hmodel⟩ :=
    retireInstr_error_before (w := ⟨w.model, w.logger⟩) hopen hbefore
  exact ⟨_, _, liftSim_of_error hretire, congrArg Prod.snd hmodel⟩

/-- The last instruction is executed, but cannot be logged. -/
theorem retire_play_last (hopen : w.logger.os = some t)
    (hstate : w.model.1 = [.executeInstr result]) :
    ∃ e w', liftSim (retireInstr (recording playModel).toModel) w = .error e w' ∧
      w'.calls = w.calls ++ [.executeInstr result] := by
  have hbefore : (recording playModel).FCSRReadable w.model := by
    apply fcsrReadable_play_iff.mpr
    rw [hstate]
    exact List.cons_ne_nil _ _
  have hafter : ¬ (recording playModel).FCSRReadable ((recording playModel).next w.model) := by
    intro h
    apply fcsrReadable_play_iff.mp h
    show w.model.1.tail = []
    rw [hstate]
    rfl
  obtain ⟨e, v, hretire, hmodel⟩ :=
    retireInstr_error_after (w := ⟨w.model, w.logger⟩) hopen hbefore hafter
  refine ⟨_, _, liftSim_of_error hretire, ?_⟩
  have hcalls : v.model.2 = w.calls ++ [.executeInstr (playModel.executeInstr w.model.1).status] :=
    congrArg Prod.snd hmodel
  rw [hstate] at hcalls
  exact hcalls

theorem retire_play_cons (hopen : w.logger.os.isSome = true) (hrest : rest ≠ [])
    (hstate : w.model.1 = .executeInstr result :: rest) :
    ∃ w', liftSim (retireInstr (recording playModel).toModel) w = .ok result w' ∧
      w'.model = (rest, w.calls ++ [.executeInstr result]) ∧ w'.logger.os.isSome = true := by
  have hretires : Retires playModel.toModel w.logger.os.isSome w.model.1 := by
    intro _
    refine ⟨fcsrReadable_play_iff.mpr ?_, fcsrReadable_play_iff.mpr ?_, ?_, ?_⟩
    · rw [hstate]
      exact List.cons_ne_nil _ _
    · show w.model.1.tail ≠ []
      rw [hstate]
      exact hrest
    · exact fun reg hreg => absurd hreg List.not_mem_nil
    · exact fun reg hreg => absurd hreg List.not_mem_nil
  obtain ⟨w', hretire, hmodel, hos⟩ := retire_recording_of_retires hretires
  have hstatus : (playModel.executeInstr w.model.1).status = result := by
    rw [hstate]
    rfl
  have hnext : playModel.next w.model.1 = rest := by
    show w.model.1.tail = rest
    rw [hstate]
    rfl
  rw [hstatus] at hretire hmodel
  rw [hnext] at hmodel
  exact ⟨w', hretire, hmodel, hos.trans hopen⟩

theorem play_clearAfterFirst (hhead : AtHead clear i line) {rest : List Call} (hrest : rest ≠ [])
    (hstate : w.model.1 = rest)
    (hfollow : Stage.follow options ⟨line.stepped, remaining⟩ rest = some stage) :
    ∃ w' cleared rest' line', clearAfterFirst (recording playModel) clear i w = .ok () w' ∧
      w'.model = (rest', w.calls ++ cleared) ∧ w'.logger = w.logger ∧ rest = cleared ++ rest' ∧
      Stage.follow options ⟨line.stepped, remaining⟩ cleared = some ⟨line', remaining⟩ ∧
      AtHead clear (i + 1) line' ∧ (line' = .unraised ↔ line = .unraised) ∧
      (clear = false → rest' ≠ []) := by
  unfold clearAfterFirst
  by_cases hfirst : i = 0 ∧ clear = true
  · obtain rfl := hhead.raised_iff.mpr hfirst
    obtain ⟨call, rest', rfl⟩ := List.exists_cons_of_ne_nil hrest
    obtain ⟨stage₁, hadvance, _⟩ := Stage.follow_cons_eq_some_iff.mp hfollow
    -- only the interrupt that is due can be next
    cases call with
    | executeInstr result => exact absurd rfl (Stage.advance_instr_eq_some_iff.mp hadvance).1
    | raiseInterrupt cause => cases (Stage.advance_raise_eq_some_iff.mp hadvance).1
    | clearInterrupt cause =>
        obtain ⟨_, rfl, _⟩ := Stage.advance_clear_eq_some_iff.mp hadvance
        rw [if_pos hfirst]
        refine ⟨{ w with model := (rest', w.calls ++ [.clearInterrupt 0]) },
          [.clearInterrupt 0], rest', .settled, checkedCall_ok_iff.mpr ⟨?_, rfl⟩, rfl, rfl, rfl,
          rfl, atHead_settled clear i, iff_of_false Line.noConfusion Line.noConfusion, ?_⟩
        · show (RVMErrorCode.SUCCESS, w.model.1.tail, w.calls ++ [.clearInterrupt 0]) = _
          rw [hstate]
          rfl
        · intro hclear
          cases hclear.symm.trans hfirst.2
  · obtain ⟨hstepped, hhead'⟩ := hhead.next hfirst
    rw [if_neg hfirst, hstepped]
    refine ⟨w, [], rest, line, rfl, ?_, rfl, rfl, rfl, hhead', Iff.rfl, fun _ => hrest⟩
    rw [List.append_nil, ← hstate]
    rfl

/-- A loop that was left where the word ends, or one that returned within the word. -/
inductive Played (options : DriverOptions) (clear : Bool) (line : Line) (remaining : Nat)
    (rest calls : List Call) :
    EStateM.Result LaunchFailure (LaunchWorld (List Call × List Call)) (Nat × Bool) → Prop
  | broken {e : LaunchFailure} {w' : LaunchWorld (List Call × List Call)}
      (hcalls : w'.calls = calls ++ rest) : Played options clear line remaining rest calls (.error e w')
  | ended {r : Nat × Bool} {w' : LaunchWorld (List Call × List Call)} (used rest' : List Call)
      (stage : Stage) (hmodel : w'.model = (rest', calls ++ used)) (hrest : rest = used ++ rest')
      (hopen : w'.logger.os.isSome = true)
      (hfollow : Stage.follow options ⟨line, remaining⟩ used = some stage)
      (hover : LoopOver line stage) (hnot : clear = false → rest ≠ [] → rest' ≠ []) :
      Played options clear line remaining rest calls (.ok r w')

theorem Played.prepend {line' : Line} {remaining' : Nat} {used rest calls : List Call}
    {result : EStateM.Result LaunchFailure (LaunchWorld (List Call × List Call)) (Nat × Bool)}
    (h : Played options clear line' remaining' rest (calls ++ used) result)
    (hfollow : Stage.follow options ⟨line, remaining⟩ used = some ⟨line', remaining'⟩)
    (hline : line' = .unraised ↔ line = .unraised) (hrest : clear = false → rest ≠ []) :
    Played options clear line remaining (used ++ rest) calls result := by
  cases h with
  | broken hcalls => exact .broken (hcalls.trans (List.append_assoc _ _ _))
  | ended used' rest' stage hmodel hsplit hopen hlater hover hnot =>
      refine .ended (used ++ used') rest' stage (hmodel.trans ?_) ?_ hopen
        (Stage.follow_append_eq_some_iff.mpr ⟨_, hfollow, hlater⟩) (hover.of_line hline) ?_
      · rw [List.append_assoc]
      · rw [hsplit, List.append_assoc]
      · exact fun hclear _ => hnot hclear (hrest hclear)

theorem play_interruptLoop (execSuccess : Bool) (hhead : AtHead clear i line)
    (hopen : w.logger.os.isSome = true) (hstate : w.model.1 = rest)
    (hfollow : Stage.follow options ⟨line, remaining⟩ rest = some stage) :
    Played options clear line remaining rest w.calls (interruptLoop (recording playModel)
      (clearAfterFirst (recording playModel) clear) remaining i execSuccess w) := by
  induction remaining generalizing i line rest w with
  | zero =>
      refine .ended [] rest ⟨line, 0⟩ ?_ rfl hopen rfl
        ⟨rfl, hhead.not_due, Iff.rfl⟩ fun _ h => h
      rw [List.append_nil, ← hstate]
      rfl
  | succ remaining ih =>
      obtain ⟨t, ht⟩ := Option.isSome_iff_exists.mp hopen
      rw [interruptLoop_succ]
      cases rest with
      | nil =>
          obtain ⟨e, w', hretire, hcalls⟩ := retire_play_nil ht hstate
          rw [bind_error hretire]
          exact .broken (hcalls.trans (List.append_nil _).symm)
      | cons call rest =>
          obtain ⟨stage₁, hadvance, hlater⟩ := Stage.follow_cons_eq_some_iff.mp hfollow
          cases call with
          | raiseInterrupt cause => cases (Stage.advance_raise_eq_some_iff.mp hadvance).1
          | clearInterrupt cause =>
              exact absurd (Stage.advance_clear_eq_some_iff.mp hadvance).1 hhead.not_due
          | executeInstr result =>
              by_cases hlast : rest = []
              · rw [hlast] at hstate ⊢
                obtain ⟨e, w', hretire, hcalls⟩ := retire_play_last ht hstate
                rw [bind_error hretire]
                exact .broken hcalls
              · obtain ⟨w₁, hretire, hmodel, hopen₁⟩ := retire_play_cons hopen hlast hstate
                have hcalls₁ : w₁.calls = w.calls ++ [.executeInstr result] :=
                  congrArg Prod.snd hmodel
                have hused : Stage.follow options ⟨line, remaining + 1⟩ [.executeInstr result] =
                    some stage₁ := Stage.follow_cons_eq_some_iff.mpr ⟨stage₁, hadvance, rfl⟩
                rw [bind_ok hretire]
                rcases (Stage.advance_instr_eq_some_iff.mp hadvance).2.2 with
                  ⟨rfl, rfl⟩ | ⟨hnot, rfl⟩
                · rw [if_pos rfl]
                  exact .ended _ rest _ hmodel rfl hopen₁ hused ⟨rfl, hhead.not_due, Iff.rfl⟩
                    fun _ _ => hlast
                · obtain ⟨w₂, cleared, rest', line', hclear, hmodel₂, hlogger, rfl, hcleared,
                    hhead', hline, hkept⟩ := play_clearAfterFirst (w := w₁) hhead hlast
                      (congrArg Prod.fst hmodel) hlater
                  obtain ⟨_, hcleared', hrest'⟩ := Stage.follow_append_eq_some_iff.mp hlater
                  cases hcleared.symm.trans hcleared'
                  have hopen₂ : w₂.logger.os.isSome = true := by
                    rw [hlogger]
                    exact hopen₁
                  have hplayed := ih hhead' hopen₂ (congrArg Prod.fst hmodel₂) hrest'
                  have hcalls₂ : w₂.calls = w.calls ++ ([.executeInstr result] ++ cleared) := by
                    rw [← List.append_assoc, ← hcalls₁]
                    exact congrArg Prod.snd hmodel₂
                  rw [if_neg hnot, bind_ok hclear]
                  rw [hcalls₂] at hplayed
                  exact hplayed.prepend (Stage.follow_append_eq_some_iff.mpr
                    ⟨_, hused, hcleared⟩) hline hkept

theorem play_secondPhase (hopen : w.logger.os.isSome = true) (hrest : rest ≠ [])
    (hstate : w.model.1 = rest) (hfollow : Stage.follow options ⟨.unraised, 0⟩ rest = some stage) :
    (finalState (secondPhase (recording playModel) options execSuccess w)).calls =
      w.calls ++ rest := by
  obtain ⟨call, rest, rfl⟩ := List.exists_cons_of_ne_nil hrest
  obtain ⟨stage₁, hadvance, hlater⟩ := Stage.follow_cons_eq_some_iff.mp hfollow
  cases call with
  | executeInstr result => exact absurd rfl (Stage.advance_instr_eq_some_iff.mp hadvance).2.1
  | clearInterrupt cause => cases (Stage.advance_clear_eq_some_iff.mp hadvance).1
  | raiseInterrupt cause =>
      obtain ⟨_, rfl, rfl⟩ := Stage.advance_raise_eq_some_iff.mp hadvance
      have hraised : playModel.raiseInterrupt interrupt_cause w.model.1 = (.SUCCESS, rest) := by
        rw [hstate]
        rfl
      have hraise := raiseInterrupt_recording_iff.mpr ⟨rest, hraised, rfl⟩
      have hplayed : Played options options.clearInterrupt (Stage.raised options).line
          (maxIter options) rest (w.calls ++ [.raiseInterrupt interrupt_cause])
          (interruptLoop (recording playModel)
            (clearAfterFirst (recording playModel) options.clearInterrupt) (maxIter options) 0
            execSuccess { w with model := (rest, w.calls ++ [.raiseInterrupt interrupt_cause]) }) :=
        play_interruptLoop (w := { w with model := (rest, w.calls ++ [.raiseInterrupt _]) })
          execSuccess (atHead_raised options) hopen rfl hlater
      unfold secondPhase
      rw [bind_ok hraise, List.append_cons w.calls _ rest]
      cases hloop : interruptLoop (recording playModel)
        (clearAfterFirst (recording playModel) options.clearInterrupt) (maxIter options) 0
        execSuccess { w with model := (rest, w.calls ++ [.raiseInterrupt interrupt_cause]) } with
      | error e w₁ =>
          rw [hloop] at hplayed
          rw [bind_error hloop]
          cases hplayed with
          | broken hcalls => exact hcalls
      | ok r w₁ =>
          rw [hloop] at hplayed
          rw [bind_ok hloop, calls_limitTest]
          cases hplayed with
          | ended used rest' stage' hmodel hsplit _ hused hover _ =>
              have hline : stage'.line ≠ .unraised :=
                fun h => Stage.raised_line_ne options (hover.unraised_iff.mp h)
              rw [hsplit] at hlater
              obtain ⟨_, hused', hrest'⟩ := Stage.follow_append_eq_some_iff.mp hlater
              cases hused.symm.trans hused'
              have hnil := Stage.eq_nil_of_follow hover.left_eq hover.not_due hline hrest'
              rw [hsplit, hnil, List.append_nil]
              exact congrArg Prod.snd hmodel

theorem moves_limitTest_logger {τ : Type} (limit : Nat) (message : Text) (i : Nat)
    (execSuccess : Bool) :
    Moves (Same LaunchWorld.logger) (limitTest limit message i execSuccess : Launcher τ Bool) :=
  Moves.ite (Moves.bind (fun _ => rfl) fun _ => moves_pure false) (moves_pure execSuccess)

theorem play_interruptSteps (hopen : w.logger.os.isSome = true) (hrest : rest ≠ [])
    (hmodel : w.model = (rest, []))
    (hfollow : (Stage.start options).follow options rest = some stage) :
    (finalState (interruptSteps (recording playModel) options w)).calls = rest := by
  have hcalls : w.calls = [] := congrArg Prod.snd hmodel
  have hstate : w.model.1 = rest := congrArg Prod.fst hmodel
  have hplayed := play_interruptLoop true atHead_unraised hopen hstate hfollow
  rw [interruptSteps_eq]
  cases hloop : interruptLoop (recording playModel) (clearAfterFirst (recording playModel) false)
    options.numStepsBeforeInt.toNat 0 true w with
  | error e w₁ =>
      rw [hloop] at hplayed
      rw [bind_error hloop]
      cases hplayed with
      | broken hbroken =>
          rw [hcalls] at hbroken
          exact hbroken
  | ok r w₁ =>
      rw [hloop] at hplayed
      obtain ⟨execSuccess', w₂, hlimit, hsame⟩ := limitTest_ok max_step
        "maximum step number exceeded\n".toList r.1 r.2 w₁
      rw [bind_ok hloop]
      show (finalState ((limitTest max_step _ r.1 r.2 >>= _) w₁)).calls = rest
      rw [bind_ok hlimit]
      cases hplayed with
      | ended used rest' stage' hmodel₁ hsplit hopen₁ hused hover hnot =>
          rw [hsplit] at hfollow
          obtain ⟨_, hused', hrest'⟩ := Stage.follow_append_eq_some_iff.mp hfollow
          cases hused.symm.trans hused'
          have hstage : stage' = ⟨.unraised, 0⟩ := by
            rw [← hover.unraised_iff.mpr rfl, ← hover.left_eq]
          have hopen₂ : w₂.logger.os.isSome = true := by
            rw [(moves_limitTest_logger _ _ _ _).ok hlimit]
            exact hopen₁
          rw [hstage] at hrest'
          have hstate₂ : w₂.model.1 = rest' := congrArg Prod.fst (hsame.trans hmodel₁)
          have hcalls₂ : w₂.calls = used := by
            rw [hcalls, List.nil_append] at hmodel₁
            exact congrArg Prod.snd (hsame.trans hmodel₁)
          rw [play_secondPhase hopen₂ (hnot rfl hrest) hstate₂ hrest', hcalls₂, hsplit]

end Play

/-! ## Runs and words -/

/-- An executable without code and without a label. -/
def emptyImage : Image where
  machine := EM_RISCV
  elfClass := ELFCLASS64
  entry := 0
  segments := []
  sections := [⟨SHT_SYMTAB, []⟩]

theorem loaded_play (options : DriverOptions) (calls : List Call) :
    Loaded playModel (elfio emptyImage) options 1
      { model := calls, logger := { os := some [] } } calls := ⟨_, rfl, rfl⟩

theorem calls_play {options : DriverOptions} {calls : List Call} {stage : Stage}
    (hfile : options.executableFile ≠ []) (hcalls : calls ≠ [])
    (h : (Stage.start options).follow options calls = some stage) :
    (finalState (interruptMain (recording playModel) (elfio emptyImage) options 1
      (LaunchWorld.recorded { model := calls, logger := { os := some [] } }))).calls = calls := by
  rw [calls_interruptMain]
  rcases runExecutable_recording playModel (elfio emptyImage) options 1
    { model := calls, logger := { os := some [] } } (interruptSteps (recording playModel) options)
    with ⟨hnone, _⟩ | ⟨_, hnot, _⟩ | ⟨_, s, w₁, hloaded, hstart, hlogger, hrun⟩
  · exact absurd hnone hfile
  · exact absurd ⟨calls, loaded_play options calls⟩ hnot
  · obtain rfl := hloaded.unique (loaded_play options calls)
    rw [hrun]
    refine play_interruptSteps ?_ hcalls hstart h
    rw [hlogger]
    rfl

/-- What runs of the launcher call, on all simulators and all executables together. -/
theorem interruptMain_calls_iff (options : DriverOptions) (calls : List Call) :
    (∃ (σ : Type) (M : LauncherModel σ) (load : Text → Option Image) (iterations : Nat)
        (w : LaunchWorld σ),
        (finalState (interruptMain (recording M) load options iterations w.recorded)).calls =
          calls) ↔
      calls = [] ∨ options.executableFile ≠ [] ∧
        ∃ stage, (Stage.start options).follow options calls = some stage := by
  constructor
  · rintro ⟨σ, M, load, iterations, w, rfl⟩
    by_cases hfile : options.executableFile = []
    · left
      rw [calls_interruptMain]
      rcases runExecutable_recording M load options iterations w
        (interruptSteps (recording M) options) with ⟨_, hrun⟩ | ⟨hnot, _⟩ | ⟨hnot, _⟩
      · rw [hrun]
        rfl
      · exact absurd hfile hnot
      · exact absurd hfile hnot
    · exact .inr ⟨hfile, exists_stands_interruptMain M load options iterations w⟩
  · intro h
    by_cases hcalls : calls = []
    · -- a file that is no executable
      refine ⟨List Call, playModel, fun _ => none, 1, { model := [] }, ?_⟩
      rw [hcalls, calls_interruptMain]
      rcases runExecutable_recording playModel (fun _ => none) options 1 { model := [] }
        (interruptSteps (recording playModel) options) with
        ⟨_, hrun⟩ | ⟨_, _, e, w', hrun, hempty⟩ | ⟨_, s, _, ⟨_, hparse, _⟩, _⟩
      · rw [hrun]
        rfl
      · rw [hrun]
        exact hempty
      · cases hparse
    · rcases h with hnil | ⟨hfile, stage, hfollow⟩
      · exact absurd hnil hcalls
      · exact ⟨List Call, playModel, elfio emptyImage, 1,
          { model := calls, logger := { os := some [] } }, calls_play hfile hcalls hfollow⟩

end Rvmi.Launch
