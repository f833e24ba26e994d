import Rvmi.Foundation.Steps
import Rvmi.Launch.Alike
import Rvmi.Elf.Loaded

/-!
# The phases of the interrupt launcher

A phase is one of the two loops of `InterruptDriver.cpp`, told by the model alone: it
ends when its steps are used up or behind the step that finishes the simulation. The
loop returns exactly when there is such a phase, and has recorded its calls.
-/

namespace Rvmi.Launch

open Rvmi.Foundation Rvmi.Log Rvmi.Elf

variable {σ τ α : Type} {M : LauncherModel σ}

/-- What stands at the end of the loop body: the interrupt is cleared behind the first
step if that was asked for. -/
inductive AfterStep (M : LauncherModel σ) (clear : Bool) (i : Nat) (s : σ) :
    List Call → σ → Prop
  | cleared {s' : σ} (hfirst : i = 0 ∧ clear = true)
      (hcall : M.clearInterrupt 0 s = (.SUCCESS, s')) : AfterStep M clear i s [.clearInterrupt 0] s'
  | kept (hnot : ¬ (i = 0 ∧ clear = true)) : AfterStep M clear i s [] s

/-- A loop that may take `remaining` steps makes these calls and leaves its counter at `i'`. -/
inductive Phase (M : LauncherModel σ) (isOpen clear : Bool) :
    Nat → Nat → σ → List Call → Nat → σ → Prop
  | exhausted (i : Nat) (s : σ) : Phase M isOpen clear 0 i s [] i s
  | finished {remaining i : Nat} {s : σ} (hreads : Retires M.toModel isOpen s)
      (hfinish : Finishes M.toModel s) :
      Phase M isOpen clear (remaining + 1) i s [.executeInstr .FINISH] i (M.next s)
  | continued {remaining i i' : Nat} {s s₁ s' : σ} {cleared calls : List Call}
      (hreads : Retires M.toModel isOpen s) (hnot : ¬ Finishes M.toModel s)
      (hafter : AfterStep M clear i (M.next s) cleared s₁)
      (hrest : Phase M isOpen clear remaining (i + 1) s₁ calls i' s') :
      Phase M isOpen clear (remaining + 1) i s
        (.executeInstr (M.executeInstr s).status :: (cleared ++ calls)) i' s'

/-! ## Calls of the model -/

theorem liftLoad_eq_ok_iff {x : Load σ α} {w w' : LaunchWorld σ} {a : α} :
    liftLoad x w = .ok a w' ↔ ∃ v, x ⟨w.model, w.cerr⟩ = .ok a v ∧
      w' = { w with model := v.model, cerr := v.cerr } := by
  cases hx : x ⟨w.model, w.cerr⟩ with
  | ok b v =>
      rw [liftLoad_of_ok hx]
      constructor
      · intro h
        cases h
        exact ⟨v, rfl, rfl⟩
      · rintro ⟨_, ⟨⟩, rfl⟩
        rfl
  | error e v =>
      rw [liftLoad_of_error hx]
      constructor
      · intro h
        cases h
      · rintro ⟨_, h, _⟩
        cases h

theorem liftSim_eq_ok_iff {x : Sim σ α} {w w' : LaunchWorld σ} {a : α} :
    liftSim x w = .ok a w' ↔ ∃ v, x ⟨w.model, w.logger⟩ = .ok a v ∧
      w' = { w with model := v.model, logger := v.logger } := by
  cases hx : x ⟨w.model, w.logger⟩ with
  | ok b v =>
      rw [liftSim_of_ok hx]
      constructor
      · intro h
        cases h
        exact ⟨v, rfl, rfl⟩
      · rintro ⟨_, ⟨⟩, rfl⟩
        rfl
  | error e v =>
      rw [liftSim_of_error hx]
      constructor
      · intro h
        cases h
      · rintro ⟨_, h, _⟩
        cases h

theorem liftSim_error {x : Sim σ α} {w w' : LaunchWorld σ} {e : LaunchFailure}
    (h : liftSim x w = .error e w') :
    ∃ e' v, x ⟨w.model, w.logger⟩ = .error e' v ∧ w'.model = v.model := by
  cases hx : x ⟨w.model, w.logger⟩ with
  | ok a v =>
      rw [liftSim_of_ok hx] at h
      cases h
  | error e' v =>
      rw [liftSim_of_error hx] at h
      cases h
      exact ⟨e', v, rfl, rfl⟩

theorem checkedCall_ok_iff {f : σ → RVMErrorCode × σ} {w w' : LaunchWorld σ} {u : Unit} :
    liftLoad (checkedCall f) w = .ok u w' ↔
      f w.model = (.SUCCESS, w'.model) ∧ w' = { w with model := w'.model } := by
  rw [liftLoad_eq_ok_iff]
  constructor
  · rintro ⟨v, hcall, rfl⟩
    obtain ⟨hf, hcerr⟩ := checkedCall_eq_ok_iff.mp hcall
    refine ⟨hf, ?_⟩
    rw [hcerr]
  · rintro ⟨hf, hw⟩
    refine ⟨⟨w'.model, w.cerr⟩, checkedCall_eq_ok_iff.mpr ⟨hf, rfl⟩, hw⟩

/-- The call is made whether or not it succeeds. -/
theorem model_checkedCall (f : σ → RVMErrorCode × σ) (w : LaunchWorld σ) :
    (finalState (liftLoad (checkedCall f) w)).model = (f w.model).2 := by
  by_cases herr : (f w.model).1 = .SUCCESS
  · have hcall : checkedCall f ⟨w.model, w.cerr⟩ = .ok () ⟨(f w.model).2, w.cerr⟩ :=
      checkedCall_eq_ok_iff.mpr ⟨Prod.ext herr rfl, rfl⟩
    rw [liftLoad_of_ok hcall, finalState_ok]
  · have hcall : checkedCall f ⟨w.model, w.cerr⟩ =
        .error (.modelError (f w.model).1) ⟨(f w.model).2, w.cerr⟩ := by
      show Elf.checkAndThrow (f w.model).1 _ = _
      exact throwIf_eq_error_iff.mpr ⟨herr, rfl, rfl⟩
    rw [liftLoad_of_error hcall, finalState_error]

/-! ## One iteration -/

theorem statusValue_not_neg (result : RVMSimExecStatus) : ¬ statusValue result < 0 := by
  cases result with
  | other code =>
      show ¬ (3 + (code.toNat : Int) < 0)
      omega
  | _ => decide

theorem statusValue_eq_one_iff {result : RVMSimExecStatus} :
    statusValue result = 1 ↔ result = .FINISH := by
  cases result with
  | other code =>
      have hvalue : statusValue (.other code) ≠ 1 := by
        show 3 + (code.toNat : Int) ≠ 1
        omega
      exact ⟨fun h => absurd h hvalue, RVMSimExecStatus.noConfusion⟩
  | _ => decide

/-- No result is negative, so the loop has two ways to go on. -/
theorem interruptLoop_succ (N : LauncherModel τ) (afterStep : Nat → Launcher τ Unit)
    (remaining i : Nat) (execSuccess : Bool) :
    interruptLoop N afterStep (remaining + 1) i execSuccess =
      liftSim (retireInstr N.toModel) >>= fun result =>
        if result = .FINISH then
          print "proper simulation end\n".toList >>= fun _ => pure (i, execSuccess)
        else
          afterStep i >>= fun _ =>
            interruptLoop N afterStep remaining (i + 1) execSuccess := by
  show (liftSim (retireInstr N.toModel) >>= _) = _
  congr 1
  funext result
  rw [if_neg (statusValue_not_neg result)]
  by_cases hfinish : result = .FINISH
  · rw [if_pos (statusValue_eq_one_iff.mpr hfinish), if_pos hfinish]
  · rw [if_neg fun h => hfinish (statusValue_eq_one_iff.mp h), if_neg hfinish]

/-- The first loop has nothing behind its steps. -/
theorem clearAfterFirst_false (N : LauncherModel τ) :
    clearAfterFirst N false = fun _ => pure () := by
  funext i
  exact if_neg fun h => Bool.noConfusion h.2

variable {clear : Bool} {remaining i i' : Nat} {execSuccess execSuccess' : Bool}
  {w w' : LaunchWorld (σ × List Call)}

theorem retire_recording_ok {result : RVMSimExecStatus}
    (h : liftSim (retireInstr (recording M).toModel) w = .ok result w') :
    Retires M.toModel w.logger.os.isSome w.model.1 ∧
      result = (M.executeInstr w.model.1).status ∧
      w'.model = (M.next w.model.1, w.calls ++ [.executeInstr result]) ∧
      w'.logger.os.isSome = w.logger.os.isSome := by
  obtain ⟨v, hretire, rfl⟩ := liftSim_eq_ok_iff.mp h
  obtain ⟨hreads, hos⟩ := retires_of_retireInstr hretire
  obtain ⟨rfl, hmodel⟩ := model_of_retireInstr hretire
  exact ⟨fun hopen => instrReadable_recording.mp (hreads hopen), rfl, hmodel, hos⟩

theorem retire_recording_of_retires (h : Retires M.toModel w.logger.os.isSome w.model.1) :
    ∃ w', liftSim (retireInstr (recording M).toModel) w =
        .ok (M.executeInstr w.model.1).status w' ∧
      w'.model = (M.next w.model.1, w.calls ++ [.executeInstr (M.executeInstr w.model.1).status]) ∧
      w'.logger.os.isSome = w.logger.os.isSome := by
  have hreads : Retires (recording M).toModel w.logger.os.isSome w.model :=
    fun hopen => instrReadable_recording.mpr (h hopen)
  obtain ⟨logger, hretire, hos⟩ :=
    retireInstr_of_retires (M := (recording M).toModel) (w := ⟨w.model, w.logger⟩) hreads
  exact ⟨_, liftSim_eq_ok_iff.mpr ⟨_, hretire, rfl⟩, rfl, hos⟩

theorem clearAfterFirst_ok (h : clearAfterFirst (recording M) clear i w = .ok () w') :
    ∃ cleared, AfterStep M clear i w.model.1 cleared w'.model.1 ∧
      w'.calls = w.calls ++ cleared ∧ w'.logger = w.logger := by
  unfold clearAfterFirst at h
  by_cases hfirst : i = 0 ∧ clear = true
  · rw [if_pos hfirst] at h
    obtain ⟨hcall, hw⟩ := checkedCall_ok_iff.mp h
    have herr : (M.clearInterrupt 0 w.model.1).1 = .SUCCESS := congrArg Prod.fst hcall
    have hmodel : ((M.clearInterrupt 0 w.model.1).2, w.calls ++ [.clearInterrupt 0]) = w'.model :=
      congrArg Prod.snd hcall
    refine ⟨[.clearInterrupt 0], .cleared hfirst ?_, ?_, ?_⟩
    · rw [← hmodel]
      exact Prod.ext herr rfl
    · unfold LaunchWorld.calls
      rw [← hmodel]
      rfl
    · rw [hw]
  · rw [if_neg hfirst] at h
    cases h
    exact ⟨[], .kept hfirst, (List.append_nil w.calls).symm, rfl⟩

theorem clearAfterFirst_of_afterStep {cleared : List Call} {s₁ : σ}
    (h : AfterStep M clear i w.model.1 cleared s₁) :
    ∃ w', clearAfterFirst (recording M) clear i w = .ok () w' ∧
      w'.model = (s₁, w.calls ++ cleared) ∧ w'.logger = w.logger := by
  unfold clearAfterFirst
  cases h with
  | cleared hfirst hcall =>
      rw [if_pos hfirst]
      refine ⟨{ w with model := (s₁, w.calls ++ [.clearInterrupt 0]) }, ?_, rfl, rfl⟩
      refine checkedCall_ok_iff.mpr ⟨?_, rfl⟩
      show ((M.clearInterrupt 0 w.model.1).1, _) = _
      rw [hcall]
      rfl
  | kept hnot =>
      rw [if_neg hnot]
      refine ⟨w, rfl, ?_, rfl⟩
      rw [List.append_nil]
      rfl

/-! ## The loop and its phase -/

theorem phase_of_interruptLoop
    (h : interruptLoop (recording M) (clearAfterFirst (recording M) clear) remaining i execSuccess w =
      .ok (i', execSuccess') w') :
    execSuccess' = execSuccess ∧ w'.logger.os.isSome = w.logger.os.isSome ∧
      ∃ calls, Phase M w.logger.os.isSome clear remaining i w.model.1 calls i' w'.model.1 ∧
        w'.calls = w.calls ++ calls := by
  induction remaining generalizing i w with
  | zero =>
      cases h
      exact ⟨rfl, rfl, [], .exhausted _ _, (List.append_nil _).symm⟩
  | succ remaining ih =>
      rw [interruptLoop_succ] at h
      obtain ⟨result, w₁, hretire, hrest⟩ := bind_eq_ok_iff.mp h
      obtain ⟨hreads, hresult, hmodel, hos⟩ := retire_recording_ok hretire
      have hstate : w₁.model.1 = M.next w.model.1 := congrArg Prod.fst hmodel
      have hcalls : w₁.calls = w.calls ++ [.executeInstr result] := congrArg Prod.snd hmodel
      by_cases hfinish : result = .FINISH
      · rw [if_pos hfinish] at hrest
        cases hrest
        refine ⟨rfl, hos, [.executeInstr .FINISH], ?_, ?_⟩
        · show Phase M w.logger.os.isSome clear (remaining + 1) _ w.model.1 _ _ w₁.model.1
          rw [hstate]
          exact .finished hreads (hresult.symm.trans hfinish)
        · rw [hfinish] at hcalls
          exact hcalls
      · rw [if_neg hfinish] at hrest
        obtain ⟨_, w₂, hclear, hloop⟩ := bind_eq_ok_iff.mp hrest
        obtain ⟨cleared, hafter, hcalls₂, hlogger⟩ := clearAfterFirst_ok hclear
        obtain ⟨hsuccess, hos', calls, hphase, hcalls'⟩ := ih hloop
        rw [hlogger, hos] at hos' hphase
        rw [hstate] at hafter
        refine ⟨hsuccess, hos', .executeInstr result :: (cleared ++ calls), ?_, ?_⟩
        · rw [hresult] at hfinish ⊢
          exact .continued hreads hfinish hafter hphase
        · rw [hcalls', hcalls₂, hcalls]
          simp only [List.append_assoc, List.cons_append, List.nil_append]

theorem interruptLoop_of_phase {isOpen : Bool} {s s' : σ} {calls : List Call}
    (h : Phase M isOpen clear remaining i s calls i' s') (execSuccess : Bool)
    (hopen : w.logger.os.isSome = isOpen) (hstate : w.model.1 = s) :
    ∃ w', interruptLoop (recording M) (clearAfterFirst (recording M) clear) remaining i
        execSuccess w = .ok (i', execSuccess) w' ∧
      w'.model = (s', w.calls ++ calls) ∧ w'.logger.os.isSome = isOpen := by
  induction h generalizing w with
  | exhausted i s =>
      refine ⟨w, rfl, ?_, hopen⟩
      rw [List.append_nil, ← hstate]
      rfl
  | finished hreads hfinish =>
      subst hstate hopen
      obtain ⟨w₁, hretire, hmodel, hos⟩ := retire_recording_of_retires hreads
      have hstatus : (M.executeInstr w.model.1).status = .FINISH := hfinish
      rw [interruptLoop_succ, bind_ok hretire, if_pos hstatus]
      rw [hstatus] at hmodel
      exact ⟨_, rfl, hmodel, hos⟩
  | continued hreads hnot hafter hrest ih =>
      subst hstate hopen
      obtain ⟨w₁, hretire, hmodel, hos⟩ := retire_recording_of_retires hreads
      have hstate₁ : w₁.model.1 = M.next w.model.1 := congrArg Prod.fst hmodel
      have hcalls₁ : w₁.calls = w.calls ++ [.executeInstr (M.executeInstr w.model.1).status] :=
        congrArg Prod.snd hmodel
      rw [← hstate₁] at hafter
      obtain ⟨w₂, hclear, hmodel₂, hlogger⟩ := clearAfterFirst_of_afterStep hafter
      have hcalls₂ : w₂.calls = w₁.calls ++ _ := congrArg Prod.snd hmodel₂
      have hos₂ : w₂.logger.os.isSome = w.logger.os.isSome := by
        rw [hlogger]
        exact hos
      obtain ⟨w', hloop, hmodel', hos'⟩ := ih hos₂ (congrArg Prod.fst hmodel₂)
      have hstatus : ¬ (M.executeInstr w.model.1).status = .FINISH := hnot
      rw [interruptLoop_succ, bind_ok hretire, if_neg hstatus, bind_ok hclear]
      refine ⟨w', hloop, ?_, hos'⟩
      rw [hmodel', hcalls₂, hcalls₁]
      simp only [List.append_assoc, List.cons_append, List.nil_append]

/-! ## Calls of a phase -/

def Call.isInstr : Call → Bool
  | .executeInstr _ => true
  | _ => false

def instrCount (calls : List Call) : Nat := calls.countP Call.isInstr

theorem AfterStep.mem {s s₁ : σ} {cleared : List Call} (h : AfterStep M clear i s cleared s₁) :
    ∀ call ∈ cleared, call = .clearInterrupt 0 := by
  cases h with
  | cleared _ _ => exact fun call hcall => List.mem_singleton.mp hcall
  | kept _ => exact fun call hcall => absurd hcall List.not_mem_nil

theorem AfterStep.eq_of_not_clear {s s₁ : σ} {cleared : List Call}
    (h : AfterStep M false i s cleared s₁) : cleared = [] ∧ s₁ = s := by
  cases h with
  | cleared hfirst _ => cases hfirst.2
  | kept _ => exact ⟨rfl, rfl⟩

theorem AfterStep.instrCount_eq {s s₁ : σ} {cleared : List Call}
    (h : AfterStep M clear i s cleared s₁) : instrCount cleared = 0 := by
  refine List.countP_eq_zero.mpr fun call hcall => ?_
  rw [h.mem call hcall]
  exact Bool.false_ne_true

section Phase

variable {isOpen : Bool} {s s' : σ} {calls : List Call}

/-- The counter misses at most the step that finishes. -/
theorem Phase.counter (h : Phase M isOpen clear remaining i s calls i' s') :
    i' ≤ i + instrCount calls ∧ i + instrCount calls ≤ i' + 1 := by
  induction h with
  | exhausted i s => exact ⟨Nat.le_refl i, Nat.le_succ i⟩
  | finished _ _ => exact ⟨Nat.le_succ _, Nat.le_refl _⟩
  | @continued _ i i' _ _ _ cleared calls _ _ hafter _ ih =>
      have hcount : ∀ result, instrCount (.executeInstr result :: (cleared ++ calls)) =
          instrCount calls + 1 := by
        intro result
        have hnone := hafter.instrCount_eq
        unfold instrCount at hnone ⊢
        rw [List.countP_cons_of_pos rfl, List.countP_append, hnone, Nat.zero_add]
      rw [hcount]
      omega

theorem Phase.le (h : Phase M isOpen clear remaining i s calls i' s') :
    i ≤ i' ∧ i' ≤ i + remaining := by
  induction h with
  | exhausted i s => exact ⟨Nat.le_refl i, Nat.le_refl i⟩
  | finished _ _ => exact ⟨Nat.le_refl _, Nat.le_add_right _ _⟩
  | continued _ _ _ _ ih => omega

theorem Phase.raiseInterrupt_not_mem (h : Phase M isOpen clear remaining i s calls i' s')
    (cause : RVMRegT) : .raiseInterrupt cause ∉ calls := by
  induction h with
  | exhausted i s => exact List.not_mem_nil
  | finished _ _ => exact fun hmem => Call.noConfusion (List.mem_singleton.mp hmem)
  | continued _ _ hafter _ ih =>
      intro hmem
      rcases List.mem_cons.mp hmem with hinstr | hmem
      · cases hinstr
      · rcases List.mem_append.mp hmem with hcleared | hrest
        · cases hafter.mem _ hcleared
        · exact ih hrest

/-- Without an interrupt to clear, a phase ends by a finish exactly when the run of the
model meets one within the steps of the phase. -/
theorem phase_finishes_iff :
    (∃ calls i' s', Phase M isOpen false remaining i s calls i' s' ∧
      .executeInstr .FINISH ∈ calls) ↔
    Reaches M.next (fun s => Retires M.toModel isOpen s ∧ ¬ Finishes M.toModel s)
      (fun s => Retires M.toModel isOpen s ∧ Finishes M.toModel s) remaining s := by
  induction remaining generalizing i s with
  | zero =>
      constructor
      · rintro ⟨_, _, _, hphase, hmem⟩
        cases hphase
        cases hmem
      · intro h
        exact absurd h not_reaches_zero
  | succ remaining ih =>
      rw [reaches_succ_iff, ← ih (i := i + 1)]
      constructor
      · rintro ⟨_, _, _, hphase, hmem⟩
        cases hphase with
        | finished hreads hfinish => exact .inl ⟨hreads, hfinish⟩
        | continued hreads hnot hafter hrest =>
            obtain ⟨rfl, rfl⟩ := hafter.eq_of_not_clear
            refine .inr ⟨⟨hreads, hnot⟩, _, _, _, hrest, ?_⟩
            rcases List.mem_cons.mp hmem with hinstr | hrest
            · injection hinstr with hstatus
              exact absurd hstatus.symm hnot
            · exact hrest
      · rintro (⟨hreads, hfinish⟩ | ⟨⟨hreads, hnot⟩, calls, i', s', hrest, hmem⟩)
        · exact ⟨_, _, _, .finished hreads hfinish, List.mem_singleton.mpr rfl⟩
        · have hkept : AfterStep M false i (M.next s) [] (M.next s) :=
            .kept fun h => Bool.noConfusion h.2
          exact ⟨_, i', s', .continued hreads hnot hkept hrest, List.mem_cons_of_mem _ hmem⟩

/-- Without an interrupt to clear, an exception is among the results when the run of the
model raises one before it finishes. -/
theorem Phase.exception_mem_iff (h : Phase M isOpen false remaining i s calls i' s') :
    .executeInstr .EXCEPTION ∈ calls ↔
      Reaches M.next (fun s => ¬ Finishes M.toModel s)
        (fun s => (M.executeInstr s).status = .EXCEPTION) remaining s := by
  induction h with
  | exhausted i s => exact iff_of_false List.not_mem_nil not_reaches_zero
  | finished _ hfinish =>
      rw [reaches_succ_iff]
      constructor
      · intro hmem
        cases List.mem_singleton.mp hmem
      · rintro (hexception | ⟨hnot, _⟩)
        · cases hfinish.symm.trans hexception
        · exact absurd hfinish hnot
  | continued _ hnot hafter _ ih =>
      obtain ⟨rfl, rfl⟩ := hafter.eq_of_not_clear
      rw [reaches_succ_iff, ← ih, List.nil_append, List.mem_cons]
      constructor
      · rintro (hinstr | hmem)
        · injection hinstr with hstatus
          exact .inl hstatus.symm
        · exact .inr ⟨hnot, hmem⟩
      · rintro (hexception | ⟨_, hmem⟩)
        · rw [hexception]
          exact .inl rfl
        · exact .inr hmem

/-- Without an interrupt to clear, the counter passes a limit when there are more steps
than that and the run of the model does not finish by then. -/
theorem Phase.passes_iff (h : Phase M isOpen false remaining i s calls i' s') (limit : Nat) :
    i + limit < i' ↔ limit < remaining ∧
      ¬ Reaches M.next (fun s => ¬ Finishes M.toModel s) (Finishes M.toModel) (limit + 1) s := by
  induction h generalizing limit with
  | exhausted i s => exact iff_of_false (by omega) fun h => Nat.not_lt_zero limit h.1
  | finished _ hfinish =>
      refine iff_of_false (by omega) fun h => ?_
      exact h.2 (reaches_succ_iff.mpr (.inl hfinish))
  | continued _ hnot hafter hrest ih =>
      have hle := hrest.le
      rw [reaches_succ_iff]
      obtain ⟨rfl, rfl⟩ := hafter.eq_of_not_clear
      cases limit with
      | zero =>
          refine iff_of_true (by omega) ⟨Nat.succ_pos _, ?_⟩
          rintro (hfinish | ⟨_, hreaches⟩)
          · exact hnot hfinish
          · exact not_reaches_zero hreaches
      | succ limit =>
          have hrest := ih limit
          constructor
          · intro hlt
            obtain ⟨hlimit, hreaches⟩ := hrest.mp (by omega)
            refine ⟨Nat.succ_lt_succ hlimit, ?_⟩
            rintro (hfinish | ⟨_, hlater⟩)
            · exact hnot hfinish
            · exact hreaches hlater
          · rintro ⟨hlimit, hreaches⟩
            have hlater : _ < _ := hrest.mpr
              ⟨Nat.lt_of_succ_lt_succ hlimit, fun h => hreaches (.inr ⟨hnot, h⟩)⟩
            omega

/-- A step of the loop with its counter; what is called behind it changes the model. -/
def loopStep (M : LauncherModel σ) (clear : Bool) (head : σ × Nat) : σ × Nat :=
  (if head.2 = 0 ∧ clear = true then (M.clearInterrupt 0 (M.next head.1)).2 else M.next head.1,
    head.2 + 1)

def HeadFinishes (M : LauncherModel σ) (head : σ × Nat) : Prop := Finishes M.toModel head.1

/-- A loop that may take `n` steps is left with its counter at `limit`. -/
def LeavesAt (M : LauncherModel σ) (clear : Bool) (n limit : Nat) (s : σ) : Prop :=
  StopsAt (loopStep M clear) (HeadFinishes M) n limit (s, 0)

theorem AfterStep.eq {s s₁ : σ} {cleared : List Call} (h : AfterStep M clear i s cleared s₁) :
    s₁ = if i = 0 ∧ clear = true then (M.clearInterrupt 0 s).2 else s := by
  cases h with
  | cleared hfirst hcall =>
      rw [if_pos hfirst, hcall]
  | kept hnot => rw [if_neg hnot]

/-- The counter is told by the steps of the model. -/
theorem Phase.stopsAt_iff (h : Phase M isOpen clear remaining i s calls i' s') (limit : Nat) :
    StopsAt (loopStep M clear) (HeadFinishes M) remaining limit (s, i) ↔ i' = i + limit := by
  induction h generalizing limit with
  | exhausted i s =>
      rw [stopsAt_zero_iff]
      omega
  | @finished _ i s _ hfinish =>
      have hhead : HeadFinishes M (s, i) := hfinish
      rw [stopsAt_iff_of_pos hhead]
      omega
  | @continued _ i i' s s₁ _ _ _ _ hnot hafter hrest ih =>
      have hhead : ¬ HeadFinishes M (s, i) := hnot
      have hnext : loopStep M clear (s, i) = (s₁, i + 1) := Prod.ext hafter.eq.symm rfl
      rw [stopsAt_succ_iff hhead, hnext]
      constructor
      · rintro ⟨limit', rfl, hstops⟩
        rw [(ih limit').mp hstops]
        omega
      · intro hcounter
        have hle := hrest.le
        exact ⟨limit - 1, by omega, (ih (limit - 1)).mpr (by omega)⟩

theorem Phase.leavesAt_iff (h : Phase M isOpen clear remaining 0 s calls i' s') (limit : Nat) :
    LeavesAt M clear remaining limit s ↔ i' = limit := by
  have hcounter := h.stopsAt_iff limit
  rw [Nat.zero_add] at hcounter
  exact hcounter

end Phase

/-! ## Around the phases -/

section Launch

variable {N : LauncherModel τ} {load : Text → Option Image} {options : DriverOptions}
  {iterations : Nat} {steps : Launcher τ Bool} {v v' : LaunchWorld τ}

theorem moves_print (text : Text) : Moves (Same LaunchWorld.model) (print text : Launcher τ Unit) := fun _ => rfl

theorem moves_limitTest (limit : Nat) (message : Text) (i : Nat) (execSuccess : Bool) :
    Moves (Same LaunchWorld.model) (limitTest limit message i execSuccess : Launcher τ Bool) :=
  Moves.ite (Moves.bind (moves_print message) fun _ => moves_pure false) (moves_pure execSuccess)

theorem moves_writeState (N : LauncherModel τ) (options : DriverOptions) :
    Moves (Same LaunchWorld.model) (writeState N options) := by
  refine Moves.ite (moves_pure ()) (Moves.get_bind fun v => ?_)
  cases dumpState N v.model with
  | ok serializedState =>
      exact Moves.ite (moves_print serializedState) (moves_modify fun _ => rfl)
  | error e => exact moves_throw e

theorem moves_handle (N : LauncherModel τ) (e : LaunchFailure) :
    Moves (Same LaunchWorld.model) (handle N e) := by
  refine Moves.get_bind fun v => ?_
  cases what N v.model e with
  | some text => exact Moves.bind (moves_print _) fun _ => moves_pure ExitStatus.FAILURE
  | none => exact moves_throw e

/-- There is no state to write, or it can be read. -/
def Dumpable (N : LauncherModel τ) (options : DriverOptions) (s : τ) : Prop :=
  options.stateFile = [] ∨ ∃ text, dumpState N s = .ok text

theorem writeState_ok_iff (v : LaunchWorld τ) :
    (∃ v', writeState N options v = .ok () v') ↔ Dumpable N options v.model := by
  unfold Dumpable
  by_cases hfile : options.stateFile = []
  · unfold writeState
    rw [hfile]
    exact ⟨fun _ => .inl rfl, fun _ => ⟨v, rfl⟩⟩
  · cases hdump : dumpState N v.model with
    | ok serializedState =>
        rw [writeState_of_ok hfile hdump]
        refine ⟨fun _ => .inr ⟨serializedState, rfl⟩, fun _ => ?_⟩
        unfold putState
        by_cases hcerr : options.stateFile = "-".toList
        · rw [if_pos hcerr]
          exact ⟨_, rfl⟩
        · rw [if_neg hcerr]
          exact ⟨_, rfl⟩
    | error e =>
        rw [writeState_of_error hfile hdump]
        constructor
        · rintro ⟨_, h⟩
          cases h
        · rintro (h | ⟨_, h⟩)
          · exact absurd h hfile
          · cases h

theorem launchBody_success_iff :
    launchBody N load options iterations steps v = .ok .SUCCESS v' ↔
      ∃ v₁, runExecutable N load options iterations steps v = .ok true v₁ ∧
        writeState N options v₁ = .ok () v' := by
  unfold launchBody
  rw [bind_eq_ok_iff]
  constructor
  · rintro ⟨execSuccess, v₁, hrun, hrest⟩
    obtain ⟨_, v₂, hwrite, hpure⟩ := bind_eq_ok_iff.mp hrest
    cases execSuccess with
    | true =>
        cases hpure
        exact ⟨v₁, hrun, hwrite⟩
    | false => cases hpure
  · rintro ⟨v₁, hrun, hwrite⟩
    exact ⟨true, v₁, hrun, bind_ok hwrite⟩

/-- An exception leads to the other exit status. -/
theorem handle_not_success (N : LauncherModel τ) (e : LaunchFailure) (v v' : LaunchWorld τ) :
    handle N e v ≠ .ok .SUCCESS v' := by
  intro h
  cases hwhat : what N v.model e with
  | some text =>
      rw [handle_of_some hwhat] at h
      cases h
  | none =>
      rw [handle_of_none hwhat] at h
      cases h

theorem launch_success_iff :
    launch N load options iterations steps v = .ok .SUCCESS v' ↔
      ∃ v₁, runExecutable N load options iterations steps v = .ok true v₁ ∧
        writeState N options v₁ = .ok () v' := by
  rw [← launchBody_success_iff]
  unfold launch
  cases hbody : launchBody N load options iterations steps v with
  | ok status v₁ => rw [tryCatch_ok hbody]
  | error e v₁ =>
      rw [tryCatch_error hbody]
      constructor
      · intro h
        exact absurd h (handle_not_success N e v₁ v')
      · intro h
        cases h

theorem model_launchBody (v : LaunchWorld τ) :
    (finalState (launchBody N load options iterations steps v)).model =
      (finalState (runExecutable N load options iterations steps v)).model := by
  unfold launchBody
  cases hrun : runExecutable N load options iterations steps v with
  | ok execSuccess v₁ =>
      rw [bind_ok hrun, finalState_ok]
      exact Moves.bind (moves_writeState N options) (fun _ => moves_pure _) v₁
  | error e v₁ => rw [bind_error hrun, finalState_error, finalState_error]

/-- Behind the executable nothing changes the model. -/
theorem model_launch (v : LaunchWorld τ) :
    (finalState (launch N load options iterations steps v)).model =
      (finalState (runExecutable N load options iterations steps v)).model := by
  rw [← model_launchBody]
  unfold launch
  cases hbody : launchBody N load options iterations steps v with
  | ok status v₁ => rw [tryCatch_ok hbody]
  | error e v₁ =>
      rw [tryCatch_error hbody, finalState_error]
      exact moves_handle N e v₁

end Launch

/-! ## The state in which the phases start -/

/-- The executable is loaded and the stop mode set. -/
def Loaded (M : LauncherModel σ) (load : Text → Option Image) (options : DriverOptions)
    (iterations : Nat) (w : LaunchWorld σ) (s : σ) : Prop :=
  ∃ v, parseELFAndInit M.toLoaderModel load options.executableFile iterations
      ⟨w.model, w.cerr⟩ = .ok () v ∧ s = M.setStopMode (stopModeOf options) v.model

/-- The part of `main` on the executable records no call before the first step. -/
theorem runExecutable_recording (M : LauncherModel σ) (load : Text → Option Image)
    (options : DriverOptions) (iterations : Nat) (w : LaunchWorld σ)
    (steps : Launcher (σ × List Call) Bool) :
    (options.executableFile = [] ∧
      runExecutable (recording M) load options iterations steps w.recorded = .ok true w.recorded) ∨
    (options.executableFile ≠ [] ∧ (¬ ∃ s, Loaded M load options iterations w s) ∧
      ∃ e w', runExecutable (recording M) load options iterations steps w.recorded = .error e w' ∧
        w'.calls = []) ∨
    (options.executableFile ≠ [] ∧ ∃ s w₁, Loaded M load options iterations w s ∧
      w₁.model = (s, []) ∧ w₁.logger = w.logger ∧
      runExecutable (recording M) load options iterations steps w.recorded = steps w₁) := by
  unfold runExecutable
  by_cases hfile : options.executableFile = []
  · rw [hfile]
    exact .inl ⟨rfl, rfl⟩
  · rw [if_neg fun h => hfile (List.isEmpty_iff.mp h)]
    have halike : AlongResult (mapLaunch fun s => (s, [])) id
        (liftLoad (parseELFAndInit M.toLoaderModel load options.executableFile iterations) w)
        (liftLoad (parseELFAndInit (recording M).toLoaderModel load options.executableFile
          iterations) w.recorded) :=
      alike_liftLoad (along_parseELFAndInit (sameLoads_recording M []) load
        options.executableFile iterations) w
    generalize hrun : liftLoad (parseELFAndInit M.toLoaderModel load options.executableFile
      iterations) w = r, hrecorded : liftLoad (parseELFAndInit (recording M).toLoaderModel load
      options.executableFile iterations) w.recorded = r' at halike
    right
    cases halike with
    | ok u w₁ =>
        right
        obtain ⟨v, hparse, rfl⟩ := liftLoad_eq_ok_iff.mp hrun
        refine ⟨hfile, M.setStopMode (stopModeOf options) v.model, _, ⟨v, hparse, rfl⟩, ?_, ?_,
          bind_ok hrecorded⟩
        · rfl
        · rfl
    | error e w₁ =>
        left
        refine ⟨hfile, ?_, e, _, bind_error hrecorded, rfl⟩
        rintro ⟨s, v, hparse, _⟩
        have hok := liftLoad_eq_ok_iff.mpr ⟨v, hparse, rfl⟩
        rw [hrun] at hok
        cases hok

end Rvmi.Launch
