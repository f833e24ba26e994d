import Rvmi.Log.Retire

/-!
# What `retireInstr` does to the model

Everything around the instruction only reads the model. A call that returns has made
one step of it, and one that fails has made one step or none; whether it returns is
decided by the reads that a log needs.
-/

namespace Rvmi.Log

open Rvmi.Foundation

variable {σ : Type} {M : Model σ} {w w' : World σ} {status : RVMSimExecStatus}

theorem moves_modifyLogger (f : ExecutionLogger → ExecutionLogger) :
    Moves (Same World.model) (modifyLogger f : Sim σ Unit) := fun _ => rfl

theorem moves_write (t : Text) : Moves (Same World.model) (write t : Sim σ Unit) :=
  moves_modifyLogger _

theorem moves_checkAndThrow (err : RVMErrorCode) :
    Moves (Same World.model) (checkAndThrow err : Sim σ Unit) :=
  Moves.ite (moves_throw err) (moves_pure ())

theorem moves_writeSection {α : Type} (name : Text) (list : List α)
    (body : List α → Except RVMErrorCode Text) :
    Moves (Same World.model) (writeSection name list body : Sim σ Unit) := by
  unfold writeSection
  refine Moves.ite (Moves.bind (moves_write _) fun _ => ?_) (moves_pure _)
  cases body list with
  | ok text => exact Moves.bind (moves_write _) fun _ => moves_write _
  | error err => exact Moves.bind (moves_throw err) fun _ => moves_write _

theorem moves_logPreRetireState (M : Model σ) : Moves (Same World.model) (logPreRetireState M) := by
  unfold logPreRetireState
  refine Moves.get_bind fun w => Moves.ite (moves_pure _) ?_
  refine Moves.bind (moves_modifyLogger _) fun _ => ?_
  refine Moves.bind (moves_modifyLogger _) fun _ => ?_
  exact Moves.bind (moves_checkAndThrow _) fun _ => moves_modifyLogger _

theorem moves_writeRecord (M : Model σ) (s : σ) (l : ExecutionLogger) :
    Moves (Same World.model) (writeRecord M s l) := by
  unfold writeRecord
  refine Moves.bind (moves_write _) fun _ => Moves.bind (moves_write _) fun _ => ?_
  refine Moves.bind (moves_writeSection _ _ _) fun _ => ?_
  refine Moves.bind (moves_writeSection _ _ _) fun _ => ?_
  refine Moves.bind (moves_writeSection _ _ _) fun _ => ?_
  refine Moves.bind (moves_writeSection _ _ _) fun _ => ?_
  refine Moves.bind (moves_writeSection _ _ _) fun _ => ?_
  exact Moves.ite (Moves.bind (moves_write _) fun _ => moves_write _) (moves_write _)

theorem moves_logRetiredState (M : Model σ) : Moves (Same World.model) (logRetiredState M) := by
  unfold logRetiredState
  refine Moves.get_bind fun w => Moves.ite (moves_pure _) ?_
  refine Moves.bind (moves_modifyLogger _) fun _ => ?_
  refine Moves.bind (moves_modifyLogger _) fun _ => ?_
  refine Moves.bind (moves_checkAndThrow _) fun _ => ?_
  exact Moves.get_bind fun w' => moves_writeRecord M _ _

/-- A call that fails has executed the instruction or has not. -/
theorem model_of_retireInstr_error {e : RVMErrorCode} (h : retireInstr M w = .error e w') :
    w'.model = w.model ∨ w'.model = M.next w.model := by
  rcases bind_eq_error_iff.mp h with hpre | ⟨_, w₁, hpre, hrest⟩
  · exact .inl ((moves_logPreRetireState M).error hpre)
  · have hmodel : w₁.model = w.model := (moves_logPreRetireState M).ok hpre
    rw [bind_ok (executeInstr_eq w₁)] at hrest
    rcases bind_eq_error_iff.mp hrest with hpost | ⟨_, w₂, _, hpure⟩
    · right
      rw [← hmodel]
      exact (moves_logRetiredState M).error hpost
    · cases hpure

/-- Without the control register nothing is executed. -/
theorem retireInstr_error_before {t : Text} (hopen : w.logger.os = some t)
    (hbefore : ¬ M.FCSRReadable w.model) :
    ∃ e w', retireInstr M w = .error e w' ∧ w'.model = w.model := by
  obtain ⟨e, w', hlog, _⟩ := logPreRetireState_error hopen hbefore
  exact ⟨e, w', bind_error hlog, (moves_logPreRetireState M).error hlog⟩

theorem retireInstr_error_after {t : Text} (hopen : w.logger.os = some t)
    (hbefore : M.FCSRReadable w.model) (hafter : ¬ M.FCSRReadable (M.next w.model)) :
    ∃ e w', retireInstr M w = .error e w' ∧ w'.model = M.next w.model := by
  have hstill : (executed M w).logger.os = some t := (os_executed w).trans hopen
  obtain ⟨e, w', hlog, _⟩ := logRetiredState_error hstill hafter
  unfold retireInstr
  rw [bind_ok (logPreRetireState_ok hopen hbefore), bind_ok (executeInstr_eq _)]
  exact ⟨e, w', bind_error hlog, (moves_logRetiredState M).error hlog⟩

/-- Behind the read in front of it, the instruction is executed. -/
theorem model_of_retireInstr_error_before {t : Text} {e : RVMErrorCode}
    (hopen : w.logger.os = some t) (hbefore : M.FCSRReadable w.model)
    (h : retireInstr M w = .error e w') : w'.model = M.next w.model := by
  unfold retireInstr at h
  rw [bind_ok (logPreRetireState_ok hopen hbefore), bind_ok (executeInstr_eq _)] at h
  rcases bind_eq_error_iff.mp h with hpost | ⟨_, w₂, _, hpure⟩
  · exact (moves_logRetiredState M).error hpost
  · cases hpure

/-- With a log open, the reads around the instruction succeed. -/
def Retires (M : Model σ) (isOpen : Bool) (s : σ) : Prop := isOpen = true → InstrReadable M s

theorem retireInstr_of_retires (h : Retires M w.logger.os.isSome w.model) :
    ∃ logger, retireInstr M w = .ok (M.executeInstr w.model).status ⟨M.next w.model, logger⟩ ∧
      logger.os.isSome = w.logger.os.isSome := by
  cases hos : w.logger.os with
  | none =>
      refine ⟨_, retireInstr_closed hos, ?_⟩
      rw [deliver_eq]
      exact congrArg Option.isSome hos
  | some t =>
      have hread : InstrReadable M w.model := h (congrArg Option.isSome hos)
      refine ⟨_, retireInstr_ok hos hread, ?_⟩
      show (((executed M w).logger.os.map _).isSome) = _
      rw [os_executed, hos]
      rfl

theorem retires_of_retireInstr (h : retireInstr M w = .ok status w') :
    Retires M w.logger.os.isSome w.model ∧ w'.logger.os.isSome = w.logger.os.isSome := by
  by_cases hread : Retires M w.logger.os.isSome w.model
  · obtain ⟨logger, hrun, hos⟩ := retireInstr_of_retires hread
    rw [hrun] at h
    cases h
    exact ⟨hread, hos⟩
  · obtain ⟨hopen, hnot⟩ := Classical.not_imp.mp hread
    obtain ⟨t, ht⟩ := Option.isSome_iff_exists.mp hopen
    obtain ⟨e, w₁, herror, -⟩ := retireInstr_error ht hnot
    rw [herror] at h
    cases h

end Rvmi.Log
