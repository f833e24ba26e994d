import Rvmi.Log.Run

/-!
# Updates between instructions

Which events are in the logger's lists when an instruction starts. With a log
open, the lists are cleared before every instruction, except for the list of
control registers, which grows over the whole run. Without a log nothing is
ever cleared.
-/

namespace Rvmi.Log

open Rvmi.Foundation

variable {σ : Type}

/-- The lists hold exactly the events of these callbacks, in callback order. -/
structure StateUpdate.Holds (u : StateUpdate) (cbs : List Callback) : Prop where
  memReads : u.memReads = cbs.filterMap Callback.memRead?
  memWrites : u.memWrites = cbs.filterMap Callback.memUpdate?
  gpr : u.gpr = cbs.filterMap Callback.xReg?
  fpr : u.fpr = cbs.filterMap Callback.fReg?
  vReg : u.vReg = cbs.filterMap Callback.vReg?
  csr : u.csr = cbs.filterMap Callback.csr?

/-- An instruction that starts in this world finds all six lists empty, and
leaves in them exactly its own events. -/
def StartsClean (M : Model σ) (w : World σ) : Prop :=
  w.logger.update.Holds [] ∧ ∀ status w', executeInstr M w = .ok status w' →
    w'.logger.update.Holds (M.executeInstr w.model).callbacks

/-- Every callback the model delivers in the course of a run. -/
def delivered (M : Model σ) (s : σ) : List (Event σ) → List Callback
  | [] => []
  | .outside next cbs :: evs => cbs ++ delivered M next evs
  | .retireInstr :: evs => (M.executeInstr s).callbacks ++ delivered M (M.next s) evs

/-! ## Lists of callbacks -/

theorem extended_append (u : StateUpdate) (cbs cbs' : List Callback) :
    (u.extended cbs).extended cbs' = u.extended (cbs ++ cbs') := by
  simp [StateUpdate.extended]

/-- Every callback is an event of one of the six lists. -/
theorem holds_nil_extended (cbs : List Callback) :
    (StateUpdate.extended {} cbs).Holds [] ↔ cbs = [] := by
  constructor
  · intro h
    cases cbs with
    | nil => rfl
    | cons cb cbs =>
        cases cb with
        | memRead addr data => exact absurd h.memReads (List.cons_ne_nil _ _)
        | memUpdate addr data => exact absurd h.memWrites (List.cons_ne_nil _ _)
        | xRegUpdate reg value => exact absurd h.gpr (List.cons_ne_nil _ _)
        | fRegUpdate reg value => exact absurd h.fpr (List.cons_ne_nil _ _)
        | vRegUpdate reg data => exact absurd h.vReg (List.cons_ne_nil _ _)
        | csRegUpdate reg value => exact absurd h.csr (List.cons_ne_nil _ _)
  · rintro rfl
    exact ⟨rfl, rfl, rfl, rfl, rfl, rfl⟩

/-- Clean lists at the start are all it takes. -/
theorem startsClean_iff_holds (M : Model σ) (w : World σ) :
    StartsClean M w ↔ w.logger.update.Holds [] := by
  refine ⟨fun h => h.1, fun h => ⟨h, ?_⟩⟩
  intro status w' hexec
  rw [executeInstr_eq] at hexec
  cases hexec
  rw [deliver_eq]
  refine ⟨?_, ?_, ?_, ?_, ?_, ?_⟩
  · exact congrArg (· ++ _) h.memReads
  · exact congrArg (· ++ _) h.memWrites
  · exact congrArg (· ++ _) h.gpr
  · exact congrArg (· ++ _) h.fpr
  · exact congrArg (· ++ _) h.vReg
  · exact congrArg (· ++ _) h.csr

/-! ## Lists over a run -/

section Run

variable {M : Model σ}

theorem retireInstr_update {w w' : World σ} {status : RVMSimExecStatus}
    (h : retireInstr M w = .ok status w') :
    w'.logger.os.isSome = w.logger.os.isSome ∧
      w'.logger.update.csr =
        w.logger.update.csr ++ (M.executeInstr w.model).callbacks.filterMap Callback.csr? ∧
      (w.logger.os = none →
        w'.logger.update = w.logger.update.extended (M.executeInstr w.model).callbacks) := by
  cases hos : w.logger.os with
  | none =>
      rw [retireInstr_closed hos] at h
      cases h
      rw [deliver_eq]
      exact ⟨by rw [hos], rfl, fun _ => rfl⟩
  | some t =>
      by_cases hread : InstrReadable M w.model
      · rw [retireInstr_ok hos hread] at h
        cases h
        refine ⟨?_, ?_, fun hnone => by cases hnone⟩
        · show (((executed M w).logger.os).map _).isSome = _
          rw [os_executed, hos]
          rfl
        · show (executed M w).logger.update.csr = _
          unfold executed
          rw [deliver_eq]
          rfl
      · obtain ⟨e, w₁, herror, -⟩ := retireInstr_error hos hread
        rw [herror] at h
        cases h

/-- What a run leaves in the list of control registers, and in all lists when
no log is open. -/
theorem runEvents_update (evs : List (Event σ)) {w w' : World σ}
    (h : runEvents M evs w = .ok () w') :
    w'.logger.os.isSome = w.logger.os.isSome ∧
      w'.logger.update.csr =
        w.logger.update.csr ++ (delivered M w.model evs).filterMap Callback.csr? ∧
      (w.logger.os = none →
        w'.logger.update = w.logger.update.extended (delivered M w.model evs)) := by
  induction evs generalizing w with
  | nil =>
      cases h
      simp [delivered, StateUpdate.extended]
  | cons ev evs ih =>
      cases ev with
      | outside next cbs =>
          obtain ⟨hos, hcsr, hall⟩ := @ih ⟨next, w.logger.deliver cbs⟩ h
          rw [deliver_eq] at hos hcsr hall
          refine ⟨hos, ?_, fun hnone => ?_⟩
          · rw [hcsr]
            simp [StateUpdate.extended, delivered]
          · rw [hall hnone, extended_append]
            rfl
      | retireInstr =>
          obtain ⟨status, w₁, hretire, hrest⟩ := runEvents_retire_inv h
          obtain ⟨-, hmodel⟩ := model_of_retireInstr hretire
          obtain ⟨hos₁, hcsr₁, hall₁⟩ := retireInstr_update hretire
          obtain ⟨hos, hcsr, hall⟩ := ih hrest
          rw [hmodel] at hcsr hall
          refine ⟨hos.trans hos₁, ?_, fun hnone => ?_⟩
          · rw [hcsr, hcsr₁]
            simp [delivered]
          · have hnone₁ : w₁.logger.os = none := by
              rw [hnone] at hos₁
              simpa using hos₁
            rw [hall hnone₁, hall₁ hnone, extended_append]
            rfl

/-- With a log open, only the list of control registers survives the clearing. -/
theorem startsClean_open {w w₁ : World σ} {t : Text} (hopen : w.logger.os = some t)
    (hpre : logPreRetireState M w = .ok () w₁) :
    StartsClean M w₁ ↔ w.logger.update.csr = [] := by
  rw [startsClean_iff_holds]
  by_cases hfcsr : M.FCSRReadable w.model
  · rw [logPreRetireState_ok hopen hfcsr] at hpre
    cases hpre
    exact ⟨fun h => h.csr, fun h => ⟨rfl, rfl, rfl, rfl, rfl, h⟩⟩
  · obtain ⟨e, w₂, herror, -⟩ := logPreRetireState_error hopen hfcsr
    rw [herror] at hpre
    cases hpre

/-- Without a log nothing is cleared. -/
theorem startsClean_closed {w w₁ : World σ} (hclosed : w.logger.os = none)
    (hpre : logPreRetireState M w = .ok () w₁) :
    StartsClean M w₁ ↔ w.logger.update.Holds [] := by
  rw [logPreRetireState_closed hclosed] at hpre
  cases hpre
  exact startsClean_iff_holds M w

/-- When an instruction starts, its lists are empty exactly when no callback
for a control register was delivered before it and, without a log, no callback
at all. -/
theorem startsClean_iff {path : Text} {opens : Bool} {l : ExecutionLogger}
    (hl : ExecutionLogger.construct path opens = .ok l) (s : σ) (evs : List (Event σ))
    {w w₁ : World σ} (hrun : runEvents M evs ⟨s, l⟩ = .ok () w)
    (hpre : logPreRetireState M w = .ok () w₁) :
    StartsClean M w₁ ↔
      if path = [] then delivered M s evs = []
      else (delivered M s evs).filterMap Callback.csr? = [] := by
  obtain ⟨hos, hcsr, hall⟩ := runEvents_update evs hrun
  by_cases hpath : path = []
  · subst hpath
    obtain ⟨hclosed, hempty⟩ := construct_closed hl
    have hstill : w.logger.os = none := by simpa [hclosed] using hos
    have hupdate : w.logger.update = StateUpdate.extended {} (delivered M s evs) := by
      rw [hall hclosed]
      exact congrArg (StateUpdate.extended · _) hempty
    rw [startsClean_closed hstill hpre, hupdate, if_pos rfl]
    exact holds_nil_extended (delivered M s evs)
  · have hopens : opens = true := opens_of_construct hpath hl
    subst hopens
    obtain ⟨hopen, hempty⟩ := construct_open hpath hl
    have hstill : w.logger.os.isSome = true := by
      rw [hos]
      exact Option.isSome_iff_exists.mpr ⟨_, hopen⟩
    rcases Option.isSome_iff_exists.mp hstill with ⟨t, ht⟩
    have hlist : w.logger.update.csr = (delivered M s evs).filterMap Callback.csr? := by
      rw [hcsr]
      exact congrArg (StateUpdate.csr · ++ _) hempty
    rw [startsClean_open ht hpre, hlist, if_neg hpath]

end Run

theorem startsClean_iff_counter :
    ∃ w w₁, runEvents counterModel [.retireInstr] ⟨0, freshLog⟩ = .ok () w ∧
      logPreRetireState counterModel w = .ok () w₁ ∧
      (StartsClean counterModel w₁ ↔
        if "log.json".toList = [] then delivered counterModel 0 [.retireInstr] = []
        else (delivered counterModel 0 [.retireInstr]).filterMap Callback.csr? = []) :=
  ⟨_, _, rfl, rfl, startsClean_iff construct_freshLog 0 [.retireInstr] rfl rfl⟩

/-- A model that writes `mstatus` in every instruction. -/
def mstatusModel : Model Unit where
  executeInstr _ := ⟨.SUCCESS, [.csRegUpdate 0x300 0], ()⟩
  readPC _ := 0x1000
  readXReg _ _ := (.SUCCESS, 0)
  readFReg _ _ := (.SUCCESS, 0)
  readCSR _ _ := (.SUCCESS, 0)

/-- In the second step of a loop with a log, the list of control registers
still holds the event of the first. -/
theorem mstatus_carried :
    ∃ w w₁, runEvents mstatusModel [.retireInstr] ⟨(), freshLog⟩ = .ok () w ∧
      logPreRetireState mstatusModel w = .ok () w₁ ∧ w₁.logger.update.csr = [0x300] ∧
      ¬ StartsClean mstatusModel w₁ := by
  refine ⟨_, _, rfl, rfl, rfl, ?_⟩
  intro h
  exact absurd h.1.csr (by decide)

end Rvmi.Log
