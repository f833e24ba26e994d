import Rvmi.Log.Retire

/-!
# Runs with a log

A run is a list of events: calls of `retireInstr`, and whatever else a launcher
does with the model in between. The records of a run are told by the model
alone. A run whose reads succeed writes exactly its records; a run whose
reads do not is cut short by the exception, and the destructor then closes
the text as it stands.
-/

namespace Rvmi.Log

open Rvmi.Foundation Json

variable {σ : Type}

/-! ## Events -/

/-- Between the calls of `retireInstr` the model may be brought into any state
and may deliver any callbacks. -/
inductive Event (σ : Type) where
  | outside (next : σ) (cbs : List Callback)
  | retireInstr

def Event.run (M : Model σ) : Event σ → Sim σ Unit
  | outside next cbs => modify fun w => ⟨next, w.logger.deliver cbs⟩
  | retireInstr => do
      let _ ← Rvmi.Log.retireInstr M

def runEvents (M : Model σ) : List (Event σ) → Sim σ Unit
  | [] => pure ()
  | ev :: evs => do
      ev.run M
      runEvents M evs

/-- The model's state behind an event. -/
def Event.next (M : Model σ) (s : σ) : Event σ → σ
  | outside next _ => next
  | retireInstr => M.next s

def stateAfter (M : Model σ) (s : σ) (evs : List (Event σ)) : σ := evs.foldl (Event.next M) s

/-- The instructions of a run, in order. -/
def records (M : Model σ) (s : σ) : List (Event σ) → List InstrRecord
  | [] => []
  | .outside next _ :: evs => records M next evs
  | .retireInstr :: evs => observe M s :: records M (M.next s) evs

/-- Every read made in the course of a run succeeds. -/
def ReadsSucceed (M : Model σ) (s : σ) : List (Event σ) → Prop
  | [] => True
  | .outside next _ :: evs => ReadsSucceed M next evs
  | .retireInstr :: evs => InstrReadable M s ∧ ReadsSucceed M (M.next s) evs

/-- The number of calls of `retireInstr`. -/
def retireCalls : List (Event σ) → Nat
  | [] => 0
  | .outside _ _ :: evs => retireCalls evs
  | .retireInstr :: evs => retireCalls evs + 1

theorem length_records (M : Model σ) (s : σ) (evs : List (Event σ)) :
    (records M s evs).length = retireCalls evs := by
  induction evs generalizing s with
  | nil => rfl
  | cons ev evs ih =>
      cases ev with
      | outside next cbs => exact ih next
      | retireInstr => exact congrArg (· + 1) (ih (M.next s))

/-! ## What a run writes -/

section Open

variable {M : Model σ}

theorem os_deliver (l : ExecutionLogger) (cbs : List Callback) : (l.deliver cbs).os = l.os := by
  rw [deliver_eq]

theorem runEvents_retire {w w' : World σ} {status : RVMSimExecStatus}
    (h : retireInstr M w = .ok status w') (evs : List (Event σ)) :
    runEvents M (.retireInstr :: evs) w = runEvents M evs w' := by
  have hrun : Event.run M .retireInstr w = .ok () w' := by
    show (Rvmi.Log.retireInstr M >>= fun _ => pure ()) w = _
    rw [bind_ok h]
    rfl
  exact bind_ok hrun

theorem runEvents_retire_inv {w w' : World σ} {evs : List (Event σ)}
    (h : runEvents M (.retireInstr :: evs) w = .ok () w') :
    ∃ status w₁, retireInstr M w = .ok status w₁ ∧ runEvents M evs w₁ = .ok () w' := by
  cases hretire : retireInstr M w with
  | ok status w₁ =>
      rw [runEvents_retire hretire] at h
      exact ⟨status, w₁, rfl, h⟩
  | error e w₁ =>
      have hrun : Event.run M .retireInstr w = .error e w₁ := bind_error hretire
      have herr : runEvents M (.retireInstr :: evs) w = .error e w₁ := bind_error hrun
      rw [herr] at h
      cases h

/-- One instruction adds its record to the log. -/
theorem retireInstr_appends {w : World σ} {rs : List InstrRecord}
    (hopen : w.logger.os = some (openLog rs)) (h : InstrReadable M w.model) :
    ∃ w', retireInstr M w = .ok (M.executeInstr w.model).status w' ∧
      w'.model = M.next w.model ∧
      w'.logger.os = some (openLog (rs ++ [observe M w.model])) := by
  refine ⟨_, retireInstr_ok hopen h, rfl, ?_⟩
  show ((executed M w).logger.os).map _ = _
  rw [os_executed, hopen, openLog_concat]
  rfl

theorem runEvents_appends (evs : List (Event σ)) {w : World σ} {rs : List InstrRecord}
    (hopen : w.logger.os = some (openLog rs)) (h : ReadsSucceed M w.model evs) :
    ∃ w', runEvents M evs w = .ok () w' ∧ w'.model = stateAfter M w.model evs ∧
      w'.logger.os = some (openLog (rs ++ records M w.model evs)) := by
  induction evs generalizing w rs with
  | nil =>
      refine ⟨w, rfl, rfl, ?_⟩
      rw [hopen]
      simp [records]
  | cons ev evs ih =>
      cases ev with
      | outside next cbs =>
          have hos : (w.logger.deliver cbs).os = some (openLog rs) :=
            (os_deliver _ _).trans hopen
          obtain ⟨w', hrun, hmodel, hlog⟩ := @ih ⟨next, w.logger.deliver cbs⟩ rs hos h
          exact ⟨w', hrun, hmodel, hlog⟩
      | retireInstr =>
          obtain ⟨hinstr, hrest⟩ := h
          obtain ⟨w₁, hretire, hnext, hos⟩ := retireInstr_appends hopen hinstr
          rw [← hnext] at hrest
          obtain ⟨w', hrun, hmodel, hlog⟩ := ih hos hrest
          refine ⟨w', (runEvents_retire hretire evs).trans hrun, ?_, ?_⟩
          · rw [hmodel, hnext]
            rfl
          · rw [hlog, hnext]
            simp [records]

/-- With a log open, a run that completes made only successful reads. -/
theorem readsSucceed_of_runEvents (evs : List (Event σ)) {w w' : World σ}
    {rs : List InstrRecord} (hopen : w.logger.os = some (openLog rs))
    (h : runEvents M evs w = .ok () w') : ReadsSucceed M w.model evs := by
  induction evs generalizing w rs with
  | nil => trivial
  | cons ev evs ih =>
      cases ev with
      | outside next cbs =>
          have hos : (w.logger.deliver cbs).os = some (openLog rs) :=
            (os_deliver _ _).trans hopen
          exact @ih ⟨next, w.logger.deliver cbs⟩ rs hos h
      | retireInstr =>
          obtain ⟨status, w₁, hretire, hrest⟩ := runEvents_retire_inv h
          by_cases hinstr : InstrReadable M w.model
          · obtain ⟨w₂, hretire₂, hnext, hos⟩ := retireInstr_appends hopen hinstr
            rw [runEvents_retire hretire₂] at h
            exact ⟨hinstr, hnext ▸ ih hos h⟩
          · obtain ⟨e, w₂, herror, -⟩ := retireInstr_error hopen hinstr
            rw [herror] at hretire
            cases hretire

end Open

/-! ## The whole log -/

section Whole

variable {M : Model σ} {path : Text} {l : ExecutionLogger}

theorem construct_open (hpath : path ≠ []) (hl : ExecutionLogger.construct path true = .ok l) :
    l.os = some (openLog []) ∧ l.update = {} := by
  have hempty : path.isEmpty = false := by simpa using hpath
  unfold ExecutionLogger.construct at hl
  rw [hempty] at hl
  cases hl
  exact ⟨rfl, rfl⟩

theorem opens_of_construct {opens : Bool} (hpath : path ≠ [])
    (hl : ExecutionLogger.construct path opens = .ok l) : opens = true := by
  have hempty : path.isEmpty = false := by simpa using hpath
  unfold ExecutionLogger.construct at hl
  rw [hempty] at hl
  cases opens with
  | true => rfl
  | false => cases hl

theorem construct_closed {opens : Bool} (hl : ExecutionLogger.construct [] opens = .ok l) :
    l.os = none ∧ l.update = {} := by
  cases hl
  exact ⟨rfl, rfl⟩

theorem destroy_eq {l : ExecutionLogger} {t : Text} (h : l.os = some t) :
    l.destroy = some (t ++ closingText) := by
  unfold ExecutionLogger.destroy closingText
  rw [h, Option.map_some]
  simp only [List.append_assoc]

/-- The log of a run whose reads succeed is decoded back to the run: the run
completes, and the text it leaves is JSON that holds the record of every
`retireInstr` call and no other. -/
theorem runEvents_log_decodes (hpath : path ≠ [])
    (hl : ExecutionLogger.construct path true = .ok l) (s : σ) (evs : List (Event σ))
    (hreads : ReadsSucceed M s evs) :
    ∃ w text, runEvents M evs ⟨s, l⟩ = .ok () w ∧ w.logger.destroy = some text ∧
      (records M s evs).length = retireCalls evs ∧ HoldsRecords text (records M s evs) := by
  obtain ⟨w, hrun, -, hos⟩ := @runEvents_appends σ M evs ⟨s, l⟩ [] (construct_open hpath hl).1 hreads
  rw [List.nil_append] at hos
  exact ⟨w, _, hrun, destroy_eq hos, length_records M s evs, holdsRecords_closed _⟩

/-- A logger whose file has just been opened. -/
def freshLog : ExecutionLogger := { os := some openingText }

theorem construct_freshLog : ExecutionLogger.construct "log.json".toList true = .ok freshLog := rfl

/-- A model that counts its instructions in `x1` and writes the count to memory. -/
def counterModel : Model Nat where
  executeInstr n :=
    ⟨.SUCCESS, [.xRegUpdate 1 (UInt64.ofNat (n + 1)),
      .memUpdate (UInt64.ofNat n) [(UInt64.ofNat n).toUInt8]], n + 1⟩
  readPC n := 4 * UInt64.ofNat n
  readXReg reg n := (.SUCCESS, if reg = 1 then UInt64.ofNat n else 0)
  readFReg _ _ := (.SUCCESS, 0)
  readCSR _ _ := (.SUCCESS, 0)

theorem runEvents_log_decodes_counter :
    let evs := [.retireInstr, .outside 7 [.fRegUpdate 3 0], .retireInstr]
    ∃ w text, runEvents counterModel evs ⟨0, freshLog⟩ = .ok () w ∧
      w.logger.destroy = some text ∧
      (records counterModel 0 evs).length = retireCalls evs ∧
      HoldsRecords text (records counterModel 0 evs) :=
  runEvents_log_decodes (by decide) construct_freshLog 0 _
    ⟨⟨rfl, rfl, fun _ _ => rfl, fun _ _ => rfl⟩, ⟨rfl, rfl, fun _ _ => rfl, fun _ _ => rfl⟩,
      trivial⟩

/-- The log that is closed behind an exception is JSON with these records. -/
def AbortedReadable (w : World σ) (rs : List InstrRecord) : Prop :=
  ∃ text, w.logger.destroy = some text ∧ HoldsRecords text rs

/-- An aborted run leaves a readable log exactly when the read that failed was
that of the control register. -/
theorem aborted_readable_iff (hpath : path ≠ [])
    (hl : ExecutionLogger.construct path true = .ok l) (s : σ) (evs : List (Event σ))
    {w w' : World σ} (hrun : runEvents M evs ⟨s, l⟩ = .ok () w) {e : RVMErrorCode}
    (hfail : retireInstr M w = .error e w') :
    AbortedReadable w' (records M s evs) ↔
      ¬ M.FCSRReadable w.model ∨ ¬ M.FCSRReadable (M.next w.model) := by
  have hopen : l.os = some (openLog []) := (construct_open hpath hl).1
  have hreads : ReadsSucceed M s evs := readsSucceed_of_runEvents (w := ⟨s, l⟩) evs hopen hrun
  obtain ⟨w₁, hrun₁, -, hos⟩ := @runEvents_appends σ M evs ⟨s, l⟩ [] hopen hreads
  have hw : w₁ = w := by
    rw [hrun] at hrun₁
    cases hrun₁
    rfl
  rw [hw, List.nil_append] at hos
  have hinstr : ¬ InstrReadable M w.model := by
    intro hinstr
    rw [retireInstr_ok hos hinstr] at hfail
    cases hfail
  obtain ⟨e', w₂, hfail₂, hcases⟩ := retireInstr_error hos hinstr
  have hw₂ : w₂ = w' := by
    rw [hfail] at hfail₂
    cases hfail₂
    rfl
  rw [hw₂] at hcases
  rw [← not_and_or]
  split at hcases
  · rename_i hboth
    rcases hcases with ⟨m, ms, key, hm, hms, hkey, hbroken⟩
    refine iff_of_false ?_ (not_not_intro hboth)
    rintro ⟨text, htext, hholds⟩
    rw [destroy_eq hbroken] at htext
    cases htext
    exact not_holdsRecords_broken _ _ hm hms hkey hholds
  · rename_i hboth
    refine iff_of_true ⟨_, destroy_eq hcases, holdsRecords_closed _⟩ hboth

/-- A model that reports a hidden register from its second instruction on. -/
def laterHiddenModel : Model Nat where
  executeInstr n := ⟨.SUCCESS, [.xRegUpdate (if n = 0 then 1 else 17) 0], n + 1⟩
  readPC n := 0x1000 + 4 * UInt64.ofNat n
  readXReg reg _ := if reg.val < 16 then (.SUCCESS, 0) else (.IDX_OUT_OF_RANGE, 0)
  readFReg _ _ := (.SUCCESS, 0)
  readCSR _ _ := (.SUCCESS, 0)

theorem aborted_readable_iff_hidden :
    ∃ w e w', runEvents laterHiddenModel [.retireInstr] ⟨0, freshLog⟩ = .ok () w ∧
      retireInstr laterHiddenModel w = .error e w' ∧
      (records laterHiddenModel 0 [.retireInstr]).length = 1 ∧
      (AbortedReadable w' (records laterHiddenModel 0 [.retireInstr]) ↔
        ¬ laterHiddenModel.FCSRReadable w.model ∨
          ¬ laterHiddenModel.FCSRReadable (laterHiddenModel.next w.model)) := by
  have hgpr : ∀ reg ∈ (laterHiddenModel.executeInstr 0).callbacks.filterMap Callback.xReg?,
      (laterHiddenModel.readXReg reg 1).1 = .SUCCESS := by decide
  have hfirst : InstrReadable laterHiddenModel 0 := ⟨rfl, rfl, hgpr, fun _ _ => rfl⟩
  obtain ⟨w, hrun, hmodel, hos⟩ := @runEvents_appends Nat laterHiddenModel [.retireInstr]
    ⟨0, freshLog⟩ [] rfl ⟨hfirst, trivial⟩
  have hsecond : ¬ InstrReadable laterHiddenModel w.model := by
    rw [hmodel]
    intro h
    exact absurd (h.gpr 17 List.mem_cons_self) (by decide)
  obtain ⟨e, w', hfail, -⟩ := retireInstr_error hos hsecond
  exact ⟨w, e, w', hrun, hfail, rfl,
    aborted_readable_iff (by decide) construct_freshLog 0 [.retireInstr] hrun hfail⟩

/-- A model that reports a register which it does not let anyone read. -/
def hiddenRegisterModel : Model Unit where
  executeInstr _ := ⟨.SUCCESS, [.xRegUpdate 17 0], ()⟩
  readPC _ := 0x1000
  readXReg reg _ := if reg.val < 16 then (.SUCCESS, 0) else (.IDX_OUT_OF_RANGE, 0)
  readFReg _ _ := (.SUCCESS, 0)
  readCSR _ _ := (.SUCCESS, 0)

/-- The world in which the exception of `hiddenRegisterModel` leaves the loop. -/
def abortedWorld : World Unit :=
  match retireInstr hiddenRegisterModel ⟨(), freshLog⟩ with
  | .ok _ w => w
  | .error _ w => w

/-- A listed register that cannot be read leaves the log unreadable. -/
theorem aborted_unreadable :
    retireInstr hiddenRegisterModel ⟨(), freshLog⟩ = .error .IDX_OUT_OF_RANGE abortedWorld ∧
      ¬ AbortedReadable abortedWorld [] := by
  have hunread : ¬ InstrReadable hiddenRegisterModel () := fun h =>
    absurd (h.gpr 17 List.mem_cons_self) (by decide)
  obtain ⟨e, w', hfail, hbroken⟩ :=
    retireInstr_error (w := ⟨(), freshLog⟩) (t := openLog []) rfl hunread
  rw [if_pos ⟨rfl, rfl⟩] at hbroken
  rcases hbroken with ⟨m, ms, key, hm, hms, hkey, hos⟩
  have hworld : abortedWorld = w' := by
    unfold abortedWorld
    rw [hfail]
  refine ⟨rfl, ?_⟩
  rintro ⟨text, htext, hholds⟩
  rw [hworld, destroy_eq hos] at htext
  cases htext
  exact not_holdsRecords_broken [] [] hm hms hkey hholds

end Whole

end Rvmi.Log
