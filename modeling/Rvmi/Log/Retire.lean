import Rvmi.Foundation.Runs
import Rvmi.Log.Document

/-!
# What one `retireInstr` writes

A read decides whether the instruction reaches the log: if every read that its
updates ask for succeeds, `retireInstr` appends the line of the record that
`observe` describes, which depends on the model alone. If the control register
cannot be read, nothing is written. If a listed register cannot be read, the
line breaks off behind the brace of its section.
-/

namespace Rvmi.Log

open Rvmi.Foundation Json

variable {σ : Type}

/-! ## Emitted text -/

theorem emitSeparated_comma {m : Type → Type} [Monad m] [LawfulMonad m] {α : Type}
    {emit : α → m Text} {f : α → Text} {xs : List α} (h : ∀ a ∈ xs, emit a = pure (f a))
    (ss : Text) :
    emitSeparated emit comma ss xs = pure (ss ++ xs.flatMap fun a => comma ++ f a) := by
  induction xs generalizing ss with
  | nil => simp [emitSeparated]
  | cons a xs ih =>
      have hrest := ih (fun b hb => h b (List.mem_cons_of_mem _ hb)) (ss ++ comma ++ f a)
      unfold emitSeparated
      rw [h a List.mem_cons_self, pure_bind]
      show emitSeparated emit comma _ xs = _
      rw [hrest]
      simp

/-- The separator loops emit a joined list. -/
theorem emitSeparated_eq {m : Type → Type} [Monad m] [LawfulMonad m] {α : Type}
    {emit : α → m Text} {f : α → Text} {xs : List α} (h : ∀ a ∈ xs, emit a = pure (f a)) :
    emitSeparated emit [] [] xs = pure (comma.intercalate (xs.map f)) := by
  cases xs with
  | nil => rfl
  | cons a xs =>
      have hrest := emitSeparated_comma (fun b hb => h b (List.mem_cons_of_mem _ hb)) (f a)
      unfold emitSeparated
      rw [h a List.mem_cons_self, pure_bind]
      show emitSeparated emit comma _ xs = _
      rw [List.map_cons, intercalate_cons_eq, List.flatMap_map]
      exact hrest

theorem emitBytes_eq (name : Text) (data : List UInt8) :
    emitBytes name data = (bytesMember name data).spelled := by
  have hloop : (emitSeparated (fun byte : UInt8 => pure (quote (tohs byte.toUInt64 2))) [] []
      data : Id Text) = pure (comma.intercalate (data.map fun b => quoted (byteText b))) :=
    emitSeparated_eq fun _ _ => rfl
  unfold emitBytes
  rw [hloop]
  simp [Member.spelled, member, bytesMember, quote, quoted]

theorem emitChangeVRegisters_eq (updates : List VectorRegUpdateType) :
    emitChangeVRegisters updates =
      comma.intercalate ((updates.map vregMember).map Member.spelled) := by
  have hloop : (emitSeparated (fun it => pure (emitChangeVRegister it)) [] [] updates : Id Text) =
      pure (comma.intercalate (updates.map fun u => (vregMember u).spelled)) :=
    emitSeparated_eq fun u _ => congrArg pure (emitBytes_eq _ u.data)
  rw [List.map_map]
  exact hloop

theorem emitMemoryStateList_eq (states : List MemStateType) :
    emitMemoryStateList states =
      comma.intercalate ((states.map memMember).map Member.spelled) := by
  have hloop : (emitSeparated (fun it => pure (emitMemoryState it)) [] [] states : Id Text) =
      pure (comma.intercalate (states.map fun m => (memMember m).spelled)) :=
    emitSeparated_eq fun m _ => congrArg pure (emitBytes_eq _ m.data)
  rw [List.map_map]
  exact hloop

/-- A register with the value that is read for it. -/
def withValue (read : Fin 32 → RVMErrorCode × RVMRegT) (reg : Fin 32) : Fin 32 × RVMRegT :=
  (reg, (read reg).2)

theorem emitChangeRegisters_ok (letter : Char) {read : Fin 32 → RVMErrorCode × RVMRegT}
    {regs : List (Fin 32)} (h : ∀ reg ∈ regs, (read reg).1 = .SUCCESS) :
    emitChangeRegisters letter read regs =
      .ok (comma.intercalate
        (((regs.map (withValue read)).map (registerMember letter)).map Member.spelled)) := by
  rw [List.map_map, List.map_map]
  refine emitSeparated_eq fun reg hreg => ?_
  have hok : emitRegister letter read reg = .ok _ := if_neg (not_not_intro (h reg hreg))
  rw [hok]
  simp only [Function.comp_apply, withValue, registerMember, wordMember, Member.spelled, member,
    quoted, quote]
  simp
  rfl

theorem emitSeparated_error {ε α : Type} {emit : α → Except ε Text} {xs : List α}
    (h : ∃ a ∈ xs, ∃ e, emit a = .error e) (separator ss : Text) :
    ∃ e, emitSeparated emit separator ss xs = .error e := by
  induction xs generalizing separator ss with
  | nil => simp at h
  | cons x xs ih =>
      unfold emitSeparated
      cases hx : emit x with
      | error e => exact ⟨e, rfl⟩
      | ok t =>
          obtain ⟨a, ha, e, he⟩ := h
          rcases List.mem_cons.mp ha with rfl | ha
          · rw [hx] at he
            cases he
          · exact ih ⟨a, ha, e, he⟩ _ _

/-- One register that cannot be read spoils the whole section. -/
theorem emitChangeRegisters_error (letter : Char) {read : Fin 32 → RVMErrorCode × RVMRegT}
    {regs : List (Fin 32)} (h : ¬ ∀ reg ∈ regs, (read reg).1 = .SUCCESS) :
    ∃ e, emitChangeRegisters letter read regs = .error e := by
  push Not at h
  rcases h with ⟨reg, hreg, hread⟩
  refine emitSeparated_error ⟨reg, hreg, (read reg).1, ?_⟩ _ _
  unfold emitRegister
  exact if_pos hread

/-! ## Writing -/

theorem checkAndThrow_success {err : RVMErrorCode} (h : err = .SUCCESS) :
    checkAndThrow (σ := σ) err = pure () :=
  if_neg (not_not_intro h)

theorem checkAndThrow_error {err : RVMErrorCode} (h : err ≠ .SUCCESS) :
    checkAndThrow (σ := σ) err = throw err :=
  if_pos h

def World.written (w : World σ) (t : Text) : World σ :=
  { w with logger := { w.logger with os := w.logger.os.map fun text => text ++ t } }

theorem write_eq (t : Text) (w : World σ) : write t w = .ok () (w.written t) := rfl

theorem written_written (w : World σ) (s t : Text) :
    (w.written s).written t = w.written (s ++ t) := by
  unfold World.written
  cases w.logger.os with
  | none => rfl
  | some text => simp

theorem written_nil (w : World σ) : w.written [] = w := by
  rcases w with ⟨s, pcBefore, fcsrBefore, update, os⟩
  cases os with
  | none => rfl
  | some text => simp [World.written]

/-- Members behind the first one, as they stand in the text. -/
def followed (ms : List Member) : Text := ms.flatMap fun m => comma ++ m.spelled

@[simp] theorem followed_nil : followed [] = [] := rfl

@[simp] theorem followed_cons (m : Member) (ms : List Member) :
    followed (m :: ms) = comma ++ m.spelled ++ followed ms := rfl

@[simp] theorem followed_append (ms ms' : List Member) :
    followed (ms ++ ms') = followed ms ++ followed ms' :=
  List.flatMap_append

theorem writeSection_ok {α : Type} {name : Text} {list : List α} {ms : List Member}
    {body : List α → Except RVMErrorCode Text} (hempty : ms.isEmpty = list.isEmpty)
    (hbody : body list = .ok (comma.intercalate (ms.map Member.spelled))) (w : World σ) :
    writeSection name list body w = .ok () (w.written (followed (sectionMembers name ms))) := by
  unfold writeSection sectionMembers
  cases hlist : list.isEmpty with
  | true =>
      rw [hempty, hlist]
      show EStateM.Result.ok () w = _
      rw [if_pos rfl]
      exact congrArg _ (written_nil w).symm
  | false =>
      rw [hempty, hlist, hbody]
      show EStateM.Result.ok () (((w.written _).written _).written _) = _
      rw [written_written, written_written]
      simp [followed, objectMember, Member.spelled, member, quote, quoted, comma]

theorem writeSection_error {α : Type} {name : Text} {list : List α}
    {body : List α → Except RVMErrorCode Text} {e : RVMErrorCode} (hlist : list ≠ [])
    (hbody : body list = .error e) (w : World σ) :
    writeSection name list body w =
      .error e (w.written (comma ++ (quoted name ++ ": \x7b".toList))) := by
  have hempty : list.isEmpty = false := by simpa using hlist
  unfold writeSection
  rw [hempty, hbody]
  rfl

/-! ## The record of an update -/

section Retire

variable (M : Model σ)

/-- The record that a logger holds for an instruction that ended in `s`. -/
def recordOf (s : σ) (l : ExecutionLogger) : InstrRecord where
  pcBefore := l.pcBefore
  pcAfter := l.update.pc
  gpr := l.update.gpr.map (withValue fun reg => M.readXReg reg s)
  fpr := l.update.fpr.map (withValue fun reg => M.readFReg reg s)
  vreg := l.update.vReg
  mem := l.update.memWrites
  memReads := l.update.memReads
  fcsr := if l.fcsrBefore ≠ l.update.fcsr then some l.update.fcsr else none

/-- Every listed register can be read. -/
structure UpdateReadable (s : σ) (u : StateUpdate) : Prop where
  gpr : ∀ reg ∈ u.gpr, (M.readXReg reg s).1 = .SUCCESS
  fpr : ∀ reg ∈ u.fpr, (M.readFReg reg s).1 = .SUCCESS

/-- The line of a record in the pieces in which it is written. -/
theorem recordLine_eq (r : InstrRecord) :
    recordLine r = "    \x7b ".toList ++ (wordMember "pc_before".toList r.pcBefore).spelled ++
      (comma ++ (wordMember "pc_after".toList r.pcAfter).spelled) ++
      followed (sectionMembers "gpr".toList (r.gpr.map (registerMember 'x'))) ++
      followed (sectionMembers "fpr".toList (r.fpr.map (registerMember 'f'))) ++
      followed (sectionMembers "vreg".toList (r.vreg.map vregMember)) ++
      followed (sectionMembers "mem".toList (r.mem.map memMember)) ++
      followed (sectionMembers "mem_reads".toList (r.memReads.map memMember)) ++
      followed (r.fcsr.toList.map (wordMember "fcsr".toList)) ++ " \x7d,\n".toList := by
  have hjoin : comma.intercalate ((recordMembers r).map Member.spelled) =
      (wordMember "pc_before".toList r.pcBefore).spelled ++
        followed (wordMember "pc_after".toList r.pcAfter :: optionalMembers r) := by
    unfold recordMembers followed
    rw [List.map_cons, intercalate_cons_eq, List.flatMap_map]
  unfold recordLine recordText
  rw [hjoin, followed_cons]
  unfold optionalMembers
  simp only [followed_append, List.append_assoc, List.cons_append]
  rfl

variable {M}

theorem write_gpr {s : σ} {l : ExecutionLogger}
    (h : ∀ reg ∈ l.update.gpr, (M.readXReg reg s).1 = .SUCCESS) (w : World σ) :
    writeSection "gpr".toList l.update.gpr (emitChangeXRegisters M s) w = .ok () (w.written
      (followed (sectionMembers "gpr".toList ((recordOf M s l).gpr.map (registerMember 'x'))))) :=
  writeSection_ok (by simp) (emitChangeRegisters_ok 'x' h) w

theorem write_fpr {s : σ} {l : ExecutionLogger}
    (h : ∀ reg ∈ l.update.fpr, (M.readFReg reg s).1 = .SUCCESS) (w : World σ) :
    writeSection "fpr".toList l.update.fpr (emitChangeFRegisters M s) w = .ok () (w.written
      (followed (sectionMembers "fpr".toList ((recordOf M s l).fpr.map (registerMember 'f'))))) :=
  writeSection_ok (by simp) (emitChangeRegisters_ok 'f' h) w

/-- The sections whose values came with the callbacks cannot fail. -/
theorem write_pure {α : Type} (name : Text) (list : List α) {emit : List α → Text}
    {f : α → Member} (hemit : ∀ l, emit l = comma.intercalate ((l.map f).map Member.spelled))
    (w : World σ) :
    writeSection name list (fun l => pure (emit l)) w =
      .ok () (w.written (followed (sectionMembers name (list.map f)))) := by
  have hbody : (pure (emit list) : Except RVMErrorCode Text) =
      .ok (comma.intercalate ((list.map f).map Member.spelled)) := by
    rw [hemit]
    rfl
  exact writeSection_ok List.isEmpty_map hbody w

theorem writeRecord_ok {s : σ} {l : ExecutionLogger} (h : UpdateReadable M s l.update)
    (w : World σ) :
    writeRecord M s l w = .ok () (w.written (recordLine (recordOf M s l))) := by
  have htext := recordLine_eq (recordOf M s l)
  unfold writeRecord
  rw [bind_ok (write_eq _ _), bind_ok (write_eq _ _), bind_ok (write_gpr h.gpr _),
    bind_ok (write_fpr h.fpr _),
    bind_ok (write_pure _ _ emitChangeVRegisters_eq _),
    bind_ok (write_pure _ _ emitMemoryStateList_eq _),
    bind_ok (write_pure _ _ emitMemoryStateList_eq _)]
  simp only [written_written]
  by_cases hfcsr : l.fcsrBefore = l.update.fcsr
  · have hnone : (recordOf M s l).fcsr = none := if_neg (not_not_intro hfcsr)
    rw [if_neg (not_not_intro hfcsr), write_eq, written_written, htext, hnone]
    simp [wordMember, Member.spelled, member, quote, quoted, recordOf, comma]
  · have hsome : (recordOf M s l).fcsr = some l.update.fcsr := if_pos hfcsr
    rw [if_pos hfcsr, bind_ok (write_eq _ _), write_eq, written_written, written_written, htext, hsome]
    simp [wordMember, Member.spelled, member, quote, quoted, recordOf, comma]

theorem brokenLine_eq (m : Member) (ms : List Member) (key : Text) :
    brokenLine m ms key = "    \x7b ".toList ++ m.spelled ++ followed ms ++
      (comma ++ (quoted key ++ ": \x7b".toList)) := by
  unfold brokenLine followed
  rw [List.map_cons, intercalate_cons_eq, List.flatMap_map]
  simp only [List.append_assoc, List.cons_append]
  rfl

theorem ne_nil_of_unreadable {read : Fin 32 → RVMErrorCode × RVMRegT} {regs : List (Fin 32)}
    (h : ¬ ∀ reg ∈ regs, (read reg).1 = .SUCCESS) : regs ≠ [] := by
  rintro rfl
  exact h fun reg hreg => absurd hreg List.not_mem_nil

/-- A register that cannot be read leaves the line broken off in its section. -/
theorem writeRecord_error {s : σ} {l : ExecutionLogger} (h : ¬ UpdateReadable M s l.update)
    (w : World σ) :
    ∃ e m ms key, m.Good ∧ (∀ m' ∈ ms, m'.Good) ∧ Plain key ∧
      writeRecord M s l w = .error e (w.written (brokenLine m ms key)) := by
  have hgood := good_recordMembers (recordOf M s l)
  unfold writeRecord
  rw [bind_ok (write_eq _ _), bind_ok (write_eq _ _)]
  by_cases hgpr : ∀ reg ∈ l.update.gpr, (M.readXReg reg s).1 = .SUCCESS
  · have hfpr : ¬ ∀ reg ∈ l.update.fpr, (M.readFReg reg s).1 = .SUCCESS :=
      fun hfpr => h ⟨hgpr, hfpr⟩
    obtain ⟨e, he⟩ : ∃ e, emitChangeFRegisters M s l.update.fpr = .error e :=
      emitChangeRegisters_error 'f' hfpr
    refine ⟨e, wordMember "pc_before".toList l.pcBefore,
      wordMember "pc_after".toList l.update.pc ::
        sectionMembers "gpr".toList ((recordOf M s l).gpr.map (registerMember 'x')),
      "fpr".toList, hgood _ (by simp [recordMembers, recordOf]), ?_, by decide, ?_⟩
    · intro m hm
      apply hgood
      unfold recordMembers optionalMembers
      rcases List.mem_cons.mp hm with rfl | hm
      · simp [recordOf]
      · simp only [List.mem_cons, List.mem_append, hm, true_or, or_true]
    · rw [bind_ok (write_gpr hgpr _),
        bind_error (writeSection_error (ne_nil_of_unreadable hfpr) he _), written_written,
        written_written, written_written, brokenLine_eq]
      simp [wordMember, Member.spelled, member, quote, quoted, comma]
  · obtain ⟨e, he⟩ : ∃ e, emitChangeXRegisters M s l.update.gpr = .error e :=
      emitChangeRegisters_error 'x' hgpr
    refine ⟨e, wordMember "pc_before".toList l.pcBefore,
      [wordMember "pc_after".toList l.update.pc], "gpr".toList,
      hgood _ (by simp [recordMembers, recordOf]), ?_, by decide, ?_⟩
    · intro m hm
      apply hgood
      rw [List.mem_singleton.mp hm]
      simp [recordMembers, recordOf]
    · rw [bind_error (writeSection_error (ne_nil_of_unreadable hgpr) he _), written_written,
        written_written, brokenLine_eq]
      simp [wordMember, Member.spelled, member, quote, quoted, comma]

/-! ## The calls around an instruction -/

/-- The logger as `logPreRetireState` leaves it. -/
def preparing (M : Model σ) (w : World σ) : ExecutionLogger :=
  { w.logger with
    pcBefore := M.readPC w.model
    fcsrBefore := M.fcsr w.model
    update := w.logger.update.clear }

theorem logPreRetireState_closed {w : World σ} (hclosed : w.logger.os = none) :
    logPreRetireState M w = .ok () w := by
  unfold logPreRetireState
  show (if w.logger.os.isNone = true then pure () else _ : Sim σ Unit) w = _
  rw [hclosed]
  rfl

theorem logPreRetireState_ok {w : World σ} {t : Text} (hopen : w.logger.os = some t)
    (hfcsr : M.FCSRReadable w.model) :
    logPreRetireState M w = .ok () { w with logger := preparing M w } := by
  unfold logPreRetireState
  show (if w.logger.os.isNone = true then pure () else _ : Sim σ Unit) w = _
  rw [hopen, if_neg (by simp)]
  show (checkAndThrow (M.readCSR RVM_CSR_FCSR w.model).1 >>= _) _ = _
  rw [checkAndThrow_success hfcsr]
  rfl

theorem logPreRetireState_error {w : World σ} {t : Text} (hopen : w.logger.os = some t)
    (hfcsr : ¬ M.FCSRReadable w.model) :
    ∃ e w', logPreRetireState M w = .error e w' ∧ w'.logger.os = some t := by
  unfold logPreRetireState
  show ∃ e w', (if w.logger.os.isNone = true then pure () else _ : Sim σ Unit) w = _ ∧ _
  rw [hopen, if_neg (by simp)]
  show ∃ e w', (checkAndThrow (M.readCSR RVM_CSR_FCSR w.model).1 >>= _) _ = _ ∧ _
  rw [checkAndThrow_error hfcsr]
  exact ⟨_, _, rfl, hopen⟩

/-- The logger as `logRetiredState` fills it in. -/
def retiring (M : Model σ) (w : World σ) : ExecutionLogger :=
  { w.logger with
    update.pc := M.readPC w.model
    update.fcsr := M.fcsr w.model }

theorem logRetiredState_closed {w : World σ} (hclosed : w.logger.os = none) :
    logRetiredState M w = .ok () w := by
  unfold logRetiredState
  show (if w.logger.os.isNone = true then pure () else _ : Sim σ Unit) w = _
  rw [hclosed]
  rfl

theorem logRetiredState_eq {w : World σ} {t : Text} (hopen : w.logger.os = some t)
    (hfcsr : M.FCSRReadable w.model) :
    logRetiredState M w =
      writeRecord M w.model (retiring M w) { w with logger := retiring M w } := by
  unfold logRetiredState
  show (if w.logger.os.isNone = true then pure () else _ : Sim σ Unit) w = _
  rw [hopen, if_neg (by simp)]
  show (checkAndThrow (M.readCSR RVM_CSR_FCSR w.model).1 >>= _) _ = _
  rw [checkAndThrow_success hfcsr]
  rfl

theorem logRetiredState_error {w : World σ} {t : Text} (hopen : w.logger.os = some t)
    (hfcsr : ¬ M.FCSRReadable w.model) :
    ∃ e w', logRetiredState M w = .error e w' ∧ w'.logger.os = some t := by
  unfold logRetiredState
  show ∃ e w', (if w.logger.os.isNone = true then pure () else _ : Sim σ Unit) w = _ ∧ _
  rw [hopen, if_neg (by simp)]
  show ∃ e w', (checkAndThrow (M.readCSR RVM_CSR_FCSR w.model).1 >>= _) _ = _ ∧ _
  rw [checkAndThrow_error hfcsr]
  exact ⟨_, _, rfl, hopen⟩

/-! ## Callbacks -/

end Retire

def Callback.memRead? : Callback → Option MemStateType
  | memRead addr data => some ⟨addr, data⟩
  | _ => none

def Callback.memUpdate? : Callback → Option MemStateType
  | memUpdate addr data => some ⟨addr, data⟩
  | _ => none

def Callback.vReg? : Callback → Option VectorRegUpdateType
  | vRegUpdate reg data => some ⟨reg, data⟩
  | _ => none

/-- The update with the events of some callbacks behind its own. -/
def StateUpdate.extended (u : StateUpdate) (cbs : List Callback) : StateUpdate :=
  { u with
    memReads := u.memReads ++ cbs.filterMap Callback.memRead?
    memWrites := u.memWrites ++ cbs.filterMap Callback.memUpdate?
    gpr := u.gpr ++ cbs.filterMap Callback.xReg?
    fpr := u.fpr ++ cbs.filterMap Callback.fReg?
    vReg := u.vReg ++ cbs.filterMap Callback.vReg?
    csr := u.csr ++ cbs.filterMap Callback.csr? }

theorem deliver_eq (l : ExecutionLogger) (cbs : List Callback) :
    l.deliver cbs = { l with update := l.update.extended cbs } := by
  induction cbs generalizing l with
  | nil => simp [ExecutionLogger.deliver, StateUpdate.extended]
  | cons cb cbs ih =>
      show (l.callback cb).deliver cbs = _
      rw [ih]
      cases cb <;>
        simp [StateUpdate.extended, List.filterMap_cons, ExecutionLogger.callback, ExecutionLogger.addMemoryRead,
          ExecutionLogger.addMemoryUpdate, ExecutionLogger.addXRegUpdate,
          ExecutionLogger.addFRegUpdate, ExecutionLogger.addVRegUpdate,
          ExecutionLogger.addCSRUpdate, Callback.memRead?, Callback.memUpdate?, Callback.xReg?,
          Callback.fReg?, Callback.vReg?, Callback.csr?]

/-! ## One instruction -/

/-- What an instruction does, told by the model alone. -/
def observe (M : Model σ) (s : σ) : InstrRecord :=
  let cbs := (M.executeInstr s).callbacks
  { pcBefore := M.readPC s
    pcAfter := M.readPC (M.next s)
    gpr := (cbs.filterMap Callback.xReg?).map (withValue fun reg => M.readXReg reg (M.next s))
    fpr := (cbs.filterMap Callback.fReg?).map (withValue fun reg => M.readFReg reg (M.next s))
    vreg := cbs.filterMap Callback.vReg?
    mem := cbs.filterMap Callback.memUpdate?
    memReads := cbs.filterMap Callback.memRead?
    fcsr := if M.fcsr s ≠ M.fcsr (M.next s) then some (M.fcsr (M.next s)) else none }

/-- Every read that `retireInstr` makes around the instruction succeeds. -/
structure InstrReadable (M : Model σ) (s : σ) : Prop where
  before : M.FCSRReadable s
  after : M.FCSRReadable (M.next s)
  gpr : ∀ reg ∈ (M.executeInstr s).callbacks.filterMap Callback.xReg?,
    (M.readXReg reg (M.next s)).1 = .SUCCESS
  fpr : ∀ reg ∈ (M.executeInstr s).callbacks.filterMap Callback.fReg?,
    (M.readFReg reg (M.next s)).1 = .SUCCESS

section Instr

variable {M : Model σ}

theorem executeInstr_eq (w : World σ) :
    executeInstr M w = .ok (M.executeInstr w.model).status
      ⟨M.next w.model, w.logger.deliver (M.executeInstr w.model).callbacks⟩ := rfl

/-- The world in which `logRetiredState` runs. -/
def executed (M : Model σ) (w : World σ) : World σ :=
  ⟨M.next w.model, (preparing M w).deliver (M.executeInstr w.model).callbacks⟩

theorem recordOf_executed (w : World σ) :
    recordOf M (M.next w.model) (retiring M (executed M w)) = observe M w.model := by
  unfold executed
  rw [deliver_eq]
  rfl

theorem os_executed (w : World σ) : (executed M w).logger.os = w.logger.os := by
  unfold executed
  rw [deliver_eq]
  rfl

theorem updateReadable_executed (w : World σ) :
    UpdateReadable M (M.next w.model) (retiring M (executed M w)).update ↔
      (∀ reg ∈ (M.executeInstr w.model).callbacks.filterMap Callback.xReg?,
        (M.readXReg reg (M.next w.model)).1 = .SUCCESS) ∧
      (∀ reg ∈ (M.executeInstr w.model).callbacks.filterMap Callback.fReg?,
        (M.readFReg reg (M.next w.model)).1 = .SUCCESS) := by
  have hupdate : (retiring M (executed M w)).update =
      { StateUpdate.extended w.logger.update.clear (M.executeInstr w.model).callbacks with
        pc := M.readPC (M.next w.model), fcsr := M.fcsr (M.next w.model) } := by
    unfold executed
    rw [deliver_eq]
    rfl
  rw [hupdate]
  exact ⟨fun h => ⟨h.gpr, h.fpr⟩, fun h => ⟨h.1, h.2⟩⟩

theorem retireInstr_closed {w : World σ} (hclosed : w.logger.os = none) :
    retireInstr M w = .ok (M.executeInstr w.model).status
      ⟨M.next w.model, w.logger.deliver (M.executeInstr w.model).callbacks⟩ := by
  have hstill : (w.logger.deliver (M.executeInstr w.model).callbacks).os = none := by
    rw [deliver_eq]
    exact hclosed
  unfold retireInstr
  rw [bind_ok (logPreRetireState_closed hclosed), bind_ok (executeInstr_eq w),
    bind_ok (logRetiredState_closed hstill)]
  rfl

theorem retireInstr_ok {w : World σ} {t : Text} (hopen : w.logger.os = some t)
    (h : InstrReadable M w.model) :
    retireInstr M w = .ok (M.executeInstr w.model).status
      (World.written { executed M w with logger := retiring M (executed M w) }
        (recordLine (observe M w.model))) := by
  have hread := (updateReadable_executed w).mpr ⟨h.gpr, h.fpr⟩
  have hstill : (executed M w).logger.os = some t := (os_executed w).trans hopen
  unfold retireInstr
  rw [bind_ok (logPreRetireState_ok hopen h.before), bind_ok (executeInstr_eq _)]
  show ((logRetiredState M >>= _) (executed M w)) = _
  have hlog : logRetiredState M (executed M w) = _ :=
    (logRetiredState_eq hstill h.after).trans (writeRecord_ok hread _)
  rw [bind_ok hlog, ← recordOf_executed]
  rfl

/-- A read that fails throws. Without the control register the line is not
begun; without a listed register it is left broken off. -/
theorem retireInstr_error {w : World σ} {t : Text} (hopen : w.logger.os = some t)
    (h : ¬ InstrReadable M w.model) :
    ∃ e w', retireInstr M w = .error e w' ∧
      if M.FCSRReadable w.model ∧ M.FCSRReadable (M.next w.model) then
        ∃ m ms key, m.Good ∧ (∀ m' ∈ ms, m'.Good) ∧ Plain key ∧
          w'.logger.os = some (t ++ brokenLine m ms key)
      else w'.logger.os = some t := by
  unfold retireInstr
  by_cases hbefore : M.FCSRReadable w.model
  · rw [bind_ok (logPreRetireState_ok hopen hbefore), bind_ok (executeInstr_eq _)]
    show ∃ e w', ((logRetiredState M >>= _) (executed M w)) = _ ∧ _
    have hstill : (executed M w).logger.os = some t := (os_executed w).trans hopen
    by_cases hafter : M.FCSRReadable (M.next w.model)
    · have hread : ¬ UpdateReadable M (M.next w.model) (retiring M (executed M w)).update := by
        rw [updateReadable_executed]
        rintro ⟨hgpr, hfpr⟩
        exact h ⟨hbefore, hafter, hgpr, hfpr⟩
      obtain ⟨e, m, ms, key, hm, hms, hkey, hlog⟩ := writeRecord_error hread
        { executed M w with logger := retiring M (executed M w) }
      refine ⟨e, _, bind_error ((logRetiredState_eq hstill hafter).trans hlog), ?_⟩
      rw [if_pos ⟨hbefore, hafter⟩]
      refine ⟨m, ms, key, hm, hms, hkey, ?_⟩
      show ((executed M w).logger.os).map _ = _
      rw [hstill]
      rfl
    · obtain ⟨e, w', hlog, hos⟩ := logRetiredState_error hstill hafter
      refine ⟨e, w', bind_error hlog, ?_⟩
      rw [if_neg fun hboth => hafter hboth.2]
      exact hos
  · obtain ⟨e, w', hlog, hos⟩ := logPreRetireState_error hopen hbefore
    refine ⟨e, w', bind_error hlog, ?_⟩
    rw [if_neg fun hboth => hbefore hboth.1]
    exact hos

/-- A call that returns has moved the model by one instruction. -/
theorem model_of_retireInstr {w w' : World σ} {status : RVMSimExecStatus}
    (h : retireInstr M w = .ok status w') :
    status = (M.executeInstr w.model).status ∧ w'.model = M.next w.model := by
  cases hos : w.logger.os with
  | none =>
      rw [retireInstr_closed hos] at h
      cases h
      exact ⟨rfl, rfl⟩
  | some t =>
      by_cases hread : InstrReadable M w.model
      · rw [retireInstr_ok hos hread] at h
        cases h
        exact ⟨rfl, rfl⟩
      · obtain ⟨e, w₁, herror, -⟩ := retireInstr_error hos hread
        rw [herror] at h
        cases h

end Instr

end Rvmi.Log
