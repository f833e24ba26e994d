import Rvmi.Elf.StopLabel
import Rvmi.Foundation.Related
import Rvmi.Launch.Alike

/-!
# Simulators that cannot be told apart

Two simulators are bisimilar when related states answer every call of the interface
alike and are left related by it. A launcher only makes such calls, so its exit status,
its messages, the files it writes and the execution log are the same for both. The two
are run as one simulator on pairs of related states, of which each is an image.
-/

namespace Rvmi.Launch

open Rvmi.Foundation Rvmi.Log Rvmi.Elf

variable {σ τ : Type}

structure Bisimulation (M : LauncherModel σ) (N : LauncherModel τ) (R : σ → τ → Prop) : Prop where
  status : ∀ s t, R s t → (N.executeInstr t).status = (M.executeInstr s).status
  callbacks : ∀ s t, R s t → (N.executeInstr t).callbacks = (M.executeInstr s).callbacks
  next : ∀ s t, R s t → R (M.executeInstr s).next (N.executeInstr t).next
  readPC : ∀ s t, R s t → N.readPC t = M.readPC s
  readXReg : ∀ reg s t, R s t → N.readXReg reg t = M.readXReg reg s
  readFReg : ∀ reg s t, R s t → N.readFReg reg t = M.readFReg reg s
  readCSR : ∀ reg s t, R s t → N.readCSR reg t = M.readCSR reg s
  readVReg : ∀ reg data size s t, R s t → N.readVReg reg data size t = M.readVReg reg data size s
  rv64 : ∀ s t, R s t → N.rv64 t = M.rv64 s
  setPC : ∀ pc s t, R s t →
    (N.setPC pc t).1 = (M.setPC pc s).1 ∧ R (M.setPC pc s).2 (N.setPC pc t).2
  writeMem : ∀ addr data s t, R s t → (N.writeMem addr data t).1 = (M.writeMem addr data s).1 ∧
    R (M.writeMem addr data s).2 (N.writeMem addr data t).2
  setStopPC : ∀ stopPC s t, R s t → (N.setStopPC stopPC t).1 = (M.setStopPC stopPC s).1 ∧
    R (M.setStopPC stopPC s).2 (N.setStopPC stopPC t).2
  setStopMode : ∀ mode s t, R s t → R (M.setStopMode mode s) (N.setStopMode mode t)
  raiseInterrupt : ∀ cause s t, R s t →
    (N.raiseInterrupt cause t).1 = (M.raiseInterrupt cause s).1 ∧
    R (M.raiseInterrupt cause s).2 (N.raiseInterrupt cause t).2
  clearInterrupt : ∀ cause s t, R s t →
    (N.clearInterrupt cause t).1 = (M.clearInterrupt cause s).1 ∧
    R (M.clearInterrupt cause s).2 (N.clearInterrupt cause t).2
  strerror : ∀ code, N.strerror code = M.strerror code
  getErrorContext : ∀ s t, R s t → N.getErrorContext t = M.getErrorContext s

/-- Related states of two simulators, side by side. -/
abbrev Paired (R : σ → τ → Prop) := {p : σ × τ // R p.1 p.2}

variable {M : LauncherModel σ} {N : LauncherModel τ} {R : σ → τ → Prop}

/-- Both simulators at once; what is answered is the answer of the first. -/
def paired (h : Bisimulation M N R) : LauncherModel (Paired R) where
  executeInstr p :=
    ⟨(M.executeInstr p.1.1).status, (M.executeInstr p.1.1).callbacks,
      ⟨((M.executeInstr p.1.1).next, (N.executeInstr p.1.2).next), h.next _ _ p.2⟩⟩
  readPC p := M.readPC p.1.1
  readXReg reg p := M.readXReg reg p.1.1
  readFReg reg p := M.readFReg reg p.1.1
  readCSR reg p := M.readCSR reg p.1.1
  readVReg reg data size p := M.readVReg reg data size p.1.1
  rv64 p := M.rv64 p.1.1
  setPC pc p := ((M.setPC pc p.1.1).1,
    ⟨((M.setPC pc p.1.1).2, (N.setPC pc p.1.2).2), (h.setPC pc _ _ p.2).2⟩)
  writeMem addr data p := ((M.writeMem addr data p.1.1).1,
    ⟨((M.writeMem addr data p.1.1).2, (N.writeMem addr data p.1.2).2),
      (h.writeMem addr data _ _ p.2).2⟩)
  setStopPC stopPC p := ((M.setStopPC stopPC p.1.1).1,
    ⟨((M.setStopPC stopPC p.1.1).2, (N.setStopPC stopPC p.1.2).2),
      (h.setStopPC stopPC _ _ p.2).2⟩)
  setStopMode mode p :=
    ⟨(M.setStopMode mode p.1.1, N.setStopMode mode p.1.2), h.setStopMode mode _ _ p.2⟩
  raiseInterrupt cause p := ((M.raiseInterrupt cause p.1.1).1,
    ⟨((M.raiseInterrupt cause p.1.1).2, (N.raiseInterrupt cause p.1.2).2),
      (h.raiseInterrupt cause _ _ p.2).2⟩)
  clearInterrupt cause p := ((M.clearInterrupt cause p.1.1).1,
    ⟨((M.clearInterrupt cause p.1.1).2, (N.clearInterrupt cause p.1.2).2),
      (h.clearInterrupt cause _ _ p.2).2⟩)
  strerror := M.strerror
  getErrorContext p := M.getErrorContext p.1.1

theorem sameLaunches_paired_left (h : Bisimulation M N R) :
    SameLaunches (paired h) M fun p => p.1.1 where
  steps := ⟨fun _ => rfl, fun _ => rfl, fun _ _ => rfl, fun _ _ => rfl, fun _ _ => rfl⟩
  loads := ⟨fun _ => rfl, fun _ _ => rfl, fun _ _ _ => rfl, fun _ _ => rfl⟩
  setStopMode _ _ := rfl
  raiseInterrupt _ _ := rfl
  clearInterrupt _ _ := rfl
  readVReg _ _ _ _ := rfl
  strerror _ := rfl
  getErrorContext _ := rfl

theorem sameSteps_paired_right (h : Bisimulation M N R) :
    SameSteps (paired h).toModel N.toModel fun p => p.1.2 where
  executeInstr p := by
    have hstatus := h.status _ _ p.2
    have hcallbacks := h.callbacks _ _ p.2
    show N.executeInstr p.1.2 = ⟨(M.executeInstr p.1.1).status, (M.executeInstr p.1.1).callbacks,
      (N.executeInstr p.1.2).next⟩
    rw [← hstatus, ← hcallbacks]
  readPC p := h.readPC _ _ p.2
  readXReg reg p := h.readXReg reg _ _ p.2
  readFReg reg p := h.readFReg reg _ _ p.2
  readCSR reg p := h.readCSR reg _ _ p.2

theorem sameLaunches_paired_right (h : Bisimulation M N R) :
    SameLaunches (paired h) N fun p => p.1.2 where
  steps := sameSteps_paired_right h
  loads := {
    rv64 := fun p => h.rv64 _ _ p.2
    setPC := fun pc p => Prod.ext (h.setPC pc _ _ p.2).1 rfl
    writeMem := fun addr data p => Prod.ext (h.writeMem addr data _ _ p.2).1 rfl
    setStopPC := fun stopPC p => Prod.ext (h.setStopPC stopPC _ _ p.2).1 rfl }
  setStopMode _ _ := rfl
  raiseInterrupt cause p := Prod.ext (h.raiseInterrupt cause _ _ p.2).1 rfl
  clearInterrupt cause p := Prod.ext (h.clearInterrupt cause _ _ p.2).1 rfl
  readVReg reg data size p := h.readVReg reg data size _ _ p.2
  strerror := h.strerror
  getErrorContext p := h.getErrorContext _ _ p.2

/-- Related models, and the same log, messages and files on the same file system. -/
structure SameOutputs (R : σ → τ → Prop) (w : LaunchWorld σ) (w' : LaunchWorld τ) : Prop where
  model : R w.model w'.model
  logger : w'.logger = w.logger
  cerr : w'.cerr = w.cerr
  files : w'.files = w.files
  opens : w'.opens = w.opens

/-- A launcher that runs alike on the pairs and on each of their sides. -/
theorem related_of_paired {α : Type} {x : Launcher (Paired R) α} {y : Launcher σ α}
    {z : Launcher τ α} (hy : Along (mapLaunch fun p => p.1.1) id x y)
    (hz : Along (mapLaunch fun p => p.1.2) id x z) : Related (SameOutputs R) y z := by
  rintro w ⟨model, logger, cerr, files, opens⟩ ⟨hmodel, rfl, rfl, rfl, rfl⟩
  have hleft := hy ⟨⟨(w.model, model), hmodel⟩, w.logger, w.cerr, w.files, w.opens⟩
  have hright := hz ⟨⟨(w.model, model), hmodel⟩, w.logger, w.cerr, w.files, w.opens⟩
  exact relatedResult_of_along (fun v => ⟨v.model.2, rfl, rfl, rfl, rfl⟩) hleft hright

/-- Both launchers run alike on bisimilar simulators: they end the same way, with the same
exit status, the same log, the same text on `std::cerr` and the same files. -/
theorem launchers_bisimilar (h : Bisimulation M N R) (load : Text → Option Image)
    (options : DriverOptions) (iterations : Nat) :
    Related (SameOutputs R) (driverMain M load options iterations)
        (driverMain N load options iterations) ∧
      Related (SameOutputs R) (interruptMain M load options iterations)
        (interruptMain N load options iterations) := by
  constructor
  · exact related_of_paired
      (alike_driverMain (sameLaunches_paired_left h) load options iterations)
      (alike_driverMain (sameLaunches_paired_right h) load options iterations)
  · exact related_of_paired
      (alike_interruptMain (sameLaunches_paired_left h) load options iterations)
      (alike_interruptMain (sameLaunches_paired_right h) load options iterations)

/-! ## A script and its end -/

/-- The second script has the end of the first written out. -/
def Extends (s s' : Script) : Prop := ∃ n, s' = s ++ List.replicate n .FINISH

theorem Extends.headD {s s' : Script} (h : Extends s s') :
    s'.headD .FINISH = s.headD .FINISH := by
  obtain ⟨n, rfl⟩ := h
  cases s with
  | nil => cases n <;> rfl
  | cons result s => rfl

theorem Extends.tail {s s' : Script} (h : Extends s s') : Extends s.tail s'.tail := by
  obtain ⟨n, rfl⟩ := h
  cases s with
  | nil =>
      cases n with
      | zero => exact ⟨0, rfl⟩
      | succ n => exact ⟨n, rfl⟩
  | cons result s => exact ⟨n, rfl⟩

theorem bisimulation_extends : Bisimulation scriptModel scriptModel Extends where
  status _ _ h := h.headD
  callbacks _ _ _ := rfl
  next _ _ h := h.tail
  readPC _ _ _ := rfl
  readXReg _ _ _ _ := rfl
  readFReg _ _ _ _ := rfl
  readCSR _ _ _ _ := rfl
  readVReg _ _ _ _ _ _ := rfl
  rv64 _ _ _ := rfl
  setPC _ _ _ h := ⟨rfl, h⟩
  writeMem _ _ _ _ h := ⟨rfl, h⟩
  setStopPC _ _ _ h := ⟨rfl, h⟩
  setStopMode _ _ _ h := h
  raiseInterrupt _ _ _ h := ⟨rfl, h⟩
  clearInterrupt _ _ _ h := ⟨rfl, h⟩
  strerror _ := rfl
  getErrorContext _ _ _ := rfl

theorem launchers_bisimilar_script : RelatedResult (SameOutputs Extends)
    (driverMain scriptModel (elfio labelledImage) { executableFile := "a.out".toList } 2
      { model := [.SUCCESS] })
    (driverMain scriptModel (elfio labelledImage) { executableFile := "a.out".toList } 2
      { model := [.SUCCESS, .FINISH, .FINISH] }) :=
  (launchers_bisimilar bisimulation_extends (elfio labelledImage)
    { executableFile := "a.out".toList } 2).1 _ _ ⟨⟨2, rfl⟩, rfl, rfl, rfl, rfl⟩

end Rvmi.Launch
