import Rvmi.Launch.Main
import Rvmi.Log.Frame

/-!
# A model that records its calls

The calls that make a model run or interrupt it are recorded in the order in which
the launcher makes them. In everything else the recording model is the model it is
made of.
-/

namespace Rvmi.Launch

open Rvmi.Foundation Rvmi.Log Rvmi.Elf

inductive Call where
  | executeInstr (result : RVMSimExecStatus)
  | raiseInterrupt (cause : RVMRegT)
  | clearInterrupt (cause : RVMRegT)
deriving DecidableEq, Repr

variable {σ : Type}

/-- The state of `M` with the calls made so far. -/
def recording (M : LauncherModel σ) : LauncherModel (σ × List Call) where
  executeInstr s :=
    let step := M.executeInstr s.1
    ⟨step.status, step.callbacks, (step.next, s.2 ++ [.executeInstr step.status])⟩
  readPC s := M.readPC s.1
  readXReg reg s := M.readXReg reg s.1
  readFReg reg s := M.readFReg reg s.1
  readCSR reg s := M.readCSR reg s.1
  rv64 s := M.rv64 s.1
  setPC pc s := ((M.setPC pc s.1).1, ((M.setPC pc s.1).2, s.2))
  writeMem addr data s := ((M.writeMem addr data s.1).1, ((M.writeMem addr data s.1).2, s.2))
  setStopPC stopPC s := ((M.setStopPC stopPC s.1).1, ((M.setStopPC stopPC s.1).2, s.2))
  setStopMode mode s := (M.setStopMode mode s.1, s.2)
  raiseInterrupt cause s :=
    ((M.raiseInterrupt cause s.1).1,
      ((M.raiseInterrupt cause s.1).2, s.2 ++ [.raiseInterrupt cause]))
  clearInterrupt cause s :=
    ((M.clearInterrupt cause s.1).1,
      ((M.clearInterrupt cause s.1).2, s.2 ++ [.clearInterrupt cause]))
  readVReg reg data size s := M.readVReg reg data size s.1
  strerror := M.strerror
  getErrorContext s := M.getErrorContext s.1

/-- A world before any call, with a recording model. -/
def LaunchWorld.recorded (w : LaunchWorld σ) : LaunchWorld (σ × List Call) where
  model := (w.model, [])
  logger := w.logger
  cerr := w.cerr
  files := w.files
  opens := w.opens

def LaunchWorld.calls (w : LaunchWorld (σ × List Call)) : List Call := w.model.2

/-- The instruction that is next ends the simulation. -/
def Finishes (M : Model σ) (s : σ) : Prop := (M.executeInstr s).status = .FINISH

variable {M : LauncherModel σ}

/-- The instructions of the first `n` steps. -/
def instrCalls (M : LauncherModel σ) (s : σ) (n : Nat) : List Call :=
  (List.range n).map fun k => .executeInstr (M.executeInstr (M.next^[k] s)).status

theorem iterate_next_recording (s : σ) (calls : List Call) (n : Nat) :
    (recording M).next^[n] (s, calls) = (M.next^[n] s, calls ++ instrCalls M s n) := by
  induction n with
  | zero => exact Prod.ext rfl (List.append_nil calls).symm
  | succ n ih =>
      unfold instrCalls at ih ⊢
      rw [Function.iterate_succ_apply', Function.iterate_succ_apply', ih, List.range_succ,
        List.map_append, ← List.append_assoc]
      rfl

theorem instrReadable_recording {s : σ} {calls : List Call} :
    InstrReadable (recording M).toModel (s, calls) ↔ InstrReadable M.toModel s := by
  constructor
  · intro h
    exact ⟨h.before, h.after, h.gpr, h.fpr⟩
  · intro h
    exact ⟨h.before, h.after, h.gpr, h.fpr⟩

/-! ## A simulator with scripted results -/

/-- The results of the instructions to come; behind them the simulation has ended. -/
abbrev Script := List RVMSimExecStatus

/-- No call fails, and every value that is read is zero. -/
def scriptModel : LauncherModel Script where
  executeInstr s := ⟨s.headD .FINISH, [], s.tail⟩
  readPC _ := 0
  readXReg _ _ := (.SUCCESS, 0)
  readFReg _ _ := (.SUCCESS, 0)
  readCSR _ _ := (.SUCCESS, 0)
  rv64 _ := true
  setPC _ s := (.SUCCESS, s)
  writeMem _ _ s := (.SUCCESS, s)
  setStopPC _ s := (.SUCCESS, s)
  setStopMode _ s := s
  raiseInterrupt _ s := (.SUCCESS, s)
  clearInterrupt _ s := (.SUCCESS, s)
  readVReg _ data _ _ := (.SUCCESS, data.getD [], 0)
  strerror _ := []
  getErrorContext _ := []

end Rvmi.Launch
