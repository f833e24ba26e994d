import Rvmi.Log.Replay

/-!
# Memory behind a list of writes

A write is at the addresses whose distance from its first address is less than
its length; the distance wraps around like the addresses do. Behind several writes
an address holds the byte of the last write that reaches it.
-/

namespace Rvmi.Log

/-- The write puts a byte at the address `a`. -/
def MemStateType.Covers (write : MemStateType) (a : UInt64) : Prop :=
  (a - write.addr).toNat < write.data.length

/-! ## One write -/

theorem toNat_sub_add_one_of_eq (addr : UInt64) : (addr - (addr + 1)).toNat = 2 ^ 64 - 1 := by
  have hlt := addr.toNat_lt
  rw [UInt64.toNat_sub, UInt64.toNat_add]
  have hone : (1 : UInt64).toNat = 1 := rfl
  omega

theorem toNat_sub_of_ne {a addr : UInt64} (h : a ≠ addr) :
    (a - addr).toNat = (a - (addr + 1)).toNat + 1 := by
  have hne : a.toNat ≠ addr.toNat := fun heq => h (UInt64.toNat_inj.mp heq)
  have hlt := a.toNat_lt
  have hlt' := addr.toNat_lt
  rw [UInt64.toNat_sub, UInt64.toNat_sub, UInt64.toNat_add]
  have hone : (1 : UInt64).toNat = 1 := rfl
  omega

/-- The bytes of a write that fits into the address space lie behind one another. -/
theorem storeBytes_apply (mem : UInt64 → UInt8) (addr : UInt64) {data : List UInt8}
    (hdata : data.length ≤ 2 ^ 64) (a : UInt64) :
    storeBytes mem addr data a =
      if h : (a - addr).toNat < data.length then data[(a - addr).toNat] else mem a := by
  induction data generalizing mem addr with
  | nil => rfl
  | cons byte bytes ih =>
      have hbytes : bytes.length + 1 ≤ 2 ^ 64 := hdata
      show storeBytes (Function.update mem addr byte) (addr + 1) bytes a = _
      rw [ih _ _ (by omega)]
      by_cases ha : a = addr
      · subst ha
        -- behind the first byte, its address is the farthest one of all
        have hlast : ¬ (a - (a + 1)).toNat < bytes.length := by
          rw [toNat_sub_add_one_of_eq]
          omega
        have hfirst : (a - a).toNat = 0 := by
          rw [UInt64.sub_self]
          rfl
        simp only [hlast, hfirst, dif_neg, not_false_eq_true, Function.update_self,
          List.length_cons, Nat.succ_pos, dif_pos, List.getElem_cons_zero]
      · rw [Function.update_of_ne ha]
        simp only [toNat_sub_of_ne ha, List.length_cons, Nat.add_lt_add_iff_right,
          List.getElem_cons_succ]

/-! ## Several writes -/

theorem overlay_cons (mem : UInt64 → UInt8) (write : MemStateType) (writes : List MemStateType) :
    overlay mem (write :: writes) = overlay (storeBytes mem write.addr write.data) writes := rfl

theorem overlay_append (mem : UInt64 → UInt8) (writes writes' : List MemStateType) :
    overlay mem (writes ++ writes') = overlay (overlay mem writes) writes' :=
  List.foldl_append

variable {mem : UInt64 → UInt8} {writes : List MemStateType} {a : UInt64}

/-- An address that no write reaches keeps its byte. -/
theorem overlay_of_not_covered (hlength : ∀ write ∈ writes, write.data.length ≤ 2 ^ 64)
    (h : ∀ write ∈ writes, ¬ write.Covers a) : overlay mem writes a = mem a := by
  induction writes generalizing mem with
  | nil => rfl
  | cons write writes ih =>
      obtain ⟨hwrite, hwrites⟩ := List.forall_mem_cons.mp h
      obtain ⟨hfirst, hrest⟩ := List.forall_mem_cons.mp hlength
      rw [overlay_cons, ih hrest hwrites, storeBytes_apply mem write.addr hfirst]
      exact dif_neg hwrite

/-- The last write that reaches an address decides its byte. -/
theorem overlay_of_last {write : MemStateType} {before after : List MemStateType}
    (hlength : ∀ each ∈ before ++ write :: after, each.data.length ≤ 2 ^ 64)
    (hcovers : write.Covers a) (hafter : ∀ later ∈ after, ¬ later.Covers a) :
    overlay mem (before ++ write :: after) a =
      write.data.get ⟨(a - write.addr).toNat, hcovers⟩ := by
  have hwrite := hlength write (List.mem_append_right before List.mem_cons_self)
  have hrest : ∀ later ∈ after, later.data.length ≤ 2 ^ 64 := fun later hlater =>
    hlength later (List.mem_append_right before (List.mem_cons_of_mem write hlater))
  rw [overlay_append, overlay_cons, overlay_of_not_covered hrest hafter,
    storeBytes_apply _ write.addr hwrite]
  exact dif_pos hcovers

end Rvmi.Log
