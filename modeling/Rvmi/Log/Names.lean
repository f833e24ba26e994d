import Mathlib.Data.List.Nodup
import Rvmi.Log.Run

/-!
# Member names of a record

A record has one member for every callback, in the order of the callbacks, and
the member is named after the register or the address. Nothing looks for a
name that is there already: the names of an object are distinct exactly when
the instruction reported no register and no address twice. A register that was
reported twice is printed twice with the same value, as both members are read
when the instruction is retired.
-/

namespace Rvmi.Log

open Rvmi.Foundation Json

/-! ## Objects of a record -/

/-- The members of the object under a key; a section that is left out has none. -/
def sectionEntries (record : Json) (key : Text) : List (Text × Json) :=
  match record with
  | .obj members =>
      match members.lookup key with
      | some (.obj entries) => entries
      | _ => []
  | _ => []

def sectionNames (record : Json) (key : Text) : List Text :=
  (sectionEntries record key).map Prod.fst

def sectionKeys : List Text :=
  ["gpr".toList, "fpr".toList, "vreg".toList, "mem".toList, "mem_reads".toList]

/-- No object of the record has two members of one name. -/
def DistinctNames (record : Json) : Prop :=
  ∀ key ∈ sectionKeys, (sectionNames record key).Nodup

theorem sectionEntries_of_lookup {members : List (Text × Json)} {key : Text} {ms : List Member}
    (h : members.lookup key = sectionValue ms) :
    sectionEntries (.obj members) key = ms.map Member.entry := by
  unfold sectionEntries
  simp only [h]
  cases ms with
  | nil => rfl
  | cons m ms => rfl

theorem sectionNames_of_lookup {α : Type} {members : List (Text × Json)} {key : Text}
    {encode : α → Member} {list : List α}
    (h : members.lookup key = sectionValue (list.map encode)) :
    sectionNames (.obj members) key = list.map fun a => (encode a).key := by
  unfold sectionNames
  rw [sectionEntries_of_lookup h, List.map_map, List.map_map]
  rfl

/-! ## Names -/

theorem registerName_injective (letter : Char) : Function.Injective (registerName letter) := by
  intro a b h
  have hread := congrArg (decodeRegister letter) h
  rw [decodeRegister_registerName, decodeRegister_registerName] at hread
  exact Option.some.inj hread

/-- The names in the objects of a record and the callbacks they come from. -/
structure NamedByEvents (record : Json) (cbs : List Callback) : Prop where
  gpr : sectionNames record "gpr".toList = (cbs.filterMap Callback.xReg?).map (registerName 'x')
  fpr : sectionNames record "fpr".toList = (cbs.filterMap Callback.fReg?).map (registerName 'f')
  vreg : sectionNames record "vreg".toList =
    (cbs.filterMap Callback.vReg?).map fun u => registerName 'v' u.regIndex
  mem : sectionNames record "mem".toList =
    (cbs.filterMap Callback.memUpdate?).map fun m => tohs m.addr
  memReads : sectionNames record "mem_reads".toList =
    (cbs.filterMap Callback.memRead?).map fun m => tohs m.addr

/-- The callbacks report no register and no address twice. -/
structure DistinctEvents (cbs : List Callback) : Prop where
  gpr : (cbs.filterMap Callback.xReg?).Nodup
  fpr : (cbs.filterMap Callback.fReg?).Nodup
  vreg : ((cbs.filterMap Callback.vReg?).map VectorRegUpdateType.regIndex).Nodup
  mem : ((cbs.filterMap Callback.memUpdate?).map MemStateType.addr).Nodup
  memReads : ((cbs.filterMap Callback.memRead?).map MemStateType.addr).Nodup

/-- Names that are told by a key are distinct when the keys are. -/
theorem nodup_names_iff {α κ : Type} {name : κ → Text} (hname : Function.Injective name)
    {key : α → κ} {names : List Text} {list : List α}
    (h : names = list.map fun a => name (key a)) : names.Nodup ↔ (list.map key).Nodup := by
  rw [h, ← List.nodup_map_iff hname, List.map_map]
  rfl

theorem NamedByEvents.distinct_iff {record : Json} {cbs : List Callback}
    (h : NamedByEvents record cbs) : DistinctNames record ↔ DistinctEvents cbs := by
  have hx : (sectionNames record "gpr".toList).Nodup ↔ (cbs.filterMap Callback.xReg?).Nodup := by
    rw [h.gpr, List.nodup_map_iff (registerName_injective 'x')]
  have hf : (sectionNames record "fpr".toList).Nodup ↔ (cbs.filterMap Callback.fReg?).Nodup := by
    rw [h.fpr, List.nodup_map_iff (registerName_injective 'f')]
  have hv : (sectionNames record "vreg".toList).Nodup ↔
      ((cbs.filterMap Callback.vReg?).map VectorRegUpdateType.regIndex).Nodup :=
    nodup_names_iff (registerName_injective 'v') h.vreg
  have hm : (sectionNames record "mem".toList).Nodup ↔
      ((cbs.filterMap Callback.memUpdate?).map MemStateType.addr).Nodup :=
    nodup_names_iff tohs_injective h.mem
  have hr : (sectionNames record "mem_reads".toList).Nodup ↔
      ((cbs.filterMap Callback.memRead?).map MemStateType.addr).Nodup :=
    nodup_names_iff tohs_injective h.memReads
  unfold DistinctNames sectionKeys
  simp only [List.mem_cons, List.not_mem_nil, or_false, forall_eq_or_imp, forall_eq,
    hx, hf, hv, hm, hr]
  constructor
  · rintro ⟨hgpr, hfpr, hvreg, hmem, hreads⟩
    exact ⟨hgpr, hfpr, hvreg, hmem, hreads⟩
  · rintro ⟨hgpr, hfpr, hvreg, hmem, hreads⟩
    exact ⟨hgpr, hfpr, hvreg, hmem, hreads⟩

/-- A name that is repeated stands before the same value every time. -/
def RepeatsAgree (entries : List (Text × Json)) : Prop :=
  ∀ a ∈ entries, ∀ b ∈ entries, a.1 = b.1 → a = b

theorem repeatsAgree_registers (letter : Char) (read : Fin 32 → RVMErrorCode × RVMRegT)
    (regs : List (Fin 32)) :
    RepeatsAgree
      (((regs.map (withValue read)).map (registerMember letter)).map Member.entry) := by
  have hentry : ∀ a ∈ ((regs.map (withValue read)).map (registerMember letter)).map Member.entry,
      ∃ reg, a = (registerMember letter (withValue read reg)).entry := by
    intro a ha
    simp only [List.map_map, List.mem_map, Function.comp_apply] at ha
    obtain ⟨reg, -, rfl⟩ := ha
    exact ⟨reg, rfl⟩
  intro a ha b hb hname
  -- equal names are one register, and both members are read from the same state
  obtain ⟨x, rfl⟩ := hentry a ha
  obtain ⟨y, rfl⟩ := hentry b hb
  have hreg : x = y := registerName_injective letter hname
  rw [hreg]

theorem namedByEvents_observe {σ : Type} (M : Model σ) (s : σ) :
    NamedByEvents (recordJson (observe M s)) (M.executeInstr s).callbacks := by
  obtain ⟨hgpr, hfpr, hvreg, hmem, hreads⟩ := lookup_sections (observe M s)
  refine ⟨?_, ?_, ?_, ?_, ?_⟩
  · refine (sectionNames_of_lookup hgpr).trans ?_
    exact List.map_map
  · refine (sectionNames_of_lookup hfpr).trans ?_
    exact List.map_map
  · exact sectionNames_of_lookup hvreg
  · exact sectionNames_of_lookup hmem
  · exact sectionNames_of_lookup hreads

/-! ## What is written -/

section Written

variable {σ : Type} {M : Model σ}

/-- Retiring an instruction in `w` adds one line to the log, with the record. -/
def WritesRecord (M : Model σ) (w : World σ) (record : Json) : Prop :=
  ∃ t line status w', w.logger.os = some t ∧ retireInstr M w = .ok status w' ∧
    w'.logger.os = some (t ++ ("    ".toList ++ (line ++ ",\n".toList))) ∧
    parse line = some record

theorem os_retired {w : World σ} {t : Text} (hopen : w.logger.os = some t) (r : InstrRecord) :
    (World.written { executed M w with logger := retiring M (executed M w) }
      (recordLine r)).logger.os = some (t ++ recordLine r) := by
  show ((executed M w).logger.os).map _ = _
  rw [os_executed, hopen]
  rfl

theorem parse_recordText (r : InstrRecord) : parse (recordText r) = some (recordJson r) := by
  have hrun := (spells_recordText r).run []
  unfold parse
  rw [hrun]
  rfl

theorem writesRecord_observe {w : World σ} {t : Text} (hopen : w.logger.os = some t)
    (h : InstrReadable M w.model) : WritesRecord M w (recordJson (observe M w.model)) :=
  ⟨t, recordText (observe M w.model), _, _, hopen, retireInstr_ok hopen h,
    os_retired hopen (observe M w.model), parse_recordText _⟩

/-- The record that is written is that of the instruction. -/
theorem WritesRecord.eq {w : World σ} {record : Json} (h : WritesRecord M w record) :
    record = recordJson (observe M w.model) := by
  obtain ⟨t, line, status, w', hopen, hretire, hline, hparse⟩ := h
  by_cases hread : InstrReadable M w.model
  · rw [retireInstr_ok hopen hread] at hretire
    cases hretire
    rw [os_retired hopen] at hline
    have htail := List.append_cancel_left (Option.some.inj hline)
    have hrec : recordText (observe M w.model) = line :=
      List.append_cancel_right (List.append_cancel_left htail)
    rw [← hrec, parse_recordText] at hparse
    exact (Option.some.inj hparse).symm
  · obtain ⟨e, w₁, herror, -⟩ := retireInstr_error hopen hread
    rw [herror] at hretire
    cases hretire

/-- **The members of every object are named after the callbacks, in order.** So
the names are distinct exactly when no register and no address is reported
twice, and a register that is repeated has one value. -/
theorem writesRecord_names {w : World σ} {record : Json} (h : WritesRecord M w record) :
    NamedByEvents record (M.executeInstr w.model).callbacks ∧
      (DistinctNames record ↔ DistinctEvents (M.executeInstr w.model).callbacks) ∧
      RepeatsAgree (sectionEntries record "gpr".toList) ∧
      RepeatsAgree (sectionEntries record "fpr".toList) := by
  have hnamed := namedByEvents_observe M w.model
  obtain ⟨hgpr, hfpr, -⟩ := lookup_sections (observe M w.model)
  rw [h.eq]
  refine ⟨hnamed, hnamed.distinct_iff, ?_, ?_⟩
  · unfold recordJson
    rw [sectionEntries_of_lookup hgpr]
    exact repeatsAgree_registers 'x' _ _
  · unfold recordJson
    rw [sectionEntries_of_lookup hfpr]
    exact repeatsAgree_registers 'f' _ _

/-- A model whose instruction reports a register and an address twice. -/
def repeatingModel (reg : Fin 32) : Model Unit where
  executeInstr _ := ⟨.SUCCESS, [.xRegUpdate reg 1, .memUpdate 0x1000 [1], .xRegUpdate reg 2,
    .memUpdate 0x1000 [2], .fRegUpdate reg 1], ()⟩
  readPC _ := 0
  readXReg _ _ := (.SUCCESS, 2)
  readFReg _ _ := (.SUCCESS, 1)
  readCSR _ _ := (.SUCCESS, 0)

theorem writesRecord_names_repeating :
    let record := recordJson (observe (repeatingModel 5) ())
    let cbs := ((repeatingModel 5).executeInstr ()).callbacks
    ¬ DistinctEvents cbs ∧ NamedByEvents record cbs ∧
      (DistinctNames record ↔ DistinctEvents cbs) ∧
      RepeatsAgree (sectionEntries record "gpr".toList) ∧
      RepeatsAgree (sectionEntries record "fpr".toList) :=
  ⟨fun h => absurd h.gpr (by decide),
    writesRecord_names (w := ⟨(), freshLog⟩)
      (writesRecord_observe rfl ⟨rfl, rfl, fun _ _ => rfl, fun _ _ => rfl⟩)⟩

/-- A model whose instruction stores to one address twice. -/
def doubleStoreModel : Model Unit where
  executeInstr _ := ⟨.SUCCESS, [.memUpdate 0x1000 [1], .memUpdate 0x1000 [2]], ()⟩
  readPC _ := 0
  readXReg _ _ := (.SUCCESS, 0)
  readFReg _ _ := (.SUCCESS, 0)
  readCSR _ _ := (.SUCCESS, 0)

/-- Both stores are members of one name. -/
theorem writesRecord_repeats_name :
    ¬ ∀ (M : Model Unit) (w : World Unit) (record : Json), WritesRecord M w record →
      DistinctNames record := by
  intro h
  have hread : InstrReadable doubleStoreModel () := ⟨rfl, rfl, fun _ _ => rfl, fun _ _ => rfl⟩
  have hwrites : WritesRecord doubleStoreModel ⟨(), freshLog⟩
      (recordJson (observe doubleStoreModel ())) := writesRecord_observe rfl hread
  have hdistinct := (namedByEvents_observe doubleStoreModel ()).distinct_iff.mp (h _ _ _ hwrites)
  exact absurd hdistinct.mem (by decide)

end Written

end Rvmi.Log
