import Rvmi.Log.Logger

/-!
# Records of a log

What a log says about one instruction, the JSON object that says it, and a
reader for that object which takes the members of an object in textual order.
`decodeRecord_recordJson` is the round trip; `spells_recordText` says that the
text of a record spells its object wherever a value may stand.
-/

namespace Rvmi.Log

open Rvmi.Foundation Json

/-- One instruction, as a log presents it. -/
structure InstrRecord where
  pcBefore : UInt64
  pcAfter : UInt64
  gpr : List (RVMXReg × RVMRegT)
  fpr : List (RVMFReg × RVMRegT)
  vreg : List VectorRegUpdateType
  mem : List MemStateType
  memReads : List MemStateType
  /-- The new value, when it changed. -/
  fcsr : Option RVMRegT
deriving DecidableEq, Repr

/-! ## Members -/

def wordMember (key : Text) (v : UInt64) : Member :=
  ⟨key, quoted (tohs v), .str (tohs v)⟩

def byteText (b : UInt8) : Text := tohs b.toUInt64 2

def bytesMember (key : Text) (data : List UInt8) : Member :=
  ⟨key, '[' :: (comma.intercalate (data.map fun b => quoted (byteText b)) ++ [']']),
    .arr (data.map fun b => .str (byteText b))⟩

def registerMember (letter : Char) (update : Fin 32 × RVMRegT) : Member :=
  wordMember (registerName letter update.1) update.2

def vregMember (update : VectorRegUpdateType) : Member :=
  bytesMember (registerName 'v' update.regIndex) update.data

def memMember (state : MemStateType) : Member := bytesMember (tohs state.addr) state.data

def objectMember (key : Text) (ms : List Member) : Member :=
  ⟨key, '\x7b' :: (comma.intercalate (ms.map Member.spelled) ++ ['\x7d']),
    .obj (ms.map Member.entry)⟩

/-- A section that is left out when it has no members. -/
def sectionMembers (key : Text) (ms : List Member) : List Member :=
  if ms.isEmpty then [] else [objectMember key ms]

/-- Everything behind the program counters. -/
def optionalMembers (r : InstrRecord) : List Member :=
  sectionMembers "gpr".toList (r.gpr.map (registerMember 'x')) ++
    sectionMembers "fpr".toList (r.fpr.map (registerMember 'f')) ++
    sectionMembers "vreg".toList (r.vreg.map vregMember) ++
    sectionMembers "mem".toList (r.mem.map memMember) ++
    sectionMembers "mem_reads".toList (r.memReads.map memMember) ++
    r.fcsr.toList.map (wordMember "fcsr".toList)

def recordMembers (r : InstrRecord) : List Member :=
  wordMember "pc_before".toList r.pcBefore :: wordMember "pc_after".toList r.pcAfter ::
    optionalMembers r

def recordText (r : InstrRecord) : Text :=
  '\x7b' :: (" ".toList ++
    (comma.intercalate ((recordMembers r).map Member.spelled) ++ (" ".toList ++ ['\x7d'])))

def recordJson (r : InstrRecord) : Json := .obj ((recordMembers r).map Member.entry)

/-! ## Well-formedness -/

theorem plain_registerName {letter : Char} (hletter : isPlain letter = true) (reg : Fin 32) :
    Plain (registerName letter reg) := by
  intro c hc
  rcases List.mem_cons.mp hc with rfl | hc
  · exact hletter
  · exact isPlain_of_isDigit (isDigit_decDigits reg.val c hc)

theorem good_wordMember {key : Text} (hkey : Plain key) (v : UInt64) :
    (wordMember key v).Good :=
  ⟨hkey, spells_quoted (plain_tohs v 16)⟩

theorem good_bytesMember {key : Text} (hkey : Plain key) (data : List UInt8) :
    (bytesMember key data).Good := by
  refine ⟨hkey, ?_⟩
  have hspell : ∀ p ∈ data.map (fun b => (quoted (byteText b), Json.str (byteText b))),
      Spells p.1 p.2 := by
    intro p hp
    obtain ⟨b, -, rfl⟩ := List.mem_map.mp hp
    exact spells_quoted (plain_tohs b.toUInt64 2)
  simpa [bytesMember, Function.comp_def] using spells_array hspell

theorem good_objectMember {key : Text} (hkey : Plain key) {ms : List Member}
    (hms : ∀ m ∈ ms, m.Good) : (objectMember key ms).Good :=
  ⟨hkey, spells_object hms⟩

theorem good_sectionMembers {α : Type} {key : Text} (hkey : Plain key) {f : α → Member}
    (hf : ∀ a, (f a).Good) (list : List α) :
    ∀ m ∈ sectionMembers key (list.map f), m.Good := by
  have hms : ∀ m ∈ list.map f, m.Good := by
    intro m hm
    rcases List.mem_map.mp hm with ⟨a, -, rfl⟩
    exact hf a
  intro m hm
  unfold sectionMembers at hm
  split at hm
  · cases hm
  · rw [List.mem_singleton.mp hm]
    exact good_objectMember hkey hms

theorem good_recordMembers (r : InstrRecord) : ∀ m ∈ recordMembers r, m.Good := by
  have hx : ∀ u, (registerMember 'x' u).Good := fun u =>
    good_wordMember (plain_registerName (by decide) u.1) u.2
  have hf : ∀ u, (registerMember 'f' u).Good := fun u =>
    good_wordMember (plain_registerName (by decide) u.1) u.2
  have hv : ∀ u, (vregMember u).Good := fun u =>
    good_bytesMember (plain_registerName (by decide) u.regIndex) u.data
  have hm : ∀ u, (memMember u).Good := fun u => good_bytesMember (plain_tohs u.addr 16) u.data
  intro m hmem
  unfold recordMembers optionalMembers at hmem
  simp only [List.mem_cons, List.mem_append] at hmem
  rcases hmem with rfl | rfl | ((((hmem | hmem) | hmem) | hmem) | hmem) | hmem
  · exact good_wordMember (by decide) r.pcBefore
  · exact good_wordMember (by decide) r.pcAfter
  · exact good_sectionMembers (by decide) hx r.gpr m hmem
  · exact good_sectionMembers (by decide) hf r.fpr m hmem
  · exact good_sectionMembers (by decide) hv r.vreg m hmem
  · exact good_sectionMembers (by decide) hm r.mem m hmem
  · exact good_sectionMembers (by decide) hm r.memReads m hmem
  · rcases List.mem_map.mp hmem with ⟨v, -, rfl⟩
    exact good_wordMember (by decide) v

theorem isSpace_pad : ∀ c ∈ " ".toList, isSpace c = true := by
  intro c hc
  rw [List.mem_singleton.mp hc]
  rfl

/-- The text of a record spells its object. -/
theorem spells_recordText (r : InstrRecord) : Spells (recordText r) (recordJson r) :=
  spells_padded (good_recordMembers r) isSpace_pad

/-! ## Reading a record -/

def decodeWord : Json → Option UInt64
  | .str t => (readHex t).map UInt64.ofNat
  | _ => none

def decodeByte : Json → Option UInt8
  | .str t => (readHex t).map UInt8.ofNat
  | _ => none

def decodeBytes : Json → Option (List UInt8)
  | .arr items => items.mapM decodeByte
  | _ => none

def decodeRegister (letter : Char) : Text → Option (Fin 32)
  | [] => none
  | c :: digits =>
      let n := decimalValue digits
      if h : n < 32 then
        if c = letter ∧ digits.all Char.isDigit then some ⟨n, h⟩ else none
      else none

def decodeUpdate (letter : Char) (entry : Text × Json) : Option (Fin 32 × RVMRegT) := do
  return (← decodeRegister letter entry.1, ← decodeWord entry.2)

def decodeVReg (entry : Text × Json) : Option VectorRegUpdateType := do
  return ⟨← decodeRegister 'v' entry.1, ← decodeBytes entry.2⟩

def decodeMem (entry : Text × Json) : Option MemStateType := do
  return ⟨UInt64.ofNat (← readHex entry.1), ← decodeBytes entry.2⟩

/-- The members of a section in textual order; a section that is absent has none. -/
def decodeSection {α : Type} (members : List (Text × Json)) (key : Text)
    (decode : Text × Json → Option α) : Option (List α) :=
  match members.lookup key with
  | none => some []
  | some (.obj entries) => entries.mapM decode
  | some _ => none

/-- A member that may be absent. -/
def decodeOptionalWord (members : List (Text × Json)) (key : Text) : Option (Option UInt64) :=
  match members.lookup key with
  | none => some none
  | some v => (decodeWord v).map some

def decodeRecord : Json → Option InstrRecord
  | .obj members => do
      return {
        pcBefore := ← (members.lookup "pc_before".toList).bind decodeWord
        pcAfter := ← (members.lookup "pc_after".toList).bind decodeWord
        gpr := ← decodeSection members "gpr".toList (decodeUpdate 'x')
        fpr := ← decodeSection members "fpr".toList (decodeUpdate 'f')
        vreg := ← decodeSection members "vreg".toList decodeVReg
        mem := ← decodeSection members "mem".toList decodeMem
        memReads := ← decodeSection members "mem_reads".toList decodeMem
        fcsr := ← decodeOptionalWord members "fcsr".toList }
  | _ => none

/-! ## The round trip -/

theorem decodeWord_tohs (v : UInt64) : decodeWord (.str (tohs v)) = some v := by
  unfold decodeWord
  simp [readHex_tohs]

theorem decodeByte_byteText (b : UInt8) : decodeByte (.str (byteText b)) = some b := by
  unfold decodeByte byteText
  simp [readHex_tohs]

theorem decodeBytes_bytesMember (key : Text) (data : List UInt8) :
    decodeBytes (bytesMember key data).value = some data :=
  mapM_map_some decodeByte_byteText data

theorem decodeRegister_registerName (letter : Char) (reg : Fin 32) :
    decodeRegister letter (registerName letter reg) = some reg := by
  have hdigits : (decDigits reg.val).all Char.isDigit = true :=
    List.all_eq_true.mpr (isDigit_decDigits reg.val)
  simp [decodeRegister, registerName, decimalValue_decDigits, hdigits]

theorem decodeUpdate_registerMember (letter : Char) (update : Fin 32 × RVMRegT) :
    decodeUpdate letter (registerMember letter update).entry = some update := by
  simp [decodeUpdate, registerMember, wordMember, Member.entry, decodeRegister_registerName,
    decodeWord_tohs]

theorem decodeVReg_vregMember (update : VectorRegUpdateType) :
    decodeVReg (vregMember update).entry = some update := by
  have hbytes := decodeBytes_bytesMember (registerName 'v' update.regIndex) update.data
  have hreg := decodeRegister_registerName 'v' update.regIndex
  unfold decodeVReg Member.entry vregMember
  rw [hbytes]
  show (do let r ← decodeRegister 'v' (registerName 'v' update.regIndex); _) = _
  rw [hreg]
  rfl

theorem decodeMem_memMember (state : MemStateType) :
    decodeMem (memMember state).entry = some state := by
  have hbytes := decodeBytes_bytesMember (tohs state.addr) state.data
  have haddr := readHex_tohs state.addr 16
  unfold decodeMem Member.entry memMember
  rw [hbytes]
  show (do let n ← readHex (tohs state.addr); _) = _
  rw [haddr]
  simp

/-- The entry a section leaves in the record. -/
def sectionValue (ms : List Member) : Option Json :=
  if ms.isEmpty then none else some (.obj (ms.map Member.entry))

theorem lookup_sectionMembers (k key : Text) (ms : List Member) :
    ((sectionMembers key ms).map Member.entry).lookup k =
      if k = key then sectionValue ms else none := by
  unfold sectionMembers sectionValue
  cases ms with
  | nil => simp
  | cons m ms =>
      by_cases hk : k = key
      · subst hk
        simp [Member.entry, objectMember]
      · have hne : (k == key) = false := beq_false_of_ne hk
        simp [Member.entry, objectMember, List.lookup_cons, hne, hk]

theorem decodeSection_of_lookup {α : Type} {members : List (Text × Json)} {key : Text}
    {encode : α → Member} {decode : Text × Json → Option α}
    (hdecode : ∀ a, decode (encode a).entry = some a) {list : List α}
    (hlookup : members.lookup key = sectionValue (list.map encode)) :
    decodeSection members key decode = some list := by
  unfold decodeSection
  rw [hlookup]
  cases list with
  | nil => rfl
  | cons a list =>
      show (((a :: list).map encode).map Member.entry).mapM decode = _
      rw [List.map_map]
      exact mapM_map_some hdecode (a :: list)

/-- The key of a section is looked up in the sections alone. -/
theorem lookup_recordMembers (r : InstrRecord) {k : Text}
    (hbefore : k ≠ "pc_before".toList) (hafter : k ≠ "pc_after".toList) :
    ((recordMembers r).map Member.entry).lookup k =
      ((optionalMembers r).map Member.entry).lookup k := by
  have hb : (k == "pc_before".toList) = false := beq_false_of_ne hbefore
  have ha : (k == "pc_after".toList) = false := beq_false_of_ne hafter
  unfold recordMembers
  rw [List.map_cons, List.map_cons]
  simp only [Member.entry, wordMember, List.lookup_cons, hb, ha]

theorem lookup_optionalMembers (r : InstrRecord) (k : Text) :
    ((optionalMembers r).map Member.entry).lookup k =
      (((((if k = "gpr".toList then sectionValue (r.gpr.map (registerMember 'x')) else none).or
        (if k = "fpr".toList then sectionValue (r.fpr.map (registerMember 'f')) else none)).or
        (if k = "vreg".toList then sectionValue (r.vreg.map vregMember) else none)).or
        (if k = "mem".toList then sectionValue (r.mem.map memMember) else none)).or
        (if k = "mem_reads".toList then sectionValue (r.memReads.map memMember) else none)).or
        (if k = "fcsr".toList then r.fcsr.map fun v => .str (tohs v) else none) := by
  unfold optionalMembers
  simp only [List.map_append, List.lookup_append, lookup_sectionMembers]
  congr 1
  cases r.fcsr with
  | none => simp
  | some v =>
      by_cases hk : k = "fcsr".toList
      · subst hk
        simp [Member.entry, wordMember]
      · have hne : (k == "fcsr".toList) = false := beq_false_of_ne hk
        simp only [Option.toList_some, List.map_cons, List.map_nil, Member.entry, wordMember,
          List.lookup_cons, hne, if_neg hk, List.lookup_nil]

/-- Every section stands under its own key. -/
theorem lookup_sections (r : InstrRecord) :
    let members := (recordMembers r).map Member.entry
    members.lookup "gpr".toList = sectionValue (r.gpr.map (registerMember 'x')) ∧
      members.lookup "fpr".toList = sectionValue (r.fpr.map (registerMember 'f')) ∧
      members.lookup "vreg".toList = sectionValue (r.vreg.map vregMember) ∧
      members.lookup "mem".toList = sectionValue (r.mem.map memMember) ∧
      members.lookup "mem_reads".toList = sectionValue (r.memReads.map memMember) := by
  have hlookup : ∀ k : Text, k ≠ "pc_before".toList → k ≠ "pc_after".toList →
      ((recordMembers r).map Member.entry).lookup k = _ := fun k hb ha =>
    (lookup_recordMembers r hb ha).trans (lookup_optionalMembers r k)
  refine ⟨?_, ?_, ?_, ?_, ?_⟩
  all_goals
    rw [hlookup _ (by decide) (by decide)]
    simp +decide

/-- Reading the object of a record gives the record. -/
theorem decodeRecord_recordJson (r : InstrRecord) :
    decodeRecord (recordJson r) = some r := by
  have hpcBefore : ((recordMembers r).map Member.entry).lookup "pc_before".toList =
      some (.str (tohs r.pcBefore)) := rfl
  have hpcAfter : ((recordMembers r).map Member.entry).lookup "pc_after".toList =
      some (.str (tohs r.pcAfter)) := rfl
  obtain ⟨hgpr, hfpr, hvreg, hmem, hreads⟩ := lookup_sections r
  have hfcsr : decodeOptionalWord ((recordMembers r).map Member.entry) "fcsr".toList =
      some r.fcsr := by
    unfold decodeOptionalWord
    rw [lookup_recordMembers r (by decide) (by decide), lookup_optionalMembers]
    cases r.fcsr with
    | none => simp +decide
    | some v => simp +decide [decodeWord_tohs]
  unfold decodeRecord recordJson
  simp only [hpcBefore, hpcAfter, hfcsr, Option.bind_some, decodeWord_tohs,
    decodeSection_of_lookup (decodeUpdate_registerMember 'x') hgpr,
    decodeSection_of_lookup (decodeUpdate_registerMember 'f') hfpr,
    decodeSection_of_lookup decodeVReg_vregMember hvreg,
    decodeSection_of_lookup decodeMem_memMember hmem,
    decodeSection_of_lookup decodeMem_memMember hreads]
  rfl

end Rvmi.Log
