import Rvmi.Foundation.Text
import Rvmi.Isa.Normalize

/-!
# `create_isa_string`

The printer of `RVM.hpp` and, above it, the string it is meant to produce: the
bitness, the letters and the multi-letter names of a set of flags in table
order. `createIsaString_eq_canonical` says which set a descriptor is printed
as: its normalised flags below the size fields, without the reserved letters
and without the extensions that are passed out of band.
-/

namespace Rvmi.Isa

open Rvmi.Foundation RVMExtDescriptor

/-! ## The function -/

/-- `RVM_ADD_MISA_STRING_CASE(Name, name)` -/
def addMisaStringCase (ext : RVMExtDescriptor) (os : Text)
    (entry : RVMMisaExt × Char) : Text :=
  if ext.misaExt entry.1 ≠ 0 then os ++ [entry.2] else os

def addMisa (os : Text) (ext : RVMExtDescriptor) : Text :=
  forEachMisaExt.foldl (addMisaStringCase ext) os

/-- The three `RVM_RVM_ADD_*EXT_BITS_STRING_CASE` macros: the index is compared
with the size field before the entry is read. -/
def addExtBitsStringCase {κ : Type} (flag : κ → ExtFlag) (lead : String)
    (ext : RVMExtDescriptor) (os : Text) (entry : κ × String) : Text :=
  if ext.InRange (flag entry.1) ∧ ext.get (flag entry.1) ≠ 0 then
    os ++ lead.toList ++ entry.2.toList
  else os

def addStandardExtensions (os : Text) (ext : RVMExtDescriptor) : Text :=
  forEachZext.foldl (addExtBitsStringCase .zext "_Z" ext) os

def addPrivilegedExtensions (os : Text) (ext : RVMExtDescriptor) : Text :=
  forEachSext.foldl (addExtBitsStringCase .sext "_S" ext) os

def addCustomExtensions (os : Text) (ext : RVMExtDescriptor) : Text :=
  forEachXext.foldl (addExtBitsStringCase .xext "_X" ext) os

/-- Letters "reserved for use in the isa string". -/
def reservedLetters : List ExtFlag := [.misa .S, .misa .X, .misa .Z]

/-- "MMU-related extensions are never really included in the isa-string". -/
def outOfBand : List ExtFlag :=
  [.sext .VBARE, .sext .V32, .sext .V39, .sext .V48, .sext .V57,
    .sext .VRSW60T59B]

def clearAll (ext : RVMExtDescriptor) (fs : List ExtFlag) : RVMExtDescriptor :=
  fs.foldl (fun ext f => ext.set f 0) ext

/-- What happens to the streamed text: everything before the first underscore
is capitalised, and that underscore is erased. -/
def finishIsaString (isa : Text) (lowercase : Bool) : Text :=
  let firstUnderscore := (isa.findIdx? fun c => decide (c = '_')).getD isa.length
  let isa := (isa.take firstUnderscore).map Char.toUpper ++ isa.drop firstUnderscore
  let isa := if firstUnderscore ≠ isa.length then isa.eraseIdx firstUnderscore else isa
  if lowercase then isa.map Char.toLower else isa

/-- The three assertions at the start of the function. -/
def SizesFit (ext : RVMExtDescriptor) : Prop :=
  ext.zExtSize ≤ rvmZextMax ∧ ext.xExtSize ≤ rvmXextMax ∧ ext.sExtSize ≤ rvmSextMax

/-- The function behind its assertions (`SizesFit`). -/
def createIsaString (ext : RVMExtDescriptor) (rv64 : Bool)
    (lowercase : Bool := false) : Text :=
  let norm := normalizeExtensions ext rv64
  let ss := if rv64 then "RV64".toList else "RV32".toList
  let norm := clearAll norm reservedLetters
  let ss := addMisa ss norm
  let ss := addStandardExtensions ss norm
  let norm := clearAll norm outOfBand
  let ss := addPrivilegedExtensions ss norm
  let isa := addCustomExtensions ss norm
  finishIsaString isa lowercase

/-! ## The canonical string of a set of flags -/

/-- Every multi-letter extension with the name the printer gives it. -/
def multiLetterNames : List (ExtFlag × Text) :=
  forEachZext.map (fun p => (.zext p.1, 'Z' :: p.2.toList)) ++
    forEachSext.map (fun p => (.sext p.1, 'S' :: p.2.toList)) ++
    forEachXext.map (fun p => (.xext p.1, 'X' :: p.2.toList))

open Classical in
noncomputable def lettersOf (S : Set ExtFlag) : Text :=
  (forEachMisaExt.filter fun p => decide (.misa p.1 ∈ S)).map Prod.snd

open Classical in
noncomputable def namesOf (S : Set ExtFlag) : List Text :=
  (multiLetterNames.filter fun p => decide (p.1 ∈ S)).map Prod.snd

def isaHead (rv64 : Bool) : Text := if rv64 then "RV64".toList else "RV32".toList

/-- The canonical ISA string of a set: letters, then names in table order,
with underscores only between names. -/
noncomputable def canonicalIsaString (S : Set ExtFlag) (rv64 lowercase : Bool) : Text :=
  let isa := isaHead rv64 ++ (lettersOf S).map Char.toUpper ++ ['_'].intercalate (namesOf S)
  if lowercase then isa.map Char.toLower else isa

/-- The flags a descriptor is printed with. -/
def shown (d : RVMExtDescriptor) (rv64 : Bool) : Set ExtFlag :=
  {f | (normalizeExtensions d rv64).get f ≠ 0 ∧ d.InRange f ∧
    f ∉ reservedLetters ∧ f ∉ outOfBand}

/-! ## The loops over the tables -/

theorem get_clearAll (d : RVMExtDescriptor) (fs : List ExtFlag) (f : ExtFlag) :
    (clearAll d fs).get f = if f ∈ fs then 0 else d.get f := by
  induction fs generalizing d with
  | nil => simp [clearAll]
  | cons g fs ih =>
      have hcons : clearAll d (g :: fs) = clearAll (d.set g 0) fs := rfl
      rw [hcons, ih, get_set]
      by_cases hf : f ∈ fs
      · simp [hf]
      · simp [hf]

theorem sameSizes_clearAll (d : RVMExtDescriptor) (fs : List ExtFlag) :
    SameSizes (clearAll d fs) d := by
  induction fs generalizing d with
  | nil => exact ⟨rfl, rfl, rfl⟩
  | cons f fs ih => exact (ih (d.set f 0)).trans (sameSizes_set d f 0)

theorem addMisa_eq {d : RVMExtDescriptor} {S : Set ExtFlag}
    (h : ∀ e, d.get (.misa e) ≠ 0 ↔ .misa e ∈ S) (os : Text) :
    addMisa os d = os ++ lettersOf S := by
  classical
  have hstep : ∀ os p, addMisaStringCase d os p =
      if decide (ExtFlag.misa p.1 ∈ S) = true then os ++ [p.2] else os := by
    intro os p
    have hp : (d.misaExt p.1 ≠ 0) = (ExtFlag.misa p.1 ∈ S) := propext (h p.1)
    unfold addMisaStringCase
    simp only [hp, decide_eq_true_eq]
  unfold addMisa lettersOf
  rw [foldl_append_if hstep, List.map_eq_flatMap]

open Classical in
/-- The part of the multi-letter names that one table contributes. -/
theorem foldl_addExtBitsStringCase {κ : Type} {flag : κ → ExtFlag} {lead : String}
    (capital : Char) (hlead : lead.toList = ['_', capital]) {d : RVMExtDescriptor}
    {S : Set ExtFlag} (table : List (κ × String))
    (h : ∀ k, d.InRange (flag k) ∧ d.get (flag k) ≠ 0 ↔ flag k ∈ S) (os : Text) :
    table.foldl (addExtBitsStringCase flag lead d) os =
      os ++ (((table.map fun p => (flag p.1, capital :: p.2.toList)).filter
        fun p => decide (p.1 ∈ S)).map Prod.snd).flatMap (fun t => '_' :: t) := by
  have hstep : ∀ os p, addExtBitsStringCase flag lead d os p =
      if decide (flag p.1 ∈ S) = true then os ++ '_' :: capital :: p.2.toList else os := by
    intro os p
    unfold addExtBitsStringCase
    simp only [propext (h p.1), hlead, decide_eq_true_eq]
    simp
  rw [foldl_append_if hstep, List.filter_map, List.map_map, List.flatMap_map]
  rfl

/-! ## Capitals and the first underscore -/

theorem underscore_not_mem_lettersOf (S : Set ExtFlag) : '_' ∉ lettersOf S := by
  intro h
  rcases List.mem_map.mp h with ⟨p, hp, hc⟩
  have hno : ∀ p ∈ forEachMisaExt, p.2 ≠ '_' := by decide
  exact hno p (List.mem_of_mem_filter hp) hc

theorem finishIsaString_eq {hd : Text} (hhd : '_' ∉ hd) (names : List Text)
    (lowercase : Bool) :
    finishIsaString (hd ++ names.flatMap (fun t => '_' :: t)) lowercase =
      if lowercase then (hd.map Char.toUpper ++ ['_'].intercalate names).map Char.toLower
      else hd.map Char.toUpper ++ ['_'].intercalate names := by
  have hno : hd.findIdx? (fun c => decide (c = '_')) = none := by
    rw [List.findIdx?_eq_none_iff]
    intro c hc
    simp only [decide_eq_false_iff_not]
    rintro rfl
    exact hhd hc
  unfold finishIsaString
  by_cases hnames : names = []
  · subst hnames
    simp [hno]
  · rw [flatMap_cons_eq '_' hnames]
    have hidx : (hd ++ '_' :: ['_'].intercalate names).findIdx?
        (fun c => decide (c = '_')) = some hd.length := by
      simp [List.findIdx?_append, hno, List.findIdx?_cons]
    have hlen : (hd.map Char.toUpper).length = hd.length := List.length_map _
    have herase : (hd.map Char.toUpper ++ '_' :: ['_'].intercalate names).eraseIdx
        hd.length = hd.map Char.toUpper ++ ['_'].intercalate names := by
      rw [List.eraseIdx_append_of_length_le (Nat.le_of_eq hlen), hlen, Nat.sub_self]
      rfl
    simp [hidx, herase]

/-- Clearing the flags that are not printed leaves those that are. -/
theorem mem_shown_iff (d : RVMExtDescriptor) (rv64 : Bool) (f : ExtFlag) :
    (clearAll (clearAll (normalizeExtensions d rv64) reservedLetters) outOfBand).InRange f ∧
        (clearAll (clearAll (normalizeExtensions d rv64) reservedLetters) outOfBand).get f ≠ 0 ↔
      f ∈ shown d rv64 := by
  have hsizes : SameSizes
      (clearAll (clearAll (normalizeExtensions d rv64) reservedLetters) outOfBand) d :=
    ((sameSizes_clearAll _ _).trans (sameSizes_clearAll _ _)).trans
      (sameSizes_normalizeExtensions d rv64)
  rw [hsizes.inRange_iff, get_clearAll, get_clearAll]
  unfold shown
  by_cases hs : f ∈ outOfBand
  · simp [hs]
  · by_cases hm : f ∈ reservedLetters
    · simp [hs, hm]
    · simp [hs, hm, and_comm]

/-- Letters and unprivileged names are streamed before the out-of-band flags
are cleared, which makes no difference to them. -/
theorem mem_shown_iff_of_not_outOfBand (d : RVMExtDescriptor) (rv64 : Bool)
    {f : ExtFlag} (hf : f ∉ outOfBand) :
    (clearAll (normalizeExtensions d rv64) reservedLetters).InRange f ∧
        (clearAll (normalizeExtensions d rv64) reservedLetters).get f ≠ 0 ↔
      f ∈ shown d rv64 := by
  rw [← mem_shown_iff, (sameSizes_clearAll _ outOfBand).inRange_iff,
    get_clearAll _ outOfBand, if_neg hf]

theorem misa_not_outOfBand (e : RVMMisaExt) : ExtFlag.misa e ∉ outOfBand := by
  simp [outOfBand, ExtFlag.sext]

theorem zext_not_outOfBand (e : RVMZExt) : ExtFlag.zext e ∉ outOfBand := by
  simp [outOfBand, ExtFlag.sext, ExtFlag.zext]

/-- **The printer prints the canonical string.** -/
theorem createIsaString_eq_canonical (d : RVMExtDescriptor) (rv64 lowercase : Bool) :
    createIsaString d rv64 lowercase =
      canonicalIsaString (shown d rv64) rv64 lowercase := by
  have hmisa : ∀ e, (clearAll (normalizeExtensions d rv64) reservedLetters).get (.misa e) ≠ 0 ↔
      .misa e ∈ shown d rv64 := by
    intro e
    rw [← mem_shown_iff_of_not_outOfBand d rv64 (misa_not_outOfBand e)]
    exact ⟨fun h => ⟨trivial, h⟩, fun h => h.2⟩
  have hz := fun e => mem_shown_iff_of_not_outOfBand d rv64 (zext_not_outOfBand e)
  have hhead : '_' ∉ isaHead rv64 ++ lettersOf (shown d rv64) := by
    rw [List.mem_append]
    rintro (h | h)
    · cases rv64 <;> simp [isaHead] at h
    · exact underscore_not_mem_lettersOf _ h
  have hnames : ∀ os, addCustomExtensions (addPrivilegedExtensions (addStandardExtensions os
        (clearAll (normalizeExtensions d rv64) reservedLetters))
        (clearAll (clearAll (normalizeExtensions d rv64) reservedLetters) outOfBand))
        (clearAll (clearAll (normalizeExtensions d rv64) reservedLetters) outOfBand) =
      os ++ (namesOf (shown d rv64)).flatMap (fun t => '_' :: t) := by
    intro os
    unfold addCustomExtensions addPrivilegedExtensions addStandardExtensions namesOf
      multiLetterNames
    rw [foldl_addExtBitsStringCase 'X' rfl forEachXext fun k => mem_shown_iff d rv64 (.xext k),
      foldl_addExtBitsStringCase 'S' rfl forEachSext fun k => mem_shown_iff d rv64 (.sext k),
      foldl_addExtBitsStringCase 'Z' rfl forEachZext hz]
    simp only [List.filter_append, List.map_append, List.flatMap_append, List.append_assoc]
  have hcapital : (isaHead rv64 ++ lettersOf (shown d rv64)).map Char.toUpper =
      isaHead rv64 ++ (lettersOf (shown d rv64)).map Char.toUpper := by
    rw [List.map_append]
    cases rv64 <;> rfl
  unfold createIsaString canonicalIsaString
  dsimp only
  rw [hnames, addMisa_eq hmisa]
  show finishIsaString (isaHead rv64 ++ lettersOf (shown d rv64) ++ _) lowercase = _
  rw [finishIsaString_eq hhead, hcapital]

example : createIsaString ((rvmInitExtDescriptor.set (.misa .I) 1).set (.zext .K) 1) true =
    "RV64IZkr_Zkn_Zkt".toList := by decide +kernel

end Rvmi.Isa
