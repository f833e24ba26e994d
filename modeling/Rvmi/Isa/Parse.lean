import Rvmi.Isa.Normalize
import Rvmi.Isa.StringView

/-!
# `parse_isa_string`

The parser of `DriverUtils.hpp` and the helpers it calls, failure by failure.
It reads the bitness as the longest digit run behind `rv`, the single letters
up to the first of `_`, `z`, `x` and `s`, and the rest as names separated by
underscores; the descriptor it collects is normalised before it is returned.
-/

namespace Rvmi.Isa

open Rvmi.Foundation RVMExtDescriptor

/-- Throws `std::invalid_argument`; the message is the error. -/
def parseIsaBitness (str : Text) : Except Text Nat :=
  match fromChars str with
  | .error .invalidArgument => .error "string should contain bitness".toList
  | .error .resultOutOfRange => .error "bitness is too large".toList
  | .ok res =>
      if res ≠ 32 ∧ res ≠ 64 then
        .error "only 32 and 64-bit architectures are supported".toList
      else .ok res

/-! ## `split_extensions` -/

def splitLoop (isa : Text) (current : Nat) (extensions : List Text) :
    Parse (List Text) :=
  match _h : find isa '_' (current + 1) with
  | none => do
      let last ← substr isa current none
      return extensions ++ [last]
  | some nextUnderscore => do
      let e ← substr isa current (some (nextUnderscore - current))
      splitLoop isa (nextUnderscore + 1) (extensions ++ [e])
termination_by isa.length - current
decreasing_by
  have := find_bounds _h
  omega

def splitExtensions (isa : Text) : Parse (List Text) := do
  let c ← front isa
  splitLoop isa (if c = '_' then 1 else 0) []

/-! ## Single letters -/

/-- `std::find(&Ext.MisaExt[NAME], end, 1) != end` -/
def setAtOrAfter (ext : RVMExtDescriptor) (name : RVMMisaExt) : Bool :=
  forEachMisaExt.any fun p =>
    decide (name.ctorIdx ≤ p.1.ctorIdx) && decide (ext.misaExt p.1 = 1)

/-- `RVM_ADD_MISA_BITS_CASE(NAME, name)` -/
def addMisaBitsCase (e : Text) (ext : RVMExtDescriptor) (entry : RVMMisaExt × Char) :
    Parse RVMExtDescriptor :=
  if e = [entry.2] then
    if setAtOrAfter ext entry.1 then
      .error (.invalidArgument ("extension \"".toList ++ [entry.2] ++
        ("\" is on the incorrect position. ISA extensions should be in the " ++
          "following order: IMAFDGQCBPVH").toList))
    else .ok (ext.set (.misa entry.1) 1)
  else .ok ext

/-- One turn of the loop over the single-letter part. -/
def parseLetterAt (isa : Text) (ext : RVMExtDescriptor) (i : Nat) :
    Parse RVMExtDescriptor := do
  let e ← substr isa i (some 1)
  forEachMisaExt.foldlM (addMisaBitsCase e) ext

def parseLetters (isa : Text) (maxMisa : Nat) (ext : RVMExtDescriptor) :
    Parse RVMExtDescriptor :=
  (List.range maxMisa).foldlM (parseLetterAt isa) ext

/-! ## Multi-letter names -/

/-- The `if`-`else` chain over a name table. -/
def lookupName {κ : Type} (table : List (κ × String)) (name : Text) : Option κ :=
  (table.find? fun p => decide (name = p.2.toList)).map Prod.fst

def addExtensionBits (inputIsa : Text) (ext : RVMExtDescriptor) (e : Text) :
    Parse RVMExtDescriptor := do
  let c ← front e
  if c = 'z' then do
    let name ← substr e 1 none
    match lookupName forEachZext name with
    | some zext => .ok (ext.set (.zext zext) 1)
    | none => .error (.invalidIsaString inputIsa
        ("unknown standard extension \"".toList ++ e ++ "\" specified".toList))
  else if c = 's' then do
    let name ← substr e 1 none
    match lookupName forEachSext name with
    | some sext => .ok (ext.set (.sext sext) 1)
    | none => .error (.invalidIsaString inputIsa
        ("unknown standard extension \"".toList ++ e ++ "\" specified".toList))
  else if c = 'x' then do
    let name ← substr e 1 none
    match lookupName forEachXext name with
    | some xext => .ok (ext.set (.xext xext) 1)
    | none => .error (.invalidIsaString inputIsa
        ("unknown custom extension \"".toList ++ e ++ "\" specified".toList))
  else .error (.invalidIsaString inputIsa
    "extension should have 's', 'z' or 'x' after an underscore".toList)

/-- Everything behind the single letters, from the first boundary on. -/
def parseNames (inputIsa isa : Text) (firstStandard : Option Nat)
    (ext : RVMExtDescriptor) : Parse RVMExtDescriptor :=
  match firstStandard with
  | none => .ok ext
  | some _ => do
      let isa ← removePrefix isa firstStandard
      let extensionStrings ← splitExtensions isa
      extensionStrings.foldlM (addExtensionBits inputIsa) ext

/-! ## The parser -/

def isaPrefix : Text := "rv".toList

/-- The last check: a result has a base. -/
def requireBase (inputIsa : Text) (ext : RVMExtDescriptor) (rv64 : Bool) :
    Parse (RVMExtDescriptor × Bool) :=
  if ext.misaExt .I = 0 ∧ ext.misaExt .E = 0 then
    .error (.invalidIsaString inputIsa "either E or I should be available".toList)
  else .ok (ext, rv64)

/-- The part behind the bitness: letters, names, normalisation and the check
for a base. -/
def parseExtensions (inputIsa isa : Text) (bits : Nat) :
    Parse (RVMExtDescriptor × Bool) := do
  let firstStandard := findFirstOf isa "_zxs".toList
  let maxMisa := firstStandard.getD isa.length
  let ext ← parseLetters isa maxMisa rvmInitExtDescriptor
  let ext ← parseNames inputIsa isa firstStandard ext
  requireBase inputIsa (normalizeExtensions ext (bits == 64)) (bits == 64)

/-- Reads the bitness off the front of what follows the `rv`. -/
def readBitness (inputIsa isa : Text) : Parse (Nat × Text) := do
  let firstExtPos := findFirstNotOf isa "0123456789".toList
  let str ← substr isa 0 firstExtPos
  match parseIsaBitness str with
  -- what the helper throws is caught and rethrown as `invalid_isa_string`
  | .error what => .error (.invalidIsaString inputIsa what)
  | .ok bits => do
      let isa ← removePrefix isa firstExtPos
      return (bits, isa)

def parseIsaString (inputIsa : Text) : Parse (RVMExtDescriptor × Bool) :=
  let isa := inputIsa.map Char.toLower
  if findText isa isaPrefix ≠ some 0 then
    .error (.invalidIsaString inputIsa
      "isa string should start with \"rv\" prefix".toList)
  else do
    let isa ← removePrefix isa (some isaPrefix.length)
    let (bits, isa) ← readBitness inputIsa isa
    parseExtensions inputIsa isa bits

example : (parseIsaString "rv64imzbb_xempty".toList).toOption.map
      (fun r => (r.1.get (.zext .BB), r.1.get (.xext .EMPTY), r.2)) =
    some (1, 1, true) := by decide +kernel

end Rvmi.Isa
