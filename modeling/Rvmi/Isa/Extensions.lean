import Mathlib.Data.Fintype.Basic
import Mathlib.Data.List.Nodup

/-!
# Extension tables and descriptors

The enumerations, name tables and descriptor of `RVM.h`. Every table lists its
enumerators in declaration order together with the lower-case spelling the
stringising macros produce; for the multi-letter kinds that is the name without
its leading `z`, `s` or `x`.
-/

namespace Rvmi.Isa

/-- Single-letter extensions. "Order is important here." -/
inductive RVMMisaExt where
  | I | E | G | M | A | F | D | Q | L | C | B | T | P | V | H | J | K | N | O
  | R | S | U | W | X | Y | Z
deriving DecidableEq

/-- Standard unprivileged extensions, without the leading "Z". -/
inductive RVMZExt where
  | ICSR | IFENCEI | ICOND | ICBOM | ICBOZ | ICNTR | ICBOP | IMOP | ILSD
  | IHPM | IHINTNTL | IHINTPAUSE | ICFISS | ICFILP | AAMO | ABHA | ACAS
  | ALASR | ALRSC | AWRS | CMOP | CMP | CMT | CE | CA | CB | CF | CD | CLSD
  | FA | FBFMIN | FH | FHMIN | FINX | DINX | HINX | HINXMIN | BA | BB | BC
  | BS | BPBO | BITMANIP | BKB | BKC | BKX | PN | PSFOPERAND | VFBFA | VFBFMIN
  | VFBFWMA | VFH | VFHMIN | VKB | VBB | VBC | VKNED | VKNHA | VKNHB | VKG
  | VKSED | VKSH | VKT | VKN | VKNC | VKNG | VKS | VKSC | VKSG | KND | KNE
  | KNH | KSED | KSH | KR | KN | KS | K | KT | MMUL | IBI | C64B | ICCAMOA
  | ICCAMOC | ICCIF | ICCLSM | ICCRSE | VABD | A64RS | A128RS
deriving DecidableEq

/-- Standard privileged extensions, without the leading "S". -/
inductive RVMSExt where
  | SCCPTR | SCOFPMF | SCOUNTERENW | HA | HCOUNTERENW | HGATPA | HTVALA
  | HVSATPA | HVSTVALA | HVSTVECD | STC | STVALA | STVECD | VADE | VADU
  | VINVAL | VRSW60T59B | VNAPOT | VUKTE | MCNTRPMF | VBARE | V32 | V39 | V48
  | V57 | MSTATEEN | SSTATEEN | SQOSID | VPBMT | VVPTC | SU64XL | SSTRICT
  | MEPMP | MPMPDELEG | SPMP | SPMPEN | MPMPMT | MRNMI | MCSRIND | SCSRIND
  | MCDELEG | SCCFG | MMPM | MNPM | SNPM | SPM | UPM | SDBLTRP | MDBLTRP
  | MAIA | SAIA
deriving DecidableEq

/-- Custom extensions, without the leading "X". -/
inductive RVMXExt where
  | EMPTY
deriving DecidableEq

def forEachMisaExt : List (RVMMisaExt × Char) :=
  [ (.I, 'i'), (.E, 'e'), (.G, 'g'), (.M, 'm'), (.A, 'a'), (.F, 'f'),
    (.D, 'd'), (.Q, 'q'), (.L, 'l'), (.C, 'c'), (.B, 'b'), (.T, 't'),
    (.P, 'p'), (.V, 'v'), (.H, 'h'), (.J, 'j'), (.K, 'k'), (.N, 'n'),
    (.O, 'o'), (.R, 'r'), (.S, 's'), (.U, 'u'), (.W, 'w'), (.X, 'x'),
    (.Y, 'y'), (.Z, 'z') ]

def forEachZext : List (RVMZExt × String) :=
  [ (.ICSR, "icsr"), (.IFENCEI, "ifencei"), (.ICOND, "icond"),
    (.ICBOM, "icbom"), (.ICBOZ, "icboz"), (.ICNTR, "icntr"),
    (.ICBOP, "icbop"), (.IMOP, "imop"), (.ILSD, "ilsd"), (.IHPM, "ihpm"),
    (.IHINTNTL, "ihintntl"), (.IHINTPAUSE, "ihintpause"), (.ICFISS, "icfiss"),
    (.ICFILP, "icfilp"), (.AAMO, "aamo"), (.ABHA, "abha"), (.ACAS, "acas"),
    (.ALASR, "alasr"), (.ALRSC, "alrsc"), (.AWRS, "awrs"), (.CMOP, "cmop"),
    (.CMP, "cmp"), (.CMT, "cmt"), (.CE, "ce"), (.CA, "ca"), (.CB, "cb"),
    (.CF, "cf"), (.CD, "cd"), (.CLSD, "clsd"), (.FA, "fa"),
    (.FBFMIN, "fbfmin"), (.FH, "fh"), (.FHMIN, "fhmin"), (.FINX, "finx"),
    (.DINX, "dinx"), (.HINX, "hinx"), (.HINXMIN, "hinxmin"), (.BA, "ba"),
    (.BB, "bb"), (.BC, "bc"), (.BS, "bs"), (.BPBO, "bpbo"),
    (.BITMANIP, "bitmanip"), (.BKB, "bkb"), (.BKC, "bkc"), (.BKX, "bkx"),
    (.PN, "pn"), (.PSFOPERAND, "psfoperand"), (.VFBFA, "vfbfa"),
    (.VFBFMIN, "vfbfmin"), (.VFBFWMA, "vfbfwma"), (.VFH, "vfh"),
    (.VFHMIN, "vfhmin"), (.VKB, "vkb"), (.VBB, "vbb"), (.VBC, "vbc"),
    (.VKNED, "vkned"), (.VKNHA, "vknha"), (.VKNHB, "vknhb"), (.VKG, "vkg"),
    (.VKSED, "vksed"), (.VKSH, "vksh"), (.VKT, "vkt"), (.VKN, "vkn"),
    (.VKNC, "vknc"), (.VKNG, "vkng"), (.VKS, "vks"), (.VKSC, "vksc"),
    (.VKSG, "vksg"), (.KND, "knd"), (.KNE, "kne"), (.KNH, "knh"),
    (.KSED, "ksed"), (.KSH, "ksh"), (.KR, "kr"), (.KN, "kn"), (.KS, "ks"),
    (.K, "k"), (.KT, "kt"), (.MMUL, "mmul"), (.IBI, "ibi"), (.C64B, "c64b"),
    (.ICCAMOA, "iccamoa"), (.ICCAMOC, "iccamoc"), (.ICCIF, "iccif"),
    (.ICCLSM, "icclsm"), (.ICCRSE, "iccrse"), (.VABD, "vabd"),
    (.A64RS, "a64rs"), (.A128RS, "a128rs") ]

def forEachSext : List (RVMSExt × String) :=
  [ (.SCCPTR, "sccptr"), (.SCOFPMF, "scofpmf"), (.SCOUNTERENW, "scounterenw"),
    (.HA, "ha"), (.HCOUNTERENW, "hcounterenw"), (.HGATPA, "hgatpa"),
    (.HTVALA, "htvala"), (.HVSATPA, "hvsatpa"), (.HVSTVALA, "hvstvala"),
    (.HVSTVECD, "hvstvecd"), (.STC, "stc"), (.STVALA, "stvala"),
    (.STVECD, "stvecd"), (.VADE, "vade"), (.VADU, "vadu"),
    (.VINVAL, "vinval"), (.VRSW60T59B, "vrsw60t59b"), (.VNAPOT, "vnapot"),
    (.VUKTE, "vukte"), (.MCNTRPMF, "mcntrpmf"), (.VBARE, "vbare"),
    (.V32, "v32"), (.V39, "v39"), (.V48, "v48"), (.V57, "v57"),
    (.MSTATEEN, "mstateen"), (.SSTATEEN, "sstateen"), (.SQOSID, "sqosid"),
    (.VPBMT, "vpbmt"), (.VVPTC, "vvptc"), (.SU64XL, "su64xl"),
    (.SSTRICT, "sstrict"), (.MEPMP, "mepmp"), (.MPMPDELEG, "mpmpdeleg"),
    (.SPMP, "spmp"), (.SPMPEN, "spmpen"), (.MPMPMT, "mpmpmt"),
    (.MRNMI, "mrnmi"), (.MCSRIND, "mcsrind"), (.SCSRIND, "scsrind"),
    (.MCDELEG, "mcdeleg"), (.SCCFG, "sccfg"), (.MMPM, "mmpm"),
    (.MNPM, "mnpm"), (.SNPM, "snpm"), (.SPM, "spm"), (.UPM, "upm"),
    (.SDBLTRP, "sdbltrp"), (.MDBLTRP, "mdbltrp"), (.MAIA, "maia"),
    (.SAIA, "saia") ]

def forEachXext : List (RVMXExt × String) :=
  [ (.EMPTY, "empty") ]

/-! ## Numbers of enumerators and lengths of the arrays -/

def rvmZextNumber : Nat := forEachZext.length
def rvmSextNumber : Nat := forEachSext.length
def rvmXextNumber : Nat := forEachXext.length

def rvmZextMax : Nat := 512
def rvmXextMax : Nat := 128
def rvmSextMax : Nat := 256

theorem RVMZExt.ctorIdx_lt (e : RVMZExt) : e.ctorIdx < rvmZextMax := by
  cases e <;> decide

theorem RVMSExt.ctorIdx_lt (e : RVMSExt) : e.ctorIdx < rvmSextMax := by
  cases e <;> decide

theorem RVMXExt.ctorIdx_lt (e : RVMXExt) : e.ctorIdx < rvmXextMax := by
  cases e
  decide

/-- The array index an enumerator stands for. -/
def RVMZExt.idx (e : RVMZExt) : Fin rvmZextMax := ⟨e.ctorIdx, e.ctorIdx_lt⟩
def RVMSExt.idx (e : RVMSExt) : Fin rvmSextMax := ⟨e.ctorIdx, e.ctorIdx_lt⟩
def RVMXExt.idx (e : RVMXExt) : Fin rvmXextMax := ⟨e.ctorIdx, e.ctorIdx_lt⟩

theorem RVMMisaExt.ctorIdx_lt (e : RVMMisaExt) : e.ctorIdx < forEachMisaExt.length := by
  cases e <;> decide

/-- The letter the table gives a single-letter extension. -/
def RVMMisaExt.letter (e : RVMMisaExt) : Char :=
  (forEachMisaExt.get ⟨e.ctorIdx, e.ctorIdx_lt⟩).2

theorem RVMMisaExt.mem_forEachMisaExt (e : RVMMisaExt) :
    (e, e.letter) ∈ forEachMisaExt := by
  cases e <;> decide

/-! ## Descriptors -/

/-- Sizes and flag bytes as the C struct holds them. A byte counts as enabled
when it is not zero; entries past the enumerators exist but have no name. -/
@[ext] structure RVMExtDescriptor where
  zExtSize : Nat
  xExtSize : Nat
  sExtSize : Nat
  misaExt : RVMMisaExt → UInt8
  zExt : Fin rvmZextMax → UInt8
  sExt : Fin rvmSextMax → UInt8
  xExt : Fin rvmXextMax → UInt8

/-- `RVM_INIT_EXT_DESCRIPTOR` -/
def rvmInitExtDescriptor : RVMExtDescriptor where
  zExtSize := rvmZextNumber
  xExtSize := rvmXextNumber
  sExtSize := rvmSextNumber
  misaExt := fun _ => 0
  zExt := fun _ => 0
  sExt := fun _ => 0
  xExt := fun _ => 0

/-- An entry of one of the four arrays. -/
inductive ExtFlag where
  | misa (e : RVMMisaExt)
  | z (i : Fin rvmZextMax)
  | s (i : Fin rvmSextMax)
  | x (i : Fin rvmXextMax)
deriving DecidableEq

namespace ExtFlag

def zext (e : RVMZExt) : ExtFlag := .z e.idx
def sext (e : RVMSExt) : ExtFlag := .s e.idx
def xext (e : RVMXExt) : ExtFlag := .x e.idx

end ExtFlag

namespace RVMExtDescriptor

def get (d : RVMExtDescriptor) : ExtFlag → UInt8
  | .misa e => d.misaExt e
  | .z i => d.zExt i
  | .s i => d.sExt i
  | .x i => d.xExt i

def set (d : RVMExtDescriptor) (f : ExtFlag) (v : UInt8) : RVMExtDescriptor :=
  match f with
  | .misa e => { d with misaExt := Function.update d.misaExt e v }
  | .z i => { d with zExt := Function.update d.zExt i v }
  | .s i => { d with sExt := Function.update d.sExt i v }
  | .x i => { d with xExt := Function.update d.xExt i v }

@[simp] theorem get_rvmInitExtDescriptor (f : ExtFlag) :
    rvmInitExtDescriptor.get f = 0 := by
  cases f <;> rfl

/-- The flags that count as enabled. -/
def enabled (d : RVMExtDescriptor) : Set ExtFlag := {f | d.get f ≠ 0}

/-- The entry lies below the size field of its array; the single-letter array
has none. -/
def InRange (d : RVMExtDescriptor) : ExtFlag → Prop
  | .misa _ => True
  | .z i => i.val < d.zExtSize
  | .s i => i.val < d.sExtSize
  | .x i => i.val < d.xExtSize

instance (d : RVMExtDescriptor) : DecidablePred d.InRange
  | .misa _ => isTrue trivial
  | .z i => inferInstanceAs (Decidable (i.val < d.zExtSize))
  | .s i => inferInstanceAs (Decidable (i.val < d.sExtSize))
  | .x i => inferInstanceAs (Decidable (i.val < d.xExtSize))

/-- Equality of the three size fields. -/
def SameSizes (d d' : RVMExtDescriptor) : Prop :=
  d.zExtSize = d'.zExtSize ∧ d.xExtSize = d'.xExtSize ∧ d.sExtSize = d'.sExtSize

theorem get_set (d : RVMExtDescriptor) (f g : ExtFlag) (v : UInt8) :
    (d.set f v).get g = if g = f then v else d.get g := by
  cases f <;> cases g <;> simp [set, get, Function.update_apply]

theorem get_set_of_ne {d : RVMExtDescriptor} {f g : ExtFlag} {v : UInt8}
    (h : g ≠ f) : (d.set f v).get g = d.get g := by
  rw [get_set, if_neg h]

theorem sameSizes_set (d : RVMExtDescriptor) (f : ExtFlag) (v : UInt8) :
    SameSizes (d.set f v) d := by
  cases f <;> exact ⟨rfl, rfl, rfl⟩

/-- A descriptor is its sizes and its entries. -/
theorem ext_get {d d' : RVMExtDescriptor} (hs : SameSizes d d')
    (h : ∀ f, d.get f = d'.get f) : d = d' := by
  rcases hs with ⟨hz, hx, hsz⟩
  apply RVMExtDescriptor.ext hz hx hsz
  · funext e
    exact h (.misa e)
  · funext i
    exact h (.z i)
  · funext i
    exact h (.s i)
  · funext i
    exact h (.x i)

theorem SameSizes.trans {d₁ d₂ d₃ : RVMExtDescriptor} (h : SameSizes d₁ d₂)
    (h' : SameSizes d₂ d₃) : SameSizes d₁ d₃ :=
  ⟨h.1.trans h'.1, h.2.1.trans h'.2.1, h.2.2.trans h'.2.2⟩

theorem SameSizes.symm {d₁ d₂ : RVMExtDescriptor} (h : SameSizes d₁ d₂) :
    SameSizes d₂ d₁ :=
  ⟨h.1.symm, h.2.1.symm, h.2.2.symm⟩

theorem SameSizes.inRange_iff {d d' : RVMExtDescriptor} (h : SameSizes d d')
    (f : ExtFlag) : d.InRange f ↔ d'.InRange f := by
  rcases h with ⟨hz, hx, hs⟩
  cases f <;> simp [InRange, hz, hx, hs]

/-- Enable every flag of a list. -/
def setAll (d : RVMExtDescriptor) (fs : List ExtFlag) : RVMExtDescriptor :=
  fs.foldl (fun d f => d.set f 1) d

theorem get_setAll (d : RVMExtDescriptor) (fs : List ExtFlag) (g : ExtFlag) :
    (d.setAll fs).get g = if g ∈ fs then 1 else d.get g := by
  induction fs generalizing d with
  | nil => simp [setAll]
  | cons f fs ih =>
      have hcons : d.setAll (f :: fs) = (d.set f 1).setAll fs := rfl
      rw [hcons, ih, get_set]
      by_cases hg : g ∈ fs
      · simp [hg]
      · simp [hg]

theorem sameSizes_setAll (d : RVMExtDescriptor) (fs : List ExtFlag) :
    SameSizes (d.setAll fs) d := by
  induction fs generalizing d with
  | nil => exact ⟨rfl, rfl, rfl⟩
  | cons f fs ih => exact (ih (d.set f 1)).trans (sameSizes_set d f 1)

@[simp] theorem mem_enabled {d : RVMExtDescriptor} {f : ExtFlag} :
    f ∈ d.enabled ↔ d.get f ≠ 0 := Iff.rfl

theorem setAll_append (d : RVMExtDescriptor) (fs gs : List ExtFlag) :
    d.setAll (fs ++ gs) = (d.setAll fs).setAll gs := by
  simp [setAll]

end RVMExtDescriptor

end Rvmi.Isa
