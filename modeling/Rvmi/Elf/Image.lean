import Rvmi.Foundation.Text

/-!
# ELF images

What the loader asks of an ELF file once it has been read: the header fields,
the segments with their bytes and the sections with their symbols, all in the
order of the file.
-/

namespace Rvmi.Elf

open Rvmi.Foundation

def EM_RISCV : UInt16 := 243

def ELFCLASS32 : UInt8 := 1
def ELFCLASS64 : UInt8 := 2

def PT_LOAD : UInt32 := 1

def SHT_SYMTAB : UInt32 := 2
def SHT_DYNSYM : UInt32 := 11

/-- A program header and the bytes it has in the file. -/
structure Segment where
  type : UInt32
  physicalAddress : UInt64
  fileSize : UInt64
  memorySize : UInt64
  data : List UInt8
  length_data : data.length = fileSize.toNat

structure Symbol where
  name : Text
  value : UInt64
deriving DecidableEq, Repr

/-- A section header; only the symbol tables have symbols to enumerate. -/
structure Section where
  type : UInt32
  symbols : List Symbol
deriving DecidableEq, Repr

structure Image where
  machine : UInt16
  elfClass : UInt8
  entry : UInt64
  segments : List Segment
  sections : List Section

/-! ## Segments -/

namespace Segment

def IsLoad (seg : Segment) : Prop := seg.type = PT_LOAD

instance (seg : Segment) : Decidable seg.IsLoad := inferInstanceAs (Decidable (seg.type = PT_LOAD))

/-- The address `a` lies in `[paddr, paddr + memsz)`. -/
def Occupies (seg : Segment) (a : UInt64) : Prop :=
  (a - seg.physicalAddress).toNat < seg.memorySize.toNat

/-- The address `a` lies in `[paddr, paddr + filesz)`. -/
def FileBacked (seg : Segment) (a : UInt64) : Prop :=
  (a - seg.physicalAddress).toNat < seg.fileSize.toNat

instance (seg : Segment) (a : UInt64) : Decidable (seg.Occupies a) :=
  inferInstanceAs (Decidable ((a - seg.physicalAddress).toNat < seg.memorySize.toNat))

instance (seg : Segment) (a : UInt64) : Decidable (seg.FileBacked a) :=
  inferInstanceAs (Decidable ((a - seg.physicalAddress).toNat < seg.fileSize.toNat))

end Segment

/-! ## Symbol tables -/

namespace Section

def IsSymbolTable (sec : Section) : Prop := sec.type = SHT_SYMTAB ∨ sec.type = SHT_DYNSYM

instance (sec : Section) : Decidable sec.IsSymbolTable :=
  inferInstanceAs (Decidable (sec.type = SHT_SYMTAB ∨ sec.type = SHT_DYNSYM))

end Section

namespace Image

/-- The first symbol table in section order. -/
def symtab? (image : Image) : Option Section :=
  image.sections.find? fun sec => sec.IsSymbolTable

def HasSymbolTable (image : Image) : Prop := ∃ sec ∈ image.sections, sec.IsSymbolTable

theorem symtab?_eq_none_iff {image : Image} : image.symtab? = none ↔ ¬ image.HasSymbolTable := by
  unfold symtab? HasSymbolTable
  rw [List.find?_eq_none]
  simp

theorem symtab?_spec {image : Image} {sec : Section} (h : image.symtab? = some sec) :
    sec ∈ image.sections ∧ sec.IsSymbolTable := by
  unfold symtab? at h
  have hselected := List.find?_some h
  exact ⟨List.mem_of_find?_eq_some h, of_decide_eq_true hselected⟩

/-- The segments that are loaded, in program header order. -/
def loads (image : Image) : List Segment := image.segments.filter fun seg => seg.IsLoad

end Image

end Rvmi.Elf
