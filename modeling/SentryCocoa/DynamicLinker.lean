import Mathlib.Data.List.Basic
import Mathlib.Algebra.Ring.Nat

/-! The lookup of the image and of the symbol that an address belongs to, in the images that the
dynamic linker has loaded on a 64 bit platform. -/
namespace SentryCocoa.DynamicLinker

abbrev UIntPtr := BitVec 64

/-- `ULONG_MAX`. -/
def ulongMax : UIntPtr := BitVec.allOnes 64

inductive LoadCommand where
  | segment (segname : String) (vmaddr vmsize fileoff : BitVec 32)
  | segment64 (segname : String) (vmaddr vmsize fileoff : BitVec 64)
  | symtab (symoff nsyms stroff : BitVec 32)
  | other
  deriving DecidableEq, Repr

/-- `mach_header`, with the commands that stand behind it. -/
structure MachHeader where
  address : UIntPtr
  magic : BitVec 32
  commands : List LoadCommand
  deriving DecidableEq, Repr

structure Image where
  name : String
  vmaddrSlide : UIntPtr
  header : Option MachHeader
  deriving DecidableEq, Repr

/-- `nlist_64`, without the fields that are not read. -/
structure NList where
  strx : BitVec 32
  desc : BitVec 16
  value : BitVec 64
  deriving DecidableEq, Repr

/-- What is read of the memory: the entries of symbol tables and strings. -/
structure Memory where
  nlist : UIntPtr → NList
  string : UIntPtr → String

/-- `Dl_info`. -/
structure DlInfo where
  fname : Option String
  fbase : Option UIntPtr
  sname : Option String
  saddr : Option UIntPtr
  deriving DecidableEq, Repr

def mhMagic : BitVec 32 := 0xfeedface
def mhCigam : BitVec 32 := 0xcefaedfe
def mhMagic64 : BitVec 32 := 0xfeedfacf
def mhCigam64 : BitVec 32 := 0xcffaedfe

/-- The commands of a corrupt header are not found. -/
def firstCmdAfterHeader (header : MachHeader) : Option (List LoadCommand) :=
  if header.magic ∈ [mhMagic, mhCigam, mhMagic64, mhCigam64] then some header.commands else none

/-- The ends of the segments are computed in the width of the command. -/
def LoadCommand.contains (addressWSlide : UIntPtr) : LoadCommand → Bool
  | .segment _ vmaddr vmsize _ =>
    decide (vmaddr.setWidth 64 ≤ addressWSlide ∧ addressWSlide < (vmaddr + vmsize).setWidth 64)
  | .segment64 _ vmaddr vmsize _ =>
    decide (vmaddr ≤ addressWSlide ∧ addressWSlide < vmaddr + vmsize)
  | _ => false

def Image.contains (address : UIntPtr) (image : Image) : Bool :=
  match image.header.bind firstCmdAfterHeader with
  | none => false
  | some commands => commands.any (LoadCommand.contains (address - image.vmaddrSlide))

/-- The first image that contains the address. -/
def imageContainingAddress (images : List Image) (address : UIntPtr) : Option Image :=
  images.find? (Image.contains address)

def segLinkedit : String := "__LINKEDIT"

def segmentBase : List LoadCommand → UIntPtr
  | [] => 0
  | .segment segname vmaddr _ fileoff :: commands =>
    if segname = segLinkedit then (vmaddr - fileoff).setWidth 64 else segmentBase commands
  | .segment64 segname vmaddr _ fileoff :: commands =>
    if segname = segLinkedit then vmaddr - fileoff else segmentBase commands
  | _ :: commands => segmentBase commands

def segmentBaseOfImage (header : MachHeader) : UIntPtr :=
  ((firstCmdAfterHeader header).map segmentBase).getD 0

/-- An entry has 16 bytes. -/
def symbolAt (memory : Memory) (symbolTable : UIntPtr) (iSym : Nat) : NList :=
  memory.nlist (symbolTable + BitVec.ofNat 64 (16 * iSym))

/-- The best match so far, and its distance. -/
structure Best where
  bestMatch : Option NList
  bestDistance : UIntPtr
  deriving DecidableEq, Repr

/-- A symbol whose value is 0 refers to an external object. -/
def Best.next (addressWithSlide : UIntPtr) (best : Best) (symbol : NList) : Best :=
  let currentDistance := addressWithSlide - symbol.value
  if symbol.value ≠ 0 ∧ symbol.value ≤ addressWithSlide ∧ currentDistance ≤ best.bestDistance then
    ⟨some symbol, currentDistance⟩
  else best

def closest (memory : Memory) (symbolTable : UIntPtr) (nsyms : Nat) (addressWithSlide : UIntPtr) :
    Best :=
  (List.range nsyms).foldl
    (fun best iSym => best.next addressWithSlide (symbolAt memory symbolTable iSym))
    ⟨none, ulongMax⟩

/-- An underscore in front of the name is left out. -/
def symbolName (memory : Memory) (stringTable : UIntPtr) (symbol : NList) : Option String :=
  if symbol.desc = 16 then none
  else
    let name := memory.string (stringTable + symbol.strx.setWidth 64)
    some (if name.toList.head? = some '_' then String.ofList name.toList.tail else name)

/-- The symbol is searched in one table after the other. -/
def findSymbol (memory : Memory) (segmentBase addressWithSlide : UIntPtr) :
    List LoadCommand → Option (NList × Option String)
  | [] => none
  | .symtab symoff nsyms stroff :: commands =>
    match (closest memory (segmentBase + symoff.setWidth 64) nsyms.toNat
        addressWithSlide).bestMatch with
    | some symbol =>
      some (symbol, symbolName memory (segmentBase + stroff.setWidth 64) symbol)
    | none => findSymbol memory segmentBase addressWithSlide commands
  | _ :: commands => findSymbol memory segmentBase addressWithSlide commands

/-- The result tells whether the image was found. -/
def dladdr (memory : Memory) (images : List Image) (address : UIntPtr) : Bool × DlInfo :=
  let none' : DlInfo := ⟨none, none, none, none⟩
  match imageContainingAddress images address with
  | none => (false, none')
  | some image =>
    match image.header with
    | none => (false, none')
    | some header =>
      let imageVMAddrSlide := image.vmaddrSlide
      let segmentBase := segmentBaseOfImage header + imageVMAddrSlide
      if segmentBase = 0 then (false, none')
      else
        match firstCmdAfterHeader header with
        | none => (false, ⟨some image.name, some header.address, none, none⟩)
        | some commands =>
          match findSymbol memory segmentBase (address - imageVMAddrSlide) commands with
          | none => (true, ⟨some image.name, some header.address, none, none⟩)
          | some (symbol, sname) =>
            (true, ⟨some image.name, some header.address, sname,
              some (symbol.value + imageVMAddrSlide)⟩)

/-! ### Symbolication -/

/-- `SentryCrashStackEntry`. -/
structure StackEntry where
  address : UIntPtr
  imageName : Option String
  imageAddress : UIntPtr
  symbolName : Option String
  symbolAddress : UIntPtr
  deriving DecidableEq, Repr

/-- On arm64 the address of an instruction is a multiple of 4. -/
def detagInstructionAddress (address : UIntPtr) : UIntPtr := address &&& ~~~(3 : UIntPtr)

/-- A return address is behind the call. -/
def callInstructionFromReturnAddress (address : UIntPtr) : UIntPtr :=
  detagInstructionAddress address - 1

/-- `SentryCrashSC_ASYNC_MARKER`. -/
def asyncMarker : UIntPtr := ulongMax - 1234

def symbolicate (memory : Memory) (images : List Image) (entry : StackEntry) :
    Bool × StackEntry :=
  if entry.address = asyncMarker then
    (true, ⟨entry.address, none, 0, some "__sentrycrash__async_marker__", 0⟩)
  else
    match dladdr memory images (callInstructionFromReturnAddress entry.address) with
    | (true, info) =>
      (true, ⟨entry.address, info.fname, info.fbase.getD 0, info.sname, info.saddr.getD 0⟩)
    | (false, _) => (false, ⟨entry.address, none, 0, none, 0⟩)

end SentryCocoa.DynamicLinker
