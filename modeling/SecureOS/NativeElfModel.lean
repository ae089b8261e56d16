import SecureOS.SofModel

/-! # Loading a native program

`app_execute_native_elf` of `kernel/user/launcher_exec.c`, as far as it loads: it walks the
program headers of an ELF image, copies every segment of type PT_LOAD to the address the header
names and clears the rest of the segment. The application window reaches from
`APP_NATIVE_LOAD_MIN` up to the bridge at `APP_NATIVE_LOAD_MAX`; what follows the loading
(wiring the bridge, the call) is not part of this model.

Addresses, offsets and sizes are 64-bit words and wrap as they do in the code. The image is read
from the buffer it was handed over in, which lies outside the memory written.  The serial log is
left out. -/

namespace NativeElf

open Sof

def appReadU16 (buffer : Memory) (offset : Nat) : BitVec 16 := buffer (offset + 1) ++ buffer offset

def appReadU32 (buffer : Memory) (offset : Nat) : BitVec 32 :=
  buffer (offset + 3) ++ buffer (offset + 2) ++ buffer (offset + 1) ++ buffer offset

def appReadU64 (buffer : Memory) (offset : Nat) : BitVec 64 :=
  appReadU32 buffer (offset + 4) ++ appReadU32 buffer offset

/-- `APP_NATIVE_LOAD_MIN`. -/
def loadMin : BitVec 64 := 0x00800000

/-- `APP_NATIVE_LOAD_MAX`, the address of the bridge. -/
def loadMax : BitVec 64 := 0x009FF000

/-- The results of a load that fails. -/
inductive LoadError where
  | format
  | denied
deriving DecidableEq, Repr

/-- The fields of a program header the loader reads. -/
structure ProgramHeader where
  pType : BitVec 32
  pOffset : BitVec 64
  pVaddr : BitVec 64
  pFilesz : BitVec 64
  pMemsz : BitVec 64
deriving DecidableEq, Repr

/-- The program header at an offset of the image. -/
def programHeader (elfData : Memory) (phOff : Nat) : ProgramHeader where
  pType := appReadU32 elfData phOff
  pOffset := appReadU64 elfData (phOff + 8)
  pVaddr := appReadU64 elfData (phOff + 16)
  pFilesz := appReadU64 elfData (phOff + 32)
  pMemsz := appReadU64 elfData (phOff + 40)

/-- What the checks of the loop decide on a header. -/
inductive Verdict where
  | skip
  | refuse (e : LoadError)
  | load
deriving DecidableEq, Repr

/-- The checks of the loop on one header. -/
def verdict (elfLen : BitVec 64) (ph : ProgramHeader) : Verdict :=
  if ph.pType ≠ 1 then .skip
  else if ph.pFilesz > ph.pMemsz then .refuse .format
  else if ph.pOffset > elfLen ∨ ph.pFilesz > elfLen - ph.pOffset then .refuse .format
  else if ph.pVaddr < loadMin ∨ ph.pMemsz > loadMax - ph.pVaddr then .refuse .denied
  else .load

/-- A byte written to an address. -/
structure Write where
  addr : BitVec 64
  byte : Byte
deriving DecidableEq, Repr

/-- `app_mem_copy` of the file part and `app_mem_zero` of the rest of a segment. -/
def segmentWrites (elfData : Memory) (ph : ProgramHeader) : List Write :=
  (List.range ph.pFilesz.toNat).map
      (fun j => ⟨ph.pVaddr + BitVec.ofNat 64 j, elfData (ph.pOffset.toNat + j)⟩)
    ++ if ph.pMemsz > ph.pFilesz then
        (List.range (ph.pMemsz - ph.pFilesz).toNat).map
          (fun j => ⟨ph.pVaddr + ph.pFilesz + BitVec.ofNat 64 j, 0⟩)
       else []

/-- The offset of a program header. -/
def phOff (ePhoff : BitVec 64) (ePhentsize : BitVec 16) (i : Nat) : BitVec 64 :=
  ePhoff + BitVec.ofNat 64 (i * ePhentsize.toNat)

/-- The loop over the program headers from `i` on: its writes, and whether a segment was loaded. -/
def loadSegments (elfData : Memory) (elfLen ePhoff : BitVec 64) (ePhentsize : BitVec 16) :
    (left i : Nat) → (hasLoad : Bool) → List Write × Except LoadError Bool
  | 0, _, hasLoad => ([], .ok hasLoad)
  | left + 1, i, hasLoad =>
    let off := phOff ePhoff ePhentsize i
    if off + 56 > elfLen then ([], .error .format)
    else
      let ph := programHeader elfData off.toNat
      match verdict elfLen ph with
      | .skip => loadSegments elfData elfLen ePhoff ePhentsize left (i + 1) hasLoad
      | .refuse e => ([], .error e)
      | .load =>
        let rest := loadSegments elfData elfLen ePhoff ePhentsize left (i + 1) true
        (segmentWrites elfData ph ++ rest.1, rest.2)

/-- The checks in front of the loop. -/
def elfHeaderOk (elfData : Memory) (elfLen : BitVec 64) : Bool :=
  !(elfLen < 64) && bytesAt elfData 0 4 == [0x7F, 0x45, 0x4C, 0x46]
    && elfData 4 == 2 && elfData 5 == 1 && appReadU16 elfData 18 == 62
    && appReadU64 elfData 32 < elfLen && !(appReadU16 elfData 54 < 56)
    && appReadU16 elfData 56 != 0

/-- `app_execute_native_elf` up to the bridge: what it writes, and the entry it would call. -/
def appExecuteNativeElf (elfData : Memory) (elfLen : BitVec 64) :
    List Write × Except LoadError (BitVec 64) :=
  if !elfHeaderOk elfData elfLen then ([], .error .format)
  else
    let loaded := loadSegments elfData elfLen (appReadU64 elfData 32) (appReadU16 elfData 54)
      (appReadU16 elfData 56).toNat 0 false
    let eEntry := appReadU64 elfData 24
    match loaded.2 with
    | .error e => (loaded.1, .error e)
    | .ok hasLoad =>
      if !hasLoad then (loaded.1, .error .format)
      else if eEntry < loadMin ∨ eEntry ≥ loadMax then (loaded.1, .error .denied)
      else (loaded.1, .ok eEntry)

end NativeElf
