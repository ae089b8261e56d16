import Mathlib.Algebra.Ring.Nat

/-! # Address-space windows

`kernel/proc/address_space.c`: the carving of an arena into windows, the bounds test of the
message paths and the invariant the scheduler checks before it dispatches a process.  Addresses
and sizes are 64-bit words; a zero pointer is the null pointer. -/

namespace AddressSpace

/-- `IPC_MSG_PAYLOAD_MAX`. -/
def ipcMsgPayloadMax : Nat := 64

/-- `UINTPTR_MAX`. -/
def uintptrMax : Nat := 2 ^ 64 - 1

/-- `address_space_t` without the reserved page-table slot. -/
structure Window where
  base : BitVec 64
  size : BitVec 64
  stackTop : BitVec 64
  ipcScratch : BitVec 64
deriving DecidableEq, Repr

def aspaceContains (as : Option Window) (ptr : BitVec 64) (len : Nat) : Bool :=
  match as with
  | none => false
  | some w =>
    if w.size.toNat > uintptrMax - w.base.toNat then false
    else
      let endAddr := w.base + w.size
      if ptr.toNat < w.base.toNat ∨ ptr.toNat ≥ endAddr.toNat then false
      else if len > (endAddr - ptr).toNat then false
      else true

def aspaceInvariantOk (as : Option Window) : Bool :=
  match as with
  | none => false
  | some w =>
    if w.size = 0 then false
    else if w.size.toNat > uintptrMax - w.base.toNat then false
    else
      let endAddr := w.base + w.size
      if w.stackTop.toNat ≤ w.base.toNat then false
      else if w.stackTop.toNat > endAddr.toNat then false
      else if w.ipcScratch ≠ 0 ∧ !aspaceContains as w.ipcScratch ipcMsgPayloadMax then false
      else true

/-- `PROC_KSTACK_BYTES`. -/
def procKstackBytes : BitVec 64 := 16384

/-- `ASPACE_ALIGN`. -/
def aspaceAlign : BitVec 64 := 16

def aspaceWindowAlignDown (value : BitVec 64) : BitVec 64 := value &&& ~~~(aspaceAlign - 1)

def aspaceWindowMinBytes : BitVec 64 :=
  let need := procKstackBytes + BitVec.ofNat 64 ipcMsgPayloadMax + aspaceAlign
  aspaceWindowAlignDown (need + (aspaceAlign - 1))

/-- `aspace_result_t`. -/
inductive AspaceResult where
  | ok
  | errInvalidArg
  | errArenaTooSmall
deriving DecidableEq, Repr

/-- The window `aspace_partition` writes at one index. -/
def carvedWindow (arenaBase per : BitVec 64) (i : Nat) : Window :=
  let base := arenaBase + per * BitVec.ofNat 64 i
  ⟨base, per, base + per, base⟩

/-- `aspace_partition` into an output array: the array it leaves and the result. -/
def aspacePartition {n : Nat} (arenaBase arenaSize : BitVec 64) (out : Fin n → Window) :
    (Fin n → Window) × AspaceResult :=
  if n = 0 then (out, .errInvalidArg)
  else
    let per := aspaceWindowAlignDown (arenaSize / BitVec.ofNat 64 n)
    if per < aspaceWindowMinBytes then (out, .errArenaTooSmall)
    else (fun i => carvedWindow arenaBase per i.val, .ok)

end AddressSpace
