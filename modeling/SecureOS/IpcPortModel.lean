import SecureOS.CapabilityModel
import SecureOS.Lib.GenHandleProofs
import Mathlib.Data.Fin.Tuple.Basic

/-! # Message envelopes and the port table

`kernel/ipc/ipc_msg.h` and `kernel/ipc/ipc_port.c`: sixteen ports named by index and generation,
each with one envelope slot.  Staging fills an empty slot, consuming empties a full one; both
refuse with the transport fault otherwise.

The table is the one after its first initialisation: every generation is nonzero. -/

namespace Ipc

open Capability Function

/-- `ipc_result_t`. -/
inductive IpcResult where
  | ok
  | errInvalidPort
  | errInvalidMsg
  | errCapDenied
  | errWouldBlock
  | errPeerGone
  | errBounds
deriving DecidableEq, Repr

/-- `ipc_msg_v0`. -/
structure Msg where
  abiVersion : BitVec 16
  flags : BitVec 16
  senderSubject : Nat
  tag : BitVec 32
  payloadLen : BitVec 32
  payload : Vector (BitVec 8) 64
deriving DecidableEq, Repr

/-- An envelope of zero bytes. -/
def zeroMsg : Msg := ⟨0, 0, 0, 0, 0, Vector.replicate 64 0⟩

/-- `OS_ABI_VERSION`. -/
def osAbiVersion : BitVec 16 := 0

/-- `IPC_MSG_PAYLOAD_MAX`. -/
def msgPayloadMax : BitVec 32 := 64

/-- `IPC_MSG_V0_SIZE`, the size of an envelope in memory. -/
def msgSize : Nat := 80

/-- `ipc_port_slot_t`. -/
structure PortSlot where
  live : Bool
  slotOccupied : Bool
  generation : BitVec 16
  owner : Nat
  sendCap : Nat
  recvCap : Nat
  staged : Msg
deriving DecidableEq, Repr

/-- `g_ports`. -/
abbrev Ports := Fin 16 → PortSlot

def encodeHandle (i : Fin 16) (generation : BitVec 16) : BitVec 32 :=
  GenHandle.encode (BitVec.ofNat 16 i.val) generation

/-- `resolve`, over `decode_handle`. -/
def resolve (p : Ports) (h : BitVec 32) : Option (Fin 16) :=
  GenHandle.resolve (fun i => (p i).live) (fun i => (p i).generation) h

def capabilityIdKnown (cap : Nat) : Bool := capConsoleWrite ≤ cap && cap ≤ capInputKeyboard

/-- The table after its first `ipc_port_table_init`. -/
def ipcPortTableInit : Ports := fun _ => ⟨false, false, 1, 0, 0, 0, zeroMsg⟩

/-- `ipc_port_table_reset`, one slot. -/
def PortSlot.reset (s : PortSlot) : PortSlot :=
  ⟨false, false,
    if s.live || s.slotOccupied then GenHandle.bump s.generation
    else if s.generation = 0 then 1 else s.generation,
    0, 0, 0, zeroMsg⟩

def ipcPortTableReset (p : Ports) : Ports := fun i => (p i).reset

/-- The slot a new port starts with. -/
def PortSlot.create (s : PortSlot) (owner sendCap recvCap : Nat) : PortSlot :=
  ⟨true, false, s.generation, owner, sendCap, recvCap, zeroMsg⟩

/-- `ipc_port_create` with a place for the handle. -/
def ipcPortCreate (p : Ports) (owner sendCap recvCap : Nat) :
    Ports × IpcResult × Option (Fin 16 × BitVec 32) :=
  if !capabilityIdKnown sendCap || !capabilityIdKnown recvCap then (p, .errInvalidMsg, none)
  else
    match Fin.find? (fun i => !(p i).live) with
    | none => (p, .errInvalidPort, none)
    | some i =>
      (update p i ((p i).create owner sendCap recvCap), .ok,
        some (i, encodeHandle i (p i).generation))

/-- The slot writes of `ipc_port_destroy`. -/
def PortSlot.destroy (s : PortSlot) : PortSlot :=
  { s with
    live := false, slotOccupied := false, generation := GenHandle.bump s.generation,
    staged := zeroMsg }

def ipcPortDestroy (p : Ports) (h : BitVec 32) : Ports × IpcResult :=
  match resolve p h with
  | none => (p, .errInvalidPort)
  | some i => (update p i (p i).destroy, .ok)

/-- The shape of the three port queries: a field of the slot a live handle names. -/
def portField (f : PortSlot → Nat) (p : Ports) (h : BitVec 32) : Except IpcResult Nat :=
  match resolve p h with
  | none => .error .errInvalidPort
  | some i => .ok (f (p i))

def ipcPortOwner : Ports → BitVec 32 → Except IpcResult Nat := portField PortSlot.owner

def ipcPortSendCap : Ports → BitVec 32 → Except IpcResult Nat := portField PortSlot.sendCap

def ipcPortRecvCap : Ports → BitVec 32 → Except IpcResult Nat := portField PortSlot.recvCap

/-- The slot with an envelope staged. -/
def PortSlot.stage (s : PortSlot) (msg : Msg) : PortSlot :=
  { s with staged := msg, slotOccupied := true }

def ipcPortStage (p : Ports) (h : BitVec 32) (msg : Msg) : Ports × IpcResult :=
  match resolve p h with
  | none => (p, .errInvalidPort)
  | some i =>
    if (p i).slotOccupied then (p, .errPeerGone)
    else (update p i ((p i).stage msg), .ok)

/-- The slot with its envelope taken. -/
def PortSlot.consume (s : PortSlot) : PortSlot :=
  { s with staged := zeroMsg, slotOccupied := false }

/-- `ipc_port_consume`: the table, the result and the envelope written out. -/
def ipcPortConsume (p : Ports) (h : BitVec 32) : Ports × IpcResult × Msg :=
  match resolve p h with
  | none => (p, .errInvalidPort, zeroMsg)
  | some i =>
    if !(p i).slotOccupied then (p, .errPeerGone, zeroMsg)
    else (update p i (p i).consume, .ok, (p i).staged)

/-- `ipc_port_wait_token`: the slot itself. -/
def ipcPortWaitToken (p : Ports) (h : BitVec 32) : Option (Fin 16) := resolve p h

end Ipc
