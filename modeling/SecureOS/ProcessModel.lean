import SecureOS.AddressSpaceModel
import SecureOS.CapDenyMarkerModel
import SecureOS.CapHandleModel
import SecureOS.Lib.GenHandleProofs

/-! # The process table

`kernel/proc/process.c`: sixteen slots named by index and generation.  A
destroyed slot bumps its generation, so a pid of an earlier process no
longer resolves, and revokes every capability handle of its subject.

The table is the one after its first initialisation: every generation is
nonzero.  An address space stands for the pointer the slot stores; a token
is the port slot whose address a blocked process waits on. -/

namespace Process

open Capability

/-- `process_state_t`. -/
inductive ProcState where
  | new
  | ready
  | running
  | blocked
  | exited
deriving DecidableEq, Repr

/-- `proc_result_t`. -/
inductive ProcResult where
  | ok
  | errInvalidPid
  | errInvalidArg
  | errTableFull
deriving DecidableEq, Repr

/-- The wait token of a port: the address of its slot. -/
abbrev Token := Fin 16

/-- `process_slot_t`.  The entry function is a code address. -/
structure Slot where
  live : Bool
  generation : BitVec 16
  subject : Nat
  aspace : Option AddressSpace.Window
  state : ProcState
  entry : Option Nat
  exitCode : BitVec 32
  blockedOnPort : Option Token
deriving DecidableEq, Repr

/-- `g_procs`. -/
abbrev Procs := Fin 16 → Slot

/-- `PID_INVALID`. -/
def pidInvalid : BitVec 32 := 0

def encodePid (i : Fin 16) (generation : BitVec 16) : BitVec 32 :=
  GenHandle.encode (BitVec.ofNat 16 i.val) generation

/-- `resolve`, over `decode_pid`. -/
def resolve (p : Procs) (pid : BitVec 32) : Option (Fin 16) :=
  GenHandle.resolve (fun i => (p i).live) (fun i => (p i).generation) pid

/-- A slot without its process. -/
def emptySlot (generation : BitVec 16) : Slot := ⟨false, generation, 0, none, .new, none, 0, none⟩

/-- The table after its first initialisation. -/
def processTableInit : Procs := fun _ => emptySlot 1

/-- `process_table_reset` of an initialised table. -/
def processTableReset (p : Procs) : Procs := fun i => emptySlot (GenHandle.bump (p i).generation)

/-- The resource of the table-full marker. -/
def denyResourceTableFull : CStr := "proc_table_full".toList

/-- `process_create` with a place for the pid: table, result, pid and standard output. -/
def processCreate (p : Procs) (subject : Nat) (aspace : Option AddressSpace.Window) :
    Procs × ProcResult × BitVec 32 × List CStr :=
  match Fin.find? (fun i => !(p i).live) with
  | some i =>
    (Function.update p i
      { p i with
        live := true, subject := subject, aspace := aspace, state := .new,
        entry := none, exitCode := 0, blockedOnPort := none },
      .ok, encodePid i (p i).generation, [])
  | none =>
    (p, .errTableFull, pidInvalid,
      CapDenyMarker.emitMarker subject capAppExec denyResourceTableFull)

/-- The slot writes of `process_destroy`. -/
def Slot.destroy (s : Slot) : Slot :=
  { s with
    live := false, generation := GenHandle.bump s.generation, subject := 0, aspace := none }

/-- `process_destroy`, with the handle table whose rows it revokes. -/
def processDestroy (p : Procs) (handles : CapHandle.Table) (pid : BitVec 32) :
    Procs × CapHandle.Table × ProcResult :=
  match resolve p pid with
  | none => (p, handles, .errInvalidPid)
  | some i =>
    (Function.update p i (p i).destroy,
      (CapHandle.capHandleRevokeSubject handles (p i).subject).1, .ok)

/-- `process_lookup`: the slot a live pid names. -/
def processLookup (p : Procs) (pid : BitVec 32) : Option Slot := (resolve p pid).map p

def processFindAspaceBySubject (p : Procs) (subject : Nat) : Option AddressSpace.Window :=
  if subject = 0 then none
  else
    match Fin.find? (fun i => (p i).live && (p i).subject == subject) with
    | some i => (p i).aspace
    | none => none

/-- The shape of the four slot writers: an update of the slot a live pid names. -/
def setSlot (f : Slot → Slot) (p : Procs) (pid : BitVec 32) : Procs × ProcResult :=
  match resolve p pid with
  | none => (p, .errInvalidPid)
  | some i => (Function.update p i (f (p i)), .ok)

def processSetState (p : Procs) (pid : BitVec 32) (state : ProcState) : Procs × ProcResult :=
  setSlot (fun s => { s with state := state }) p pid

def processSetEntry (p : Procs) (pid : BitVec 32) (entry : Option Nat) : Procs × ProcResult :=
  setSlot (fun s => { s with entry := entry }) p pid

def processSetExitCode (p : Procs) (pid : BitVec 32) (code : BitVec 32) : Procs × ProcResult :=
  setSlot (fun s => { s with exitCode := code }) p pid

def processSetBlockedOn (p : Procs) (pid : BitVec 32) (port : Option Token) : Procs × ProcResult :=
  setSlot (fun s => { s with blockedOnPort := port }) p pid

end Process
