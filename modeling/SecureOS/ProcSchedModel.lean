import SecureOS.ProcessModel
import SecureOS.Lib.RingQueueProofs

/-! # The cooperative scheduler

`kernel/proc/proc_sched.c`: sixteen entries, each a registered pid with its coroutine, a ready
ring of entry indices and the entry that runs.  The dispatch loop of `proc_sched_run` is cut at
its context switches: one `dispatch` is one turn of the loop, up to the moment a process runs.

The stack of a coroutine is not modelled; whether its allocation and the context setup succeed
is an input of the step. -/

namespace ProcSched

open Capability Process

/-- `proc_sched_result_t`. -/
inductive SchedResult where
  | ok
  | errInvalidPid
  | errInvalidArg
  | errNoRunnable
  | errDeadlock
  | errNotRunning
  | errNotBlocked
deriving DecidableEq, Repr

/-- `sched_entry_t`. -/
structure Entry where
  inUse : Bool
  pid : BitVec 32
  started : Bool
deriving DecidableEq, Repr

/-- The process table with the scheduler's file-scope state. -/
structure Tasks where
  procs : Procs
  entries : Fin 16 → Entry
  ready : RingQueue.Ring 16 (Fin 16)
  current : Option (Fin 16)
  dispatching : Bool

/-- `proc_sched_reset` over a process table. -/
def procSchedReset (p : Procs) : Tasks :=
  ⟨p, fun _ => ⟨false, pidInvalid, false⟩, ⟨fun _ => 0, 0, 0⟩, none, false⟩

def findEntry (t : Tasks) (pid : BitVec 32) : Option (Fin 16) :=
  Fin.find? (fun i => (t.entries i).inUse && (t.entries i).pid == pid)

/-- `alloc_entry`, with whether the stack allocation succeeds. -/
def allocEntry (t : Tasks) (pid : BitVec 32) (mallocOk : Bool) : Option (Fin 16 × Tasks) :=
  match Fin.find? (fun i => !(t.entries i).inUse) with
  | none => none
  | some i =>
    if mallocOk then
      some (i, { t with entries := Function.update t.entries i ⟨true, pid, false⟩ })
    else none

def readyPush (t : Tasks) (i : Fin 16) : Tasks := { t with ready := t.ready.push i }

def readyDrop (t : Tasks) (i : Fin 16) : Tasks := { t with ready := t.ready.drop i }

/-- `process_set_state` on the table inside. -/
def Tasks.setState (t : Tasks) (pid : BitVec 32) (state : ProcState) : Tasks :=
  { t with procs := (processSetState t.procs pid state).1 }

/-- `process_set_blocked_on` on the table inside. -/
def Tasks.setBlockedOn (t : Tasks) (pid : BitVec 32) (port : Option Token) : Tasks :=
  { t with procs := (processSetBlockedOn t.procs pid port).1 }

/-- `process_set_exit_code` on the table inside. -/
def Tasks.setExitCode (t : Tasks) (pid : BitVec 32) (code : BitVec 32) : Tasks :=
  { t with procs := (processSetExitCode t.procs pid code).1 }

/-- The slot an entry's pid names, if it is still live. -/
def Tasks.slotOf (t : Tasks) (i : Fin 16) : Option Slot := processLookup t.procs (t.entries i).pid

def procSchedRegister (t : Tasks) (pid : BitVec 32) (entry : Option Nat) (mallocOk : Bool) :
    Tasks × SchedResult :=
  if entry = none then (t, .errInvalidArg)
  else if (Process.resolve t.procs pid).isNone then (t, .errInvalidPid)
  else if (findEntry t pid).isSome then (t, .errInvalidPid)
  else
    match allocEntry t pid mallocOk with
    | none => (t, .errInvalidArg)
    | some (i, t) =>
      let t := { t with procs := (processSetEntry t.procs pid entry).1 }
      (readyPush (t.setState pid .ready) i, .ok)

/-- `proc_yield`, up to the switch to the scheduler. -/
def procYield (t : Tasks) : Tasks × SchedResult :=
  match t.current with
  | none => (t, .errNotRunning)
  | some i =>
    let t := readyPush (t.setState (t.entries i).pid .ready) i
    ({ t with current := none }, .ok)

/-- `proc_exit`, up to the switch to the scheduler. -/
def procExit (t : Tasks) (code : BitVec 32) : Tasks × SchedResult :=
  match t.current with
  | none => (t, .errNotRunning)
  | some i =>
    let t := (t.setExitCode (t.entries i).pid code).setState (t.entries i).pid .exited
    ({ readyDrop t i with current := none }, .ok)

/-- `proc_sched_block_current_on_port`, up to the switch to the scheduler. -/
def procSchedBlockCurrentOnPort (t : Tasks) (port : Option Token) : Tasks × SchedResult :=
  if port = none then (t, .errInvalidArg)
  else
    match t.current with
    | none => (t, .errNotRunning)
    | some i =>
      let t := (t.setBlockedOn (t.entries i).pid port).setState (t.entries i).pid .blocked
      ({ t with current := none }, .ok)

/-- The test of the wake loop on one entry. -/
def Tasks.waitsOn (t : Tasks) (port : Token) (i : Fin 16) : Bool :=
  (t.entries i).inUse
    && (t.slotOf i).any (fun s => s.state == .blocked && s.blockedOnPort == some port)

/-- What the wake loop does with the waiting entry it found. -/
def wakeEntry (t : Tasks) : Option (Fin 16) → Tasks × SchedResult
  | none => (t, .errNotBlocked)
  | some i =>
    let t := (t.setBlockedOn (t.entries i).pid none).setState (t.entries i).pid .ready
    (readyPush t i, .ok)

/-- `proc_sched_wake_one_on_port`: the first waiting entry in table order. -/
def procSchedWakeOneOnPort (t : Tasks) (port : Option Token) : Tasks × SchedResult :=
  match port with
  | none => (t, .errInvalidArg)
  | some port => wakeEntry t (Fin.find? (t.waitsOn port))

def countLive (t : Tasks) : Nat :=
  (List.finRange 16).countP
    (fun i => (t.entries i).inUse && (t.slotOf i).any (fun s => s.state != .exited))

def procSchedIsActive (t : Tasks) : Bool := t.dispatching && t.current.isSome

def aspaceInvariantReason (as : Option AddressSpace.Window) : CStr :=
  match as with
  | none => "null_aspace".toList
  | some w =>
    if w.size = 0 then "zero_size".toList
    else if w.size.toNat > AddressSpace.uintptrMax - w.base.toNat then
      "window_overflow".toList
    else if w.stackTop.toNat ≤ w.base.toNat then "stack_top_at_or_below_base".toList
    else if w.stackTop.toNat > (w.base + w.size).toNat then
      "stack_top_escapes_window".toList
    else "ipc_scratch_escapes_window".toList

/-- How one turn of the dispatch loop ends. -/
inductive Turn where
  | drained (result : SchedResult)
  | skipped
  | violated (i : Fin 16) (reason : CStr)
  | runs (i : Fin 16)
deriving DecidableEq, Repr

/-- The forced exit after a violation that the panic hook absorbed. -/
def forceExit (t : Tasks) (i : Fin 16) : Tasks :=
  let t := (t.setExitCode (t.entries i).pid (BitVec.allOnes 32)).setState
    (t.entries i).pid .exited
  { readyDrop t i with current := none }

/-- The switch into an entry, with whether the context setup of a first dispatch succeeds. -/
def switchTo (t : Tasks) (i : Fin 16) (ctxOk : Bool) : Tasks × Turn :=
  let t := { t with current := some i }.setState (t.entries i).pid .running
  if (t.entries i).started then (t, .runs i)
  else
    let t := { t with
      entries := Function.update t.entries i { t.entries i with started := true } }
    if ctxOk then (t, .runs i)
    else ({ t.setState (t.entries i).pid .exited with current := none }, .skipped)

/-- One turn of the loop of `proc_sched_run`. -/
def dispatch (t : Tasks) (ctxOk : Bool) : Tasks × Turn :=
  match t.ready.pop with
  | none =>
    ({ t with dispatching := false },
      .drained (if countLive t = 0 then .ok else .errDeadlock))
  | some (i, ready) =>
    let t := { t with ready := ready }
    match t.slotOf i with
    | none => (t, .skipped)
    | some s =>
      if s.state = .exited then (t, .skipped)
      else if !AddressSpace.aspaceInvariantOk s.aspace then
        (t, .violated i (aspaceInvariantReason s.aspace))
      else switchTo t i ctxOk

/-- `proc_sched_run`, up to its loop. -/
def procSchedRun (t : Tasks) : Tasks × SchedResult :=
  if t.dispatching then (t, .errInvalidArg) else ({ t with dispatching := true }, .ok)

end ProcSched
