import SecureOS.Lib.MachineRunProofs
import SecureOS.ProcSchedModel

/-! # The scheduler as a machine

The calls of `kernel/proc/proc_sched.c` and `kernel/proc/process.c` in any order, with the
dispatch loop of `proc_sched_run` one turn at a time.  A turn is taken when the loop has
control; the other calls are allowed at any time, from a running process and from outside.  The
panic hook only takes note of a violation. -/

namespace SchedRun

open Process ProcSched

/-- The scheduler with the capability handles a destroyed process loses, the panic hook and whether
    the kernel aborted.  `registered` is a record of the pids whose registration succeeded. -/
structure Machine where
  tasks : Tasks
  handles : CapHandle.Table
  panicHook : Bool
  halted : Bool
  registered : List (BitVec 32)

/-- A reset scheduler over a process table. -/
def boot (p : Procs) (handles : CapHandle.Table) : Machine :=
  ⟨procSchedReset p, handles, false, false, []⟩

/-- A call, or a turn of the dispatch loop. -/
inductive Op where
  | setPanicHook (installed : Bool)
  | create (subject : Nat) (aspace : Option AddressSpace.Window)
  | destroy (pid : BitVec 32)
  | register (pid : BitVec 32) (entry : Option Nat) (mallocOk : Bool)
  | yield
  | exit (code : BitVec 32)
  | block (port : Option Token)
  | wake (port : Option Token)
  | run
  | turn (ctxOk : Bool)
deriving DecidableEq, Repr

/-- The tasks after the end of a turn.  Without the hook a violation aborts: there is no state after
    it, and the machine keeps the one before. -/
def endTurn (m : Machine) (t : Tasks) : Turn → Machine
  | .violated i _ =>
    if m.panicHook then { m with tasks := forceExit t i } else { m with halted := true }
  | .drained _ => { m with tasks := t }
  | .skipped => { m with tasks := t }
  | .runs _ => { m with tasks := t }

/-- One call. -/
def exec (m : Machine) : Op → Machine
  | .setPanicHook installed => { m with panicHook := installed }
  | .create subject aspace =>
    { m with
      tasks := { m.tasks with procs := (processCreate m.tasks.procs subject aspace).1 } }
  | .destroy pid =>
    let d := processDestroy m.tasks.procs m.handles pid
    { m with tasks := { m.tasks with procs := d.1 }, handles := d.2.1 }
  | .register pid entry mallocOk =>
    let r := procSchedRegister m.tasks pid entry mallocOk
    { m with
      tasks := r.1
      registered := if r.2 = .ok then m.registered ++ [pid] else m.registered }
  | .yield => { m with tasks := (procYield m.tasks).1 }
  | .exit code => { m with tasks := (procExit m.tasks code).1 }
  | .block port => { m with tasks := (procSchedBlockCurrentOnPort m.tasks port).1 }
  | .wake port => { m with tasks := (procSchedWakeOneOnPort m.tasks port).1 }
  | .run => { m with tasks := (procSchedRun m.tasks).1 }
  | .turn ctxOk =>
    if m.tasks.dispatching && m.tasks.current.isNone then
      endTurn m (dispatch m.tasks ctxOk).1 (dispatch m.tasks ctxOk).2
    else m

/-- A step of the machine. -/
def step (m : Machine) (op : Op) : Machine := if m.halted then m else exec m op

/-- No process that is registered and has not exited is destroyed. -/
def spares (m : Machine) : Op → Bool
  | .destroy pid =>
    (List.finRange 16).all (fun e =>
      !((m.tasks.entries e).inUse && (m.tasks.entries e).pid == pid)
        || (m.tasks.slotOf e).all (fun s => s.state == .exited))
  | _ => true

end SchedRun
