import SecureOS.IpcPortModel
import SecureOS.Lib.MachineRunProofs
import SecureOS.ProcessModel

/-! # The port and process tables from power-on

`kernel/ipc/ipc_port.c` and `kernel/proc/process.c` start from zeroed storage and initialise
their tables at the first call that needs them.  A reset keeps the generations: the process
table bumps all of them, the port table those of ports that are live or hold an envelope. -/

namespace GenTables

open Ipc Process

/-- The two tables with their `g_table_initialized`, and the capability handles that destroying a
    process revokes. -/
structure Tables where
  portsInitialized : Bool
  ports : Ports
  procsInitialized : Bool
  procs : Procs
  handles : CapHandle.Table

/-- Zeroed storage. -/
def powerOn (handles : CapHandle.Table) : Tables :=
  ⟨false, fun _ => ⟨false, false, 0, 0, 0, 0, zeroMsg⟩, false, fun _ => emptySlot 0, handles⟩

/-- `ipc_port_table_reset`. -/
def portTableReset (t : Tables) : Tables :=
  { t with portsInitialized := true, ports := ipcPortTableReset t.ports }

/-- `ipc_port_table_init`. -/
def portTableInit (t : Tables) : Tables :=
  if !t.portsInitialized then { t with portsInitialized := true, ports := ipcPortTableInit }
  else portTableReset t

/-- `ipc_port_create`, with whether there is a place for the handle. -/
def portCreate (t : Tables) (owner sendCap recvCap : Nat) (outPort : Bool) :
    Tables × IpcResult × Option (Fin 16 × BitVec 32) :=
  let t := if !t.portsInitialized then portTableInit t else t
  if !outPort then (t, .errInvalidMsg, none)
  else
    let c := ipcPortCreate t.ports owner sendCap recvCap
    ({ t with ports := c.1 }, c.2)

/-- `ipc_port_destroy`. -/
def portDestroy (t : Tables) (h : BitVec 32) : Tables × IpcResult :=
  let d := ipcPortDestroy t.ports h
  ({ t with ports := d.1 }, d.2)

/-- `process_table_reset`, also reached through `process_table_init`. -/
def procTableReset (t : Tables) : Tables :=
  { t with
    procsInitialized := true
    procs :=
      if t.procsInitialized then processTableReset t.procs
      else fun i => emptySlot (if (t.procs i).generation = 0 then 1 else (t.procs i).generation) }

/-- `process_create`, with whether there is a place for the pid. -/
def procCreate (t : Tables) (subject : Nat) (aspace : Option AddressSpace.Window)
    (outPid : Bool) : Tables × ProcResult × BitVec 32 :=
  let t := if !t.procsInitialized then procTableReset t else t
  if !outPid then (t, .errInvalidArg, pidInvalid)
  else
    let c := processCreate t.procs subject aspace
    ({ t with procs := c.1 }, c.2.1, c.2.2.1)

/-- `process_destroy`. -/
def procDestroy (t : Tables) (pid : BitVec 32) : Tables × ProcResult :=
  let d := processDestroy t.procs t.handles pid
  ({ t with procs := d.1, handles := d.2.1 }, d.2.2)

/-- A call on one of the tables. -/
inductive Op where
  | portInit
  | portReset
  | portCreate (owner sendCap recvCap : Nat) (outPort : Bool)
  | portDestroy (h : BitVec 32)
  | procReset
  | procCreate (subject : Nat) (aspace : Option AddressSpace.Window) (outPid : Bool)
  | procDestroy (pid : BitVec 32)
deriving DecidableEq, Repr

/-- The tables a call leaves. -/
def step (t : Tables) : Op → Tables
  | .portInit => portTableInit t
  | .portReset => portTableReset t
  | .portCreate owner sendCap recvCap outPort => (portCreate t owner sendCap recvCap outPort).1
  | .portDestroy h => (portDestroy t h).1
  | .procReset => procTableReset t
  | .procCreate subject aspace outPid => (procCreate t subject aspace outPid).1
  | .procDestroy pid => (procDestroy t pid).1

/-- The generation of a port slot. -/
def portGen (t : Tables) (i : Fin 16) : BitVec 16 := (t.ports i).generation

/-- The generation of a process slot. -/
def procGen (t : Tables) (i : Fin 16) : BitVec 16 := (t.procs i).generation

end GenTables
