import SecureOS.IpcPortModel
import SecureOS.Lib.MachineRunProofs
import SecureOS.ProcSchedModel

/-! # Message passing between scheduled processes

`kernel/ipc/ipc_ops.c` over the port table, the capability and handle tables and the scheduler.
A send or receive makes its checks once, and then tries to stage or consume; while the slot is
in the wrong state and a scheduled process is running, the process blocks on the port's token
and tries again each time it is dispatched.  The call a coroutine is blocked inside is part of
the state, as its stack is.

The machine takes one action at a time: a call by whoever runs (a process between two calls, or
code outside the scheduler), or a turn of the dispatch loop.  A dispatched process that was
blocked inside a call goes on with that call in the same step. -/

namespace Ipc

open Capability CapTable CapDenyMarker Process ProcSched

/-- Which family of entry points a call came in by. -/
inductive Via where
  | subject
  | handle
deriving DecidableEq, Repr

/-- The part of `ipc_call` that follows its send. -/
structure Reply where
  caller : Nat
  replyPort : BitVec 32
  outReply : BitVec 64
deriving DecidableEq, Repr

/-- A call past its checks: the loop it is in and what follows the loop. -/
inductive Pending where
  | stage (via : Via) (target : BitVec 32) (outbound : Msg) (reply : Option Reply)
  | consume (via : Via) (selfPort : BitVec 32) (receiver : Nat)
deriving DecidableEq, Repr

/-- The port a pending call waits for. -/
def Pending.port : Pending → BitVec 32
  | .stage _ target _ _ => target
  | .consume _ selfPort _ => selfPort

/-- The kernel state the message paths read and write.  `calls` holds the call each entry's
    coroutine is blocked inside; `panicHook` and `panics` are the test hook and what it was given,
    `stderr` and `halted` the abort without it. -/
structure Kernel where
  caps : Caps
  handles : CapHandle.Table
  ports : Ports
  tasks : Tasks
  calls : Fin 16 → Option Pending
  stdout : List CStr
  panicHook : Bool
  panics : List (BitVec 32 × CStr)
  stderr : List CStr
  halted : Bool

/-- `IPC_DENY_RESOURCE_NONE`. -/
def denyResourceNone : CStr := ['-']

/-- `IPC_DENY_RESOURCE_BOUNDS`. -/
def denyResourceBounds : CStr := "bounds".toList

def ipcEmitDenyMarkerResource (k : Kernel) (subject cap : Nat) (resource : CStr) : Kernel :=
  { k with stdout := k.stdout ++ emitMarker subject cap resource }

def ipcEmitDenyMarker (k : Kernel) (subject cap : Nat) : Kernel :=
  ipcEmitDenyMarkerResource k subject cap denyResourceNone

/-- `cap_check` on the table inside. -/
def Kernel.capCheck (k : Kernel) (subject cap : Nat) : Kernel × CapResult :=
  let c := CapTable.capCheck k.caps subject cap
  ({ k with caps := c.1 }, c.2)

/-- `ipc_aspace_bounds_check` of the envelope at an address. -/
def ipcAspaceBoundsCheck (k : Kernel) (subject cap : Nat) (addr : BitVec 64) : Kernel × IpcResult :=
  match processFindAspaceBySubject k.tasks.procs subject with
  | none => (k, .ok)
  | some w =>
    if !AddressSpace.aspaceContains (some w) addr msgSize then
      (ipcEmitDenyMarkerResource k subject cap denyResourceBounds, .errBounds)
    else (k, .ok)

/-- `cap_ipc_send_gate` and `cap_ipc_recv_gate`, which are the same code. -/
def capIpcGate (k : Kernel) (subject required : Nat) : Kernel × IpcResult :=
  let c := k.capCheck subject required
  if c.2 ≠ .ok then (ipcEmitDenyMarker c.1 subject required, .errCapDenied) else (c.1, .ok)

def capIpcSendGate : Kernel → Nat → Nat → Kernel × IpcResult := capIpcGate

def capIpcRecvGate : Kernel → Nat → Nat → Kernel × IpcResult := capIpcGate

/-- The handle gate of the `_h` paths; the capability check is made for its audit event only. -/
def capIpcHandleGate (k : Kernel) (h : BitVec 32) (subject required : Nat) : Kernel × IpcResult :=
  if CapHandle.capGateCheckHandleResult k.handles h required ≠ .ok then
    (ipcEmitDenyMarker (k.capCheck subject required).1 subject required, .errCapDenied)
  else ((k.capCheck subject required).1, .ok)

def validateOutboundEnvelope (msg : Option Msg) : IpcResult :=
  match msg with
  | none => .errInvalidMsg
  | some m =>
    if m.abiVersion ≠ osAbiVersion then .errInvalidMsg
    else if m.flags ≠ 0 then .errInvalidMsg
    else if m.payloadLen.toNat > msgPayloadMax.toNat then .errInvalidMsg
    else .ok

/-- A pointer to an envelope: its address and what lies there. -/
structure MsgPtr where
  addr : BitVec 64
  msg : Msg
deriving DecidableEq, Repr

/-- `ipc_send` up to `ipc_stage_blocking`: a refusal or the stamped envelope. -/
def ipcSendChecks (k : Kernel) (sender : Nat) (target : BitVec 32) (msg : Option MsgPtr) :
    Kernel × Except IpcResult Msg :=
  match msg with
  | none => (k, .error .errInvalidMsg)
  | some m =>
    if validateOutboundEnvelope (some m.msg) ≠ .ok then
      (k, .error (validateOutboundEnvelope (some m.msg)))
    else
      match ipcPortSendCap k.ports target with
      | .error r => (k, .error r)
      | .ok requiredSend =>
        let gate := capIpcSendGate k sender requiredSend
        if gate.2 ≠ .ok then (gate.1, .error gate.2)
        else
          let bc := ipcAspaceBoundsCheck gate.1 sender requiredSend m.addr
          if bc.2 ≠ .ok then (bc.1, .error bc.2)
          else if sender = 0 then (bc.1, .error .errInvalidMsg)
          else (bc.1, .ok { m.msg with senderSubject := sender })

/-- `ipc_send_h` up to `ipc_stage_blocking`: the sender is the handle's owner. -/
def ipcSendHChecks (k : Kernel) (sendHandle : BitVec 32) (target : BitVec 32)
    (msg : Option MsgPtr) : Kernel × Except IpcResult Msg :=
  match msg with
  | none => (k, .error .errInvalidMsg)
  | some m =>
    if validateOutboundEnvelope (some m.msg) ≠ .ok then
      (k, .error (validateOutboundEnvelope (some m.msg)))
    else
      match ipcPortSendCap k.ports target with
      | .error r => (k, .error r)
      | .ok requiredSend =>
        let sender := CapHandle.capHandleOwner k.handles sendHandle
        let gate := capIpcHandleGate k sendHandle sender requiredSend
        if gate.2 ≠ .ok then (gate.1, .error gate.2)
        else if sender = 0 then (gate.1, .error .errInvalidMsg)
        else
          let bc := ipcAspaceBoundsCheck gate.1 sender requiredSend m.addr
          if bc.2 ≠ .ok then (bc.1, .error bc.2)
          else (bc.1, .ok { m.msg with senderSubject := sender })

/-- The receive paths up to `ipc_consume_blocking`, over the gate they use. -/
def recvChecks (gate : Kernel → Nat → Nat → Kernel × IpcResult) (k : Kernel) (receiver : Nat)
    (selfPort : BitVec 32) (outMsg : Option (BitVec 64)) : Kernel × IpcResult :=
  match outMsg with
  | none => (k, .errInvalidMsg)
  | some addr =>
    match ipcPortOwner k.ports selfPort with
    | .error r => (k, r)
    | .ok owner =>
      if owner ≠ receiver then (ipcEmitDenyMarker k receiver capIpcRecv, .errCapDenied)
      else
        match ipcPortRecvCap k.ports selfPort with
        | .error r => (k, r)
        | .ok requiredRecv =>
          let g := gate k receiver requiredRecv
          if g.2 ≠ .ok then g
          else ipcAspaceBoundsCheck g.1 receiver requiredRecv addr

/-- `ipc_recv` up to `ipc_consume_blocking`. -/
def ipcRecvChecks : Kernel → Nat → BitVec 32 → Option (BitVec 64) → Kernel × IpcResult :=
  recvChecks capIpcRecvGate

/-- `ipc_recv_h` up to `ipc_consume_blocking`: the receiver is the handle's owner. -/
def ipcRecvHChecks (k : Kernel) (recvHandle : BitVec 32) (selfPort : BitVec 32)
    (outMsg : Option (BitVec 64)) : Kernel × IpcResult :=
  recvChecks (fun k => capIpcHandleGate k recvHandle) k
    (CapHandle.capHandleOwner k.handles recvHandle) selfPort outMsg

/-- `ipc_call` up to the `ipc_stage_blocking` of its send. -/
def ipcCallChecks (k : Kernel) (caller : Nat) (target : BitVec 32) (req : Option MsgPtr)
    (replyPort : BitVec 32) (outReply : Option (BitVec 64)) : Kernel × Except IpcResult Msg :=
  if req = none ∨ outReply = none then (k, .error .errInvalidMsg)
  else
    match ipcPortOwner k.ports replyPort with
    | .error r => (k, .error r)
    | .ok replyOwner =>
      if replyOwner ≠ caller then
        (ipcEmitDenyMarker k caller capIpcRecv, .error .errCapDenied)
      else ipcSendChecks k caller target req

/-- One turn of `ipc_stage_blocking` or `ipc_consume_blocking`, over the attempt it makes: the
    answer of the loop, or none when the process blocked. -/
def blockingTurn {E : Type} (attempt : Ports → Ports × IpcResult × E) (port : BitVec 32)
    (k : Kernel) : Kernel × Option (IpcResult × E) :=
  let a := attempt k.ports
  if a.2.1 ≠ .errPeerGone ∨ !procSchedIsActive k.tasks then
    let k := { k with ports := a.1 }
    if a.2.1 = .ok then
      match ipcPortWaitToken k.ports port with
      | none => (k, some a.2)
      | some tok => ({ k with tasks := (procSchedWakeOneOnPort k.tasks (some tok)).1 }, some a.2)
    else (k, some a.2)
  else
    match ipcPortWaitToken k.ports port with
    | none => (k, some (.errInvalidPort, a.2.2))
    | some tok =>
      let b := procSchedBlockCurrentOnPort k.tasks (some tok)
      if b.2 ≠ .ok then ({ k with tasks := b.1 }, some (.errPeerGone, a.2.2))
      else ({ k with tasks := b.1 }, none)

/-- One turn of `ipc_stage_blocking`. -/
def stageTurn (target : BitVec 32) (outbound : Msg) : Kernel → Kernel × Option (IpcResult × Unit) :=
  blockingTurn
    (fun p => ((ipcPortStage p target outbound).1, (ipcPortStage p target outbound).2, ()))
    target

/-- One turn of `ipc_consume_blocking`. -/
def consumeTurn (selfPort : BitVec 32) : Kernel → Kernel × Option (IpcResult × Msg) :=
  blockingTurn (fun p => ipcPortConsume p selfPort) selfPort

/-- The checks of the receive paths on the envelope they consumed. -/
def deliveredOk (m : Msg) : Bool :=
  m.senderSubject ≠ 0 && m.abiVersion = osAbiVersion && m.flags = 0
    && m.payloadLen.toNat ≤ msgPayloadMax.toNat

/-- What a step reports: envelopes a port accepted or handed out, an envelope that failed the checks
    after it was consumed, what a call returned to whom, a port created, what `proc_sched_run`
    returned. -/
inductive Event where
  | sent (i : Fin 16) (via : Via) (env : Msg)
  | delivered (i : Fin 16) (via : Via) (receiver : Nat) (env : Msg)
  | mangled (i : Fin 16) (env : Msg)
  | returned (caller : Option (Fin 16)) (result : IpcResult)
  | created (i : Fin 16) (handle : BitVec 32)
  | runReturned (result : SchedResult)
deriving DecidableEq, Repr

/-- The events of a slot a handle names. -/
def slotEvents (p : Ports) (h : BitVec 32) (f : Fin 16 → Event) : List Event :=
  ((resolve p h).map f).toList

/-- Blocking: the call is where its coroutine stopped. -/
def Kernel.suspend (k : Kernel) (caller : Option (Fin 16)) (p : Pending) : Kernel :=
  match caller with
  | none => k
  | some c => { k with calls := Function.update k.calls c (some p) }

/-- The receive paths from `ipc_consume_blocking` on. -/
def performConsume (k : Kernel) (caller : Option (Fin 16)) (via : Via) (selfPort : BitVec 32)
    (receiver : Nat) : Kernel × List Event :=
  match consumeTurn selfPort k with
  | (k', none) => (k'.suspend caller (.consume via selfPort receiver), [])
  | (k', some (r, env)) =>
    if r ≠ .ok then (k', [.returned caller r])
    else if deliveredOk env then
      (k', slotEvents k.ports selfPort (fun i => .delivered i via receiver env)
        ++ [.returned caller .ok])
    else
      (k', slotEvents k.ports selfPort (fun i => .mangled i env)
        ++ [.returned caller .errInvalidMsg])

/-- A pending call from its loop on. -/
def perform (k : Kernel) (caller : Option (Fin 16)) : Pending → Kernel × List Event
  | .consume via selfPort receiver => performConsume k caller via selfPort receiver
  | .stage via target outbound reply =>
    match stageTurn target outbound k with
    | (k', none) => (k'.suspend caller (.stage via target outbound reply), [])
    | (k', some (r, _)) =>
      if r ≠ .ok then (k', [.returned caller r])
      else
        match reply with
        | none =>
          (k', slotEvents k.ports target (fun i => .sent i via outbound)
            ++ [.returned caller .ok])
        | some rp =>
          -- `ipc_call` goes on with the receive on its reply port
          let c := ipcRecvChecks k' rp.caller rp.replyPort (some rp.outReply)
          let events := slotEvents k.ports target (fun i => .sent i via outbound)
          if c.2 ≠ .ok then (c.1, events ++ [.returned caller c.2])
          else
            let d := performConsume c.1 caller .subject rp.replyPort rp.caller
            (d.1, events ++ d.2)

/-- A call of one of the five entry points. -/
inductive Call where
  | send (sender : Nat) (target : BitVec 32) (msg : Option MsgPtr)
  | sendH (sendHandle target : BitVec 32) (msg : Option MsgPtr)
  | recv (receiver : Nat) (selfPort : BitVec 32) (outMsg : Option (BitVec 64))
  | recvH (recvHandle selfPort : BitVec 32) (outMsg : Option (BitVec 64))
  | call (caller : Nat) (target : BitVec 32) (req : Option MsgPtr) (replyPort : BitVec 32)
      (outReply : Option (BitVec 64))
deriving DecidableEq, Repr

/-- The checks of a call: a refusal or the call to go on with. -/
def enter (k : Kernel) : Call → Kernel × Except IpcResult Pending
  | .send sender target msg =>
    let c := ipcSendChecks k sender target msg
    (c.1, c.2.map (fun env => .stage .subject target env none))
  | .sendH sendHandle target msg =>
    let c := ipcSendHChecks k sendHandle target msg
    (c.1, c.2.map (fun env => .stage .handle target env none))
  | .recv receiver selfPort outMsg =>
    let c := ipcRecvChecks k receiver selfPort outMsg
    (c.1, if c.2 ≠ .ok then .error c.2 else .ok (.consume .subject selfPort receiver))
  | .recvH recvHandle selfPort outMsg =>
    let c := ipcRecvHChecks k recvHandle selfPort outMsg
    (c.1, if c.2 ≠ .ok then .error c.2
      else .ok (.consume .handle selfPort (CapHandle.capHandleOwner k.handles recvHandle)))
  | .call caller target req replyPort outReply =>
    let c := ipcCallChecks k caller target req replyPort outReply
    (c.1, c.2.map (fun env =>
      .stage .subject target env (outReply.map (fun out => ⟨caller, replyPort, out⟩))))

/-- A call, by the entry that runs or from outside the scheduler. -/
def execCall (k : Kernel) (c : Call) : Kernel × List Event :=
  match enter k c with
  | (k', .error r) => (k', [.returned k.tasks.current r])
  | (k', .ok p) => perform k' k.tasks.current p

/-- The line of `aspace_invariant_panic` on standard error. -/
def panicLine (pid : BitVec 32) (reason : CStr) : CStr :=
  "PANIC:proc_sched:aspace_invariant:".toList ++ Nat.toDigits 10 pid.toNat ++ [':'] ++ reason
    ++ ['\n']

/-- A turn of the dispatch loop; a process that was blocked inside a call goes on with it. -/
def execTurn (k : Kernel) (ctxOk : Bool) : Kernel × List Event :=
  match dispatch k.tasks ctxOk with
  | (t, .drained r) => ({ k with tasks := t }, [.runReturned r])
  | (t, .skipped) => ({ k with tasks := t }, [])
  | (t, .violated i reason) =>
    if k.panicHook then
      ({ k with
          tasks := forceExit t i
          panics := k.panics ++ [((t.entries i).pid, reason)] }, [])
    else
      ({ k with
          tasks := t
          stderr := k.stderr ++ [panicLine (t.entries i).pid reason]
          halted := true }, [])
  | (t, .runs i) =>
    match k.calls i with
    | none => ({ k with tasks := t }, [])
    | some p => perform { k with tasks := t, calls := Function.update k.calls i none } (some i) p

/-- One action: a call of whoever runs, or a turn of the dispatch loop. -/
inductive Action where
  | ipc (c : Call)
  | portCreate (owner sendCap recvCap : Nat)
  | portDestroy (h : BitVec 32)
  | capGrant (subject cap : Nat)
  | capRevoke (subject cap : Nat)
  | capGrantAs (actor subject cap : Nat)
  | capRevokeAs (actor subject cap : Nat)
  | handle (op : CapHandle.HandleOp)
  | processCreate (subject : Nat) (aspace : Option AddressSpace.Window)
  | processDestroy (pid : BitVec 32)
  | register (pid : BitVec 32) (entry : Option Nat) (mallocOk : Bool)
  | run
  | yield
  | exit (code : BitVec 32)
  | turn (ctxOk : Bool)
deriving DecidableEq, Repr

/-- The effect of an action that is enabled. -/
def execEnabled (k : Kernel) : Action → Kernel × List Event
  | .ipc c => execCall k c
  | .portCreate owner sendCap recvCap =>
    let c := ipcPortCreate k.ports owner sendCap recvCap
    ({ k with ports := c.1 }, (c.2.2.map (fun x => Event.created x.1 x.2)).toList)
  | .portDestroy h => ({ k with ports := (ipcPortDestroy k.ports h).1 }, [])
  | .capGrant subject cap => ({ k with caps := (capGrantForTests k.caps subject cap).1 }, [])
  | .capRevoke subject cap => ({ k with caps := (capRevokeForTests k.caps subject cap).1 }, [])
  | .capGrantAs actor subject cap =>
    ({ k with caps := (capGrantAsForTests k.caps actor subject cap).1 }, [])
  | .capRevokeAs actor subject cap =>
    ({ k with caps := (capRevokeAsForTests k.caps actor subject cap).1 }, [])
  | .handle op => ({ k with handles := CapHandle.step k.handles op }, [])
  | .processCreate subject aspace =>
    let c := processCreate k.tasks.procs subject aspace
    ({ k with
        tasks := { k.tasks with procs := c.1 }
        stdout := k.stdout ++ c.2.2.2 }, [])
  | .processDestroy pid =>
    let d := processDestroy k.tasks.procs k.handles pid
    ({ k with tasks := { k.tasks with procs := d.1 }, handles := d.2.1 }, [])
  | .register pid entry mallocOk =>
    ({ k with tasks := (procSchedRegister k.tasks pid entry mallocOk).1 }, [])
  | .run => ({ k with tasks := (procSchedRun k.tasks).1 }, [])
  | .yield => ({ k with tasks := (procYield k.tasks).1 }, [])
  | .exit code => ({ k with tasks := (procExit k.tasks code).1 }, [])
  | .turn ctxOk => execTurn k ctxOk

/-- The dispatch loop has the processor. -/
def Kernel.inLoop (k : Kernel) : Bool := k.tasks.dispatching && k.tasks.current.isNone

/-- An action of the dispatch loop. -/
def Action.isTurn : Action → Bool
  | .turn _ => true
  | _ => false

/-- The loop turns while it has the processor, everything else happens while it has not. -/
def enabled (k : Kernel) (a : Action) : Bool := !k.halted && (k.inLoop == a.isTurn)

/-- An action, which does nothing when it is not enabled. -/
def exec (k : Kernel) (a : Action) : Kernel × List Event :=
  if enabled k a then execEnabled k a else (k, [])

/-- The state an action leaves. -/
def step (k : Kernel) (a : Action) : Kernel := (exec k a).1

/-- What an action reports. -/
def report (k : Kernel) (a : Action) : List Event := (exec k a).2

/-- The kernel after the table resets, over any capability and handle table. -/
def boot (caps : Caps) (handles : CapHandle.Table) (panicHook : Bool) : Kernel :=
  ⟨caps, handles, ipcPortTableInit, procSchedReset processTableInit, fun _ => none, [],
    panicHook, [], [], false⟩

/-- The kernel after every table is reset, without a panic hook. -/
def coldBoot : Kernel := boot capResetForTests CapHandle.capHandleTableReset false

/-- A port of subject 3 with the processes of two senders and of its owner. -/
def parties : List Action :=
  [.capGrant 1 capIpcSend, .capGrant 2 capIpcSend, .capGrant 3 capIpcRecv,
    .portCreate 3 capIpcSend capIpcRecv,
    .processCreate 1 (some ⟨0x1000, 0x10000, 0x2000, 0⟩),
    .processCreate 2 (some ⟨0x1000, 0x10000, 0x2000, 0⟩),
    .processCreate 3 (some ⟨0x1000, 0x10000, 0x2000, 0⟩),
    .register 0x00010000 (some 0) true, .register 0x00010001 (some 0) true,
    .register 0x00010002 (some 0) true, .run]

/-- A send of an empty message to the port. -/
def sendBy (subject : Nat) : Action := .ipc (.send subject 0x00010000 (some ⟨0x1000, zeroMsg⟩))

/-- A receive of the owner. -/
def recvByOwner : Action := .ipc (.recv 3 0x00010000 (some 0x1000))

end Ipc
