import SecureOS.CapBrokerModel
import SecureOS.ProcessModel
import SecureOS.SessionManagerModel

/-! # The broker service

`kernel/svc/broker_svc.c`: approvals that also mint a recipient handle under the owner's broker
handle, and the cascade that deletes an owner.  The service keeps a side table of the handles it
minted; the cascade counts and clears the owner's rows of it, revokes the subtree of the handle
it is given, destroys the owner's sessions and, if a pid is given, its process. -/

namespace BrokerSvc

open Capability CapTable

/-- `broker_svc_share_row_t`. -/
structure ShareRow where
  shareId : Nat
  ownerSubject : Nat
  recipientSubject : Nat
  childHandle : BitVec 32
deriving DecidableEq, Repr

/-- A side-table row as `broker_svc_shares_clear` leaves it. -/
def clearedRow : ShareRow := ⟨CapBroker.shareIdInvalid, 0, 0, CapHandle.handleNull⟩

/-- The tables the service reads and writes, and its standard output. -/
structure Svc where
  broker : CapBroker.State
  handles : CapHandle.Table
  shareRows : Fin 8 → ShareRow
  sessions : SessionManager.Sessions
  procs : Process.Procs
  stdout : List CStr

/-- The service after the resets, over any capability table and sessions. -/
def svcReset (k : Caps) (sessions : SessionManager.Sessions) : Svc :=
  ⟨CapBroker.capBrokerReset k, CapHandle.capHandleTableReset, fun _ => clearedRow, sessions,
    Process.processTableInit, []⟩

/-- `cap_audit_emit`. -/
def Svc.auditEmit (s : Svc) (op : AuditOp) (actor subject cap : Nat) (result : CapResult) : Svc :=
  { s with
    broker := { s.broker with
      caps := { s.broker.caps with
        audit := capAuditRecord s.broker.caps.audit op actor subject cap result } } }

def brokerSvcFindFreeRow (rows : Fin 8 → ShareRow) : Option (Fin 8) :=
  Fin.find? (fun i => (rows i).childHandle == CapHandle.handleNull)

/-- The bookkeeping of an approval: dropped when the side table is full. -/
def recordShare (rows : Fin 8 → ShareRow) (row : ShareRow) : Fin 8 → ShareRow :=
  match brokerSvcFindFreeRow rows with
  | some i => Function.update rows i row
  | none => rows

/-- `broker_svc_approve_h` with a place for the handle: the state, the result and the handle. -/
def brokerSvcApproveH (s : Svc) (approver shareId recipient cap : Nat)
    (ownerHandle : BitVec 32) : Svc × CapBroker.BrokerResult × BitVec 32 :=
  let r := CapBroker.capBrokerApprove s.broker approver shareId
  let s := { s with broker := r.1 }
  if r.2 ≠ .ok then (s, r.2, CapHandle.handleNull)
  else
    -- the recipient and the capability are the caller's, not the share's
    let g := CapHandle.capHandleGrantChild s.handles recipient cap ownerHandle
    let s := { s with handles := g.1 }
    if g.2 = CapHandle.handleNull then (s, .errInvalidCapability, CapHandle.handleNull)
    else
      ({ s with shareRows := recordShare s.shareRows ⟨shareId, approver, recipient, g.2⟩ },
        .ok, g.2)

/-- `broker_svc_result_t`. -/
inductive SvcResult where
  | ok
  | errPortAlloc
  | errAlreadyInit
  | errDeleteDenied
deriving DecidableEq, Repr

/-- `SUBJECT_M5_ADMIN`. -/
def subjectM5Admin : Nat := 6

/-- The resource of the delete marker: the text with the owner's decimal id. -/
def deleteOwnerResource (owner : Nat) : CStr := "delete_owner_".toList ++ Nat.toDigits 10 owner

/-- `cap_broker_delete_owner_check`: the answer and what goes to standard output. -/
def capBrokerDeleteOwnerCheck (actor owner : Nat) : Bool × List CStr :=
  if actor = owner then (true, [])
  else if actor = subjectM5Admin then (true, [])
  else
    (false, CapDenyMarker.emitMarker actor capCapabilityAdmin (deleteOwnerResource owner))

/-- The side-table walk of the cascade on one row, with the count. -/
def clearShareRow (actor owner : Nat) (acc : Svc × Nat) (i : Fin 8) : Svc × Nat :=
  let row := acc.1.shareRows i
  if row.childHandle ≠ CapHandle.handleNull ∧ row.ownerSubject = owner then
    ({ acc.1.auditEmit .cascadeRevoke actor row.recipientSubject 0 .ok with
        shareRows := Function.update acc.1.shareRows i clearedRow },
      acc.2 + 1)
  else acc

/-- `BROKER_SVC_CASCADE_SESSION_BOUND`. -/
def cascadeSessionBound : Nat := 16

/-- The session teardown loop, with the rounds left and the count. -/
def drainSessions (actor owner : Nat) : Nat → Svc × Nat → Svc × Nat
  | 0, acc => acc
  | rounds + 1, acc =>
    match SessionManager.sessionManagerFirstSessionForSubject acc.1.sessions owner with
    | none => acc
    | some sid =>
      drainSessions actor owner rounds
        ({ acc.1.auditEmit .cascadeRevoke actor sid.val 0 .ok with
            sessions := SessionManager.sessionManagerDestroy acc.1.sessions sid.val },
          acc.2 + 1)

/-- The process step of the cascade: `process_destroy` of a pid that is given. -/
def destroyOwnerProcess (s : Svc) (pid : BitVec 32) : Svc :=
  if pid = Process.pidInvalid then s
  else
    let d := Process.processDestroy s.procs s.handles pid
    { s with procs := d.1, handles := d.2.1 }

/-- `broker_svc_delete_owner` with a place for the count. -/
def brokerSvcDeleteOwner (s : Svc) (actor owner : Nat) (ownerHandle pid : BitVec 32) :
    Svc × SvcResult × Nat :=
  let c := capBrokerDeleteOwnerCheck actor owner
  let s := { s with stdout := s.stdout ++ c.2 }
  if !c.1 then
    (s.auditEmit .check actor owner capCapabilityAdmin .errMissing, .errDeleteDenied, 0)
  else
    let acc := (List.finRange 8).foldl (clearShareRow actor owner) (s, 0)
    -- the result of the subtree revocation is not looked at
    let s :=
      { acc.1 with handles := (CapHandle.capHandleRevokeSubtree acc.1.handles ownerHandle).1 }
    let acc := drainSessions actor owner cascadeSessionBound (s, acc.2)
    let s := destroyOwnerProcess acc.1 pid
    (s.auditEmit .cascadeDone actor owner acc.2 .ok, .ok, acc.2)

/-- One call that may change the service's tables. -/
inductive SvcOp where
  | handle (op : CapHandle.HandleOp)
  | broker (op : CapBroker.BrokerOp)
  | approveH (approver shareId recipient cap : Nat) (ownerHandle : BitVec 32)
  | deleteOwner (actor owner : Nat) (ownerHandle pid : BitVec 32)
  | processCreate (subject : Nat) (aspace : Option AddressSpace.Window)
  | processDestroy (pid : BitVec 32)
deriving DecidableEq, Repr

/-- The state a call leaves. -/
def step (s : Svc) : SvcOp → Svc
  | .handle op => { s with handles := CapHandle.step s.handles op }
  | .broker op => { s with broker := CapBroker.step s.broker op }
  | .approveH approver shareId recipient cap ownerHandle =>
    (brokerSvcApproveH s approver shareId recipient cap ownerHandle).1
  | .deleteOwner actor owner ownerHandle pid =>
    (brokerSvcDeleteOwner s actor owner ownerHandle pid).1
  | .processCreate subject aspace =>
    let c := Process.processCreate s.procs subject aspace
    { s with procs := c.1, stdout := s.stdout ++ c.2.2.2 }
  | .processDestroy pid =>
    let d := Process.processDestroy s.procs s.handles pid
    { s with procs := d.1, handles := d.2.1 }

end BrokerSvc
