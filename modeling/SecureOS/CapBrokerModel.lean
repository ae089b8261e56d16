import SecureOS.CapTableProofs
import SecureOS.Lib.TableScanProofs

/-! # The capability broker

`kernel/cap/cap_broker.c`: eight share slots.  A share is requested by its
owner, then approved or denied by the owner, and an approved share can be
revoked by either party.  An approval sets the recipient's bit in the
capability table, a revocation clears it; a slot is never used twice. -/

namespace CapBroker

open Capability CapTable Function

/-- `CAP_BROKER_RESOURCE_NAME_MAX`. -/
def resourceNameMax : Nat := 31

/-- `CAP_BROKER_MAX_SHARES`. -/
def maxShares : Nat := 8

/-- `CAP_SHARE_ID_INVALID`. -/
def shareIdInvalid : Nat := 0

/-- `cap_share_state_t`. -/
inductive ShareState where
  | none
  | requested
  | approved
  | denied
  | revoked
deriving DecidableEq, Repr

/-- `cap_broker_result_t`. -/
inductive BrokerResult where
  | ok
  | errInvalidSubject
  | errInvalidCapability
  | errInvalidResource
  | errNoSlot
  | errNotFound
  | errNotAuthorized
  | errOwnerMissingCap
  | errBadState
deriving DecidableEq, Repr

/-- `cap_broker_share_t`. -/
structure Share where
  state : ShareState
  ownerSubjectId : Nat
  recipientSubjectId : Nat
  capabilityId : Nat
  resourceName : CStr
deriving DecidableEq, Repr

/-- `broker_shares`. -/
abbrev Shares := Fin 8 → Share

/-- The broker beside the capability table and audit ring it writes. -/
structure State where
  caps : Caps
  shares : Shares

/-- A share slot as `cap_broker_reset` leaves it. -/
def resetShare : Share := ⟨.none, 0, 0, 0, []⟩

def capBrokerReset (k : Caps) : State := ⟨k, fun _ => resetShare⟩

/-- `broker_resource_copy`: a present, non-empty name that fits. -/
def brokerResourceCopy : Option CStr → Option CStr
  | none => none
  | some name =>
    if name.length > resourceNameMax then none
    else if name.length = 0 then none
    else some name

/-- `broker_resource_equal`, character by character to the first terminator. -/
def brokerResourceEqual : CStr → CStr → Bool
  | a :: as, b :: bs => if a ≠ b then false else brokerResourceEqual as bs
  | [], [] => true
  | _, _ => false

/-- `broker_share_id_valid` with `broker_share_at`: the slot of a share id. -/
def brokerShareAt (shareId : Nat) : Option (Fin 8) :=
  if h : shareId ≠ shareIdInvalid ∧ shareId ≤ maxShares then
    some ⟨shareId - 1, by unfold shareIdInvalid maxShares at h; omega⟩
  else none

/-- `cap_broker_request_share` with a place for the share id: the state, the result and the id. -/
def capBrokerRequestShare (s : State) (owner recipient cap : Nat)
    (resource : Option CStr) : State × BrokerResult × Nat :=
  if owner = recipient then (s, .errInvalidSubject, shareIdInvalid)
  else if capTableMaxSubjects ≤ owner ∨ capTableMaxSubjects ≤ recipient then
    (s, .errInvalidSubject, shareIdInvalid)
  else if capTableCheck s.caps.bits owner cap = .errCapInvalid then
    (s, .errInvalidCapability, shareIdInvalid)
  else if capTableCheck s.caps.bits owner cap ≠ .ok then
    (s, .errOwnerMissingCap, shareIdInvalid)
  else
    match brokerResourceCopy resource with
    | none => (s, .errInvalidResource, shareIdInvalid)
    | some name =>
      match Fin.find? (fun i => (s.shares i).state == .none) with
      | none => (s, .errNoSlot, shareIdInvalid)
      | some i =>
        ({ s with
            shares := update s.shares i
              ⟨.requested, owner, recipient, cap, name⟩ },
          .ok, i.val + 1)

def capBrokerApprove (s : State) (approver shareId : Nat) : State × BrokerResult :=
  match brokerShareAt shareId with
  | none => (s, .errNotFound)
  | some i =>
    let share := s.shares i
    if share.state = .none then (s, .errNotFound)
    else if share.state ≠ .requested then (s, .errBadState)
    else if approver ≠ share.ownerSubjectId then (s, .errNotAuthorized)
    else
      let g := capTableGrant s.caps.bits share.recipientSubjectId share.capabilityId
      let caps : Caps := ⟨g.1, capAuditRecord s.caps.audit .grant approver
        share.recipientSubjectId share.capabilityId g.2⟩
      if g.2 ≠ .ok then (⟨caps, s.shares⟩, .errInvalidCapability)
      else (⟨caps, update s.shares i { share with state := .approved }⟩, .ok)

def capBrokerDeny (s : State) (approver shareId : Nat) : State × BrokerResult :=
  match brokerShareAt shareId with
  | none => (s, .errNotFound)
  | some i =>
    let share := s.shares i
    if share.state = .none then (s, .errNotFound)
    else if share.state ≠ .requested then (s, .errBadState)
    else if approver ≠ share.ownerSubjectId then (s, .errNotAuthorized)
    else
      (⟨{ s.caps with
            audit := capAuditRecord s.caps.audit .grant approver
              share.recipientSubjectId share.capabilityId .errMissing },
        update s.shares i { share with state := .denied }⟩, .ok)

def capBrokerRevoke (s : State) (actor shareId : Nat) : State × BrokerResult :=
  match brokerShareAt shareId with
  | none => (s, .errNotFound)
  | some i =>
    let share := s.shares i
    if share.state = .none then (s, .errNotFound)
    else if share.state ≠ .approved then (s, .errBadState)
    else if actor ≠ share.ownerSubjectId ∧ actor ≠ share.recipientSubjectId then
      (s, .errNotAuthorized)
    else
      let g := capTableRevoke s.caps.bits share.recipientSubjectId share.capabilityId
      (⟨⟨g.1, capAuditRecord s.caps.audit .revoke actor share.recipientSubjectId
          share.capabilityId g.2⟩,
        update s.shares i { share with state := .revoked }⟩, .ok)

/-- The share test of `cap_broker_recipient_check`. -/
def Share.admits (share : Share) (recipient cap : Nat) (resource : CStr) : Bool :=
  share.state == .approved && share.recipientSubjectId == recipient
    && share.capabilityId == cap && brokerResourceEqual share.resourceName resource

def capBrokerRecipientCheck (s : State) (recipient cap : Nat) (resource : Option CStr) :
    CapResult :=
  if capTableMaxSubjects ≤ recipient then .errSubjectInvalid
  else
    match resource with
    | none => .errMissing
    | some [] => .errMissing
    | some name =>
      match Fin.find? (fun i => (s.shares i).admits recipient cap name) with
      | none => .errMissing
      | some _ =>
        if capTableCheck s.caps.bits recipient cap ≠ .ok then .errMissing else .ok

/-- One call on the broker. -/
inductive BrokerOp where
  | request (owner recipient cap : Nat) (resource : Option CStr)
  | approve (approver shareId : Nat)
  | deny (approver shareId : Nat)
  | revoke (actor shareId : Nat)
deriving DecidableEq, Repr

/-- The state a call leaves. -/
def step (s : State) : BrokerOp → State
  | .request owner recipient cap resource =>
    (capBrokerRequestShare s owner recipient cap resource).1
  | .approve approver shareId => (capBrokerApprove s approver shareId).1
  | .deny approver shareId => (capBrokerDeny s approver shareId).1
  | .revoke actor shareId => (capBrokerRevoke s actor shareId).1

end CapBroker
