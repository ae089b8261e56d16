import Mathlib.Algebra.Ring.Nat
import Mathlib.Data.Fin.Basic

/-! # Capability ids, results and the audit ring

The vocabulary of `kernel/cap/capability.h` and the audit ring of `kernel/cap/capability.c`: 32
event slots used round robin, a running 64-bit seal over every event, and a checkpoint every
eighth event in a second ring of eight.

The dropped count is a `size_t` and wraps at 2^64; the counts of the two rings stop at their
sizes.

Subject and capability ids are plain numbers, as in the source: the enum is an `int` there,
callers pass values outside it, and every entry point checks its own range. -/

namespace Capability

/-- A C string: the characters before the terminator. -/
abbrev CStr := List Char

/-- Rows of the tables of four, eight, 16 and 32 are indexed modulo their number. -/
instance neZeroFour : NeZero 4 := ⟨by decide⟩
instance neZeroEight : NeZero 8 := ⟨by decide⟩
instance neZeroSixteen : NeZero 16 := ⟨by decide⟩
instance neZeroThirtyTwo : NeZero 32 := ⟨by decide⟩

def capConsoleWrite : Nat := 1
def capSerialWrite : Nat := 2
def capDebugExit : Nat := 3
def capCapabilityAdmin : Nat := 4
def capDiskIoRequest : Nat := 5
def capFsRead : Nat := 6
def capFsWrite : Nat := 7
def capEventSubscribe : Nat := 8
def capEventPublish : Nat := 9
def capAppExec : Nat := 10
def capCodesignBypass : Nat := 11
def capNetwork : Nat := 12
def capIpcSend : Nat := 13
def capIpcRecv : Nat := 14
def capSyscall : Nat := 15
def capClockSet : Nat := 16
def capInputMouse : Nat := 17
def capGfxFramebuffer : Nat := 18
def capInputKeyboard : Nat := 19

/-- `cap_result_t`. -/
inductive CapResult where
  | ok
  | errMissing
  | errSubjectInvalid
  | errCapInvalid
deriving DecidableEq, Repr

/-- The numeric value of a result, as the audit digest mixes it in. -/
def CapResult.code : CapResult → Nat
  | .ok => 0
  | .errMissing => 1
  | .errSubjectInvalid => 2
  | .errCapInvalid => 3

/-- `cap_audit_op_t`. -/
inductive AuditOp where
  | check
  | grant
  | revoke
  | cascadeRevoke
  | cascadeDone
deriving DecidableEq, Repr

/-- The numeric value of an audit operation. -/
def AuditOp.code : AuditOp → Nat
  | .check => 0
  | .grant => 1
  | .revoke => 2
  | .cascadeRevoke => 3
  | .cascadeDone => 4

/-- `cap_audit_event_t`. -/
structure AuditEvent where
  sequenceId : BitVec 64
  operation : AuditOp
  actorSubjectId : Nat
  subjectId : Nat
  capabilityId : Nat
  result : CapResult
deriving DecidableEq, Repr

/-- `cap_audit_checkpoint_t`. -/
structure AuditCheckpoint where
  checkpointId : BitVec 64
  startSequenceId : BitVec 64
  endSequenceId : BitVec 64
  auditSeal : BitVec 64
  droppedCount : Nat
deriving DecidableEq, Repr

/-- `CAP_AUDIT_EVENT_MAX`. -/
def auditEventMax : Nat := 32

/-- `CAP_AUDIT_CHECKPOINT_INTERVAL`. -/
def auditCheckpointInterval : Nat := 8

/-- `CAP_AUDIT_CHECKPOINT_MAX`. -/
def auditCheckpointMax : Nat := 8

/-- The file-scope state of the audit ring. -/
structure AuditState where
  events : Fin 32 → AuditEvent
  nextIndex : Fin 32
  eventCount : Nat
  droppedCount : Nat
  nextSequenceId : BitVec 64
  checkpoints : Fin 8 → AuditCheckpoint
  checkpointNextIndex : Fin 8
  checkpointCount : Nat
  nextCheckpointId : BitVec 64
  auditSeal : BitVec 64

def capAuditMixU64 (acc value : BitVec 64) : BitVec 64 := (acc ^^^ value) * 1099511628211#64

def capAuditEventDigest (sequenceId : BitVec 64) (operation : AuditOp)
    (actor subject : Nat) (cap : Nat) (result : CapResult) : BitVec 64 :=
  let digest := 1469598103934665603#64
  let digest := capAuditMixU64 digest sequenceId
  let digest := capAuditMixU64 digest (BitVec.ofNat 64 operation.code)
  let digest := capAuditMixU64 digest (BitVec.ofNat 64 actor)
  let digest := capAuditMixU64 digest (BitVec.ofNat 64 subject)
  let digest := capAuditMixU64 digest (BitVec.ofNat 64 cap)
  capAuditMixU64 digest (BitVec.ofNat 64 result.code)

/-- `cap_audit_maybe_emit_checkpoint`: every eighth event closes a checkpoint. -/
def capAuditMaybeEmitCheckpoint (a : AuditState) (sequenceId : BitVec 64) : AuditState :=
  if (sequenceId + 1) % BitVec.ofNat 64 auditCheckpointInterval ≠ 0 then a
  else
    { a with
      checkpoints := Function.update a.checkpoints a.checkpointNextIndex
        { checkpointId := a.nextCheckpointId
          startSequenceId := (sequenceId + 1) - BitVec.ofNat 64 auditCheckpointInterval
          endSequenceId := sequenceId
          auditSeal := a.auditSeal
          droppedCount := a.droppedCount }
      nextCheckpointId := a.nextCheckpointId + 1
      checkpointNextIndex := a.checkpointNextIndex + 1
      checkpointCount :=
        if a.checkpointCount < auditCheckpointMax then a.checkpointCount + 1
        else a.checkpointCount }

/-- `cap_audit_record`, also reached through `cap_audit_emit`. -/
def capAuditRecord (a : AuditState) (operation : AuditOp)
    (actor subject : Nat) (cap : Nat) (result : CapResult) : AuditState :=
  let sequenceId := a.nextSequenceId
  let dropped :=
    if a.eventCount < auditEventMax then a.droppedCount else (a.droppedCount + 1) % 2 ^ 64
  let mixed := capAuditMixU64 a.auditSeal
    (capAuditEventDigest sequenceId operation actor subject cap result)
  capAuditMaybeEmitCheckpoint
    { a with
      events := Function.update a.events a.nextIndex
        { sequenceId := sequenceId
          operation := operation
          actorSubjectId := actor
          subjectId := subject
          capabilityId := cap
          result := result }
      nextSequenceId := a.nextSequenceId + 1
      nextIndex := a.nextIndex + 1
      eventCount :=
        if a.eventCount < auditEventMax then a.eventCount + 1 else a.eventCount
      droppedCount := dropped
      auditSeal := capAuditMixU64 mixed (BitVec.ofNat 64 dropped) }
    sequenceId

/-- A zeroed event slot, as static storage starts out. -/
def zeroEvent : AuditEvent := ⟨0, .check, 0, 0, 0, .ok⟩

/-- The ring after `cap_audit_reset_for_tests` on zeroed storage. -/
def auditReset : AuditState where
  events := fun _ => zeroEvent
  nextIndex := 0
  eventCount := 0
  droppedCount := 0
  nextSequenceId := 0
  checkpoints := fun _ => ⟨0, 0, 0, 0, 0⟩
  checkpointNextIndex := 0
  checkpointCount := 0
  nextCheckpointId := 0
  auditSeal := 1469598103934665603#64

def capAuditDroppedForTests (a : AuditState) : Nat := a.droppedCount

/-- `cap_audit_get_for_tests` with a place for the event. -/
def capAuditGetForTests (a : AuditState) (index : Nat) : Except CapResult AuditEvent :=
  if a.eventCount ≤ index then .error .errCapInvalid
  else
    let start := if a.eventCount = auditEventMax then a.nextIndex.val else 0
    .ok (a.events (Fin.ofNat 32 (start + index)))

def capAuditCheckpointCountForTests (a : AuditState) : Nat := a.checkpointCount

/-- `cap_audit_checkpoint_get_for_tests` with a place for the checkpoint. -/
def capAuditCheckpointGetForTests (a : AuditState) (index : Nat) :
    Except CapResult AuditCheckpoint :=
  if a.checkpointCount ≤ index then .error .errCapInvalid
  else
    let start := if a.checkpointCount = auditCheckpointMax then a.checkpointNextIndex.val else 0
    .ok (a.checkpoints (Fin.ofNat 8 (start + index)))

end Capability
