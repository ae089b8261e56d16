import SecureOS.CapabilityModel
import Mathlib.Data.Fin.Tuple.Basic

/-! # Tenant-scoped workflow rules

`kernel/cap/workflow_rule.c`: sixteen rule slots shared by all tenants, a register call that
checks its arguments one after the other, and one evaluation function behind `eval_read` and
`eval_write`.  Every call leaves an event in an audit ring of 32, which drops its oldest event
when it is full.

Tenant, rule, subject and capability ids are plain numbers; a scope or reason outside its
enumeration is kept with its value. -/

namespace WorkflowRule

open Capability

/-- `workflow_scope_t`. -/
inductive Scope where
  | none
  | read
  | write
  | other (value : Nat)
deriving DecidableEq, Repr

/-- `workflow_reason_t`. -/
inductive Reason where
  | none
  | tenantPolicy
  | operator
  | automation
  | other (value : Nat)
deriving DecidableEq, Repr

/-- `workflow_result_t`. -/
inductive WorkflowResult where
  | ok
  | errMissing
  | errTenantInvalid
  | errRuleInvalid
  | errScopeInvalid
  | errSubjectInvalid
  | errCapabilityInvalid
  | errReasonInvalid
  | errDuplicate
  | errNoSlot
deriving DecidableEq, Repr

/-- `workflow_audit_op_t`. -/
inductive AuditOp where
  | register
  | evalRead
  | evalWrite
deriving DecidableEq, Repr

/-- `workflow_audit_outcome_t`. -/
inductive Outcome where
  | allow
  | deny
deriving DecidableEq, Repr

/-- `workflow_audit_event_t`. -/
structure AuditEvent where
  sequenceId : BitVec 64
  operation : AuditOp
  tenantId : Nat
  ruleId : Nat
  scopeRequested : Scope
  subjectId : Nat
  capabilityId : Nat
  reason : Reason
  result : WorkflowResult
  outcome : Outcome
deriving DecidableEq, Repr

/-- `workflow_rule_slot_t`. -/
structure Slot where
  inUse : Bool
  tenantId : Nat
  ruleId : Nat
  scope : Scope
  subjectId : Nat
  capabilityId : Nat
  reason : Reason
deriving DecidableEq, Repr

/-- `g_audit_ring` with its counters. -/
structure Audit where
  ring : Fin 32 → AuditEvent
  count : Nat
  dropped : Nat
  nextSequence : BitVec 64

/-- The file-scope state. -/
structure State where
  rules : Fin 16 → Slot
  audit : Audit

/-- `WORKFLOW_AUDIT_EVENT_MAX`. -/
def auditEventMax : Nat := 32

def scopeIsDirectional : Scope → Bool
  | .read => true
  | .write => true
  | _ => false

def reasonIsValid : Reason → Bool
  | .tenantPolicy => true
  | .operator => true
  | .automation => true
  | _ => false

/-- `capability_is_known`: the ids up to `CAP_SYSCALL`, not the ones registered after it. -/
def capabilityIsKnown (cap : Nat) : Bool := capConsoleWrite ≤ cap && cap ≤ capSyscall

/-- The test of `find_slot_for_tenant` on one slot. -/
def Slot.names (slot : Slot) (tenantId ruleId : Nat) : Bool :=
  slot.inUse && (slot.tenantId == tenantId && slot.ruleId == ruleId)

def findSlotForTenant (rules : Fin 16 → Slot) (tenantId ruleId : Nat) : Option (Fin 16) :=
  Fin.find? (fun i => (rules i).names tenantId ruleId)

def findFreeSlot (rules : Fin 16 → Slot) : Option (Fin 16) := Fin.find? (fun i => !(rules i).inUse)

def resultToOutcome (result : WorkflowResult) : Outcome :=
  if result = .ok then .allow else .deny

/-- The end of `audit_record`: append, or drop the oldest event and shift. -/
def Audit.push (a : Audit) (event : AuditEvent) : Audit :=
  let a := { a with nextSequence := a.nextSequence + 1 }
  if a.count < auditEventMax then
    { a with
      ring := Function.update a.ring (Fin.ofNat 32 a.count) event
      count := a.count + 1 }
  else
    { a with
      ring := fun i => if i.val + 1 < auditEventMax then a.ring (i + 1) else event
      dropped := (a.dropped + 1) % 2 ^ 64 }

def auditRecord (s : State) (operation : AuditOp) (tenantId ruleId : Nat) (scope : Scope)
    (subjectId capabilityId : Nat) (reason : Reason) (result : WorkflowResult) : State :=
  { s with
    audit := s.audit.push ⟨s.audit.nextSequence, operation, tenantId, ruleId, scope, subjectId,
      capabilityId, reason, result, resultToOutcome result⟩ }

/-- The arguments of `workflow_rule_register`. -/
structure Registration where
  tenantId : Nat
  ruleId : Nat
  scope : Scope
  subjectId : Nat
  capabilityId : Nat
  reason : Reason
deriving DecidableEq, Repr

/-- The slot a registration fills. -/
def Registration.slot (r : Registration) : Slot :=
  ⟨true, r.tenantId, r.ruleId, r.scope, r.subjectId, r.capabilityId, r.reason⟩

/-- A registration ends with its audit event and its result. -/
def registerEnds (s : State) (r : Registration) (result : WorkflowResult) :
    State × WorkflowResult :=
  (auditRecord s .register r.tenantId r.ruleId r.scope r.subjectId r.capabilityId r.reason
    result, result)

def workflowRuleRegister (s : State) (r : Registration) : State × WorkflowResult :=
  if r.tenantId = 0 then registerEnds s r .errTenantInvalid
  else if r.ruleId = 0 then registerEnds s r .errRuleInvalid
  else if !scopeIsDirectional r.scope then registerEnds s r .errScopeInvalid
  else if r.subjectId = 0 then registerEnds s r .errSubjectInvalid
  else if !capabilityIsKnown r.capabilityId then registerEnds s r .errCapabilityInvalid
  else if !reasonIsValid r.reason then registerEnds s r .errReasonInvalid
  else if (findSlotForTenant s.rules r.tenantId r.ruleId).isSome then
    registerEnds s r .errDuplicate
  else
    match findFreeSlot s.rules with
    | none => registerEnds s r .errNoSlot
    | some i => registerEnds { s with rules := Function.update s.rules i r.slot } r .ok

/-- What an evaluation asks for. -/
structure Query where
  scope : Scope
  tenantId : Nat
  ruleId : Nat
  subjectId : Nat
  capabilityId : Nat
deriving DecidableEq, Repr

/-- An evaluation ends with its audit event and its result. -/
def evalEnds (s : State) (op : AuditOp) (q : Query) (reason : Reason) (result : WorkflowResult) :
    State × WorkflowResult :=
  (auditRecord s op q.tenantId q.ruleId q.scope q.subjectId q.capabilityId reason result, result)

def evalLocked (s : State) (op : AuditOp) (q : Query) : State × WorkflowResult :=
  if q.tenantId = 0 ∨ q.ruleId = 0 ∨ (!scopeIsDirectional q.scope) = true ∨ q.subjectId = 0
      ∨ (!capabilityIsKnown q.capabilityId) = true then
    evalEnds s op q .none .errMissing
  else
    match findSlotForTenant s.rules q.tenantId q.ruleId with
    | none => evalEnds s op q .none .errMissing
    | some i =>
      if (s.rules i).scope ≠ q.scope ∨ (s.rules i).subjectId ≠ q.subjectId
          ∨ (s.rules i).capabilityId ≠ q.capabilityId then
        evalEnds s op q (s.rules i).reason .errMissing
      else evalEnds s op q (s.rules i).reason .ok

def workflowRuleEvalRead (s : State) (callerTenantId ruleId subjectId capabilityId : Nat) :
    State × WorkflowResult :=
  evalLocked s .evalRead ⟨.read, callerTenantId, ruleId, subjectId, capabilityId⟩

def workflowRuleEvalWrite (s : State) (callerTenantId ruleId subjectId capabilityId : Nat) :
    State × WorkflowResult :=
  evalLocked s .evalWrite ⟨.write, callerTenantId, ruleId, subjectId, capabilityId⟩

/-- A call. -/
inductive Op where
  | register (r : Registration)
  | evalRead (callerTenantId ruleId subjectId capabilityId : Nat)
  | evalWrite (callerTenantId ruleId subjectId capabilityId : Nat)
deriving DecidableEq, Repr

/-- The tenant a call is made for. -/
def Op.tenant : Op → Nat
  | .register r => r.tenantId
  | .evalRead callerTenantId _ _ _ => callerTenantId
  | .evalWrite callerTenantId _ _ _ => callerTenantId

/-- What an evaluation asks for. -/
def Op.query : Op → Option Query
  | .register _ => none
  | .evalRead t r u c => some ⟨.read, t, r, u, c⟩
  | .evalWrite t r u c => some ⟨.write, t, r, u, c⟩

/-- A call, with the state it leaves and its result. -/
def exec (s : State) : Op → State × WorkflowResult
  | .register r => workflowRuleRegister s r
  | .evalRead t r u c => workflowRuleEvalRead s t r u c
  | .evalWrite t r u c => workflowRuleEvalWrite s t r u c

/-- The state a call leaves. -/
def step (s : State) (op : Op) : State := (exec s op).1

/-- The result of a call. -/
def result (s : State) (op : Op) : WorkflowResult := (exec s op).2

/-- An unused slot of zeroed storage. -/
def zeroSlot : Slot := ⟨false, 0, 0, .none, 0, 0, .none⟩

/-- No rules, over any audit ring. -/
def noRules (audit : Audit) : State := ⟨fun _ => zeroSlot, audit⟩

end WorkflowRule
