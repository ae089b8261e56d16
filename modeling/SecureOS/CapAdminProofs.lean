import SecureOS.AuditRingProofs
import SecureOS.CapTableProofs

/-! # Who may change the capability table

`cap_grant_as_for_tests` and `cap_revoke_as_for_tests` of `kernel/cap/capability.c`: grants and
revocations made in the name of an actor, which needs the administration capability.  Subject 0
can hand that capability out without holding it; nobody else can hand it out at all. -/

namespace CapTable

open Capability MachineRun

/-- A grant or a revocation in the name of an actor. -/
inductive AdminCall where
  | grantAs (actor target cap : Nat)
  | revokeAs (actor target cap : Nat)
deriving DecidableEq, Repr

/-- The actor of the call. -/
def AdminCall.actor : AdminCall → Nat
  | .grantAs actor _ _ => actor
  | .revokeAs actor _ _ => actor

/-- The event a call that returns this result is to leave, under its number. -/
def AdminCall.event (sequenceId : BitVec 64) (result : CapResult) : AdminCall → AuditEvent
  | .grantAs actor target cap => ⟨sequenceId, .grant, actor, target, cap, result⟩
  | .revokeAs actor target cap => ⟨sequenceId, .revoke, actor, target, cap, result⟩

/-- The call itself: the tables it leaves and the result. -/
def administer (k : Caps) : AdminCall → Caps × CapResult
  | .grantAs actor target cap => capGrantAsForTests k actor target cap
  | .revokeAs actor target cap => capRevokeAsForTests k actor target cap

/-- The tables a call leaves. -/
def adminStep (k : Caps) (call : AdminCall) : Caps := (administer k call).1

/-- The ring took this event, in its next place and under the next number, and no other. -/
structure Recorded (a b : AuditState) (e : AuditEvent) : Prop where
  events : b.events = Function.update a.events a.nextIndex e
  nextIndex : b.nextIndex = a.nextIndex + 1
  number : e.sequenceId = a.nextSequenceId
  nextSequenceId : b.nextSequenceId = a.nextSequenceId + 1

theorem auditRecord_recorded (a : AuditState) (op : AuditOp) (actor subject cap : Nat)
    (result : CapResult) : Recorded a (capAuditRecord a op actor subject cap result)
      ⟨a.nextSequenceId, op, actor, subject, cap, result⟩ := by
  have h := AuditRing.sameEvents_record a ⟨op, actor, subject, cap, result⟩
  exact ⟨h.events, h.nextIndex, rfl, h.nextSequenceId⟩

/-- The actor holds the administration capability. -/
def isAdmin (k : Caps) (actor : Nat) : Prop := capTableCheck k.bits actor capCapabilityAdmin = .ok

/-- The ways a call can end, with the bits it leaves and its result. -/
inductive Done (k : Caps) : AdminCall → Bits → CapResult → Prop
  | refused {call : AdminCall} {result : CapResult} (hno : result ≠ .ok) : Done k call k.bits result
  | granted {actor target cap : Nat} (hactor : isAdmin k actor) (hcap : cap ≠ capCapabilityAdmin) :
      Done k (.grantAs actor target cap) (capTableGrant k.bits target cap).1 .ok
  | bootstrapped {target : Nat} :
      Done k (.grantAs capBootstrapRootSubjectId target capCapabilityAdmin)
        (capTableGrant k.bits target capCapabilityAdmin).1 .ok
  | revoked {actor target cap : Nat} (hactor : isAdmin k actor) :
      Done k (.revokeAs actor target cap) (capTableRevoke k.bits target cap).1 .ok

/-- A grant in the name of an actor is refused, or is the table's grant by an actor with the right
    to it. -/
theorem capGrantAs_cases (k : Caps) (actor target cap : Nat) : (∃ result, result ≠ .ok
        ∧ capGrantAsForTests k actor target cap
          = ({ k with audit := capAuditRecord k.audit .grant actor target cap result }, result))
      ∨ ((isAdmin k actor ∧ cap ≠ capCapabilityAdmin
            ∨ actor = capBootstrapRootSubjectId ∧ cap = capCapabilityAdmin)
        ∧ capGrantAsForTests k actor target cap
          = (⟨(capTableGrant k.bits target cap).1, capAuditRecord k.audit .grant actor target cap
              (capTableGrant k.bits target cap).2⟩, (capTableGrant k.bits target cap).2)) := by
  by_cases hcap : cap = capCapabilityAdmin
  · by_cases hroot : actor = capBootstrapRootSubjectId
    · refine Or.inr ⟨Or.inr ⟨hroot, hcap⟩, ?_⟩
      simp [capGrantAsForTests, capActorAuthorizedForAdminGrant, hcap, hroot]
    · -- the administration capability leaves subject 0 only
      refine Or.inl ?_
      by_cases hactor : capActorAuthorizedForMutation k.bits actor = .ok
      · refine ⟨.errMissing, by decide, ?_⟩
        simp [capGrantAsForTests, capActorAuthorizedForAdminGrant, hcap, hroot, hactor]
      · exact ⟨_, hactor, by simp [capGrantAsForTests, hroot, hactor]⟩
  · by_cases hactor : capActorAuthorizedForMutation k.bits actor = .ok
    · refine Or.inr ⟨Or.inl ⟨hactor, hcap⟩, ?_⟩
      simp [capGrantAsForTests, capActorAuthorizedForAdminGrant, hcap, hactor]
    · exact Or.inl ⟨_, hactor, by simp [capGrantAsForTests, hcap, hactor]⟩

/-- How a grant ends, with the event it leaves. -/
theorem grantAs_done (k : Caps) (actor target cap : Nat) :
    let r := capGrantAsForTests k actor target cap
    Done k (.grantAs actor target cap) r.1.bits r.2 ∧ Recorded k.audit r.1.audit
      (AdminCall.event k.audit.nextSequenceId r.2 (.grantAs actor target cap)) := by
  obtain ⟨_, hno, he⟩ | ⟨hright, he⟩ := capGrantAs_cases k actor target cap
  · rw [he]
    exact ⟨.refused hno, auditRecord_recorded _ _ _ _ _ _⟩
  · rw [he]
    refine ⟨?_, auditRecord_recorded _ _ _ _ _ _⟩
    by_cases hok : (capTableGrant k.bits target cap).2 = .ok
    · rw [hok]
      obtain ⟨hactor, hcap⟩ | ⟨rfl, rfl⟩ := hright
      · exact .granted hactor hcap
      · exact .bootstrapped
    · rw [show (capTableGrant k.bits target cap).1 = k.bits from
        capTableGrant_of_not_valid _ (fun hv => hok ((capTableGrant_ok_iff ..).mpr hv))]
      exact .refused hok

/-- How a revocation ends, with the event it leaves. -/
theorem revokeAs_done (k : Caps) (actor target cap : Nat) :
    let r := capRevokeAsForTests k actor target cap
    Done k (.revokeAs actor target cap) r.1.bits r.2 ∧ Recorded k.audit r.1.audit
      (AdminCall.event k.audit.nextSequenceId r.2 (.revokeAs actor target cap)) := by
  unfold capRevokeAsForTests
  dsimp only
  split
  case isTrue hno => exact ⟨.refused hno, auditRecord_recorded _ _ _ _ _ _⟩
  case isFalse hactor =>
    refine ⟨?_, auditRecord_recorded _ _ _ _ _ _⟩
    by_cases hok : (capTableRevoke k.bits target cap).2 = .ok
    · rw [hok]
      exact .revoked (not_not.mp hactor)
    · rw [capTableRevoke_of_not_valid _ (fun hv => hok ((capTableRevoke_ok_iff ..).mpr hv))]
      exact .refused hok

/-- **ONE CALL**: it is refused or done by right, and leaves one event. -/
theorem administer_done (k : Caps) (call : AdminCall) :
    Done k call (administer k call).1.bits (administer k call).2
      ∧ Recorded k.audit (administer k call).1.audit
        (call.event k.audit.nextSequenceId (administer k call).2) := by
  cases call with
  | grantAs actor target cap => exact grantAs_done k actor target cap
  | revokeAs actor target cap => exact revokeAs_done k actor target cap

section Done

section

variable (h : Done k call bits result)
include h

/-- Bits change by right only. -/
theorem Done.by_right (hne : bits ≠ k.bits) :
    isAdmin k call.actor ∨ ∃ target, call = .grantAs 0 target capCapabilityAdmin := by
  cases h with
  | refused => exact absurd rfl hne
  | granted hactor => exact Or.inl hactor
  | bootstrapped => exact Or.inr ⟨_, rfl⟩
  | revoked hactor => exact Or.inl hactor

/-- The administration capability comes from subject 0 only. -/
theorem Done.from_root (hclear : ¬ isAdmin k subject)
    (hset : capTableCheck bits subject capCapabilityAdmin = .ok) :
    call = .grantAs 0 subject capCapabilityAdmin := by
  cases h with
  | refused => exact absurd hset hclear
  | granted _ hcap =>
    rw [capTableCheck_grant] at hset
    obtain ⟨-, -, he⟩ | hset := hset
    · exact absurd he.symm hcap
    · exact absurd hset hclear
  | bootstrapped =>
    rw [capTableCheck_grant] at hset
    obtain ⟨-, rfl, -⟩ | hset := hset
    · rfl
    · exact absurd hset hclear
  | revoked =>
    rw [capTableCheck_revoke] at hset
    exact absurd hset.2 hclear

theorem Done.denied (hno : result ≠ .ok) : bits = k.bits := by
  cases h with
  | refused => rfl
  | _ => exact absurd rfl hno

end

end Done

/-- **ADMINISTRATION**: in every run the next call changes a bit only if its actor holds the
    administration capability or is subject 0 granting it; it leaves exactly one audit event, with
    what it was and what it returned; and a call that is denied changes no bit. -/
theorem admin_confined (calls : List AdminCall) (call : AdminCall) :
    let k := run adminStep capResetForTests calls
    let r := administer k call
    (r.1.bits ≠ k.bits →
        isAdmin k call.actor ∨ ∃ target, call = .grantAs 0 target capCapabilityAdmin)
      ∧ (∀ subject, ¬ isAdmin k subject → isAdmin r.1 subject →
          call = .grantAs 0 subject capCapabilityAdmin)
      ∧ Recorded k.audit r.1.audit (call.event k.audit.nextSequenceId r.2)
      ∧ (r.2 ≠ .ok → r.1.bits = k.bits) := by
  intro k r
  obtain ⟨hdone, hrecorded⟩ := administer_done k call
  exact ⟨hdone.by_right, fun subject hclear hset => hdone.from_root hclear hset, hrecorded,
    hdone.denied⟩

/-! ## The trail of administration -/

open AuditRing

/-- What a call leaves in the audit ring. -/
def trail (k : Caps) (call : AdminCall) : List AuditCall :=
  match call with
  | .grantAs actor target cap => [⟨.grant, actor, target, cap, (administer k call).2⟩]
  | .revokeAs actor target cap => [⟨.revoke, actor, target, cap, (administer k call).2⟩]

/-- The table after the change that an event reports. -/
def replay (bits : Bits) (c : AuditCall) : Bits :=
  if c.result ≠ .ok then bits
  else if c.operation = .grant then (capTableGrant bits c.subject c.cap).1
  else (capTableRevoke bits c.subject c.cap).1

theorem adminStep_eq (k : Caps) (call : AdminCall) :
    adminStep k call = ⟨run replay k.bits (trail k call), run record k.audit (trail k call)⟩ := by
  cases call with
  | grantAs actor target cap =>
    have hok := capTableGrant_ok_iff k.bits target cap
    have hno := capTableGrant_of_not_valid (s := target) (c := cap) k.bits
    obtain ⟨_, _, he⟩ | ⟨-, he⟩ := capGrantAs_cases k actor target cap <;>
      simp_all [adminStep, administer, trail, run, replay, record]
  | revokeAs actor target cap =>
    have hok := capTableRevoke_ok_iff k.bits target cap
    have hno := capTableRevoke_of_not_valid (s := target) (c := cap) k.bits
    simp only [adminStep, administer, trail, run, capRevokeAsForTests]
    split <;> simp_all [replay, record]

/-- **THE AUDIT TRAIL IS COMPLETE**: over every run the ring has recorded one event a call, and the
    capability table is what these events, replayed, make of the empty one. -/
theorem trail_replays (calls : List AdminCall) : run adminStep capResetForTests calls
    = ⟨run replay capTableReset (emitted adminStep trail capResetForTests calls),
      run record auditReset (emitted adminStep trail capResetForTests calls)⟩ := by
  have hrun : ∀ k, run adminStep k calls = ⟨run replay k.bits (emitted adminStep trail k calls),
      run record k.audit (emitted adminStep trail k calls)⟩ := by
    induction calls with
    | nil =>
      intro k
      rfl
    | cons call calls ih =>
      intro k
      rw [run_cons, ih, emitted_cons, run_append, run_append, adminStep_eq]
  exact hrun capResetForTests

end CapTable
