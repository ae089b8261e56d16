import SecureOS.AuditRingProofs
import SecureOS.Lib.MixChainProofs

/-! # What the audit seal commits to

The seal of `kernel/cap/capability.c` is a mixing chain: every event adds the digest of its six
fields, itself such a chain, and the dropped count.  The multiplier is odd, so it has an inverse
modulo 2^64 and no step loses a difference. -/

namespace AuditSeal

open Capability MachineRun AuditRing MixChain

/-- The multiplier of `cap_audit_mix_u64`. -/
def prime : BitVec 64 := 1099511628211#64

/-- Its inverse modulo 2^64. -/
def primeInv : BitVec 64 := 14886173955864302971#64

theorem prime_mul_inv : prime * primeInv = 1#64 := by decide

/-- The words an event's digest absorbs. -/
def eventWords (e : AuditEvent) : List (BitVec 64) :=
  [e.sequenceId, BitVec.ofNat 64 e.operation.code, BitVec.ofNat 64 e.actorSubjectId,
    BitVec.ofNat 64 e.subjectId, BitVec.ofNat 64 e.capabilityId, BitVec.ofNat 64 e.result.code]

/-- The digest of an event. -/
def digest (e : AuditEvent) : BitVec 64 :=
  capAuditEventDigest e.sequenceId e.operation e.actorSubjectId e.subjectId e.capabilityId e.result

theorem digest_eq (e : AuditEvent) :
    digest e = chain prime 1469598103934665603#64 (eventWords e) := rfl

/-- The ids of an event are 32-bit values in the source. -/
def Fits (e : AuditEvent) : Prop :=
  e.actorSubjectId < 2 ^ 32 ∧ e.subjectId < 2 ^ 32 ∧ e.capabilityId < 2 ^ 32

instance (e : AuditEvent) : Decidable (Fits e) := inferInstanceAs (Decidable (_ ∧ _ ∧ _))

/-- The second event is the first with one field changed. -/
inductive OneField (e : AuditEvent) : AuditEvent → Prop
  | sequenceId {v : BitVec 64} (h : e.sequenceId ≠ v) : OneField e { e with sequenceId := v }
  | operation {v : AuditOp} (h : e.operation ≠ v) : OneField e { e with operation := v }
  | actorSubjectId {v : Nat} (h : e.actorSubjectId ≠ v) : OneField e { e with actorSubjectId := v }
  | subjectId {v : Nat} (h : e.subjectId ≠ v) : OneField e { e with subjectId := v }
  | capabilityId {v : Nat} (h : e.capabilityId ≠ v) : OneField e { e with capabilityId := v }
  | result {v : CapResult} (h : e.result ≠ v) : OneField e { e with result := v }

theorem word_ne (ha : a < 2 ^ 32) (hb : b < 2 ^ 32) (h : a ≠ b) :
    BitVec.ofNat 64 a ≠ BitVec.ofNat 64 b := by
  intro heq
  have hv := congrArg BitVec.toNat heq
  rw [BitVec.toNat_ofNat, BitVec.toNat_ofNat] at hv
  omega

theorem opCode_ne {x y : AuditOp} (h : x ≠ y) :
    BitVec.ofNat 64 x.code ≠ BitVec.ofNat 64 y.code := by
  refine word_ne ?_ ?_ ?_
  · cases x <;> decide
  · cases y <;> decide
  · revert h
    cases x <;> cases y <;> decide

theorem resultCode_ne {x y : CapResult} (h : x ≠ y) :
    BitVec.ofNat 64 x.code ≠ BitVec.ofNat 64 y.code := by
  refine word_ne ?_ ?_ ?_
  · cases x <;> decide
  · cases y <;> decide
  · revert h
    cases x <;> cases y <;> decide

/-- One field changed is one word changed. -/
theorem oneField_words (he : Fits e) (hf : Fits f) (h : OneField e f) :
    ∃ l v v' r, v ≠ v' ∧ eventWords e = l ++ v :: r ∧ eventWords f = l ++ v' :: r := by
  cases h with
  | sequenceId h => exact ⟨[], _, _, _, h, rfl, rfl⟩
  | operation h => exact ⟨[_], _, _, _, opCode_ne h, rfl, rfl⟩
  | actorSubjectId h => exact ⟨[_, _], _, _, _, word_ne he.1 hf.1 h, rfl, rfl⟩
  | subjectId h => exact ⟨[_, _, _], _, _, _, word_ne he.2.1 hf.2.1 h, rfl, rfl⟩
  | capabilityId h => exact ⟨[_, _, _, _], _, _, _, word_ne he.2.2 hf.2.2 h, rfl, rfl⟩
  | result h => exact ⟨[_, _, _, _, _], _, _, _, resultCode_ne h, rfl, rfl⟩

theorem digest_ne (he : Fits e) (hf : Fits f) (h : OneField e f) : digest e ≠ digest f := by
  obtain ⟨l, _, _, r, hv, hwe, hwf⟩ := oneField_words he hf h
  rw [digest_eq, digest_eq, hwe, hwf]
  intro heq
  exact hv ((chain_replace_inj prime_mul_inv _ l r).mp heq)

/-- The words a history adds to the seal: a digest and a dropped count an event. -/
def sealWords : Nat → Nat → List AuditEvent → List (BitVec 64)
  | _, _, [] => []
  | eventCount, droppedCount, e :: es =>
    let dropped :=
      if eventCount < auditEventMax then droppedCount else (droppedCount + 1) % 2 ^ 64
    digest e :: BitVec.ofNat 64 dropped
      :: sealWords (if eventCount < auditEventMax then eventCount + 1 else eventCount) dropped es

/-- The seal over a list of events, from a state of the ring. -/
def sealOver (a : AuditState) (es : List AuditEvent) : BitVec 64 :=
  chain prime a.auditSeal (sealWords a.eventCount a.droppedCount es)

/-- The events a history leaves, numbered from where the ring stands. -/
def recorded : BitVec 64 → List AuditCall → List AuditEvent
  | _, [] => []
  | sequenceId, c :: cs => c.event sequenceId :: recorded (sequenceId + 1) cs

/-- **THE SEAL** after a history is the chain over the words of its events. -/
theorem seal_run (cs : List AuditCall) (a : AuditState) :
    (run record a cs).auditSeal = sealOver a (recorded a.nextSequenceId cs) := by
  induction cs generalizing a with
  | nil => rfl
  | cons c _ ih =>
    have hs := sameEvents_record a c
    rw [run_cons, ih, sealOver, hs.auditSeal, hs.eventCount, hs.droppedCount,
      hs.nextSequenceId, recorded, sealOver, sealWords, chain_cons, chain_cons]
    rfl

/-- Where the digest of an event stands in a history does not depend on that event. -/
theorem sealWords_split (l r : List AuditEvent) (eventCount droppedCount : Nat) :
    ∃ pre post, ∀ e, sealWords eventCount droppedCount (l ++ e :: r) = pre ++ digest e :: post := by
  induction l generalizing eventCount droppedCount with
  | nil => exact ⟨[], _, fun _ => rfl⟩
  | cons x _ ih =>
    obtain ⟨pre, post, h⟩ :=
      ih (if eventCount < auditEventMax then eventCount + 1 else eventCount)
      (if eventCount < auditEventMax then droppedCount else (droppedCount + 1) % 2 ^ 64)
    refine ⟨digest x :: BitVec.ofNat 64 (if eventCount < auditEventMax then droppedCount
      else (droppedCount + 1) % 2 ^ 64) :: pre, post, fun e => ?_⟩
    rw [List.cons_append, sealWords, h e]
    rfl

/-- Two histories that differ in one field of one event. -/
def DiffersOnce (es fs : List AuditEvent) : Prop :=
  ∃ l e f r, es = l ++ e :: r ∧ fs = l ++ f :: r ∧ OneField e f

theorem sealOver_ne (a : AuditState) (hes : ∀ e ∈ es, Fits e)
    (hfs : ∀ f ∈ fs, Fits f) (h : DiffersOnce es fs) : sealOver a es ≠ sealOver a fs := by
  obtain ⟨l, e, f, r, rfl, rfl, hone⟩ := h
  obtain ⟨pre, post, hwords⟩ := sealWords_split l r a.eventCount a.droppedCount
  have hne := digest_ne (hes e (by simp)) (hfs f (by simp)) hone
  rw [sealOver, sealOver, hwords e, hwords f]
  intro heq
  exact hne ((chain_replace_inj prime_mul_inv _ pre post).mp heq)

/-- **ONE CHANGED FIELD** shows in the seal: of two lists of events sealed from one state of the
    ring, and of two histories recorded from it. -/
theorem seal_detects_one_change (a : AuditState) (es fs : List AuditEvent)
    (hes : ∀ e ∈ es, Fits e) (hfs : ∀ f ∈ fs, Fits f) (h : DiffersOnce es fs) :
    sealOver a es ≠ sealOver a fs
      ∧ ∀ cs ds, recorded a.nextSequenceId cs = es → recorded a.nextSequenceId ds = fs →
        (run record a cs).auditSeal ≠ (run record a ds).auditSeal := by
  have hne := sealOver_ne a hes hfs h
  refine ⟨hne, ?_⟩
  rintro _ _ rfl rfl
  rw [seal_run, seal_run]
  exact hne

/-- A grant, one more to a subject, and a revocation. -/
def threeCalls (subject : Nat) : List AuditEvent :=
  [⟨0, .grant, 0, 1, 6, .ok⟩, ⟨1, .grant, 0, subject, 7, .ok⟩, ⟨2, .revoke, 0, 1, 6, .ok⟩]

theorem seal_detects_subject :
    sealOver auditReset (threeCalls 2) ≠ sealOver auditReset (threeCalls 3) :=
  (seal_detects_one_change auditReset (threeCalls 2) (threeCalls 3) (by decide) (by decide)
    ⟨[⟨0, .grant, 0, 1, 6, .ok⟩], _, _, [⟨2, .revoke, 0, 1, 6, .ok⟩], rfl, rfl,
      .subjectId (by decide)⟩).1

end AuditSeal
