import SecureOS.CapabilityModel
import SecureOS.Lib.LastRingProofs
import SecureOS.Lib.MachineRunProofs

/-! # What the audit ring keeps

The event ring and the checkpoint ring of `kernel/cap/capability.c` are logs that keep their
last 32 and last eight entries.  Along a history of recorded events the first takes one entry an
event, the second one entry every eighth event, with the seal and the dropped count of that
moment. -/

namespace AuditRing

open Capability MachineRun List BitVec

/-- The arguments of one `cap_audit_record`. -/
structure AuditCall where
  operation : AuditOp
  actor : Nat
  subject : Nat
  cap : Nat
  result : CapResult
deriving DecidableEq, Repr

/-- One recorded event. -/
def record (a : AuditState) (c : AuditCall) : AuditState :=
  capAuditRecord a c.operation c.actor c.subject c.cap c.result

/-- The event a call leaves under a sequence number. -/
def AuditCall.event (c : AuditCall) (sequenceId : BitVec 64) : AuditEvent :=
  ⟨sequenceId, c.operation, c.actor, c.subject, c.cap, c.result⟩

/-- A ring nothing was recorded in yet, over any storage and with any seal. -/
def blank (events : Fin 32 → AuditEvent) (checkpoints : Fin 8 → AuditCheckpoint)
    (auditSeal : BitVec 64) : AuditState :=
  ⟨events, 0, 0, 0, 0, checkpoints, 0, 0, 0, auditSeal⟩

/-- The dropped count after one more event. -/
def nextDropped (a : AuditState) : Nat :=
  if a.eventCount < auditEventMax then a.droppedCount else (a.droppedCount + 1) % 2 ^ 64

/-- The state between the event and its checkpoint. -/
def noted (a : AuditState) (c : AuditCall) : AuditState :=
  { a with
    events := Function.update a.events a.nextIndex (c.event a.nextSequenceId)
    nextSequenceId := a.nextSequenceId + 1
    nextIndex := a.nextIndex + 1
    eventCount := if a.eventCount < auditEventMax then a.eventCount + 1 else a.eventCount
    droppedCount := nextDropped a
    auditSeal := capAuditMixU64
      (capAuditMixU64 a.auditSeal (capAuditEventDigest a.nextSequenceId c.operation c.actor
        c.subject c.cap c.result))
      (BitVec.ofNat 64 (nextDropped a)) }

theorem record_eq (a : AuditState) (c : AuditCall) :
    record a c = capAuditMaybeEmitCheckpoint (noted a c) a.nextSequenceId := rfl

/-- What a checkpoint leaves alone: the events, their numbering and the seal. -/
structure SameEvents (a b : AuditState) : Prop where
  events : b.events = a.events
  nextIndex : b.nextIndex = a.nextIndex
  eventCount : b.eventCount = a.eventCount
  droppedCount : b.droppedCount = a.droppedCount
  nextSequenceId : b.nextSequenceId = a.nextSequenceId
  auditSeal : b.auditSeal = a.auditSeal

theorem sameEvents_checkpoint (a : AuditState) (sequenceId : BitVec 64) :
    SameEvents a (capAuditMaybeEmitCheckpoint a sequenceId) := by
  unfold capAuditMaybeEmitCheckpoint
  split <;> exact ⟨rfl, rfl, rfl, rfl, rfl, rfl⟩

theorem sameEvents_record (a : AuditState) (c : AuditCall) : SameEvents (noted a c) (record a c) :=
  sameEvents_checkpoint (noted a c) a.nextSequenceId

/-- The event ring as a log. -/
def eventLog (a : AuditState) : LastRing.Log 32 AuditEvent := ⟨a.events, a.nextIndex, a.eventCount⟩

/-- The checkpoint ring as a log. -/
def checkpointLog (a : AuditState) : LastRing.Log 8 AuditCheckpoint :=
  ⟨a.checkpoints, a.checkpointNextIndex, a.checkpointCount⟩

theorem eventLog_record (a : AuditState) (c : AuditCall) :
    eventLog (record a c) = (eventLog a).push (c.event a.nextSequenceId) := by
  have h := sameEvents_record a c
  rw [eventLog, h.events, h.nextIndex, h.eventCount]
  rfl

/-- The checkpoint that an event closes. -/
def closed (a : AuditState) (c : AuditCall) : AuditCheckpoint :=
  ⟨a.nextCheckpointId, a.nextSequenceId + 1 - 8#64, a.nextSequenceId, (record a c).auditSeal,
    (record a c).droppedCount⟩

variable {a b : AuditState} {cs : List AuditCall}

/-- An event whose number is not the last of eight closes nothing. -/
theorem record_open (h : (a.nextSequenceId + 1) % 8#64 ≠ 0) :
    checkpointLog (record a c) = checkpointLog a
      ∧ (record a c).nextCheckpointId = a.nextCheckpointId := by
  have heq : record a c = noted a c := by exact if_pos h
  rw [heq]
  exact ⟨rfl, rfl⟩

/-- The last of eight closes a checkpoint. -/
theorem record_closes (h : (a.nextSequenceId + 1) % 8#64 = 0) :
    checkpointLog (record a c) = (checkpointLog a).push (closed a c)
      ∧ (record a c).nextCheckpointId = a.nextCheckpointId + 1 := by
  have hs := sameEvents_record a c
  have hlast : ¬ (a.nextSequenceId + 1) % BitVec.ofNat 64 auditCheckpointInterval ≠ 0 :=
    not_not_intro h
  rw [closed, hs.auditSeal, hs.droppedCount, record_eq, capAuditMaybeEmitCheckpoint, if_neg hlast]
  exact ⟨rfl, rfl⟩

/-- The events of a history under their numbers. -/
def numbered (cs : List AuditCall) : List AuditEvent :=
  cs.mapIdx (fun m c => c.event (BitVec.ofNat 64 m))

@[simp] theorem length_numbered (cs : List AuditCall) : (numbered cs).length = cs.length := by
  rw [numbered, length_mapIdx]

theorem numbered_concat (cs : List AuditCall) (c : AuditCall) :
    numbered (cs ++ [c]) = numbered cs ++ [c.event (BitVec.ofNat 64 cs.length)] := by
  rw [numbered, numbered]
  simp

/-- Checkpoint `k` covers events `8 k` to `8 k + 7`, with the seal and dropped count right after
    them. -/
def checkpointOf (a : AuditState) (cs : List AuditCall) (k : Nat) : AuditCheckpoint :=
  ⟨BitVec.ofNat 64 k, BitVec.ofNat 64 (8 * k), BitVec.ofNat 64 (8 * k + 7),
    (run record a (cs.take (8 * k + 8))).auditSeal,
    (run record a (cs.take (8 * k + 8))).droppedCount⟩

/-- The checkpoints a history has closed. -/
def checkpointsOf (a : AuditState) (cs : List AuditCall) : List AuditCheckpoint :=
  (List.range (cs.length / 8)).map (checkpointOf a cs)

section

variable (a : AuditState) (cs : List AuditCall) (c : AuditCall)

/-- A closed checkpoint does not change with later events. -/
theorem checkpointOf_concat (hk : 8 * k + 8 ≤ cs.length) :
    checkpointOf a (cs ++ [c]) k = checkpointOf a cs k := by
  rw [checkpointOf, checkpointOf, take_append_of_le_length hk]

theorem checkpointsOf_open (h : (cs.length + 1) % 8 ≠ 0) :
    checkpointsOf a (cs ++ [c]) = checkpointsOf a cs := by
  have hdiv : (cs ++ [c]).length / 8 = cs.length / 8 := by
    rw [length_append, length_singleton]
    omega
  rw [checkpointsOf, hdiv]
  refine map_congr_left ?_
  intro _ hk
  have hk' := mem_range.mp hk
  exact checkpointOf_concat a cs c (by omega)

theorem checkpointsOf_closes (h : (cs.length + 1) % 8 = 0) : checkpointsOf a (cs ++ [c])
      = checkpointsOf a cs ++ [checkpointOf a (cs ++ [c]) (cs.length / 8)] := by
  have hdiv : (cs ++ [c]).length / 8 = cs.length / 8 + 1 := by
    rw [length_append, length_singleton]
    omega
  rw [checkpointsOf, hdiv, range_succ, map_append]
  congr 1
  refine map_congr_left ?_
  intro _ hk
  have hk' := mem_range.mp hk
  exact checkpointOf_concat a cs c (by omega)

end

/-- The state `b` after the history `cs` from the state `a`. -/
structure Tracks (a : AuditState) (cs : List AuditCall) (b : AuditState) : Prop where
  reached : b = run record a cs
  number : b.nextSequenceId = BitVec.ofNat 64 cs.length
  events : LastRing.Holds (eventLog b) (numbered cs)
  dropped : b.droppedCount = (cs.length - min cs.length 32) % 2 ^ 64
  checkpointId : b.nextCheckpointId = BitVec.ofNat 64 (cs.length / 8)
  checkpoints : LastRing.Holds (checkpointLog b) (checkpointsOf a cs)

theorem tracks_blank (events : Fin 32 → AuditEvent) (checkpoints : Fin 8 → AuditCheckpoint)
    (auditSeal : BitVec 64) :
    Tracks (blank events checkpoints auditSeal) [] (blank events checkpoints auditSeal) where
  reached := rfl
  number := rfl
  events := LastRing.holds_nil rfl rfl
  dropped := rfl
  checkpointId := rfl
  checkpoints := LastRing.holds_nil rfl rfl

/-- The numbers of the 64-bit words that close a checkpoint. -/
theorem closes_iff (m : Nat) : (BitVec.ofNat 64 m + 1) % 8#64 = 0 ↔ (m + 1) % 8 = 0 := by
  rw [toNat_eq]
  show (m % 2 ^ 64 + 1) % 2 ^ 64 % 8 = 0 ↔ _
  omega

/-- The checkpoint closed by event number `8 k + 7`. -/
theorem closed_eq (h : Tracks a cs b) (c : AuditCall) (hlast : (cs.length + 1) % 8 = 0) :
    closed b c = checkpointOf a (cs ++ [c]) (cs.length / 8) := by
  have htake : (cs ++ [c]).take (8 * (cs.length / 8) + 8) = cs ++ [c] := by
    refine take_of_length_le ?_
    rw [length_append, length_singleton]
    omega
  have hstart : BitVec.ofNat 64 cs.length + 1 - 8#64 = BitVec.ofNat 64 (8 * (cs.length / 8)) := by
    apply eq_of_toNat_eq
    rw [toNat_sub, toNat_add, toNat_ofNat, toNat_ofNat, toNat_ofNat]
    show (2 ^ 64 - 8 + (cs.length % 2 ^ 64 + 1) % 2 ^ 64) % 2 ^ 64 = _
    omega
  rw [closed, checkpointOf, htake, run_append, ← h.reached, h.number, hstart, h.checkpointId,
    show 8 * (cs.length / 8) + 7 = cs.length by omega]
  rfl

/-- The dropped count follows the number of events. -/
theorem nextDropped_eq (h : Tracks a cs b) :
    nextDropped b = (cs.length + 1 - min (cs.length + 1) 32) % 2 ^ 64 := by
  have hcount : b.eventCount = min cs.length 32 := by
    have := h.events.count
    rwa [length_numbered] at this
  rw [nextDropped, h.dropped, auditEventMax]
  split
  · congr 1
    omega
  · rw [Nat.mod_add_mod]
    congr 1
    omega

/-- **ONE EVENT** keeps the rings in step with the history. -/
theorem tracks_record (h : Tracks a cs b) (c : AuditCall) : Tracks a (cs ++ [c]) (record b c) := by
  have hs := sameEvents_record b c
  have hlen : (cs ++ [c]).length = cs.length + 1 := length_append
  have hclose := closes_iff cs.length
  rw [← h.number] at hclose
  refine ⟨?_, ?_, ?_, ?_, ?_, ?_⟩
  · rw [run_append, ← h.reached]
    rfl
  · rw [hs.nextSequenceId, hlen, ofNat_add]
    show b.nextSequenceId + 1 = _
    rw [h.number]
    rfl
  · rw [eventLog_record, numbered_concat, h.number]
    exact LastRing.holds_push h.events _
  · rw [hs.droppedCount, hlen]
    exact nextDropped_eq h
  · by_cases hlast : (cs.length + 1) % 8 = 0
    · rw [(record_closes (hclose.mpr hlast)).2, h.checkpointId, hlen,
        show (cs.length + 1) / 8 = cs.length / 8 + 1 by omega, ofNat_add]
      rfl
    · rw [(record_open (fun hc => hlast (hclose.mp hc))).2, h.checkpointId, hlen,
        show (cs.length + 1) / 8 = cs.length / 8 by omega]
  · by_cases hlast : (cs.length + 1) % 8 = 0
    · rw [(record_closes (hclose.mpr hlast)).1, checkpointsOf_closes a cs c hlast,
        closed_eq h c hlast]
      exact LastRing.holds_push h.checkpoints _
    · rw [(record_open (fun hc => hlast (hclose.mp hc))).1, checkpointsOf_open a cs c hlast]
      exact h.checkpoints

/-- **EVERY HISTORY** is tracked. -/
theorem tracks_run (h : Tracks a [] a) (cs : List AuditCall) : Tracks a cs (run record a cs) := by
  induction cs using List.reverseRecOn with
  | nil => exact h
  | append_singleton _ c ih =>
    rw [run_append]
    exact tracks_record ih c

theorem get_eq (a : AuditState) (i : Nat) :
    capAuditGetForTests a i = ((eventLog a).get i).elim (.error .errCapInvalid) .ok := by
  rw [capAuditGetForTests, LastRing.elim_get]
  rfl

theorem checkpointGet_eq (a : AuditState) (i : Nat) : capAuditCheckpointGetForTests a i
      = ((checkpointLog a).get i).elim (.error .errCapInvalid) .ok := by
  rw [capAuditCheckpointGetForTests, LastRing.elim_get]
  rfl

theorem get_tracks (h : Tracks a cs b) (hi : i < min cs.length 32) :
    ∃ c, cs[cs.length - min cs.length 32 + i]? = some c ∧ capAuditGetForTests b i
        = .ok (c.event (BitVec.ofNat 64 (cs.length - min cs.length 32 + i))) := by
  have hlt : cs.length - min cs.length 32 + i < cs.length := by omega
  refine ⟨_, List.getElem?_eq_getElem hlt, ?_⟩
  rw [get_eq, LastRing.get_of_holds h.events, length_numbered, if_pos hi, numbered,
    List.getElem?_mapIdx, List.getElem?_eq_getElem hlt]
  rfl

theorem checkpointGet_tracks (h : Tracks a cs b) (hj : j < min (cs.length / 8) 8) :
    capAuditCheckpointGetForTests b j
      = .ok (checkpointOf a cs (cs.length / 8 - min (cs.length / 8) 8 + j)) := by
  have hlen : (checkpointsOf a cs).length = cs.length / 8 := by
    rw [checkpointsOf, length_map, length_range]
  have hlt : cs.length / 8 - min (cs.length / 8) 8 + j < cs.length / 8 := by omega
  rw [checkpointGet_eq, LastRing.get_of_holds h.checkpoints, hlen, if_pos hj, checkpointsOf,
    List.getElem?_map, List.getElem?_range hlt]
  rfl

/-- **THE AUDIT RING** after any history, over any storage: the last 32 events under their numbers,
    how many were lost, and the last eight checkpoints, counted in 64-bit words. -/
theorem audit_ring_keeps_last (events : Fin 32 → AuditEvent) (checkpoints : Fin 8 → AuditCheckpoint)
    (auditSeal : BitVec 64) (cs : List AuditCall) :
    let a := run record (blank events checkpoints auditSeal) cs
    (∀ i, i < min cs.length 32 → ∃ c, cs[cs.length - min cs.length 32 + i]? = some c
        ∧ capAuditGetForTests a i
          = .ok (c.event (BitVec.ofNat 64 (cs.length - min cs.length 32 + i))))
      ∧ capAuditDroppedForTests a = (cs.length - min cs.length 32) % 2 ^ 64
      ∧ capAuditCheckpointCountForTests a = min (cs.length / 8) 8
      ∧ ∀ j, j < min (cs.length / 8) 8 → capAuditCheckpointGetForTests a j
          = .ok (checkpointOf (blank events checkpoints auditSeal) cs
              (cs.length / 8 - min (cs.length / 8) 8 + j)) := by
  intro a
  have h := tracks_run (tracks_blank events checkpoints auditSeal) cs
  refine ⟨fun i hi => get_tracks h hi, h.dropped, ?_, fun j hj => checkpointGet_tracks h hj⟩
  have hcount := h.checkpoints.count
  rwa [checkpointsOf, length_map, length_range] at hcount

/-- A history that is longer than the 64-bit numbers. -/
@[irreducible] def longHistory : List AuditCall :=
  List.replicate (2 ^ 64 + 33) ⟨.check, 0, 0, 1, .ok⟩

theorem length_longHistory : longHistory.length = 2 ^ 64 + 33 := by
  rw [longHistory, length_replicate]

/-- A history longer than the 64-bit numbers reads back under wrapped ones. -/
theorem numbers_wrap (h : Tracks a cs b) (hlen : cs.length = 2 ^ 64 + 33) :
    (¬ ∀ i, i < min cs.length 32 → ∃ e, capAuditGetForTests b i = .ok e
        ∧ e.sequenceId.toNat = cs.length - min cs.length 32 + i)
      ∧ capAuditDroppedForTests b ≠ cs.length - min cs.length 32 := by
  constructor
  · intro hnumbers
    have hlast : 31 < min cs.length 32 := by omega
    obtain ⟨_, _, _⟩ := hnumbers 31 hlast
    omega
  · intro hdropped
    have hcount := h.dropped.symm.trans hdropped
    omega

/-- Numbers and dropped count wrap: the last event reads as number 32, and one counts as dropped. -/
theorem audit_numbers_wrap : (¬ ∀ i, i < min longHistory.length 32 → ∃ e,
        capAuditGetForTests (run record auditReset longHistory) i = .ok e
          ∧ e.sequenceId.toNat = longHistory.length - min longHistory.length 32 + i)
      ∧ capAuditDroppedForTests (run record auditReset longHistory)
        ≠ longHistory.length - min longHistory.length 32 :=
  have hblank : Tracks auditReset [] auditReset :=
    tracks_blank (fun _ => zeroEvent) (fun _ => ⟨0, 0, 0, 0, 0⟩) 1469598103934665603#64
  numbers_wrap (tracks_run hblank longHistory) length_longHistory

end AuditRing
