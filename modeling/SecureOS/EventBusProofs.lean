import SecureOS.CapTableProofs
import SecureOS.Lib.LastRingProofs
import SecureOS.Lib.MachineRunProofs

/-! # The event bus

`kernel/event/event_bus.c`: one ring of 16 events per topic, filled by `event_publish` and read
back from the oldest event on.  A publish stores the fields and the `payload_size` bytes of its
event into the next slot of the topic's ring, and a read hands out the whole slot.

A slot is never cleared, so bytes behind a payload are what the slot held before.  `Clean` says
that these are zero; along runs that meet it a reader gets the events themselves. -/

namespace EventBus

open Capability CapTable MachineRun Function List

/-- `os_event_t`, with its payload buffer of `EVENT_PAYLOAD_MAX` bytes. -/
structure OsEvent where
  sequenceId : BitVec 64
  topic : Nat
  actorSubjectId : Nat
  targetSubjectId : Nat
  correlationId : BitVec 64
  payloadSize : Nat
  payload : Fin 96 → BitVec 8

/-- `event_topic_ring_t`; the dropped count is a `size_t`. -/
structure TopicRing where
  events : Fin 16 → OsEvent
  nextIndex : Fin 16
  eventCount : Nat
  droppedCount : Nat

/-- `event_topics` and `event_next_sequence_id`. -/
structure Bus where
  topics : Fin 7 → TopicRing
  nextSequenceId : BitVec 64

/-- The failures of `event_result_t`. -/
inductive EventError where
  | subjectInvalid
  | topicInvalid
  | payloadTooLarge
  | payloadInvalid
  | capMissing
deriving DecidableEq, Repr

/-- The arguments of `event_publish`, with the capability table; a payload pointer may be null. -/
structure PublishCall where
  bits : Bits
  actorSubjectId : Nat
  topic : Nat
  targetSubjectId : Nat
  correlationId : BitVec 64
  payload : Option (Nat → BitVec 8)
  payloadSize : Nat

/-- `event_topic_valid` and `event_topic_index`: the topics are numbered from 1 to
    `EVENT_TOPIC_COUNT`. -/
def eventTopicIndex (topic : Nat) : Option (Fin 7) :=
  if h : 1 ≤ topic ∧ topic ≤ 7 then some ⟨topic - 1, by omega⟩ else none

/-- `event_copy_bytes` into a payload buffer. -/
def eventCopyBytes (dst : Fin 96 → BitVec 8) (src : Nat → BitVec 8) (size : Nat) :
    Fin 96 → BitVec 8 :=
  fun k => if k.val < size then src k.val else dst k

/-- The slot after the stores of `event_publish`. -/
def PublishCall.store (c : PublishCall) (sequenceId : BitVec 64) (slot : OsEvent) : OsEvent where
  sequenceId := sequenceId
  topic := c.topic
  actorSubjectId := c.actorSubjectId
  targetSubjectId := c.targetSubjectId
  correlationId := c.correlationId
  payloadSize := c.payloadSize
  payload := match c.payload with
    | some src => eventCopyBytes slot.payload src c.payloadSize
    | none => slot.payload

/-- The ring after one more event. -/
def TopicRing.advance (r : TopicRing) (e : OsEvent) : TopicRing where
  events := update r.events r.nextIndex e
  nextIndex := r.nextIndex + 1
  eventCount := if r.eventCount < 16 then r.eventCount + 1 else r.eventCount
  droppedCount := if r.eventCount < 16 then r.droppedCount else (r.droppedCount + 1) % 2 ^ 64

/-- `event_publish`, with the sequence id it reports. -/
def eventPublish (b : Bus) (c : PublishCall) : Except EventError (Bus × BitVec 64) :=
  if 8 ≤ c.actorSubjectId ∨ 8 ≤ c.targetSubjectId then .error .subjectInvalid
  else
    match eventTopicIndex c.topic with
    | none => .error .topicInvalid
    | some t =>
      if 96 < c.payloadSize then .error .payloadTooLarge
      else if 0 < c.payloadSize ∧ c.payload.isNone then .error .payloadInvalid
      else if capTableCheck c.bits c.actorSubjectId capEventPublish ≠ .ok then .error .capMissing
      else
        let ring := b.topics t
        let slot := ring.events ring.nextIndex
        .ok (⟨update b.topics t (ring.advance (c.store b.nextSequenceId slot)),
          b.nextSequenceId + 1⟩, b.nextSequenceId)

/-- `event_get_for_topic_for_tests`, into a given buffer. -/
def eventGetForTopic (b : Bus) (topic index : Nat) : Except EventError OsEvent :=
  match eventTopicIndex topic with
  | none => .error .topicInvalid
  | some t =>
    let ring := b.topics t
    if ring.eventCount ≤ index then .error .payloadInvalid
    else
      let start := if ring.eventCount = 16 then ring.nextIndex.val else 0
      .ok (ring.events (Fin.ofNat 16 (start + index)))

/-- `event_dropped_for_topic_for_tests`. -/
def eventDroppedForTopic (b : Bus) (topic : Nat) : Nat :=
  match eventTopicIndex topic with
  | none => 0
  | some t => (b.topics t).droppedCount

/-- `event_bus_reset_for_tests`, which `kmain` calls as well: the slots keep their bytes. -/
def eventBusReset (b : Bus) : Bus := ⟨fun t => ⟨(b.topics t).events, 0, 0, 0⟩, 0⟩

/-- The bus after a publish call. -/
def publish (b : Bus) (c : PublishCall) : Bus :=
  match eventPublish b c with
  | .ok (b', _) => b'
  | .error _ => b

/-- The event of a call: its fields, its payload bytes and zeros behind them. -/
def PublishCall.event (c : PublishCall) (sequenceId : BitVec 64) : OsEvent :=
  c.store sequenceId ⟨0, 0, 0, 0, 0, 0, fun _ => 0⟩

/-- What a call adds to the events published. -/
def published (b : Bus) (c : PublishCall) : List OsEvent :=
  match eventPublish b c with
  | .ok (_, sequenceId) => [c.event sequenceId]
  | .error _ => []

/-- Everything published by a run on a bus just reset. -/
def allEvents (b : Bus) (cs : List PublishCall) : List OsEvent :=
  emitted publish published (eventBusReset b) cs

/-- The slot a call is about to fill holds zeros from the call's payload size on. -/
def Clean (b : Bus) (c : PublishCall) : Prop :=
  ∀ t, eventTopicIndex c.topic = some t → ∀ k : Fin 96, c.payloadSize ≤ k.val →
    ((b.topics t).events (b.topics t).nextIndex).payload k = 0

/-- The events of one topic. -/
def ofTopic (t : Fin 7) (es : List OsEvent) : List OsEvent :=
  es.filter (fun e => e.topic = t.val + 1)

/-- A topic's ring as a log that keeps its last 16 entries. -/
def TopicRing.log (r : TopicRing) : LastRing.Log 16 OsEvent := ⟨r.events, r.nextIndex, r.eventCount⟩

theorem eventTopicIndex_eq_some (h : eventTopicIndex topic = some t) : topic = t.val + 1 := by
  rw [eventTopicIndex] at h
  split_ifs at h with hv
  rw [← Option.some.inj h]
  show topic = topic - 1 + 1
  omega

/-- **WHAT IS STORED** is the event iff the bytes behind its payload were zero. -/
theorem stored_eq_event_iff (c : PublishCall) (hp : 0 < c.payloadSize → c.payload.isSome)
    (sequenceId : BitVec 64) (slot : OsEvent) : c.store sequenceId slot = c.event sequenceId
      ↔ ∀ k : Fin 96, c.payloadSize ≤ k.val → slot.payload k = 0 := by
  rw [PublishCall.event, PublishCall.store, PublishCall.store, OsEvent.mk.injEq]
  simp only [true_and]
  cases hc : c.payload with
  | none =>
    have hsize : c.payloadSize = 0 := by
      by_contra hne
      have := hp (Nat.pos_of_ne_zero hne)
      rw [hc] at this
      cases this
    rw [hsize]
    exact ⟨fun h k _ => congrFun h k, fun h => funext fun k => h k (Nat.zero_le _)⟩
  | some =>
    constructor
    · intro h k hk
      have hat := congrFun h k
      simpa only [eventCopyBytes, if_neg (Nat.not_lt.mpr hk)] using hat
    · intro h
      funext k
      simp only [eventCopyBytes]
      split_ifs with hk
      · rfl
      · exact h k (Nat.le_of_not_lt hk)

/-- A call is refused and changes nothing, or fills one slot of its topic. -/
theorem publish_cases (b : Bus) (c : PublishCall) (hclean : Clean b c) :
    (publish b c = b ∧ published b c = []) ∨ ∃ t, c.topic = t.val + 1
        ∧ publish b c = ⟨update b.topics t
            ((b.topics t).advance (c.event b.nextSequenceId)), b.nextSequenceId + 1⟩
        ∧ published b c = [c.event b.nextSequenceId] := by
  rw [publish, published]
  fun_cases eventPublish b c with
  | case6 _ t ht _ hn =>
    have hp : 0 < c.payloadSize → c.payload.isSome := by
      intro h
      exact Option.isSome_iff_ne_none.mpr (by simpa [h] using hn)
    rw [(stored_eq_event_iff c hp _ _).mpr (hclean t ht)]
    exact Or.inr ⟨t, eventTopicIndex_eq_some ht, rfl, rfl⟩
  | _ => exact Or.inl ⟨rfl, rfl⟩

/-- The bus after everything in the list was published. -/
structure Tracks (b : Bus) (es : List OsEvent) : Prop where
  number : b.nextSequenceId = BitVec.ofNat 64 es.length
  ids : ∀ k e, es[k]? = some e → e.sequenceId = BitVec.ofNat 64 k
  rings : ∀ t, LastRing.Holds (b.topics t).log (ofTopic t es)
  dropped : ∀ t, (b.topics t).droppedCount
    = ((ofTopic t es).length - min (ofTopic t es).length 16) % 2 ^ 64

theorem tracks_reset (b : Bus) : Tracks (eventBusReset b) [] where
  number := rfl
  ids k e h := by cases h
  rings t := LastRing.holds_nil rfl rfl
  dropped t := rfl

/-- The dropped count follows the number of events. -/
theorem dropped_advance {r : TopicRing} {m : Nat} (hcount : r.eventCount = min m 16)
    (hdropped : r.droppedCount = (m - min m 16) % 2 ^ 64) (e : OsEvent) :
    (r.advance e).droppedCount = (m + 1 - min (m + 1) 16) % 2 ^ 64 := by
  rw [TopicRing.advance, hdropped]
  dsimp only
  split_ifs with hfull
  · congr 1
    omega
  · rw [Nat.mod_add_mod]
    congr 1
    omega

/-- **ONE CALL** keeps the rings in step with what was published. -/
theorem tracks_publish (h : Tracks b es) (c : PublishCall)
    (hclean : Clean b c) : Tracks (publish b c) (es ++ published b c) := by
  obtain ⟨hb, hes⟩ | ⟨t, htopic, hb, hes⟩ := publish_cases b c hclean
  · rw [hb, hes, append_nil]
    exact h
  · rw [hb, hes]
    -- the new event goes to its own topic and to no other
    have hof : ∀ u, ofTopic u (es ++ [c.event b.nextSequenceId])
        = ofTopic u es ++ if u = t then [c.event b.nextSequenceId] else [] := by
      intro u
      rw [ofTopic, filter_append, filter_singleton]
      show _ ++ (bif decide (c.topic = u.val + 1) then _ else _) = _
      rw [htopic]
      simp only [Nat.add_right_cancel_iff, ← Fin.ext_iff, eq_comm (a := t), cond_eq_ite,
        decide_eq_true_eq]
      rfl
    refine ⟨?_, ?_, fun u => ?_, fun u => ?_⟩
    · rw [length_append, BitVec.ofNat_add, ← h.number]
      rfl
    · intro k e hk
      rw [List.getElem?_append] at hk
      split_ifs at hk with hlt
      · exact h.ids k e hk
      · obtain ⟨hlast, he⟩ := List.getElem?_eq_some_iff.mp hk
        rw [length_singleton] at hlast
        obtain rfl : k = es.length := by omega
        rw [← he, ← h.number]
        simp [PublishCall.event, PublishCall.store]
    · rw [hof]
      show LastRing.Holds (update b.topics t _ u).log _
      rw [update_apply]
      split_ifs with hu
      · rw [hu]
        exact LastRing.holds_push (h.rings t) _
      · rw [append_nil]
        exact h.rings u
    · rw [hof]
      show (update b.topics t _ u).droppedCount = _
      rw [update_apply]
      split_ifs with hu
      · rw [hu, length_append]
        exact dropped_advance (h.rings t).count (h.dropped t) _
      · rw [append_nil]
        exact h.dropped u

/-- **EVERY RUN** whose calls find clean slots is tracked. -/
theorem tracks_run (b : Bus) (cs : List PublishCall)
    (hclean : Along publish Clean (eventBusReset b) cs) :
    Tracks (run publish (eventBusReset b) cs) (allEvents b cs) := by
  refine run_history (J := fun cs k es => Along publish Clean (eventBusReset b) cs → Tracks k es)
    published (fun _ => tracks_reset b) ?_ cs hclean
  rintro cs _ _ c ih rfl hcs
  obtain ⟨hbefore, hlast, -⟩ := (along_append publish Clean cs [c] _).mp hcs
  exact tracks_publish (ih hbefore) c hlast

theorem get_eq_log (b : Bus) (ht : eventTopicIndex topic = some t) (i : Nat) :
    eventGetForTopic b topic i = ((b.topics t).log.get i).elim (.error .payloadInvalid) .ok := by
  rw [eventGetForTopic, ht, LastRing.elim_get]
  rfl

theorem Tracks.increasing (h : Tracks b es)
    (hlen : es.length ≤ 2 ^ 64) : es.Pairwise (fun e e' => e.sequenceId < e'.sequenceId) := by
  rw [pairwise_iff_getElem]
  intro i j hi hj _
  rw [h.ids i _ (List.getElem?_eq_getElem hi), h.ids j _ (List.getElem?_eq_getElem hj),
    BitVec.lt_def, BitVec.toNat_ofNat, BitVec.toNat_ofNat]
  rwa [Nat.mod_eq_of_lt (by omega), Nat.mod_eq_of_lt (by omega)]

/-- **THE QUEUES** after a run of at most 2^64 publishes onto clean slots: a topic's last 16 events
    themselves, the number of those dropped, and increasing ids. -/
theorem event_queues_exact (b : Bus) (cs : List PublishCall)
    (hclean : Along publish Clean (eventBusReset b) cs) (hlen : (allEvents b cs).length ≤ 2 ^ 64) :
    (allEvents b cs).Pairwise (fun e e' => e.sequenceId < e'.sequenceId)
      ∧ ∀ topic t, eventTopicIndex topic = some t → ∀ n, n = (ofTopic t (allEvents b cs)).length →
          (∀ i, i < min n 16 → ∃ e, (ofTopic t (allEvents b cs))[n - min n 16 + i]? = some e
            ∧ eventGetForTopic (run publish (eventBusReset b) cs) topic i = .ok e)
          ∧ eventDroppedForTopic (run publish (eventBusReset b) cs) topic = n - min n 16 := by
  have h := tracks_run b cs hclean
  refine ⟨h.increasing hlen, ?_⟩
  intro _ t ht n hn
  constructor
  · intro i hi
    have hlt : n - min n 16 + i < (ofTopic t (allEvents b cs)).length := by omega
    refine ⟨_, List.getElem?_eq_getElem hlt, ?_⟩
    rw [get_eq_log _ ht, LastRing.get_of_holds (h.rings t), ← hn, if_pos hi,
      List.getElem?_eq_getElem hlt]
    rfl
  · have hle : n ≤ (allEvents b cs).length := hn.trans_le (length_filter_le ..)
    rw [eventDroppedForTopic, ht]
    show ((run publish (eventBusReset b) cs).topics t).droppedCount = _
    rw [h.dropped t, ← hn, Nat.mod_eq_of_lt (by omega)]

/-- A bus in zeroed storage. -/
def zeroBus : Bus := ⟨fun _ => ⟨fun _ => ⟨0, 0, 0, 0, 0, 0, fun _ => 0⟩, 0, 0, 0⟩, 0⟩

/-- Subject 0 publishes to topic 1 with a payload of `size` bytes `A`. -/
def letters (size : Nat) : PublishCall :=
  ⟨(capTableGrant capTableReset 0 capEventPublish).1, 0, 1, 0, 0, some fun _ => 0x41, size⟩

instance : DecidableRel Clean := fun _ _ =>
  inferInstanceAs (Decidable (∀ _, _ → ∀ _ : Fin 96, _ → _))

/-- Of eighteen events the first two are dropped, and the oldest one left is the third. -/
theorem event_queues_exact_wrapped :
    (∃ e, (ofTopic 0 (allEvents zeroBus (.replicate 18 (letters 1))))[2]? = some e
        ∧ eventGetForTopic (run publish (eventBusReset zeroBus) (.replicate 18 (letters 1))) 1 0
          = .ok e)
      ∧ eventDroppedForTopic (run publish (eventBusReset zeroBus) (.replicate 18 (letters 1))) 1
        = 2 := by
  have h := (event_queues_exact zeroBus (.replicate 18 (letters 1)) (by decide +kernel)
    (by decide +kernel)).2 1 0 rfl 18 (by decide +kernel)
  exact ⟨h.1 0 (by decide), h.2⟩

/-- A payload of one byte, then 16 empty ones: the last event is handed out with the first one's
    byte. -/
theorem old_byte_handed_out : ∃ e, eventGetForTopic (run publish (eventBusReset zeroBus)
        (letters 1 :: List.replicate 16 (letters 0))) 1 15 = .ok e
      ∧ e.sequenceId = 16 ∧ e.payloadSize = 0 ∧ e.payload 0 = 0x41 :=
  ⟨_, rfl, rfl, rfl, rfl⟩

end EventBus
