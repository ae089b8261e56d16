import SecureOS.TcpModel

/-! # What a TCP client hands out

A peer sends one stream of bytes; a segment carries the piece of it that its sequence number
says (`Carries`).  The client keeps no account of what it has already taken: it stores whatever
a segment holds behind what it has and acknowledges up to the end of that segment.  So what
`tcp_recv` hands out is the stream exactly as long as every segment that brings data or the end
of the stream is the next one, fits, and has a whole header (`InOrder`). -/

namespace Tcp

open Sof (Byte)
open MachineRun List

/-- The other end: its initial sequence number and the stream it sends. -/
structure Peer where
  isn : BitVec 32
  stream : List Byte
deriving DecidableEq, Repr

/-- The sequence number of byte `k` of the stream. -/
def Peer.seqOf (peer : Peer) (k : Nat) : BitVec 32 := peer.isn + 1 + BitVec.ofNat 32 k

/-- The segment is one that the peer sends with the bytes of the stream from `k` on: its header is
    whole, and the end of the stream is announced with the last byte. -/
def Carries (peer : Peer) (g : Segment) (k : Nat) : Prop :=
  headerLen ≤ g.dataOffset ∧ g.seq = peer.seqOf k ∧ g.payload <+: peer.stream.drop k
    ∧ (g.has flagFin → k + g.payload.length = peer.stream.length)

instance (peer : Peer) (g : Segment) (k : Nat) : Decidable (Carries peer g k) :=
  inferInstanceAs (Decidable (_ ∧ _ ∧ _ ∧ _))

/-- The segment reaches the receive buffer or the end flag. -/
def Segment.delivers (g : Segment) (len : Nat) : Bool :=
  g.has flagAck && decide (g.dataOffset ≤ len) && (g.payload != [] || g.has flagFin)

/-- What keeps the client with the stream: the answer to the connection request comes before any
    data, and what brings data or the end is the next piece and fits. -/
def InOrderSegment (peer : Peer) (s : Client) (g : Segment) (len : Nat) : Prop :=
  if g.has flagRst then True
  else if g.isSynAck then g.seq = peer.isn ∧ s.ring = [] ∧ s.fin = false
  else g.delivers len → s.conn.connected ∧ s.fin = false ∧ Carries peer g s.ring.length
      ∧ s.ring.length + g.payload.length ≤ responseMax

instance (peer : Peer) (s : Client) (g : Segment) (len : Nat) :
    Decidable (InOrderSegment peer s g len) := by
  unfold InOrderSegment
  infer_instance

/-- Every packet of the connection is in order. -/
def InOrder (peer : Peer) (s : Client) : Op → Prop
  | .packet srcIp bytes =>
    forConn s srcIp bytes = true → InOrderSegment peer s (parse bytes) bytes.length
  | _ => True

instance decidableInOrder (peer : Peer) (s : Client) : ∀ op, Decidable (InOrder peer s op)
  | .packet srcIp bytes =>
    inferInstanceAs (Decidable (forConn s srcIp bytes = true →
      InOrderSegment peer s (parse bytes) bytes.length))
  | .connectFinish | .send .. | .recv _ | .close => .isTrue trivial

/-- How far a sequence number is into the stream. -/
def Peer.covered (peer : Peer) (ack : BitVec 32) : Nat := (ack - (peer.isn + 1)).toNat

/-- A sent segment acknowledges only bytes that were stored, and the end only if it was seen. -/
def AcksStored (peer : Peer) (t : Sent) : Prop :=
  t.flags &&& flagAck ≠ 0 → peer.covered t.ack ≤ t.stored + t.fin.toNat

/-- The client stands where the peer's stream is. -/
structure Synced (peer : Peer) (s : Client) : Prop where
  stored : s.ring <+: peer.stream
  head_le : s.head ≤ s.ring.length
  handed : s.handed = s.ring.take s.head
  next : s.conn.connected = true → s.conn.ack = peer.seqOf (s.ring.length + s.fin.toNat)
  acks : ∀ t ∈ s.sent, AcksStored peer t

theorem covered_seqOf_le (peer : Peer) (n : Nat) : peer.covered (peer.seqOf n) ≤ n := by
  have hcancel : peer.seqOf n - (peer.isn + 1) = BitVec.ofNat 32 n := by
    rw [Peer.seqOf, BitVec.add_comm, BitVec.add_sub_cancel]
  rw [Peer.covered, hcancel]
  exact Nat.mod_le n _

variable {peer : Peer} {s : Client}

/-- A segment may be sent while its acknowledgment number is the first byte missing. -/
theorem Synced.send (h : Synced peer s)
    (hack : s.conn.ack = peer.seqOf (s.ring.length + s.fin.toNat)) (flags : Byte)
    (data : List Byte) : Synced peer (tcpSendSegment s flags data) := by
  refine ⟨h.stored, h.head_le, h.handed, h.next, ?_⟩
  intro t ht
  rcases mem_append.mp ht with hold | hnew
  · exact h.acks t hold
  · rw [mem_singleton.mp hnew]
    intro _
    have hcovered := covered_seqOf_le peer (s.ring.length + s.fin.toNat)
    rw [← hack] at hcovered
    exact hcovered

theorem seqOf_add (k n : Nat) : peer.seqOf k + BitVec.ofNat 32 n = peer.seqOf (k + n) := by
  rw [Peer.seqOf, Peer.seqOf, BitVec.ofNat_add, BitVec.add_assoc]

/-- A prefix followed by the next piece is a prefix. -/
theorem append_prefix_of_drop (hring : ring <+: stream)
    (hpayload : payload <+: stream.drop ring.length) : ring ++ payload <+: stream := by
  obtain ⟨_, rfl⟩ := hring
  rw [drop_left] at hpayload
  exact (prefix_append_right_inj ring).mpr hpayload

section

variable (h : Synced peer s) (hconn : s.conn.connected) (hfin : s.fin = false)
include h hconn hfin

theorem Synced.acceptPayload (hcarries : Carries peer g s.ring.length)
    (hfits : s.ring.length + g.payload.length ≤ responseMax) : Synced peer (acceptPayload s g)
      ∧ (acceptPayload s g).conn.connected ∧ (acceptPayload s g).fin = false := by
  unfold Tcp.acceptPayload
  split
  next => exact ⟨h, hconn, hfin⟩
  next =>
    have htake : g.payload.take (responseMax - s.ring.length) = g.payload :=
      take_of_length_le (by omega)
    have hack : g.seq + BitVec.ofNat 32 g.payload.length
        = peer.seqOf ((s.ring ++ g.payload).length + s.fin.toNat) := by
      rw [hcarries.2.1, seqOf_add, length_append, hfin]
      rfl
    rw [htake]
    have hstored : Synced peer
        { s with conn := { s.conn with ack := g.seq + BitVec.ofNat 32 g.payload.length }
                 ring := s.ring ++ g.payload } := by
      refine ⟨append_prefix_of_drop h.stored hcarries.2.2.1, ?_, ?_, fun _ => hack, h.acks⟩
      · rw [length_append]
        exact Nat.le_trans h.head_le (Nat.le_add_right _ _)
      · rw [take_append_of_le_length h.head_le]
        exact h.handed
    exact ⟨hstored.send hack flagAck [], hconn, hfin⟩

theorem Synced.acceptFin (g : Segment) : Synced peer (acceptFin s g) := by
  fun_cases Tcp.acceptFin s g with
  | case1 _ conn =>
    have hack : s.conn.ack + 1 = peer.seqOf (s.ring.length + true.toNat) := by
      rw [h.next hconn, hfin]
      exact seqOf_add s.ring.length 1
    have hended : Synced peer { s with conn, fin := true } :=
      ⟨h.stored, h.head_le, h.handed, fun _ => hack, h.acks⟩
    exact hended.send hack flagAck []
  | case2 => exact h

end

/-- One segment in order. -/
theorem Synced.dispatchSegment (h : Synced peer s)
    (horder : InOrderSegment peer s g len) : Synced peer (dispatchSegment s g len) := by
  unfold InOrderSegment at horder
  fun_cases Tcp.dispatchSegment s g len with
  | case1 =>
    refine ⟨h.stored, h.head_le, h.handed, ?_, h.acks⟩
    intro hconn
    cases hconn
  | case2 hrst hsyn =>
    rw [if_neg hrst, if_pos hsyn] at horder
    obtain ⟨hseq, hring, hfin⟩ := horder
    refine ⟨h.stored, h.head_le, h.handed, fun _ => ?_, h.acks⟩
    rw [hseq, hring, hfin]
    exact (BitVec.add_zero _).symm
  | case3 | case4 => exact h
  | case5 hrst hsyn hack hlen =>
    rw [if_neg hrst, if_neg hsyn] at horder
    by_cases hdel : g.delivers len = true
    · obtain ⟨hconn, hfin, hcarries, hfits⟩ := horder hdel
      obtain ⟨hpay, hconn', hfin'⟩ := h.acceptPayload hconn hfin hcarries hfits
      exact hpay.acceptFin hconn' hfin' g
    · -- a bare acknowledgment changes nothing
      have hbare : g.payload = [] ∧ g.has flagFin = false := by
        simpa [Segment.delivers, hack, Nat.le_of_not_lt hlen] using hdel
      rw [Tcp.acceptPayload, if_pos hbare.1, Tcp.acceptFin, hbare.2]
      exact h

theorem Synced.tcpSendLoop (h : Synced peer s) (hconn : s.conn.connected)
    (data : List Byte) (taken : List Bool) : Synced peer (tcpSendLoop s data taken) := by
  fun_induction Tcp.tcpSendLoop s data taken with
  | case1 | case2 => exact h
  | case3 s data _ _ _ _ ih =>
    have hsent := h.send (h.next hconn) (flagPsh ||| flagAck) (data.take mtu)
    exact ih ⟨hsent.stored, hsent.head_le, hsent.handed, hsent.next, hsent.acks⟩ hconn
  | case4 => exact h.send (h.next hconn) (flagPsh ||| flagAck) _

theorem Synced.tcpRecv (h : Synced peer s) (size : Nat) : Synced peer (tcpRecv s size) := by
  have hlen : ((s.ring.drop s.head).take size).length ≤ s.ring.length - s.head := by
    rw [length_take, length_drop]
    exact Nat.min_le_right _ _
  have hhead := h.head_le
  refine ⟨h.stored, ?_, ?_, h.next, h.acks⟩
  · show s.head + ((s.ring.drop s.head).take size).length ≤ s.ring.length
    omega
  · show s.handed ++ (s.ring.drop s.head).take size
      = s.ring.take (s.head + ((s.ring.drop s.head).take size).length)
    rw [h.handed, take_add, length_take, ← take_eq_take_min]

theorem Synced.step (h : Synced peer s) (horder : InOrder peer s op) : Synced peer (step s op) := by
  cases op with
  | packet =>
    simp only [Tcp.step, tcpDispatch]
    split
    next hfor => exact h.dispatchSegment (horder hfor)
    next => exact h
  | connectFinish =>
    simp only [Tcp.step, tcpConnectFinish]
    split
    next hconn => exact h.send (h.next hconn) flagAck []
    next => exact ⟨h.stored, h.head_le, h.handed, h.next, h.acks⟩
  | send data taken =>
    simp only [Tcp.step, tcpSend]
    split
    next hconn => exact h.tcpSendLoop hconn data taken
    next => exact h
  | recv size => exact h.tcpRecv size
  | close =>
    simp only [Tcp.step, tcpClose]
    split
    next hconn =>
      have hsent := h.send (h.next hconn) (flagFin ||| flagAck) []
      refine ⟨hsent.stored, hsent.head_le, hsent.handed, ?_, hsent.acks⟩
      intro hclosed
      cases hclosed
    next => exact ⟨h.stored, h.head_le, h.handed, h.next, h.acks⟩

theorem synced_start (peer : Peer) (ip : BitVec 32) (remote here : BitVec 16) (taken : Bool) :
    Synced peer (tcpConnectStart ip remote here taken) := by
  have hsyn : ∀ t : Sent, t.flags = flagSyn → AcksStored peer t := by
    intro t ht hflag
    exact absurd (by rw [ht]; decide) hflag
  have hacks : ∀ t ∈ (tcpConnectStart ip remote here taken).sent, AcksStored peer t := by
    intro t ht
    refine hsyn t ?_
    cases taken <;> exact congrArg Sent.flags (mem_singleton.mp ht)
  cases taken <;>
    exact ⟨List.nil_prefix, Nat.le_refl 0, rfl, fun hc => absurd hc Bool.false_ne_true, hacks⟩

/-- **THE STREAM IS HANDED OUT AS SENT**: in every run in which each segment that brings data or the
    end of the stream is the next piece and fits, what `tcp_recv` has handed out is a prefix of the
    peer's stream, and no acknowledgment covers a byte that was not stored. -/
theorem received_prefix (peer : Peer) (ip : BitVec 32) (remote here : BitVec 16) (taken : Bool)
    (ops : List Op)
    (horder : Along step (InOrder peer) (tcpConnectStart ip remote here taken) ops) :
    (run step (tcpConnectStart ip remote here taken) ops).handed <+: peer.stream
      ∧ ∀ t ∈ (run step (tcpConnectStart ip remote here taken) ops).sent, AcksStored peer t := by
  have hsynced := run_inv (I := Synced peer) (P := InOrder peer) (fun s op h ho => h.step ho) ops
    (tcpConnectStart ip remote here taken) (synced_start peer ip remote here taken) horder
  refine ⟨?_, hsynced.acks⟩
  rw [hsynced.handed]
  exact (List.take_prefix _ _).trans hsynced.stored

/-- A segment from port 80 to port 49152. -/
def rawSegment (seq flags : Byte) (payload : List Byte) : List Byte :=
  [0x00, 0x50, 0xC0, 0x00, 0x00, 0x00, 0x00, seq, 0x00, 0x00, 0x00, 0x00, 0x50, flags,
    0x00, 0x00, 0x00, 0x00, 0x00, 0x00] ++ payload

/-- A connection that receives the answer to its request and one segment with one byte. -/
theorem received_prefix_oneByte : (run step (tcpConnectStart 1 80 49152 true)
        [.packet 1 (rawSegment 0 0x12 []), .connectFinish, .packet 1 (rawSegment 1 0x10 [0x41]),
          .recv 16]).handed <+: [0x41]
      ∧ ∀ t ∈ (run step (tcpConnectStart 1 80 49152 true)
        [.packet 1 (rawSegment 0 0x12 []), .connectFinish, .packet 1 (rawSegment 1 0x10 [0x41]),
          .recv 16]).sent, AcksStored ⟨0, [0x41]⟩ t :=
  received_prefix ⟨0, [0x41]⟩ 1 80 49152 true _ (by decide +kernel)

/-- The peer sends one byte, and its segment arrives twice: the byte is handed out twice. -/
theorem duplicate_handed_twice : Carries ⟨0, [0x41]⟩ (parse (rawSegment 1 0x10 [0x41])) 0
      ∧ (run step (tcpConnectStart 1 80 49152 true)
          [.packet 1 (rawSegment 0 0x12 []), .connectFinish, .packet 1 (rawSegment 1 0x10 [0x41]),
            .packet 1 (rawSegment 1 0x10 [0x41]), .recv 16]).handed = [0x41, 0x41] := by
  decide +kernel

end Tcp
