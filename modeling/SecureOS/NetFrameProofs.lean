import SecureOS.NetFrameModel

/-! # What goes out and what comes in

* `checksums_verify` — every packet and every segment carries the checksum that makes its
  one's-complement sum all ones.
* `tcpSend_complete_iff` — the data goes out exactly if it fits one frame.
* `ipv4Poll_payload_iff` — a packet is handed on without padding exactly if its frame has
  none. -/

namespace Netlib

open List

open Sof (Byte)
open Tcp (Conn getBe16 mtu headerLen flagPsh flagAck parse)
open OnesComplement (words words_lt sum_words_le sum_complement)

section Checksums

variable (total id len : BitVec 16) (proto flags : Byte) (srcIp dstIp : BitVec 32) (conn : Conn)
  (data : List Byte) (csum : BitVec 16)

theorem words_putBe16 (rest : List Byte) :
    words (putBe16 csum ++ rest) = csum.toNat :: words rest := by
  show _ :: words rest = _
  simp only [BitVec.extractLsb'_toNat, Nat.shiftRight_eq_div_pow]
  congr 1
  omega

theorem sum_header : (words (ipv4HeaderWith total id proto dstIp csum)).sum
    = (words (ipv4HeaderWith total id proto dstIp 0)).sum + csum.toNat := by
  simp only [ipv4HeaderWith, append_assoc, words_putBe16, words, cons_append, nil_append, sum_cons,
    BitVec.ofNat_eq_ofNat, BitVec.toNat_ofNat]
  omega

/-- The pseudo-header that a segment is summed with. -/
def pseudoHeader : List Byte := putBe32 srcIp ++ putBe32 dstIp ++ [0, protoTcp] ++ putBe16 len

/-- The words that `tcp_checksum` adds up are those of the pseudo-header and the segment. -/
theorem words_pseudoHeader (seg : List Byte) : words (pseudoHeader len srcIp dstIp ++ seg)
    = [srcIp.toNat / 2 ^ 16, srcIp.toNat % 2 ^ 16, dstIp.toNat / 2 ^ 16, dstIp.toNat % 2 ^ 16,
      protoTcp.toNat, len.toNat] ++ words seg := by
  have hhigh : ∀ ip : BitVec 32, ip.toNat / 2 ^ 16 % 2 ^ 16 = ip.toNat / 2 ^ 16 := by omega
  simp only [pseudoHeader, putBe32, append_assoc, words_putBe16, words, cons_append, nil_append,
    BitVec.extractLsb'_toNat, Nat.shiftRight_eq_div_pow, hhigh, Nat.pow_zero, Nat.div_one]
  rfl

theorem sum_segment : (words (pseudoHeader len srcIp dstIp ++ segmentWith conn flags data csum)).sum
    = (words (pseudoHeader len srcIp dstIp ++ segmentWith conn flags data 0)).sum + csum.toNat := by
  simp only [words_pseudoHeader, segmentWith, putBe32, append_assoc, words_putBe16, words,
    cons_append, nil_append, sum_cons, BitVec.ofNat_eq_ofNat, BitVec.toNat_ofNat]
  omega

theorem length_segment :
    (segmentWith conn flags data csum).length = headerLen + min mtu data.length := by
  rw [segmentWith, length_append, length_take]
  rfl

theorem tcpChecksum_eq (h : seg.length < 2 ^ 16) :
    tcpChecksum srcIp dstIp seg = ~~~ BitVec.ofNat 16 (OnesComplement.foldCarry
      (OnesComplement.accumulate
        (words (pseudoHeader (BitVec.ofNat 16 seg.length) srcIp dstIp ++ seg)))) := by
  rw [words_pseudoHeader, BitVec.toNat_ofNat, Nat.mod_eq_of_lt h, tcpChecksum,
    Nat.mod_eq_of_lt (b := 2 ^ 32) (by omega)]

theorem header_fits : (words (ipv4HeaderWith total id proto dstIp csum)).sum < 2 ^ 32 := by
  have hle := sum_words_le (ipv4HeaderWith total id proto dstIp csum)
  have hlen : (ipv4HeaderWith total id proto dstIp csum).length = 20 := rfl
  omega

theorem segment_fits :
    (words (pseudoHeader len srcIp dstIp ++ segmentWith conn flags data csum)).sum < 2 ^ 32 := by
  have hle := sum_words_le (pseudoHeader len srcIp dstIp ++ segmentWith conn flags data csum)
  have hlen : (pseudoHeader len srcIp dstIp).length = 12 := rfl
  rw [length_append, length_segment, hlen, headerLen, mtu] at hle
  omega

/-- **EVERY CHECKSUM VERIFIES**, and no sum leaves the accumulator, whatever is in the checksum
    field. -/
theorem checksums_verify (payload : List Byte) :
    (OnesComplement.sum (words ((ipv4Packet id dstIp proto payload).take ipv4HeaderLen)) = 0xFFFF
      ∧ (words (ipv4HeaderWith total id proto dstIp csum)).sum < 2 ^ 32) ∧ OnesComplement.sum (words
        (pseudoHeader (BitVec.ofNat 16 (tcpSegment conn flags data).length) guestIp conn.remoteIp
          ++ tcpSegment conn flags data)) = 0xFFFF
      ∧ (words (pseudoHeader len srcIp dstIp ++ segmentWith conn flags data csum)).sum
        < 2 ^ 32 := by
  refine ⟨⟨?_, header_fits ..⟩, ?_, segment_fits ..⟩
  · exact sum_complement (fun c => words (ipv4HeaderWith _ id proto dstIp c)) (fun _ => words_lt _)
      (fun _ => sum_header ..) (header_fits ..)
  · have hlen : headerLen + min mtu data.length < 2 ^ 16 := by
      rw [headerLen, mtu]
      omega
    rw [tcpSegment, tcpChecksum_eq _ _ (by rwa [length_segment]), length_segment, length_segment]
    exact sum_complement
      (fun c => words (pseudoHeader _ guestIp conn.remoteIp ++ segmentWith conn flags data c))
      (fun _ => words_lt _) (fun _ => sum_segment ..) (segment_fits ..)

end Checksums

section Send

variable {net : Link} {id : BitVec 16} {conn : Conn} {data payload : List Byte}

theorem append_extract (v : BitVec (m + n)) : v.extractLsb' n m ++ v.extractLsb' 0 n = v := by
  ext i hi
  rw [BitVec.getElem_append]
  split
  · rw [BitVec.getElem_extractLsb', Nat.zero_add, BitVec.getLsbD_eq_getElem]
  · rw [BitVec.getElem_extractLsb', Nat.add_sub_cancel' (by omega), BitVec.getLsbD_eq_getElem]

theorem parse_seq (conn : Conn) (flags : Byte) (data : List Byte) :
    (parse (tcpSegment conn flags data)).seq = conn.seq := by
  have happend : ∀ v : BitVec 16, v.extractLsb' 8 8 ++ v.extractLsb' 0 8 = v :=
    append_extract (m := 8) (n := 8)
  calc (parse (tcpSegment conn flags data)).seq
      = (BitVec.extractLsb' 8 8 (conn.seq.extractLsb' 16 16)
          ++ BitVec.extractLsb' 0 8 (conn.seq.extractLsb' 16 16))
        ++ (BitVec.extractLsb' 8 8 (conn.seq.extractLsb' 0 16)
          ++ BitVec.extractLsb' 0 8 (conn.seq.extractLsb' 0 16)) := rfl
    _ = conn.seq := by
      rw [happend, happend]
      exact append_extract (m := 16) (n := 16) conn.seq

theorem parse_payload (conn : Conn) (flags : Byte) (data : List Byte) :
    (parse (tcpSegment conn flags data)).payload = data.take mtu := by
  have hoff : (tcpSegment conn flags data).getD 12 0 = 0x50 := rfl
  rw [parse, hoff]
  rfl

/-- The numbers of the segments follow each other. -/
def Consecutive : BitVec 32 → List (List Byte) → Prop
  | _, [] => True
  | seq, seg :: rest => (parse seg).seq = seq
    ∧ Consecutive (seq + BitVec.ofNat 32 (parse seg).payload.length) rest

/-- All of the data went out. -/
def Complete (conn : Conn) (data : List Byte) (sent : List (List Byte) × Bool) : Prop :=
  sent.2 = true ∧ (sent.1.map (fun seg => (parse seg).payload)).flatten = data
    ∧ Consecutive conn.seq sent.1

section

variable (harp : ∀ ip, (net.arpResolve ip).isSome)
  (htakes : ∀ frame, frame.length ≤ frameMax → net.takes frame)
include harp htakes

/-- The room for a segment is what the frame leaves, less than `ipv4_send` allows. -/
theorem ipv4Send_isSome_iff :
    (ipv4Send net id dstIp proto payload).isSome ↔ payload.length ≤ 1484 := by
  obtain ⟨dstMac, hmac⟩ := Option.isSome_iff_exists.mp
    (harp (if dstIp = guestIp then dstIp else gatewayIp))
  have hpacket : (ipv4Packet id dstIp proto payload).length = 20 + payload.length := by
    rw [ipv4Packet, length_append]
    rfl
  rw [ipv4Send, hmac]
  simp only [ethSendFrame, hpacket, ethHeaderLen, frameMax, mtu]
  by_cases hfits : payload.length ≤ 1484
  · rw [if_neg (by omega), if_neg (by omega), if_pos]
    · exact iff_of_true rfl hfits
    · refine htakes _ ?_
      have hdst := dstMac.2
      have hsrc := net.mac.2
      simp only [length_append, hdst, hsrc, hpacket, length_replicate, putBe16, length_cons,
        length_nil, frameMax]
      omega
  · refine iff_of_false ?_ hfits
    split
    · exact Bool.false_ne_true
    · rw [if_pos (by omega)]
      exact Bool.false_ne_true

/-- The first segment of a send is refused if it does not fit a frame. -/
theorem segment_sent_iff (id : BitVec 16) (conn : Conn) (data : List Byte) :
    (ipv4Send net id conn.remoteIp protoTcp
      (tcpSegment conn (flagPsh ||| flagAck) (data.take mtu))).isSome ↔ data.length ≤ 1464 := by
  rw [ipv4Send_isSome_iff harp htakes, tcpSegment, length_segment, length_take, headerLen, mtu]
  omega

theorem tcpSend_refused (hconn : conn.connected) (hlong : 1464 < data.length) :
    tcpSend net id conn data = ([], false) := by
  have hne : data ≠ [] := by
    rintro rfl
    exact absurd hlong (by decide)
  have hnone := Option.not_isSome_iff_eq_none.mp
    ((segment_sent_iff harp htakes id conn data).not.mpr (by omega))
  rw [tcpSend, if_pos hconn, tcpSendLoop, if_neg hne]
  simp only [hnone]

/-- **A SEND IS COMPLETE** exactly if the data fits one frame. -/
theorem tcpSend_complete_iff (id : BitVec 16) (data : List Byte) (hconn : conn.connected) :
    Complete conn data (tcpSend net id conn data) ↔ data.length ≤ 1464 := by
  by_cases hfits : data.length ≤ 1464
  · refine iff_of_true ?_ hfits
    rw [tcpSend, if_pos hconn, tcpSendLoop]
    by_cases hdata : data = []
    · subst hdata
      exact ⟨rfl, rfl, trivial⟩
    · obtain ⟨_, hsend⟩ := Option.isSome_iff_exists.mp
        ((segment_sent_iff harp htakes id conn data).mpr hfits)
      have hshort : data.length ≤ mtu := by
        rw [mtu]
        omega
      rw [if_neg hdata]
      simp only [hsend]
      -- the first segment took all of the data
      rw [drop_of_length_le hshort, tcpSendLoop, if_pos rfl, take_of_length_le hshort]
      refine ⟨rfl, ?_, parse_seq .., trivial⟩
      show (parse _).payload ++ [] = data
      rw [append_nil, parse_payload, take_of_length_le hshort]
  · rw [tcpSend_refused harp htakes hconn (by omega)]
    exact iff_of_false (fun h => Bool.false_ne_true h.1) hfits

end

/-- A link that takes every frame of the size of its buffer. -/
def openLink : Link where
  arpResolve _ := some ⟨replicate 6 0, rfl⟩
  mac := ⟨replicate 6 0, rfl⟩
  takes frame := frame.length ≤ frameMax

/-- A connection to the gateway. -/
def openConn : Conn := ⟨gatewayIp, 80, 49152, 0xFFFFFFFF, 1, true, false⟩

theorem tcpSend_complete_hello :
    Complete openConn [0x68, 0x69] (tcpSend openLink 0 openConn [0x68, 0x69]) :=
  (tcpSend_complete_iff (fun _ => rfl) (fun _ h => decide_eq_true h) 0 _ rfl).mpr (by decide)

theorem tcpSend_1465_refused :
    ¬ Complete openConn (replicate 1465 0) (tcpSend openLink 0 openConn (replicate 1465 0)) := by
  rw [tcpSend_refused (fun _ => rfl) (fun _ h => decide_eq_true h) rfl
    (by rw [length_replicate]; decide)]
  exact fun h => Bool.false_ne_true h.1

end Send

section Receive

/-- The total length of a packet. -/
def totalLength (packet : List Byte) : Nat := (getBe16 packet 2).toNat

/-- A frame with a well-formed packet. -/
structure WellFormed (frame : List Byte) : Prop where
  ipv4 : isIpv4 frame
  header : ihl (packetOf frame) ≤ totalLength (packetOf frame)
  total : totalLength (packetOf frame) ≤ (packetOf frame).length

/-- The payload of a packet, between its header and its total length. -/
def payloadOf (packet : List Byte) : List Byte :=
  (packet.take (totalLength packet)).drop (ihl packet)

/-- **WHAT IS HANDED ON** is the payload of the packet exactly if the frame ends with it. -/
theorem ipv4Poll_payload_iff (active : Bool) (h : WellFormed frame) :
    (∀ x, ipv4Poll active frame = some x → x.2.2 = payloadOf (packetOf frame))
      ↔ (isForUs active (packetOf frame) →
        (packetOf frame).length = totalLength (packetOf frame)) := by
  obtain ⟨hipv4, hheader, htotal⟩ := h
  rw [ipv4Poll, hipv4, Bool.true_and]
  cases isForUs active (packetOf frame) with
  | false => exact iff_of_true (fun x hx => by cases hx) (fun hx => by cases hx)
  | true =>
    constructor
    · intro hall _
      have hdrop := congrArg length (hall _ rfl)
      rw [payloadOf, length_drop, length_drop, length_take] at hdrop
      omega
    · intro hall x hx
      cases hx
      rw [payloadOf, ← hall rfl, take_length]

/-- A segment without data from the gateway, in a frame with padding. -/
def ackFrame (padding : Nat) : List Byte :=
  replicate 12 0 ++ [0x08, 0, 0x45, 0, 0, 40, 0, 0, 0, 0, 64, 6, 0, 0, 10, 0, 2, 2, 10, 0, 2, 15]
    ++ replicate (20 + padding) 0

theorem ipv4Poll_payload_ackFrame :
    ipv4Poll true (ackFrame 0) = some (protoTcp, gatewayIp, replicate 20 0)
      ∧ replicate 20 0 = payloadOf (packetOf (ackFrame 0)) :=
  ⟨by decide, (ipv4Poll_payload_iff true ⟨by decide, by decide, by decide⟩).mpr (by decide)
    (protoTcp, gatewayIp, replicate 20 0) (by decide)⟩

theorem padding_handed_on : WellFormed (ackFrame 6)
    ∧ ipv4Poll true (ackFrame 6) = some (protoTcp, gatewayIp, replicate 26 0)
    ∧ payloadOf (packetOf (ackFrame 6)) = replicate 20 0 :=
  ⟨⟨by decide, by decide, by decide⟩, by decide, by decide⟩

end Receive

end Netlib
