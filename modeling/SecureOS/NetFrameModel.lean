import SecureOS.TcpModel
import SecureOS.Lib.OnesComplementProofs

/-! # Packets on the wire

`user/libs/netlib/ipv4.c` and `eth.c`, and the bytes that `tcp.c` gives them: segments and
packets with their checksums, the frames around them, and what `ipv4_poll` hands on.  The
backend and the address resolution are those of a `Link`. -/

namespace Netlib

open Sof (Byte)
open Tcp (Conn getBe16 getBe32 mtu headerLen flagPsh flagAck)
open OnesComplement (words accumulate foldCarry)

/-- `NETLIB_BACKEND_FRAME_MAX`. -/
def frameMax : Nat := 1518

def ethHeaderLen : Nat := 14
def ipv4HeaderLen : Nat := 20
def typeIpv4 : BitVec 16 := 0x0800
def protoTcp : Byte := 6
def protoUdp : Byte := 17
def guestIp : BitVec 32 := 0x0A00020F
def gatewayIp : BitVec 32 := 0x0A000202

def putBe16 (v : BitVec 16) : List Byte := [v.extractLsb' 8 8, v.extractLsb' 0 8]

def putBe32 (v : BitVec 32) : List Byte :=
  putBe16 (v.extractLsb' 16 16) ++ putBe16 (v.extractLsb' 0 16)

/-- A hardware address. -/
abbrev Mac := { bytes : List Byte // bytes.length = 6 }

/-- The answers of `arp_resolve`, and of the backend: its address and the frames it takes. -/
structure Link where
  arpResolve : BitVec 32 → Option Mac
  mac : Mac
  takes : List Byte → Bool

/-- The frame that went out, padded to 60 bytes. -/
def ethSendFrame (net : Link) (dstMac : Mac) (ethertype : BitVec 16) (payload : List Byte) :
    Option (List Byte) :=
  if ethHeaderLen + payload.length > frameMax then none
  else
    let frame := dstMac.1 ++ net.mac.1 ++ putBe16 ethertype ++ payload
      ++ List.replicate (60 - (ethHeaderLen + payload.length)) 0
    if net.takes frame then some frame else none

def ipv4Checksum (header : List Byte) : BitVec 16 :=
  ~~~ BitVec.ofNat 16 (foldCarry (accumulate (words header)))

/-- The header of `ipv4_send`, with `csum` in its checksum field. -/
def ipv4HeaderWith (total id : BitVec 16) (proto : Byte) (dstIp : BitVec 32) (csum : BitVec 16) :
    List Byte :=
  [0x45, 0] ++ putBe16 total ++ putBe16 id ++ [0, 0] ++ [64, proto] ++ putBe16 csum
    ++ putBe32 guestIp ++ putBe32 dstIp

/-- The packet that `ipv4_send` hands to the link; `id` is `g_ip_id`. -/
def ipv4Packet (id : BitVec 16) (dstIp : BitVec 32) (proto : Byte) (payload : List Byte) :
    List Byte :=
  let header := ipv4HeaderWith (BitVec.ofNat 16 (ipv4HeaderLen + payload.length)) id proto dstIp
  header (ipv4Checksum (header 0)) ++ payload

/-- The frame that `ipv4_send` sent. -/
def ipv4Send (net : Link) (id : BitVec 16) (dstIp : BitVec 32) (proto : Byte)
    (payload : List Byte) : Option (List Byte) :=
  if payload.length > mtu then none
  else
    match net.arpResolve (if dstIp = guestIp then dstIp else gatewayIp) with
    | none => none
    | some dstMac => ethSendFrame net dstMac typeIpv4 (ipv4Packet id dstIp proto payload)

def tcpChecksum (srcIp dstIp : BitVec 32) (seg : List Byte) : BitVec 16 :=
  let pseudo := [srcIp.toNat / 2 ^ 16, srcIp.toNat % 2 ^ 16, dstIp.toNat / 2 ^ 16,
    dstIp.toNat % 2 ^ 16, protoTcp.toNat, seg.length % 2 ^ 32]
  ~~~ BitVec.ofNat 16 (foldCarry (accumulate (pseudo ++ words seg)))

/-- The segment of `tcp_send_segment`, with `csum` in its checksum field. -/
def segmentWith (conn : Conn) (flags : Byte) (data : List Byte) (csum : BitVec 16) : List Byte :=
  putBe16 conn.localPort ++ putBe16 conn.remotePort ++ putBe32 conn.seq ++ putBe32 conn.ack
    ++ [0x50, flags] ++ putBe16 0xFFFF ++ putBe16 csum ++ [0, 0] ++ data.take mtu

/-- The bytes that `tcp_send_segment` gives to `ipv4_send`. -/
def tcpSegment (conn : Conn) (flags : Byte) (data : List Byte) : List Byte :=
  segmentWith conn flags data
    (tcpChecksum guestIp conn.remoteIp (segmentWith conn flags data 0))

/-- The loop of `tcp_send`: the segments that went out, and whether it ends with `TCP_OK`. -/
def tcpSendLoop (net : Link) (id : BitVec 16) (conn : Conn) (data : List Byte) :
    List (List Byte) × Bool :=
  if data = [] then ([], true)
  else
    let seg := tcpSegment conn (flagPsh ||| flagAck) (data.take mtu)
    match ipv4Send net id conn.remoteIp protoTcp seg with
    | none => ([], false)
    | some _ =>
      let seq := conn.seq + BitVec.ofNat 32 (data.take mtu).length
      let rest := tcpSendLoop net (id + 1) { conn with seq := seq } (data.drop mtu)
      (seg :: rest.1, rest.2)
termination_by data.length
decreasing_by
  have := List.length_pos_iff.mpr ‹data ≠ []›
  rw [List.length_drop, mtu]
  omega

def tcpSend (net : Link) (id : BitVec 16) (conn : Conn) (data : List Byte) :
    List (List Byte) × Bool :=
  if conn.connected then tcpSendLoop net id conn data else ([], false)

/-- The packet of a frame. -/
def packetOf (frame : List Byte) : List Byte := frame.drop ethHeaderLen

/-- The header length of a packet, in bytes. -/
def ihl (packet : List Byte) : Nat := (packet.getD 0 0).toNat % 16 * 4

/-- Whether `ipv4_poll` takes a frame for an IPv4 packet. -/
def isIpv4 (frame : List Byte) : Bool :=
  ethHeaderLen ≤ frame.length && getBe16 frame 12 == typeIpv4
    && ipv4HeaderLen ≤ (packetOf frame).length && ((packetOf frame).getD 0 0).toNat / 16 == 4
    && ipv4HeaderLen ≤ ihl (packetOf frame) && ihl (packetOf frame) ≤ (packetOf frame).length

/-- Whether it hands a packet on, to UDP or to the active connection. -/
def isForUs (active : Bool) (packet : List Byte) : Bool :=
  getBe32 packet 16 == guestIp
    && (packet.getD 9 0 == protoUdp || (packet.getD 9 0 == protoTcp && active))

/-- What `ipv4_poll` gives to `udp_dispatch` or `tcp_dispatch`: the protocol, the sender and the
    bytes. -/
def ipv4Poll (active : Bool) (frame : List Byte) : Option (Byte × BitVec 32 × List Byte) :=
  let packet := packetOf frame
  if isIpv4 frame && isForUs active packet then
    some (packet.getD 9 0, getBe32 packet 12, packet.drop (ihl packet))
  else none

end Netlib
