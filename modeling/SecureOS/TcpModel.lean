import SecureOS.SofModel
import SecureOS.Lib.MachineRunProofs

/-! # The TCP client

`user/libs/netlib/tcp.c`: one connection at a time, whose receive buffer and flags are globals.
`tcp_connect` and `tcp_recv` poll the network, and each packet that comes in for the connection
goes through `tcp_dispatch`.  How polls and calls alternate is the network's choice, so a run is
any list of packets and calls.

A segment that is sent is recorded with the fields of its header and with how much of the stream
was stored at that time; whether the network took it is an input. -/

namespace Tcp

open Sof (Byte)

/-- `TCP_RESPONSE_MAX`. -/
def responseMax : Nat := 4096

/-- `NETLIB_BACKEND_MTU`. -/
def mtu : Nat := 1500

/-- `TCP_HEADER_LEN`. -/
def headerLen : Nat := 20

def flagFin : Byte := 0x01
def flagSyn : Byte := 0x02
def flagRst : Byte := 0x04
def flagPsh : Byte := 0x08
def flagAck : Byte := 0x10

/-- `tcp_get_be16`. -/
def getBe16 (packet : List Byte) (off : Nat) : BitVec 16 :=
  packet.getD off 0 ++ packet.getD (off + 1) 0

/-- `tcp_get_be32`. -/
def getBe32 (packet : List Byte) (off : Nat) : BitVec 32 :=
  getBe16 packet off ++ getBe16 packet (off + 2)

/-- The fields of a segment that `tcp_dispatch` reads. -/
structure Segment where
  srcPort : BitVec 16
  dstPort : BitVec 16
  seq : BitVec 32
  ackNum : BitVec 32
  dataOffset : Nat
  flags : Byte
  payload : List Byte
deriving DecidableEq, Repr

/-- The header as `tcp_dispatch` reads it: the data starts where the offset says. -/
def parse (packet : List Byte) : Segment :=
  let dataOffset := (packet.getD 12 0).toNat / 16 * 4
  { srcPort := getBe16 packet 0
    dstPort := getBe16 packet 2
    seq := getBe32 packet 4
    ackNum := getBe32 packet 8
    dataOffset := dataOffset
    flags := packet.getD 13 0
    payload := packet.drop dataOffset }

/-- Some flag of the mask is set. -/
def Segment.has (g : Segment) (mask : Byte) : Bool := g.flags &&& mask != 0

def Segment.isSynAck (g : Segment) : Bool :=
  g.flags &&& (flagSyn ||| flagAck) == (flagSyn ||| flagAck)

/-- `tcp_conn_t`. -/
structure Conn where
  remoteIp : BitVec 32
  remotePort : BitVec 16
  localPort : BitVec 16
  seq : BitVec 32
  ack : BitVec 32
  connected : Bool
  finReceived : Bool
deriving DecidableEq, Repr

/-- A segment `tcp_send_segment` built, with the number of bytes stored when it was sent and whether
    the end of the stream had been seen. -/
structure Sent where
  flags : Byte
  seq : BitVec 32
  ack : BitVec 32
  data : List Byte
  stored : Nat
  fin : Bool
deriving DecidableEq, Repr

/-- The connection and the globals: the bytes stored (`g_rx_ring` up to `g_rx_tail`), how many of
    them were handed out, `g_conn_fin`, and whether packets reach the connection. `handed` is all
    that `tcp_recv` has copied out. -/
structure Client where
  conn : Conn
  active : Bool
  ring : List Byte
  head : Nat
  fin : Bool
  sent : List Sent
  handed : List Byte
deriving DecidableEq, Repr

def tcpSendSegment (s : Client) (flags : Byte) (data : List Byte) : Client :=
  { s with
    sent := s.sent ++ [⟨flags, s.conn.seq, s.conn.ack, data.take mtu, s.ring.length, s.fin⟩] }

/-- The payload of a segment is stored as far as it fits, and acknowledged. -/
def acceptPayload (s : Client) (g : Segment) : Client :=
  if g.payload = [] then s
  else
    let conn := { s.conn with ack := g.seq + BitVec.ofNat 32 g.payload.length }
    let ring := s.ring ++ g.payload.take (responseMax - s.ring.length)
    tcpSendSegment { s with conn := conn, ring := ring } flagAck []

/-- The end of the stream is acknowledged. -/
def acceptFin (s : Client) (g : Segment) : Client :=
  if g.has flagFin then
    let conn := { s.conn with ack := s.conn.ack + 1, finReceived := true }
    tcpSendSegment { s with conn := conn, fin := true } flagAck []
  else s

/-- `tcp_dispatch` behind the test of the addresses. -/
def dispatchSegment (s : Client) (g : Segment) (len : Nat) : Client :=
  if g.has flagRst then
    { s with conn := { s.conn with connected := false, finReceived := true } }
  else if g.isSynAck then
    { s with conn := { s.conn with ack := g.seq + 1, seq := g.ackNum, connected := true } }
  else if g.has flagAck = false then s
  else if g.dataOffset > len then s
  else acceptFin (acceptPayload s g) g

/-- Whether a packet is one of the connection. -/
def forConn (s : Client) (srcIp : BitVec 32) (packet : List Byte) : Bool :=
  headerLen ≤ packet.length && s.active && srcIp == s.conn.remoteIp
    && (parse packet).srcPort == s.conn.remotePort && (parse packet).dstPort == s.conn.localPort

def tcpDispatch (s : Client) (srcIp : BitVec 32) (packet : List Byte) : Client :=
  if forConn s srcIp packet then dispatchSegment s (parse packet) packet.length else s

/-- `tcp_connect` up to its polling loop. -/
def tcpConnectStart (remoteIp : BitVec 32) (remotePort localPort : BitVec 16) (taken : Bool) :
    Client :=
  let conn : Conn :=
    { remoteIp := remoteIp, remotePort := remotePort, localPort := localPort
      seq := 0xA1B2C3D4, ack := 0, connected := false, finReceived := false }
  let s : Client :=
    { conn := conn, active := true, ring := [], head := 0, fin := false, sent := [], handed := [] }
  let s := tcpSendSegment s flagSyn []
  if taken then { s with conn := { s.conn with seq := s.conn.seq + 1 } }
  else { s with active := false }

/-- `tcp_connect` behind its polling loop. -/
def tcpConnectFinish (s : Client) : Client :=
  if s.conn.connected then tcpSendSegment s flagAck [] else { s with active := false }

/-- The loop of `tcp_send`; `taken` says of each segment whether the network took it. -/
def tcpSendLoop (s : Client) (data : List Byte) : List Bool → Client
  | [] => s
  | taken :: rest =>
    if data = [] then s
    else
      let s := tcpSendSegment s (flagPsh ||| flagAck) (data.take mtu)
      if taken then
        let seq := s.conn.seq + BitVec.ofNat 32 (data.take mtu).length
        tcpSendLoop { s with conn := { s.conn with seq := seq } } (data.drop mtu) rest
      else s

def tcpSend (s : Client) (data : List Byte) (taken : List Bool) : Client :=
  if s.conn.connected then tcpSendLoop s data taken else s

/-- `tcp_recv` behind its polling loop, into a buffer of `size` bytes. -/
def tcpRecv (s : Client) (size : Nat) : Client :=
  let out := (s.ring.drop s.head).take size
  { s with head := s.head + out.length, handed := s.handed ++ out }

def tcpClose (s : Client) : Client :=
  if s.conn.connected then
    let s := tcpSendSegment s (flagFin ||| flagAck) []
    { s with conn := { s.conn with seq := s.conn.seq + 1, connected := false }, active := false }
  else { s with active := false }

/-- A packet comes in, or the program makes a call. -/
inductive Op where
  | packet (srcIp : BitVec 32) (bytes : List Byte)
  | connectFinish
  | send (data : List Byte) (taken : List Bool)
  | recv (size : Nat)
  | close
deriving DecidableEq, Repr

def step (s : Client) : Op → Client
  | .packet srcIp bytes => tcpDispatch s srcIp bytes
  | .connectFinish => tcpConnectFinish s
  | .send data taken => tcpSend s data taken
  | .recv size => tcpRecv s size
  | .close => tcpClose s

end Tcp
