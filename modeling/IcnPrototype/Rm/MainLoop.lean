import IcnPrototype.Lib.Run
import IcnPrototype.Lib.Resource
import IcnPrototype.Rm.Frames

set_option autoImplicit false

/-! # The buffers of `main_loop`

One core of the RM: what `main_loop` does with the buffers (`struct rte_mbuf`) it receives and
allocates. The core receives a burst of packets, handles them one by one and sends; a packet may
also be put into the table `tx_mbufs[port]`, which is sent when it is full or when it is drained.

Every buffer has a number, new ones for every reception and every allocation. The state keeps
where the buffers are, `pkts_burst` and the tables, and a log of what was done to them: reading
or writing it (`inspect`), `rte_pktmbuf_free` (`free`), and acceptance by `rte_eth_tx_burst`
(`accept`), after which it belongs to the driver. An access that comes while a function holds
the buffer is logged once for the function.

An allocation that fails is not modelled: the program then writes to a null pointer. Where the
negotiation is undefined, so is the step, and the core has crashed (`Core`).
-/

namespace Rm

open Bytes Host

/-- What the loop reads of a received buffer: the data, `pkt.pkt_len`, and `PKT_RX_IPV4_HDR` of
`ol_flags`. -/
structure RxPacket where
  data : Mem
  pktLen : Nat
  ipv4Hdr : Bool

/-- An entry of `pkts_burst`, with the port of the burst. -/
structure Received (ethports : Nat) where
  mbuf : Nat
  portid : Fin ethports
  pkt : RxPacket

/-- What is done to a buffer. -/
inductive Event where
  | inspect (m : Nat)
  | free (m : Nat)
  | accept (m : Nat)
  deriving DecidableEq, Repr

/-- A buffer is released by `rte_pktmbuf_free` and by the driver's taking it. -/
def Event.use : Event → Resource.Use Nat
  | inspect m => .inspect m
  | free m => .release m
  | accept m => .release m

/-- `struct ether_addr` -/
structure EtherAddr where
  addrBytes : List UInt8
  size_eq : addrBytes.length = 6

/-- The NID of the host and the addresses of its ports. -/
structure LoopConfig where
  host : Nid
  portsEthAddr : Nat → EtherAddr

/-- The state of the core: that of the negotiation, the number of the next buffer, the packets
of the last burst that are still to be handled, the tables, and the log. -/
structure Loop (ethports : Nat) where
  st : State
  next : Nat
  pktsBurst : List (Received ethports)
  txMbufs : Fin ethports → List Nat
  log : List Event

variable {ethports : Nat}

/-- Before the first iteration. -/
def Loop.start (st : State) : Loop ethports where
  st := st
  next := 0
  pktsBurst := []
  txMbufs _ := []
  log := []

def Loop.emit (s : Loop ethports) (e : Event) : Loop ethports := { s with log := s.log ++ [e] }

/-- `rte_eth_tx_burst` for one buffer: the driver takes it or does not. -/
def Loop.txBurst (s : Loop ethports) (m : Nat) (accepted : Bool) : Loop ethports :=
  if accepted then s.emit (.accept m) else s

/-! ## The tables -/

/-- `MAX_PKT_BURST` -/
def maxPktBurst : Nat := 32

/-- `send_burst`: the driver takes the first `ret` buffers of the table, the others are freed. -/
def Loop.sendBurst (s : Loop ethports) (port : Fin ethports) (ret : Nat) : Loop ethports :=
  let table := s.txMbufs port
  { s with log := s.log ++ ((table.take ret).map .accept ++ (table.drop ret).map .free) }

/-- `send_burst` and `tx_mbufs[port].len = 0` -/
def Loop.flush (s : Loop ethports) (port : Fin ethports) (ret : Nat) : Loop ethports :=
  { s.sendBurst port ret with txMbufs := Function.update s.txMbufs port [] }

/-- `send_single_packet` -/
def Loop.sendSinglePacket (s : Loop ethports) (m : Nat) (port : Fin ethports) (ret : Nat) :
    Loop ethports :=
  let table := s.txMbufs port ++ [m]
  let s := { s with txMbufs := Function.update s.txMbufs port table }
  if table.length = maxPktBurst then s.flush port ret else s

/-- One round of the loop that drains the tables. -/
def Loop.drain (s : Loop ethports) (port : Fin ethports) (ret : Nat) : Loop ethports :=
  if (s.txMbufs port).length = 0 then s else s.flush port ret

/-! ## Trap messages -/

/-- `compare_sid_nid` -/
def compareSidNid (sid1 sid2 : List UInt8) : Bool := sid1 == sid2

/-- `trap_hello_sid` -/
def trapHelloSid : List UInt8 := List.replicate 19 0 ++ [2]

/-- `trap_hello_sid2` -/
def trapHelloSid2 : List UInt8 := List.replicate 19 0 ++ [3]

/-- `trap_hello_nid_3` to `trap_hello_nid_5`: `pc-3` to `pc-5`, where `c` is the digit. -/
def trapHelloNid (c : UInt8) : List UInt8 := [0x70, 0x63, 0x2D, c] ++ List.replicate 12 0

/-- Which of the three hosts the `nid` of a trap message names, counted from 0. -/
def trapHost (data : Mem) : Option Nat :=
  [0x33, 0x34, 0x35].findIdx? fun c => compareSidNid (trapHelloNid c) (peek data 68 16)

/-- `get_trap_message`. A hello goes back to the port it came from, with another `sid` and the
address of the port of the host it names. -/
def Loop.getTrapMessage (c : LoopConfig) (s : Loop ethports) (r : Received ethports) (ret : Nat) :
    Mem × Loop ethports :=
  let data := r.pkt.data
  let s := s.emit (.inspect r.mbuf)
  if data 14 = 0xa0 then
    if compareSidNid trapHelloSid (peek data 48 20) then
      let data := poke data 67 [3]
      match trapHost data with
      | some i =>
          (poke data 6 (c.portsEthAddr i).addrBytes, s.sendSinglePacket r.mbuf r.portid ret)
      | none => (data, s)
    else (data, s)
  else (data, s)

/-- `data_trap_message`: what it does with the buffer. The counters it sets are those of
`dataTrapMessage`. -/
def Loop.dataTrapMessage (s : Loop ethports) (r : Received ethports) : Loop ethports :=
  let data := r.pkt.data
  let s := s.emit (.inspect r.mbuf)
  if (trapHost data).isSome && compareSidNid trapHelloSid2 (peek data 48 20) then
    s.emit (.free r.mbuf)
  else s

/-! ## Get packets -/

/-- `is_valid_ipv4_pkt` -/
def isValidIpv4Pkt (data : Mem) (linkLen : Nat) : Int :=
  if linkLen < 20 then -1
  else if data 14 >>> 4 ≠ 4 then -3
  else if data 14 &&& 0xf < 5 then -4
  else if htons (load16 data 16) < 20 then -5
  else 0

/-- The packet with `ipv4_hdr->total_length +=4`. -/
def totalLengthPlus4 (data : Mem) : Mem := poke data 16 (le16 (load16 data 16 + 4))

/-- `get_packets_forward`. A packet that is not valid is freed, any other one is sent at once.
What is written into a valid packet, and the port it goes to, are those of `Rm.getPacketsForward`. -/
def Loop.getPacketsForward (s : Loop ethports) (m : Nat) (data : Mem) (pktLen : Nat)
    (accepted : Bool) : Loop ethports :=
  let s := s.emit (.inspect m)
  if isValidIpv4Pkt (totalLengthPlus4 data) pktLen < 0 then s.emit (.free m)
  else s.txBurst m accepted

/-! ## The builders -/

/-- What the builders begin with: `rte_pktmbuf_alloc`, and the frame is put into the buffer. -/
def Loop.build (s : Loop ethports) : Loop ethports :=
  { s with next := s.next + 1 }.emit (.inspect s.next)

/-- `send_pid_a` -/
def Loop.sendPidA (s : Loop ethports) (accepted : Bool) : Loop ethports :=
  (s.build.txBurst s.next accepted).emit (.free s.next)

/-- `send_pid_b` -/
def Loop.sendPidB (s : Loop ethports) (accepted : Bool) : Loop ethports :=
  (s.build.txBurst s.next accepted).emit (.free s.next)

/-- `send_ack` -/
def Loop.sendAck (s : Loop ethports) (accepted : Bool) : Loop ethports :=
  (s.build.txBurst s.next accepted).emit (.free s.next)

/-- `send_ip_nid_ip` -/
def Loop.sendIpNidIp (s : Loop ethports) (accepted : Bool) : Loop ethports :=
  (s.build.txBurst s.next accepted).emit (.free s.next)

/-- `send_pid_change_request`, which frees a buffer that was not accepted twice. -/
def Loop.sendPidChangeRequest (s : Loop ethports) (accepted : Bool) : Loop ethports :=
  let s' := s.build.txBurst s.next accepted
  let s' := if accepted then s' else s'.emit (.free s.next)
  s'.emit (.free s.next)

/-- The builder of a message. -/
def Loop.send (s : Loop ethports) (accepted : Bool) : Send → Loop ethports
  | .pidA _ _ _ _ => s.sendPidA accepted
  | .pidB _ _ _ _ => s.sendPidB accepted
  | .ack _ _ => s.sendAck accepted
  | .ipNidIp _ _ => s.sendIpNidIp accepted

/-- The messages of a handler; `accepted i` is what becomes of the `i`-th one. -/
def Loop.sendAll (s : Loop ethports) (accepted : Nat → Bool) : List Send → Nat → Loop ethports
  | [], _ => s
  | x :: xs, i => (s.send (accepted i) x).sendAll accepted xs (i + 1)

/-! ## The loop -/

/-- `GET_PACKET` -/
def getPacket : UInt8 := 0xA0

/-- `CONTROL_PACKET` -/
def controlPacket : UInt8 := 0xA3

/-- What the environment decides while a packet is handled: the random number, how many buffers
of a full table the driver takes, and whether it takes a packet that is forwarded and the
messages that are sent. -/
structure Outcome where
  rand : Nat
  ret : Nat
  forwarded : Bool
  sent : Nat → Bool

/-- The trap functions `main_loop` begins with: the data they leave, and the state. -/
def Loop.trap (c : LoopConfig) (s : Loop ethports) (r : Received ethports) (ret : Nat) :
    Mem × Loop ethports :=
  let s := s.emit (.inspect r.mbuf)
  if r.pkt.data 14 = 0xa0 then s.getTrapMessage c r ret
  else if r.pkt.data 14 = 0xa1 then (r.pkt.data, s.dataTrapMessage r)
  else (r.pkt.data, s)

/-- What follows them, whatever they did: `ol_flags` is read, and a Get or control packet is
handled. -/
def Loop.dispatch (c : LoopConfig) (s : Loop ethports) (r : Received ethports) (data : Mem)
    (o : Outcome) : Option (Loop ethports) :=
  let s := s.emit (.inspect r.mbuf)
  if r.pkt.ipv4Hdr then
    let s := s.emit (.inspect r.mbuf)
    if data 34 = getPacket then some (s.getPacketsForward r.mbuf data r.pkt.pktLen o.forwarded)
    else if data 34 = controlPacket then do
      let (st, sends) ← negotiate c.host o.rand s.st (CtlPacket.decode data)
      return (({ s with st := st }.sendAll o.sent sends 0).emit (.free r.mbuf))
    else some s
  else some s

/-- `main_loop`, for one entry of `pkts_burst`. -/
def Loop.handle (c : LoopConfig) (s : Loop ethports) (r : Received ethports) (o : Outcome) :
    Option (Loop ethports) :=
  (s.trap c r o.ret).2.dispatch c r (s.trap c r o.ret).1 o

/-- The steps of the core. `rxBurst`: a burst arrives on a port. `packet`: the next packet of
the burst is handled. `drain`: the table of a port is drained. `request`: the timer sends a
`pid_change_request` (in `timer0_cb` the call is commented out). -/
inductive LoopAction (ethports : Nat) where
  | rxBurst (portid : Fin ethports) (pkts : List RxPacket)
  | packet (o : Outcome)
  | drain (port : Fin ethports) (ret : Nat)
  | request (accepted : Bool)

/-- `rte_eth_rx_burst` -/
def Loop.rxBurst (s : Loop ethports) (portid : Fin ethports) (pkts : List RxPacket) :
    Loop ethports :=
  { s with
    next := s.next + pkts.length
    pktsBurst := pkts.mapIdx fun j pkt => ⟨s.next + j, portid, pkt⟩ }

/-- A step of the core. Only when the burst has been handled the loop goes on. -/
def Loop.step (c : LoopConfig) (s : Loop ethports) (a : LoopAction ethports) :
    Option (Loop ethports) :=
  match s.pktsBurst, a with
  | r :: rest, .packet o => { s with pktsBurst := rest }.handle c r o
  | [], .rxBurst portid pkts => if pkts.length ≤ maxPktBurst then some (s.rxBurst portid pkts) else none
  | [], .drain port ret => some (s.drain port ret)
  | [], .request accepted => some (s.sendPidChangeRequest accepted)
  | _, _ => none

/-- The core, which has crashed when the handler of a control packet read through a null pointer or
left an array. -/
inductive Core (ethports : Nat) where
  | running (s : Loop ethports)
  | crashed

/-- The step is the handling of a packet of the burst. -/
def Loop.isHandling (s : Loop ethports) (a : LoopAction ethports) : Bool :=
  match s.pktsBurst, a with
  | _ :: _, .packet _ => true
  | _, _ => false

/-- A step of the core, which may crash while it handles a packet. -/
def Core.step (c : LoopConfig) (k : Core ethports) (a : LoopAction ethports) : Option (Core ethports) :=
  match k with
  | .running s =>
      match s.step c a with
      | some s' => some (.running s')
      | none => if s.isHandling a then some .crashed else none
  | .crashed => none

end Rm
