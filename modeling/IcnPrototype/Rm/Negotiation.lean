import IcnPrototype.Rm.Chain

set_option autoImplicit false

/-! # The four negotiation handlers of `main_loop`

A control packet of type `CONTROL_PACKET_PID` carries one of four kinds in its option byte. The
RM that wants a change sends a `pid_change_request`; the neighbour answers with `pid_a`, new
PIDs made from its committed ones; the RM moves them away from the PIDs in its link table, keeps
them in `pid_huancun_pid_a[ID]` and sends them back as `pid_b`; the neighbour compares them with
its chain, and either commits them and sends `ack` or starts over with another `pid_a`; on `ack`
the RM commits what is in its cache.

`negotiate` is the dispatch on the kind, and `State` what the handlers read and write: the link
table, the chain and the two variables that keep their contents from one packet to the next.
The other locals of `main_loop` (`pid_huancun`, `pid_new`, `time_huancun`, `time_new`) are
written before they are read in every handler and are not part of the state.

`none` is undefined behaviour, as in `Chain.lean`.
-/

namespace Rm

open Host

/-! ## Packets and messages -/

/-- `CONTROL_PACKET_PID` -/
def controlPacketPid : UInt8 := 0x10

/-- `OPTION_KIND_MASK` -/
def optionKindMask : UInt8 := 0x30

/-- `OPTION_KIND0_change_request` -/
def optionKind0ChangeRequest : UInt8 := 0x00

/-- `OPTION_KIND1_a` -/
def optionKind1A : UInt8 := 0x10

/-- `OPTION_KIND2_b` -/
def optionKind2B : UInt8 := 0x20

/-- `OPTION_KIND3_ack` -/
def optionKind3Ack : UInt8 := 0x30

/-- What the handlers read of a control packet: three fields of `struct color_ctl_pub` and the
32-bit words of the buffer behind it, as `memcpy` loads them. -/
structure CtlPacket where
  controltype : UInt8
  option : UInt8
  eid : Nid
  word : Nat → UInt32

/-- What the handlers send. Every message but the announcement ends in the PID and the address
of the path to the neighbour. -/
inductive Send where
  | pidA (timer : UInt32) (pids : List UInt32) (pidPath ipPath : UInt32)
  | pidB (timer : UInt32) (pids : List UInt32) (pidPath ipPath : UInt32)
  | ack (pidPath ipPath : UInt32)
  | ipNidIp (item : AnnounceItem) (ip : UInt32)
  deriving DecidableEq

/-- The link table, `head_wxb`, `time_huancun_pid_a` and `pid_huancun_pid_a[10][100]`. -/
structure State where
  table : List NidIpNidIpNid
  headWxb : List PidInfo
  timeHuancunPidA : UInt32
  pidHuancunPidA : Nat → Nat → UInt32

/-- The timer of a `pid_a` or `pid_b`: the first word behind the header. -/
def CtlPacket.timer (p : CtlPacket) : UInt32 := ntohl (p.word 0)

/-- The `n` PIDs of a `pid_a` or `pid_b`, behind the timer. -/
def CtlPacket.pids (p : CtlPacket) (n : Nat) : List UInt32 :=
  (List.range n).map fun i => ntohl (p.word (i + 1))

@[simp] theorem CtlPacket.pids_length (p : CtlPacket) (n : Nat) : (p.pids n).length = n := by
  simp [CtlPacket.pids]

/-- Write through the pointer to a node, into the chain, the link table and the border routers:
the common end of the two handlers that commit. -/
def commit (host : Nid) (st : State) (AS : PidInfo) :
    Option (State × List (AnnounceItem × UInt32)) := do
  let table ← updateNidIpNidIpNid host AS st.table
  let announced ← announceIpNidIp host AS table
  return ({ st with table := table, headWxb := writeNode st.headWxb AS }, announced)

/-! ## `pid_change_request` -/

/-- The handler of `pid_change_request`; `rand` is what `rand()` returns. -/
def onPidChangeRequest (host : Nid) (rand : Nat) (st : State) (p : CtlPacket) :
    Option (State × List Send) :=
  match search st.headWxb p.eid with
  | none => some (st, [])
  | some AS => do
      let number := UInt32.ofNat (rand % 101)
      let pidFa := AS.pid.map fun pid => htonl ((pid + number) % 100)
      let timeFa := htonl ((AS.pidChangeTime + number) % 100)
      let pidPath ← findIpOrPid host st.table AS .pid
      let ipPath ← findIpOrPid host st.table AS .ip
      return (st, [.pidA timeFa pidFa pidPath ipPath])

/-! ## `pid_a` -/

/-- One pass of the two loops that compare the cached PIDs with the rows. -/
def different (rows : List NidIpNidIpNid) (pids : List UInt32) : Bool :=
  rows.any fun item => pids.any fun pid => pid - item.pid == 0

/-- `while (different)`: all PIDs are moved by `number` until none is in a row. The first
argument bounds the number of passes. -/
def whileDifferent (rows : List NidIpNidIpNid) (number : UInt32) :
    Nat → List UInt32 → Option (List UInt32)
  | 0, _ => none
  | passes + 1, pids =>
      if different rows pids then whileDifferent rows number passes (pids.map (· + number))
      else some pids

/-- `pid_huancun_pid_a[ID][i] = pids[i]` for every PID. -/
def storeCache (cache : Nat → Nat → UInt32) (ID : Nat) (pids : List UInt32) : Nat → Nat → UInt32 :=
  Function.update cache ID fun i => (pids[i]?).getD (cache ID i)

/-- The handler of `pid_a`. It reads `AS->item.number_pid` before it tests `AS`, and it indexes
the ten rows of `pid_huancun_pid_a` with the `ID` of the node. -/
def onPidA (host : Nid) (rand : Nat) (st : State) (p : CtlPacket) : Option (State × List Send) :=
  match search st.headWxb p.eid with
  | none => none
  | some AS =>
      if AS.id < 10 then do
        let number := UInt32.ofNat (rand % 101 + 1)
        let rows := rows8 st.table
        let pids ← whileDifferent rows number (rows.length * AS.numberPid + 1) (p.pids AS.numberPid)
        let pidPath ← findIpOrPid host st.table AS .pid
        let ipPath ← findIpOrPid host st.table AS .ip
        return ({ st with
            timeHuancunPidA := p.timer
            pidHuancunPidA := storeCache st.pidHuancunPidA AS.id.toNat pids },
          [.pidB (htonl p.timer) (pids.map htonl) pidPath ipPath])
      else none

/-! ## `pid_b` -/

/-- `ACK_YES`: none of the PIDs is in a node of the chain. -/
def ackYes (chain : List PidInfo) (pids : List UInt32) : Bool :=
  !chain.any fun AASS => AASS.pid.any fun pid => pids.any fun new => new == pid

/-- The handler of `pid_b`. -/
def onPidB (host : Nid) (rand : Nat) (st : State) (p : CtlPacket) : Option (State × List Send) :=
  match search st.headWxb p.eid with
  | none => some (st, [])
  | some AS =>
      let number := UInt32.ofNat (rand % 101 + 1)
      let pidTiqu := p.pids AS.numberPid
      if ackYes st.headWxb pidTiqu then do
        let pidPath ← findIpOrPid host st.table AS .pid
        let ipPath ← findIpOrPid host st.table AS .ip
        let (st', announced) ← commit host st
          ({ AS with pidChangeTime := p.timer }.setPids fun i => ntohl (p.word (i + 1)))
        return (st', .ack pidPath ipPath :: announced.map fun a => .ipNidIp a.1 a.2)
      else do
        let pidFa := pidTiqu.map fun pid => htonl ((pid + number) % 100)
        let timeFa := htonl ((p.timer + number) % 100)
        let pidPath ← findIpOrPid host st.table AS .pid
        let ipPath ← findIpOrPid host st.table AS .ip
        return (st, [.pidA timeFa pidFa pidPath ipPath])

/-! ## `ack` -/

/-- The handler of `ack`. It reads `AS->item.ID` before it tests `AS`, and goes on in any
case. -/
def onAck (host : Nid) (st : State) (p : CtlPacket) : Option (State × List Send) :=
  match search st.headWxb p.eid with
  | none => none
  | some AS =>
      if AS.id < 10 then do
        let (st', announced) ← commit host st
          ({ AS with pidChangeTime := st.timeHuancunPidA }.setPids (st.pidHuancunPidA AS.id.toNat))
        return (st', announced.map fun a => .ipNidIp a.1 a.2)
      else none

/-! ## The dispatch -/

/-- What `main_loop` does with a control packet, as far as the negotiation is concerned. -/
def negotiate (host : Nid) (rand : Nat) (st : State) (p : CtlPacket) :
    Option (State × List Send) :=
  if p.controltype = controlPacketPid then
    if p.option &&& optionKindMask = optionKind0ChangeRequest then onPidChangeRequest host rand st p
    else if p.option &&& optionKindMask = optionKind1A then onPidA host rand st p
    else if p.option &&& optionKindMask = optionKind2B then onPidB host rand st p
    else if p.option &&& optionKindMask = optionKind3Ack then onAck host st p
    else some (st, [])
  else some (st, [])

end Rm
