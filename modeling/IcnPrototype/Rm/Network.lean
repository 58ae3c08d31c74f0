import IcnPrototype.Lib.Run
import IcnPrototype.Rm.InStep

set_option autoImplicit false

/-! # A network of RMs

Any number of RMs, each of them running `negotiate`, and a loss-free FIFO channel from every RM
to every other. A step of the network is one of

* `request src dst`: the timer of `src` sends a `pid_change_request` to `dst`. The callback
  `timer0_cb` goes through the chain and picks the neighbours for which the host is the
  sponsor; the call that sends to them is commented out in the source;
* `deliver src dst rand room`: `dst` handles the oldest message from `src`. `rand` is the random
  number it draws, and `room` is what lies in the buffer behind the message.

What a handler sends to the border routers is not part of the negotiation and is dropped here.
The network keeps the list of all deliveries, newest first; no step reads it.
-/

namespace Rm

open Host

/-! ## Messages -/

/-- The messages between two RMs; timer and PIDs are in network byte order. -/
inductive Msg where
  | request
  | pidA (timer : UInt32) (pids : List UInt32)
  | pidB (timer : UInt32) (pids : List UInt32)
  | ack
  deriving DecidableEq

/-- `OPTION_FLAG` -/
def optionFlag : UInt8 := 0x40

/-- The kind bits of the option byte. -/
def Msg.kind : Msg → UInt8
  | .request => optionKind0ChangeRequest
  | .pidA _ _ => optionKind1A
  | .pidB _ _ => optionKind2B
  | .ack => optionKind3Ack

/-- The option byte that `pktgen_ctor_colorctl_pub` writes. -/
def Msg.option (m : Msg) : UInt8 := optionFlag ||| m.kind

/-- The words behind the header. -/
def Msg.words : Msg → List UInt32
  | .pidA timer pids => timer :: pids
  | .pidB timer pids => timer :: pids
  | _ => []

/-- The packet as the receiving handler sees it. -/
def Msg.packet (m : Msg) (src : Nid) (room : Nat → UInt32) : CtlPacket where
  controltype := controlPacketPid
  option := m.option
  eid := src
  word i := (m.words[i]?).getD (room i)

/-- The message to the neighbour in what a handler sends. -/
def Send.msg : Send → Option Msg
  | .pidA timer pids _ _ => some (.pidA timer pids)
  | .pidB timer pids _ _ => some (.pidB timer pids)
  | .ack _ _ => some .ack
  | .ipNidIp _ _ => none

@[simp] theorem Msg.packet_eid (m : Msg) (src : Nid) (room : Nat → UInt32) :
    (m.packet src room).eid = src := rfl

@[simp] theorem Msg.packet_controltype (m : Msg) (src : Nid) (room : Nat → UInt32) :
    (m.packet src room).controltype = controlPacketPid := rfl

/-- The mask takes the kind out of the option byte. -/
theorem Msg.packet_kind (m : Msg) (src : Nid) (room : Nat → UInt32) :
    (m.packet src room).option &&& optionKindMask = m.kind := by
  show m.option &&& optionKindMask = m.kind
  cases m <;> (rw [Msg.option, Msg.kind]; decide)

theorem Msg.packet_timer {m : Msg} {t : UInt32} {pids : List UInt32} (h : m.words = t :: pids)
    (src : Nid) (room : Nat → UInt32) : (m.packet src room).timer = ntohl t := by
  simp [CtlPacket.timer, Msg.packet, h]

theorem Msg.packet_pids {m : Msg} {t : UInt32} {pids : List UInt32} (h : m.words = t :: pids)
    (src : Nid) (room : Nat → UInt32) : (m.packet src room).pids pids.length = pids.map ntohl := by
  apply List.ext_getElem (by simp)
  intro i hi _
  have hlt : i < pids.length := by simpa using hi
  simp [CtlPacket.pids, Msg.packet, h, hlt]

/-- The handler of each message. -/
theorem negotiate_packet (host : Nid) (rand : Nat) (st : State) (m : Msg) (src : Nid)
    (room : Nat → UInt32) :
    negotiate host rand st (m.packet src room)
      = match m with
        | .request => onPidChangeRequest host rand st (m.packet src room)
        | .pidA _ _ => onPidA host rand st (m.packet src room)
        | .pidB _ _ => onPidB host rand st (m.packet src room)
        | .ack => onAck host st (m.packet src room) := by
  rw [negotiate, Msg.packet_kind, if_pos (Msg.packet_controltype m src room)]
  cases m with
  | request => exact if_pos rfl
  | pidA t pids => rw [if_neg (by rw [Msg.kind]; decide)]; exact if_pos rfl
  | pidB t pids =>
      rw [if_neg (by rw [Msg.kind]; decide), if_neg (by rw [Msg.kind]; decide)]
      exact if_pos rfl
  | ack =>
      rw [if_neg (by rw [Msg.kind]; decide), if_neg (by rw [Msg.kind]; decide),
        if_neg (by rw [Msg.kind]; decide)]
      exact if_pos rfl

/-! ## The network -/

/-- A delivery of the past. -/
structure Delivery where
  src : Nid
  dst : Nid
  msg : Msg
  deriving DecidableEq

/-- The RMs, the channels (oldest message first) and the deliveries so far (newest first). -/
structure Net where
  rm : Nid → State
  chan : Nid → Nid → List Msg
  delivered : List Delivery

inductive Action where
  | request (src dst : Nid)
  | deliver (src dst : Nid) (rand : Nat) (room : Nat → UInt32)

/-- `timer0_cb`: the neighbours for which the host is the sponsor of the negotiation. -/
def timer0Cb (host : Nid) (st : State) : List Nid :=
  (st.headWxb.filter fun AS => st.table.any fun item =>
    item.isLink host AS.eid && decide (compareNid item.eid1 item.eid2 ≤ 0)).map PidInfo.eid

/-- Write a channel. -/
def setChan (chan : Nid → Nid → List Msg) (src dst : Nid) (msgs : List Msg) :
    Nid → Nid → List Msg :=
  Function.update chan src (Function.update (chan src) dst msgs)

/-- `src` sends to `dst`. -/
def sendTo (chan : Nid → Nid → List Msg) (src dst : Nid) (msgs : List Msg) :
    Nid → Nid → List Msg :=
  setChan chan src dst (chan src dst ++ msgs)

/-- One step of the network. -/
def Net.step (n : Net) : Action → Option Net
  | .request src dst =>
      if dst ∈ timer0Cb src (n.rm src) then
        some { n with chan := sendTo n.chan src dst [.request] }
      else none
  | .deliver src dst rand room =>
      match n.chan src dst with
      | [] => none
      | m :: rest => do
          let (st', sent) ← negotiate dst rand (n.rm dst) (m.packet src room)
          return {
            rm := Function.update n.rm dst st'
            chan := sendTo (setChan n.chan src dst rest) dst src (sent.filterMap Send.msg)
            delivered := ⟨src, dst, m⟩ :: n.delivered }

theorem setChan_self (chan : Nid → Nid → List Msg) (src dst : Nid) (msgs : List Msg) :
    setChan chan src dst msgs src dst = msgs := by
  simp [setChan]

theorem setChan_of_ne {src dst src' dst' : Nid} (h : ¬ (src' = src ∧ dst' = dst))
    (chan : Nid → Nid → List Msg) (msgs : List Msg) :
    setChan chan src dst msgs src' dst' = chan src' dst' := by
  by_cases hs : src' = src
  · subst hs
    have hd : dst' ≠ dst := fun e => h ⟨rfl, e⟩
    simp [setChan, hd]
  · simp [setChan, hs]

theorem sendTo_self (chan : Nid → Nid → List Msg) (src dst : Nid) (msgs : List Msg) :
    sendTo chan src dst msgs src dst = chan src dst ++ msgs :=
  setChan_self _ _ _ _

theorem sendTo_of_ne {src dst src' dst' : Nid} (h : ¬ (src' = src ∧ dst' = dst))
    (chan : Nid → Nid → List Msg) (msgs : List Msg) :
    sendTo chan src dst msgs src' dst' = chan src' dst' :=
  setChan_of_ne h _ _

/-- An RM that has read its configuration. -/
def State.start (host : Nid) (table : List NidIpNidIpNid) : State where
  table := table
  headWxb := (readConfigurationInitPidChangeWxb host table).getD []
  timeHuancunPidA := 0
  pidHuancunPidA _ _ := 0

/-- The network at the start: every RM has read its configuration and nothing is in flight. -/
def Net.start (tables : Nid → List NidIpNidIpNid) : Net where
  rm host := State.start host (tables host)
  chan _ _ := []
  delivered := []

theorem State.start_read {host : Nid} {table : List NidIpNidIpNid}
    (h : (readConfigurationInitPidChangeWxb host table).isSome = true) :
    readConfigurationInitPidChangeWxb host (State.start host table).table
      = some (State.start host table).headWxb := by
  obtain ⟨chain, hchain⟩ := Option.isSome_iff_exists.mp h
  simp [State.start, hchain]

theorem Net.start_read {tables : Nid → List NidIpNidIpNid}
    (h : ∀ host, (tables host).length ≤ maxPidNumber) (host : Nid) :
    readConfigurationInitPidChangeWxb host ((Net.start tables).rm host).table
      = some ((Net.start tables).rm host).headWxb :=
  State.start_read (readConfiguration_isSome fun eid => (linkPids_length_le host eid _).trans (h host))

/-! ## What a step can do -/

theorem Net.step_request {n n' : Net} {src dst : Nid} (h : n.step (.request src dst) = some n') :
    dst ∈ timer0Cb src (n.rm src) ∧ n' = { n with chan := sendTo n.chan src dst [.request] } := by
  rw [Net.step] at h
  split at h
  · next hmem => exact ⟨hmem, (Option.some.inj h).symm⟩
  · cases h

theorem Net.step_deliver {n n' : Net} {src dst : Nid} {rand : Nat} {room : Nat → UInt32}
    (h : n.step (.deliver src dst rand room) = some n') :
    ∃ m rest st' sent, n.chan src dst = m :: rest
      ∧ negotiate dst rand (n.rm dst) (m.packet src room) = some (st', sent)
      ∧ n' = {
          rm := Function.update n.rm dst st'
          chan := sendTo (setChan n.chan src dst rest) dst src (sent.filterMap Send.msg)
          delivered := ⟨src, dst, m⟩ :: n.delivered } := by
  rw [Net.step] at h
  split at h
  · cases h
  · next m rest hchan =>
      rw [Option.bind_eq_bind, Option.bind_eq_some_iff] at h
      obtain ⟨⟨st', sent⟩, hneg, heq⟩ := h
      exact ⟨m, rest, st', sent, hchan, hneg, (Option.some.inj heq).symm⟩

/-- A host asks only neighbours with a NID that is not smaller than its own. -/
theorem compareNid_of_timer0Cb {host eid : Nid} {st : State} (h : eid ∈ timer0Cb host st) :
    compareNid host eid ≤ 0 := by
  obtain ⟨AS, hAS, rfl⟩ := List.mem_map.mp h
  obtain ⟨item, -, hitem⟩ := List.any_eq_true.mp (List.mem_filter.mp hAS).2
  rw [Bool.and_eq_true, NidIpNidIpNid.isLink_iff, decide_eq_true_eq] at hitem
  obtain ⟨⟨rfl, heid⟩, hle⟩ := hitem
  rwa [heid] at hle

/-- No step changes the shape of a chain. -/
theorem Net.step_shape {n n' : Net} {a : Action} (h : n.step a = some n') (host : Nid) :
    shape (n'.rm host).headWxb = shape (n.rm host).headWxb := by
  cases a with
  | request src dst =>
      obtain ⟨-, rfl⟩ := Net.step_request h
      rfl
  | deliver src dst rand room =>
      obtain ⟨m, rest, st', sent, -, hneg, rfl⟩ := Net.step_deliver h
      by_cases hd : host = dst
      · subst hd
        simpa using negotiate_shape hneg
      · simp [hd]

/-! ## The frame of a handler -/

/-- A packet of one neighbour leaves the nodes of the others alone. -/
theorem negotiate_search {host : Nid} {rand : Nat} {st st' : State} {p : CtlPacket}
    {sent : List Send} (h : negotiate host rand st p = some (st', sent)) {eid : Nid}
    (hne : eid ≠ p.eid) : search st'.headWxb eid = search st.headWxb eid := by
  rcases negotiate_cases h with rfl | ⟨AS, pids, -, -, -, rfl⟩ | ⟨AS, AS', ann, hs, heid, -, -, hc⟩
  · rfl
  · rfl
  · rw [(commit_eq_some hc).2.2.1]
    refine search_writeNode_ne ?_
    rw [heid, search_eid hs]
    exact hne

/-- A packet of one neighbour leaves the rows of the cache alone that belong to the others. -/
theorem negotiate_cache {host : Nid} {rand : Nat} {st st' : State} {p : CtlPacket}
    {sent : List Send} (h : negotiate host rand st p = some (st', sent)) {ID : Nat}
    (hne : ∀ AS, search st.headWxb p.eid = some AS → AS.id.toNat ≠ ID) :
    st'.pidHuancunPidA ID = st.pidHuancunPidA ID := by
  rcases negotiate_cases h with rfl | ⟨AS, pids, hs, -, -, rfl⟩ | ⟨AS, AS', ann, -, -, -, -, hc⟩
  · rfl
  · simp [storeCache, Ne.symm (hne AS hs)]
  · rw [(commit_eq_some hc).2.2.2.2]

end Rm
