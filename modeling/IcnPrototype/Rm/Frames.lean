import IcnPrototype.Rm.Network

set_option autoImplicit false

/-! # The frames of the negotiation

What `send_pid_change_request`, `send_pid_a`, `send_pid_b` and `send_ack` put into a buffer, byte
for byte, and where the handlers of a receiving RM read. A frame is

* 14 bytes Ethernet header and 20 bytes IP header;
* 140 bytes `struct color_ctl_pub`;
* for `pid_a` and `pid_b`, the timer and the PIDs, in network byte order;
* the PID of the path, which `ADD_PID_and_IP` appends for the first border router.

`frame_carries` lists what is in the frame of a message, field by field, at the offsets at which
the border routers and the receiver look for it.
-/

namespace Rm

open Bytes Host

/-- The part of a `struct rte_mbuf` that the builders use: the data and its length. -/
structure Mbuf where
  data : Mem
  dataLen : Nat

/-! ## The headers -/

/-- `pktgen_ctor_ether_header` -/
def pktgenCtorEtherHeader (m : Mem) : Mem :=
  poke m 0 [0x00, 0x16, 0x31, 0xfe, 0xe6, 0x91, 0x00, 0x16, 0x31, 0xfe, 0xe6, 0x90, 0x08, 0x00]

/-- `pktgen_ctor_ip_header`: from 192.168.2.1 to 192.168.2.2, the latter to be overwritten. -/
def pktgenCtorIpHeader (m : Mem) : Mem :=
  poke m 14 [0x45, 0, 0, 0, 0, 0, 0, 0, 4, 10, 0, 0, 192, 168, 2, 1, 192, 168, 2, 2]

/-- The option byte of each `kind`. -/
def kindOption (kind : Nat) : UInt8 :=
  match kind with
  | 0 => optionFlag ||| optionKind0ChangeRequest
  | 1 => optionFlag ||| optionKind1A
  | 2 => optionFlag ||| optionKind2B
  | 3 => optionFlag ||| optionKind3Ack
  | _ => optionFlag

/-- `total_len`, in host byte order. -/
def kindTotalLen (kind item : Nat) : UInt16 :=
  if kind = 0 ∨ kind = 3 then 140 else UInt16.ofNat (140 + 4 * (item + 1))

/-- The first sixteen bytes of `struct color_ctl_pub`. -/
def colorCtlPubHead (kind item : Nat) : List UInt8 :=
  [0xA3, controlPacketPid] ++ le16 (kindTotalLen kind item) ++ [0, 0, 0, kindOption kind, 0, 0, 0, 0]
    ++ le16 (UInt16.ofNat item) ++ le16 (htons 1500)

/-- What follows the EID: the length of the public key, the key and the signature. -/
def colorCtlPubTail : List UInt8 :=
  le16 (htons 49) ++ [0, 0] ++ List.replicate 49 0 ++ List.replicate 55 0

/-- `pktgen_ctor_colorctl_pub` -/
def pktgenCtorColorctlPub (host : Nid) (kind item : Nat) (m : Mem) : Mem :=
  poke m 34 (colorCtlPubHead kind item ++ (host.nid ++ colorCtlPubTail))

/-- `pkt_colorctl_setup` -/
def pktColorctlSetup (host : Nid) (kind item : Nat) (m : Mem) : Mem :=
  pktgenCtorColorctlPub host kind item (pktgenCtorIpHeader (pktgenCtorEtherHeader m))

/-! ## The builders -/

/-- `ADD_PID_and_IP` -/
def addPidAndIp (m : Mbuf) (pid ip : UInt32) : Mbuf :=
  let totalLen := UInt16.ofNat (m.dataLen - 20 - 14)
  let data := poke m.data 36 (le16 totalLen)
  let data := poke data 30 (le32 ip)
  let data := poke data (34 + totalLen.toNat) (le32 pid)
  let data := poke data 36 (le16 (htons (totalLen + 4)))
  ⟨data, m.dataLen + 4⟩

/-- A message that ends with the header: what `send_pid_change_request` and `send_ack` build. -/
def headerFrame (host : Nid) (kind : Nat) (m : Mem) (pid ip : UInt32) : Mbuf :=
  addPidAndIp ⟨pktColorctlSetup host kind 0 m, 174⟩ pid ip

/-- A message with timer and PIDs: what `send_pid_a` and `send_pid_b` build. -/
def timerFrame (host : Nid) (kind : Nat) (m : Mem) (timer : UInt32) (pids : List UInt32)
    (pid ip : UInt32) : Mbuf :=
  let data := pktColorctlSetup host kind pids.length m
  let data := poke data 174 (le32 timer)
  let data := poke data 178 (pids.flatMap le32)
  addPidAndIp ⟨data, 174 + 4 + pids.length * 4⟩ pid ip

/-- The frame of `send_pid_change_request` -/
def sendPidChangeRequest (host : Nid) (m : Mem) (pid ip : UInt32) : Mbuf := headerFrame host 0 m pid ip

/-- The frame of `send_pid_a` -/
def sendPidA (host : Nid) (m : Mem) (timer : UInt32) (pids : List UInt32) (pid ip : UInt32) : Mbuf :=
  timerFrame host 1 m timer pids pid ip

/-- The frame of `send_pid_b` -/
def sendPidB (host : Nid) (m : Mem) (timer : UInt32) (pids : List UInt32) (pid ip : UInt32) : Mbuf :=
  timerFrame host 2 m timer pids pid ip

/-- The frame of `send_ack` -/
def sendAck (host : Nid) (m : Mem) (pid ip : UInt32) : Mbuf := headerFrame host 3 m pid ip

/-- The frame of a message, in a buffer that held `m` before. -/
def Msg.frame (host : Nid) (m : Mem) (pid ip : UInt32) : Msg → Mbuf
  | .request => sendPidChangeRequest host m pid ip
  | .pidA timer pids => sendPidA host m timer pids pid ip
  | .pidB timer pids => sendPidB host m timer pids pid ip
  | .ack => sendAck host m pid ip

/-- What the handlers read of a received packet: `controltype`, `option` and `EID` of the header
behind the IP header, and the words behind the header. -/
def CtlPacket.decode (m : Mem) : CtlPacket where
  controltype := m 35
  option := m 41
  eid := ⟨peek m 50 16, peek_length _ _ _⟩
  word i := load32 m (174 + 4 * i)

/-! ## What is in a frame -/

/-- The `kind` argument of each builder. -/
def Msg.kindNumber : Msg → Nat
  | .request => 0
  | .pidA _ _ => 1
  | .pidB _ _ => 2
  | .ack => 3

/-- The `item` argument of each builder. -/
def Msg.item (m : Msg) : Nat := m.words.length - 1

theorem Msg.kindOption_kindNumber (m : Msg) : kindOption m.kindNumber = m.option := by
  cases m <;> rfl

/-- All builders are one: the header, the words of the message, and `ADD_PID_and_IP`. -/
theorem Msg.frame_eq (host : Nid) (base : Mem) (pid ip : UInt32) (m : Msg) :
    m.frame host base pid ip
      = addPidAndIp ⟨poke (pktColorctlSetup host m.kindNumber m.item base) 174 (m.words.flatMap le32),
          174 + 4 * m.words.length⟩ pid ip := by
  have hnil : ∀ b : Mem, poke b 174 [] = b := fun b => poke_peek_self b 174 0
  have htimer : ∀ (b : Mem) (t : UInt32) (pids : List UInt32),
      poke b 174 ((t :: pids).flatMap le32) = poke (poke b 174 (le32 t)) 178 (pids.flatMap le32) := by
    intro b t pids
    rw [List.flatMap_cons, poke_append, le32_length]
  cases m with
  | request => simp [Msg.frame, sendPidChangeRequest, headerFrame, Msg.words, Msg.item, hnil, Msg.kindNumber]
  | ack => simp [Msg.frame, sendAck, headerFrame, Msg.words, Msg.item, hnil, Msg.kindNumber]
  | pidA t pids =>
      simp only [Msg.frame, sendPidA, timerFrame, Msg.words, Msg.item, htimer, Msg.kindNumber,
        List.length_cons, Nat.add_sub_cancel]
      congr 2
      omega
  | pidB t pids =>
      simp only [Msg.frame, sendPidB, timerFrame, Msg.words, Msg.item, htimer, Msg.kindNumber,
        List.length_cons, Nat.add_sub_cancel]
      congr 2
      omega

/-- The fields of the frame of a message. -/
structure Carries (F : Mbuf) (host : Nid) (m : Msg) (pid ip : UInt32) : Prop where
  dataLen : F.dataLen = 178 + 4 * m.words.length
  dst : load32 F.data 30 = ip
  verType : F.data 34 = 0xA3
  controltype : F.data 35 = controlPacketPid
  totalLen : load16 F.data 36 = htons (UInt16.ofNat (144 + 4 * m.words.length))
  option : F.data 41 = m.option
  eid : peek F.data 50 16 = host.nid
  word : ∀ i (h : i < m.words.length), load32 F.data (174 + 4 * i) = m.words[i]
  lastPid : peek F.data (174 + 4 * m.words.length) 4 = le32 pid

theorem colorCtlPubHead_length (kind item : Nat) : (colorCtlPubHead kind item).length = 16 := rfl

theorem colorCtlPub_length (host : Nid) (kind item : Nat) :
    (colorCtlPubHead kind item ++ (host.nid ++ colorCtlPubTail)).length = 140 := by
  rw [List.length_append, List.length_append, host.size_eq, colorCtlPubHead_length]
  rfl

theorem pktColorctlSetup_head {host : Nid} {kind item : Nat} {base : Mem} {i : Nat} (hi : i < 16) :
    pktColorctlSetup host kind item base (34 + i) = (colorCtlPubHead kind item)[i] := by
  have hlen := colorCtlPub_length host kind item
  rw [pktColorctlSetup, pktgenCtorColorctlPub, poke_of_inside (by omega) (by omega)]
  simp only [Nat.add_sub_cancel_left]
  exact List.getElem_append_left _

theorem pktColorctlSetup_eid (host : Nid) (kind item : Nat) (base : Mem) :
    peek (pktColorctlSetup host kind item base) 50 16 = host.nid := by
  have hlen := colorCtlPub_length host kind item
  rw [pktColorctlSetup, pktgenCtorColorctlPub, show (50 : Nat) = 34 + 16 from rfl,
    peek_poke_inside (by omega)]
  rw [← colorCtlPubHead_length kind item, List.drop_left, colorCtlPubHead_length, ← host.size_eq,
    List.take_left]

/-- What `ADD_PID_and_IP` leaves alone: everything in front of the PID it appends, but for the
destination address and the total length. -/
theorem addPidAndIp_data {data : Mem} {len i : Nat} (hlen : 174 ≤ len) (hmax : len ≤ 1000)
    (hi : i < len) (hdst : i < 30 ∨ 34 ≤ i) (htotal : i < 36 ∨ 38 ≤ i) (pid ip : UInt32) :
    (addPidAndIp ⟨data, len⟩ pid ip).data i = data i := by
  have hn : (UInt16.ofNat (len - 20 - 14)).toNat = len - 34 := by
    rw [UInt16.toNat_ofNat', Nat.mod_eq_of_lt (by omega)]
    omega
  simp only [addPidAndIp, hn]
  rw [poke_of_outside (by simp only [le16_length]; omega), poke_of_outside (by simp only [le32_length]; omega),
    poke_of_outside (by simp only [le32_length]; omega), poke_of_outside (by simp only [le16_length]; omega)]

theorem addPidAndIp_dst {data : Mem} {len : Nat} (hlen : 174 ≤ len) (hmax : len ≤ 1000)
    (pid ip : UInt32) : load32 (addPidAndIp ⟨data, len⟩ pid ip).data 30 = ip := by
  have hn : (UInt16.ofNat (len - 20 - 14)).toNat = len - 34 := by
    rw [UInt16.toNat_ofNat', Nat.mod_eq_of_lt (by omega)]
    omega
  simp only [addPidAndIp, hn]
  rw [load32_poke_of_disjoint (by simp), load32_poke_of_disjoint (by simp only [le32_length]; omega), load32_poke_le32]

theorem addPidAndIp_totalLen {data : Mem} {len : Nat} (pid ip : UInt32) :
    load16 (addPidAndIp ⟨data, len⟩ pid ip).data 36
      = htons (UInt16.ofNat (len - 20 - 14) + 4) := by
  simp only [addPidAndIp, load16_poke_le16]

theorem addPidAndIp_lastPid {data : Mem} {len : Nat} (hlen : 174 ≤ len) (hmax : len ≤ 1000)
    (pid ip : UInt32) : peek (addPidAndIp ⟨data, len⟩ pid ip).data len 4 = le32 pid := by
  have hn : 34 + (UInt16.ofNat (len - 20 - 14)).toNat = len := by
    rw [UInt16.toNat_ofNat', Nat.mod_eq_of_lt (by omega)]
    omega
  simp only [addPidAndIp, hn]
  rw [peek_poke_of_disjoint (by simp only [le16_length]; omega), ← le32_length pid, peek_poke_self]

/-- **The frame of a message.** -/
theorem Msg.frame_carries (host : Nid) (base : Mem) (pid ip : UInt32) {m : Msg}
    (hm : m.words.length ≤ maxPidNumber + 1) : Carries (m.frame host base pid ip) host m pid ip := by
  have hk : m.words.length ≤ 21 := hm
  have hwords := flatMap_le32_length m.words
  rw [Msg.frame_eq]
  set data := poke (pktColorctlSetup host m.kindNumber m.item base) 174 (m.words.flatMap le32)
    with hdata
  have hhead : ∀ i (hi : i < 16), i < 2 ∨ 4 ≤ i →
      (addPidAndIp ⟨data, 174 + 4 * m.words.length⟩ pid ip).data (34 + i)
        = (colorCtlPubHead m.kindNumber m.item)[i] := by
    intro i hi htotal
    rw [addPidAndIp_data (by omega) (by omega) (by omega) (by omega) (by omega), hdata,
      poke_of_outside (by omega), pktColorctlSetup_head hi]
  refine ⟨?_, ?_, ?_, ?_, ?_, ?_, ?_, ?_, ?_⟩
  · simp only [addPidAndIp]
    omega
  · exact addPidAndIp_dst (by omega) (by omega) pid ip
  · exact hhead 0 (by omega) (by omega)
  · exact hhead 1 (by omega) (by omega)
  · rw [addPidAndIp_totalLen, show 144 + 4 * m.words.length
      = (174 + 4 * m.words.length - 20 - 14) + 4 by omega, UInt16.ofNat_add]
    rfl
  · rw [← Msg.kindOption_kindNumber]
    exact hhead 7 (by omega) (by omega)
  · rw [← pktColorctlSetup_eid host m.kindNumber m.item base]
    apply peek_congr
    intro i hi hi'
    rw [addPidAndIp_data (by omega) (by omega) (by omega) (by omega) (by omega), hdata,
      poke_of_outside (by omega)]
  · intro i hi
    rw [← load32_poke_words (pktColorctlSetup host m.kindNumber m.item base) 174 m.words i hi]
    apply load32_congr
    intro j hj hj'
    exact addPidAndIp_data (by omega) (by omega) (by omega) (by omega) (by omega) pid ip
  · exact addPidAndIp_lastPid (by omega) (by omega) pid ip

end Rm
