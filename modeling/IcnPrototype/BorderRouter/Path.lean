import IcnPrototype.BorderRouter.Router
import IcnPrototype.Rm.Frames

set_option autoImplicit false

/-! # The path of a negotiation message

From RM to RM a message passes two border routers. The first one gets it from inside: it looks
up the last PID of the frame, at `total_len + 30`, and sends the frame to the next hop. The second
one gets it from outside: it shortens the frame by the PID, by taking eight bytes and putting
four, and writes the header again, because in a frame without timer and PIDs the eight bytes
reach into it.

`path_delivers` puts the offsets, byte orders and lengths of the three programs together. A
station receives the bytes of the frame; what its buffer holds behind them is arbitrary.
-/

namespace BorderRouter

open Bytes Host Rm

/-- A packet received from a station that sent the first `len` bytes of `m`. -/
structure Received (m : Mem) (len : Nat) (p : Packet) : Prop where
  length : p.length = len
  mem : ∀ i < len, p.mem i = m i

namespace Received

variable {m : Mem} {len : Nat} {p : Packet}

theorem self (p : Packet) : Received p.mem p.length p := ⟨rfl, fun _ _ => rfl⟩

theorem peek_eq (h : Received m len p) {off n : Nat} (hn : off + n ≤ len) :
    peek p.mem off n = peek m off n :=
  peek_congr fun i _ hi => h.mem i (by omega)

theorem load32_eq (h : Received m len p) {off : Nat} (hn : off + 4 ≤ len) :
    load32 p.mem off = load32 m off :=
  congrArg ofLe32 (h.peek_eq hn)

theorem load16_eq (h : Received m len p) {off : Nat} (hn : off + 2 ≤ len) :
    load16 p.mem off = load16 m off :=
  congrArg ofLe16 (h.peek_eq hn)

end Received

/-! ## The first router -/

/-- What is left of the fields of a frame behind the IP header, with the length in bytes. -/
structure CarriesBody (m : Mem) (len : Nat) (host : Nid) (msg : Msg) : Prop where
  verType : m 34 = 163
  controltype : m 35 = 16
  totalLen : load16 m 36 = htons (UInt16.ofNat (len - 34))
  option : m 41 = msg.option
  eid : peek m 50 16 = host.nid
  word : ∀ i (h : i < msg.words.length), load32 m (174 + 4 * i) = msg.words[i]

/-- The fields of a body but for its length are bytes behind the IP header. -/
theorem CarriesBody.congr {m m' : Mem} {len len' : Nat} {host : Nid} {msg : Msg}
    (hb : CarriesBody m len host msg)
    (h : ∀ i, 34 ≤ i → i < 174 + 4 * msg.words.length → (i < 36 ∨ 38 ≤ i) → m' i = m i)
    (htotal : load16 m' 36 = htons (UInt16.ofNat (len' - 34))) : CarriesBody m' len' host msg where
  verType := (h 34 (by omega) (by omega) (by omega)).trans hb.verType
  controltype := (h 35 (by omega) (by omega) (by omega)).trans hb.controltype
  totalLen := htotal
  option := (h 41 (by omega) (by omega) (by omega)).trans hb.option
  eid := (peek_congr fun i _ _ => h i (by omega) (by omega) (by omega)).trans hb.eid
  word i hi := (load32_congr fun j _ _ => h j (by omega) (by omega) (by omega)).trans (hb.word i hi)

theorem CarriesBody.received {m : Mem} {len : Nat} {host : Nid} {msg : Msg} {p : Packet}
    (hb : CarriesBody m len host msg) (hle : 174 + 4 * msg.words.length ≤ len)
    (hp : Received m len p) : CarriesBody p.mem len host msg :=
  hb.congr (fun i _ hi _ => hp.mem i (by omega)) ((hp.load16_eq (by omega)).trans hb.totalLen)

theorem carriesBody_frame (host : Nid) (base : Mem) (pid ip : UInt32) {msg : Msg}
    (hm : msg.words.length ≤ maxPidNumber + 1) :
    CarriesBody (msg.frame host base pid ip).data (178 + 4 * msg.words.length) host msg := by
  have h := Msg.frame_carries host base pid ip hm
  refine ⟨h.verType, h.controltype, ?_, h.option, h.eid, h.word⟩
  rw [h.totalLen]
  congr 2
  omega

/-- The first router finds the path PID and hands the frame on; behind the IP header it is
unchanged. -/
theorem push_inside {r : IPBorderRouter} {host : Nid} {base : Mem} {pid ip : UInt32} {msg : Msg}
    (hm : msg.words.length ≤ maxPidNumber + 1) (hip : ip = r.sIp 1 ∨ ip = r.sIp 2) {p : Packet}
    (hp : Received (msg.frame host base pid ip).data (msg.frame host base pid ip).dataLen p)
    (now : UInt32) (stack : List UInt8) :
    (r.push now stack 0 p).2 = [r.emit p.iphead (r.pidIp (IPBorderRouter.key (le32 pid))) p]
      ∧ p.length = 178 + 4 * msg.words.length
      ∧ CarriesBody p.mem (178 + 4 * msg.words.length) host msg := by
  have hk : msg.words.length ≤ 21 := hm
  have h := Msg.frame_carries host base pid ip hm
  rw [h.dataLen] at hp
  have hb := (carriesBody_frame host base pid ip hm).received (by omega) hp
  have hmine : r.isMine p = true := by
    have hdst : p.dIp = ip := by rw [Packet.dIp, hp.load32_eq (by omega), h.dst]
    rw [IPBorderRouter.isMine, hdst]
    rcases hip with e | e <;> simp [e]
  have hlen : (ntohs (load16 p.mem 36)).toNat + 30 = 174 + 4 * msg.words.length := by
    rw [hb.totalLen, ntohs_htons, UInt16.toNat_ofNat', Nat.mod_eq_of_lt (by omega)]
    omega
  have hlast : peek p.mem (174 + 4 * msg.words.length) 4 = le32 pid := by
    rw [hp.peek_eq (by omega), h.lastPid]
  have hneg : IPBorderRouter.isNegotiation p = true := by
    rw [IPBorderRouter.isNegotiation, hb.controltype]
    rfl
  refine ⟨?_, hp.length, hb⟩
  simp only [IPBorderRouter.push, hmine, hb.verType, hb.controltype, hneg, if_true, and_self]
  show [r.pushByLastPid p] = _
  rw [IPBorderRouter.pushByLastPid]
  simp only [hlen, hlast]

/-! ## The second router -/

/-- `total_len` loses four, and behind the IP header nothing else is written. -/
theorem pushControlOutside_mem (r : IPBorderRouter) (p : Packet) {i : Nat} (hi : 34 ≤ i) :
    (r.pushControlOutside p).2.mem i
      = poke p.mem 36 (le16 (ntohs (ntohs (load16 p.mem 36) - 4))) i := by
  -- writing the header back changes only its length
  have hreplace := @poke_replace p.mem 34 2 140 (le16 (ntohs (ntohs (load16 p.mem 36) - 4)))
    (by rw [le16_length]; omega)
  rw [le16_length] at hreplace
  have hwrite : (r.pushControlOutside p).2.mem
      = (r.emit p.iphead (r.nidIp d3rm)
          ⟨poke p.mem 36 (le16 (ntohs (ntohs (load16 p.mem 36) - 4))), p.length - 8 + 4⟩).2.mem := by
    rw [IPBorderRouter.pushControlOutside]
    simp only [Packet.put, Packet.take, hreplace]
  rw [hwrite, IPBorderRouter.emit_mem_of_le (IPBorderRouter.iphead_length p) hi]

theorem pushControlOutside_totalLen (r : IPBorderRouter) (p : Packet) :
    load16 (r.pushControlOutside p).2.mem 36 = ntohs (ntohs (load16 p.mem 36) - 4) := by
  rw [load16_congr fun i hi _ => pushControlOutside_mem r p (by omega), load16_poke_le16]

theorem pushControlOutside_length (r : IPBorderRouter) (p : Packet) :
    (r.pushControlOutside p).2.length = p.length - 8 + 4 := by
  rw [IPBorderRouter.pushControlOutside, IPBorderRouter.emit_length]
  rfl

/-- The length without the last four bytes, in network byte order. -/
theorem ntohs_htons_sub_four {n : Nat} (h : 4 ≤ n) :
    ntohs (ntohs (htons (UInt16.ofNat n)) - 4) = htons (UInt16.ofNat (n - 4)) := by
  have hsub : UInt16.ofNat n - 4 = UInt16.ofNat (n - 4) := by
    rw [UInt16.sub_eq_iff_eq_add]
    calc UInt16.ofNat n = UInt16.ofNat (n - 4 + 4) := by rw [Nat.sub_add_cancel h]
      _ = UInt16.ofNat (n - 4) + 4 := UInt16.ofNat_add _ _
  rw [ntohs_htons, hsub]
  rfl

/-- The second router cuts the last four bytes off and sends the frame to the RM. -/
theorem push_outside {r : IPBorderRouter} {host : Nid} {msg : Msg} {p : Packet}
    (hm : msg.words.length ≤ maxPidNumber + 1) (hmine : r.isMine p = true)
    (hlen : p.length = 178 + 4 * msg.words.length) (hb : CarriesBody p.mem p.length host msg)
    (now : UInt32) (stack : List UInt8) :
    ∃ out, (r.push now stack 1 p).2 = [out] ∧ out.2.dIp = r.nidIp d3rm
      ∧ out.1 = r.ipNic (r.nidIp d3rm)
      ∧ out.2.length = 174 + 4 * msg.words.length
      ∧ CarriesBody out.2.mem out.2.length host msg := by
  have hk : msg.words.length ≤ 21 := hm
  have hneg : IPBorderRouter.isNegotiation p = true := by
    rw [IPBorderRouter.isNegotiation, hb.controltype]
    rfl
  have hpush : (r.push now stack 1 p).2 = [r.pushControlOutside p] := by
    simp only [IPBorderRouter.push, hmine, hb.verType, hb.controltype, hneg, if_true]
    rfl
  have hlength : (r.pushControlOutside p).2.length = 174 + 4 * msg.words.length := by
    rw [pushControlOutside_length]
    omega
  refine ⟨_, hpush, IPBorderRouter.emit_dIp (IPBorderRouter.iphead_length p), rfl, hlength,
    hb.congr ?_ ?_⟩
  · intro i hi _ hi'
    rw [pushControlOutside_mem r p hi]
    exact poke_of_outside (by rw [le16_length]; omega)
  · have hcut : p.length - 34 - 4 = (r.pushControlOutside p).2.length - 34 := by omega
    rw [pushControlOutside_totalLen, hb.totalLen, ntohs_htons_sub_four (by omega), hcut]

/-! ## From RM to RM -/

/-- What the handlers of the receiving RM find in a packet: the message, the length of the frame
in `total_len`, and nothing behind the message. -/
structure Delivered (host : Nid) (msg : Msg) (p : Packet) : Prop where
  verType : p.mem 34 = 0xA3
  controltype : (CtlPacket.decode p.mem).controltype = controlPacketPid
  kind : (CtlPacket.decode p.mem).option &&& optionKindMask = msg.kind
  eid : (CtlPacket.decode p.mem).eid = host
  timer : ∀ timer pids, msg.words = timer :: pids → (CtlPacket.decode p.mem).timer = ntohl timer
  pids : ∀ timer pids, msg.words = timer :: pids →
    (CtlPacket.decode p.mem).pids pids.length = pids.map ntohl
  totalLen : (ntohs (load16 p.mem 36)).toNat = p.length - 34
  length : p.length = 174 + 4 * msg.words.length

/-- What the network of RMs takes for the packet of a message is what is decoded. -/
theorem decode_eq_packet {m : Mem} {len : Nat} {host : Nid} {msg : Msg}
    (hb : CarriesBody m len host msg) :
    ∃ room, CtlPacket.decode m = msg.packet host room := by
  refine ⟨(CtlPacket.decode m).word, ?_⟩
  have heid : (CtlPacket.decode m).eid = host := by
    obtain ⟨nid, hsize⟩ := host
    simp only [CtlPacket.decode, hb.eid]
  have hword : (CtlPacket.decode m).word
      = fun i => (msg.words[i]?).getD ((CtlPacket.decode m).word i) := by
    funext i
    by_cases hi : i < msg.words.length
    · rw [List.getElem?_eq_getElem hi, Option.getD_some]
      exact hb.word i hi
    · rw [List.getElem?_eq_none (by omega), Option.getD_none]
  have hexpand : CtlPacket.decode m = ⟨(CtlPacket.decode m).controltype,
    (CtlPacket.decode m).option, (CtlPacket.decode m).eid, (CtlPacket.decode m).word⟩ := rfl
  rw [hexpand, heid, Msg.packet, ← hword]
  congr 1
  · exact hb.controltype
  · exact hb.option

/-- **The message survives the path.** For every message with at most `MAX_PID_NUMBER` PIDs and
every path PID whose next hop is the second router: the first router hands the frame to the
interface towards the second, the second one hands it on towards its RM, and this RM decodes the
message that was sent. -/
theorem path_delivers {r₁ r₂ : IPBorderRouter} {host : Nid} {base : Mem} {pid ip : UInt32}
    {msg : Msg} (hm : msg.words.length ≤ maxPidNumber + 1) (h₁ : ip = r₁.sIp 1 ∨ ip = r₁.sIp 2)
    (h₂ : r₁.pidIp (IPBorderRouter.key (le32 pid)) = r₂.sIp 1
      ∨ r₁.pidIp (IPBorderRouter.key (le32 pid)) = r₂.sIp 2)
    {p₁ : Packet}
    (hp₁ : Received (msg.frame host base pid ip).data (msg.frame host base pid ip).dataLen p₁)
    (now₁ now₂ : UInt32) (stack₁ stack₂ : List UInt8) :
    ∃ out₁, (r₁.push now₁ stack₁ 0 p₁).2 = [out₁]
      ∧ out₁.1 = r₁.ipNic (r₁.pidIp (IPBorderRouter.key (le32 pid)))
      ∧ ∀ p₂, Received out₁.2.mem out₁.2.length p₂ →
        ∃ out₂, (r₂.push now₂ stack₂ 1 p₂).2 = [out₂]
          ∧ out₂.1 = r₂.ipNic (r₂.nidIp d3rm) ∧ out₂.2.dIp = r₂.nidIp d3rm
          ∧ ∀ p₃, Received out₂.2.mem out₂.2.length p₃ → Delivered host msg p₃ := by
  have hk : msg.words.length ≤ 21 := hm
  obtain ⟨hpush₁, hlen₁, hb₁⟩ := push_inside hm h₁ hp₁ now₁ stack₁
  refine ⟨_, hpush₁, rfl, ?_⟩
  intro p₂ hp₂
  have hip := IPBorderRouter.iphead_length p₁
  rw [IPBorderRouter.emit_length, hlen₁] at hp₂
  -- the next hop is an address of the second router, which takes the frame as its own
  have hmine₂ : r₂.isMine p₂ = true := by
    have hdst : p₂.dIp = r₁.pidIp (IPBorderRouter.key (le32 pid)) := by
      rw [Packet.dIp, hp₂.load32_eq (by omega)]
      exact IPBorderRouter.emit_dIp hip
    rw [IPBorderRouter.isMine, hdst]
    rcases h₂ with e | e <;> simp [e]
  have hb₂ : CarriesBody p₂.mem p₂.length host msg := by
    rw [hp₂.length]
    refine CarriesBody.received ?_ (by omega) hp₂
    have hsame : ∀ i, 34 ≤ i → (r₁.emit p₁.iphead (r₁.pidIp (IPBorderRouter.key (le32 pid))) p₁).2.mem i
        = p₁.mem i := fun i hi => IPBorderRouter.emit_mem_of_le hip hi
    exact hb₁.congr (fun i hi _ _ => hsame i hi)
      ((load16_congr fun i hi _ => hsame i (by omega)).trans hb₁.totalLen)
  obtain ⟨out₂, hpush₂, hdst₂, hnic₂, hlen₂, hb₃⟩ :=
    push_outside hm hmine₂ hp₂.length hb₂ now₂ stack₂
  refine ⟨out₂, hpush₂, hnic₂, hdst₂, ?_⟩
  intro p₃ hp₃
  -- what the RM receives still carries the message, so it decodes to it
  have hb : CarriesBody p₃.mem out₂.2.length host msg := hb₃.received (by omega) hp₃
  obtain ⟨room, hdecode⟩ := decode_eq_packet hb
  refine ⟨hb.verType, hb.controltype, ?_, ?_, ?_, ?_, ?_, hp₃.length.trans hlen₂⟩
  · rw [hdecode, Msg.packet_kind]
  · rw [hdecode, Msg.packet_eid]
  · intro timer pids hwords
    rw [hdecode, Msg.packet_timer hwords]
  · intro timer pids hwords
    rw [hdecode, Msg.packet_pids hwords]
  · rw [hb.totalLen, ntohs_htons, UInt16.toNat_ofNat', hp₃.length, Nat.mod_eq_of_lt (by omega)]

/-- The border router at the other end of the link of `PID2`. -/
def peerRouter : IPBorderRouter :=
  { IPBorderRouter.new with sIp := Function.update (fun _ => 0) 1 0x20b0a0a }

/-- The frame of a `pid_a` with two PIDs, sent over the path `PID2`. -/
def pidAFrame : Mbuf :=
  (Msg.pidA 30 [7, 8]).frame (.ofByte 1) (fun _ => 0) (ofLe32 pid2) 0x10b0a0a

theorem path_delivers_pidA :
    ∃ out₁, (IPBorderRouter.new.push 0 [] 0 ⟨pidAFrame.data, pidAFrame.dataLen⟩).2 = [out₁]
      ∧ ∃ out₂, (peerRouter.push 0 [] 1 out₁.2).2 = [out₂]
        ∧ Delivered (.ofByte 1) (Msg.pidA 30 [7, 8]) out₂.2 := by
  have hhop : IPBorderRouter.new.pidIp (IPBorderRouter.key (le32 (ofLe32 pid2))) = peerRouter.sIp 1 := by
    decide
  have hwords : (Msg.pidA 30 [7, 8]).words.length ≤ maxPidNumber + 1 := by decide
  have hfirst : (0x10b0a0a : UInt32) = IPBorderRouter.new.sIp 1
      ∨ (0x10b0a0a : UInt32) = IPBorderRouter.new.sIp 2 := Or.inl (by decide)
  have hsent : Received pidAFrame.data pidAFrame.dataLen ⟨pidAFrame.data, pidAFrame.dataLen⟩ :=
    Received.self ⟨pidAFrame.data, pidAFrame.dataLen⟩
  obtain ⟨out₁, hout₁, -, hsecond⟩ := path_delivers hwords hfirst (Or.inl hhop) hsent 0 0 [] []
  obtain ⟨out₂, hout₂, -, -, hdelivered⟩ := hsecond out₁.2 (Received.self out₁.2)
  exact ⟨out₁, hout₁, out₂, hout₂, hdelivered out₂.2 (Received.self out₂.2)⟩

end BorderRouter
