import IcnPrototype.Rm.Trap

set_option autoImplicit false

/-! # Forwarding a Get packet

The RM appends a PID to every Get packet and sends the packet to the exit of this PID. There are
two functions that append: `get_packets_forward` with `ADD_PID`, and `update_PID`, which came
before it. `appended_totalLength_differs` compares what they leave of a packet: it is the same
behind the IP header, and never the same in the IP header, where `get_packets_forward` adds to a
big-endian length.

`get_packets_forward` writes the port, the addresses, the time to live and the checksum as well.
Which PID it appends is up to a function like `lunxun`; here the PID is an argument. If the PID
belongs to no exit, `port_id` is not assigned: what it holds is an argument, too.
-/

namespace Rm

open Bytes Host

/-! ## The functions -/

/-- The part of a `struct rte_mbuf` that forwarding uses. -/
structure RteMbuf where
  data : Mem
  dataLen : UInt16
  pktLen : UInt32

/-- `sizeof(CoLoR_get_t)` -/
def sizeofColorGet : Nat := 96

/-- `PID1`, `PID2`, ..., where `c` is the digit. -/
def pidName (c : UInt8) : List UInt8 := [0x50, 0x49, 0x44, c]

/-- `IPv4(a, b, c, d)` -/
def ipv4 (a b c d : UInt8) : UInt32 := ofLe32 [d, c, b, a]

/-- `update_PID` -/
def updatePid (m : RteMbuf) (pid : UInt32) : RteMbuf :=
  let pids := m.data 44
  let data := poke m.data 16 (le16 (htons (htons (load16 m.data 16) + 4)))
  let data := poke data (14 + 20 + sizeofColorGet + 4 * pids.toNat) (le32 pid)
  let data := poke data 44 [data 44 + 1]
  let data := poke data 36 (le16 (htons (htons (load16 data 36) + 4)))
  ⟨data, m.dataLen + 4, m.pktLen + 4⟩

/-- The comparisons at the end of `ADD_PID`. -/
def exitOf (pid : List UInt8) : Nat :=
  if pid = pidName 0x31 then 1 else if pid = pidName 0x32 then 2 else if pid = pidName 0x33 then 3 else 0

/-- `ADD_PID`: the exit and the packet. It writes `total_len` in host byte order to compute where
the PID goes, and again when the PID is there. -/
def addPid (m : RteMbuf) (pidXuan : UInt32) : Nat × RteMbuf :=
  let data := poke m.data 36 (le16 (m.dataLen - 20 - 14))
  let pidAdd := 34 + (load16 data 36).toNat
  let data := poke data pidAdd (le32 pidXuan)
  let data := poke data 36 (le16 (htons (load16 data 36 + 4)))
  (exitOf (peek data pidAdd 4), ⟨data, m.dataLen + 4, m.pktLen + 4⟩)

/-- The source and destination addresses towards an exit; `ADD PID wrong!` for another one. -/
def exitAddrs (ret : Nat) : Option (UInt32 × UInt32) :=
  if ret = 1 then some (htonl (ipv4 192 168 2 1), htonl (ipv4 192 168 2 2))
  else if ret = 2 then some (htonl (ipv4 192 168 3 1), htonl (ipv4 192 168 3 2))
  else if ret = 3 then some (htonl (ipv4 192 168 4 1), htonl (ipv4 192 168 4 2))
  else none

/-- The IP header towards an exit. -/
def setAddrs (data : Mem) (ret : Nat) : Mem :=
  match exitAddrs ret with
  | some (src, dst) => poke (poke data 26 (le32 src)) 30 (le32 dst)
  | none => data

/-- `get_hdr->total_len+=4` and `get_hdr->PIDs+=1` -/
def countPid (data : Mem) : Mem :=
  let data := poke data 36 (le16 (load16 data 36 + 4))
  poke data 44 [data 44 + 1]

/-- `--(ipv4_hdr->time_to_live)`, `++(ipv4_hdr->hdr_checksum)`, and the address of the port. -/
def leaveBy (data : Mem) (addr : EtherAddr) : Mem :=
  let data := poke data 22 [data 22 - 1]
  let data := poke data 24 (le16 (load16 data 24 + 1))
  poke data 6 addr.addrBytes

/-- `get_packets_forward`: the port and the packet that is sent, if it is not freed. -/
def getPacketsForward (c : LoopConfig) (portId : Nat) (m : RteMbuf) (pidXuan : UInt32) :
    Option (Nat × RteMbuf) :=
  let data := totalLengthPlus4 m.data
  if isValidIpv4Pkt data m.pktLen.toNat < 0 then none
  else
    let (ret, m) := addPid { m with data := countPid data } pidXuan
    let portId := if ret = 0 then portId else ret
    some (portId, { m with data := leaveBy (setAddrs m.data ret) (c.portsEthAddr portId) })

/-- The loop frees the packets that are not sent, and no others. -/
theorem getPacketsForward_eq_none {c : LoopConfig} {portId : Nat} {m : RteMbuf} {pidXuan : UInt32} :
    getPacketsForward c portId m pidXuan = none
      ↔ isValidIpv4Pkt (totalLengthPlus4 m.data) m.pktLen.toNat < 0 := by
  unfold getPacketsForward
  dsimp only
  split
  · next h => exact iff_of_true rfl h
  · next h => exact iff_of_false (by simp) h

/-! ## What is sent -/

/-- A Get packet: the header is there as a whole. -/
structure IsGet (m : RteMbuf) : Prop where
  verType : m.data 34 = getPacket
  dataLen : 14 + 20 + sizeofColorGet ≤ m.dataLen.toNat

/-- What `get_packets_forward` leaves of a packet it sends to the exit `ret`. -/
structure Forwarded (m out : RteMbuf) (pid : UInt32) (ret : Nat) : Prop where
  dataLen : out.dataLen = m.dataLen + 4
  pktLen : out.pktLen = m.pktLen + 4
  totalLength : load16 out.data 16 = load16 m.data 16 + 4
  timeToLive : out.data 22 = m.data 22 - 1
  hdrChecksum : load16 out.data 24 = load16 m.data 24 + 1
  addrs : peek out.data 26 8 = peek (setAddrs m.data ret) 26 8
  totalLen : load16 out.data 36 = htons (m.dataLen - 20 - 14 + 4)
  pids : out.data 44 = m.data 44 + 1
  pid : load32 out.data m.dataLen.toNat = pid
  rest : ∀ i, 12 ≤ i → i < m.dataLen.toNat → (i < 16 ∨ 18 ≤ i) → i ≠ 22 → (i < 24 ∨ 34 ≤ i) →
    (i < 36 ∨ 38 ≤ i) → i ≠ 44 → out.data i = m.data i

/-- Two headers with the same addresses have the same after `setAddrs`. -/
theorem setAddrs_addrs {data data' : Mem} (ret : Nat)
    (h : ∀ i, 26 ≤ i → i < 34 → data i = data' i) :
    ∀ i, 26 ≤ i → i < 34 → setAddrs data ret i = setAddrs data' ret i := by
  intro i hi hlt
  unfold setAddrs
  cases exitAddrs ret with
  | none => exact h i hi hlt
  | some addrs =>
      have hone : ∀ d : Mem, poke (poke d 26 (le32 addrs.1)) 30 (le32 addrs.2)
          = poke d 26 (le32 addrs.1 ++ le32 addrs.2) := fun d => (poke_append d 26 _ _).symm
      have hsize : (le32 addrs.1 ++ le32 addrs.2).length = 8 := by
        rw [List.length_append, le32_length, le32_length]
      dsimp only
      rw [hone, hone, poke_of_inside hi (by omega), poke_of_inside hi (by omega)]

/-- Only the addresses are written. -/
theorem setAddrs_of_outside {data : Mem} {ret i : Nat} (h : i < 26 ∨ 34 ≤ i) :
    setAddrs data ret i = data i := by
  unfold setAddrs
  cases exitAddrs ret with
  | none => rfl
  | some addrs =>
      dsimp only
      rw [poke_of_outside (by simp only [le32_length]; omega),
        poke_of_outside (by simp only [le32_length]; omega)]

section AddPid

variable {m : RteMbuf} (hlen : 14 + 20 + sizeofColorGet ≤ m.dataLen.toNat) (pid : UInt32)
include hlen

/-- The end of the header and the PIDs, counted from the CoLoR header. -/
theorem totalLen_toNat : (m.dataLen - 20 - 14).toNat = m.dataLen.toNat - 34 := by
  have h : 130 ≤ m.dataLen.toNat := hlen
  have h20 : (20 : UInt16) ≤ m.dataLen := UInt16.le_iff_toNat_le.mpr (by simp; omega)
  have hsub : (m.dataLen - 20).toNat = m.dataLen.toNat - 20 := UInt16.toNat_sub_of_le _ _ h20
  have h14 : (14 : UInt16) ≤ m.dataLen - 20 := UInt16.le_iff_toNat_le.mpr (by rw [hsub]; simp; omega)
  have hsub' : (m.dataLen - 20 - 14).toNat = (m.dataLen - 20).toNat - 14 :=
    UInt16.toNat_sub_of_le _ _ h14
  omega

/-- `ADD_PID` appends the PID at the end and leaves the length in network byte order. -/
theorem addPid_eq :
    addPid m pid = (exitOf (le32 pid),
      ⟨poke (poke m.data m.dataLen.toNat (le32 pid)) 36 (le16 (htons (m.dataLen - 20 - 14 + 4))),
        m.dataLen + 4, m.pktLen + 4⟩) := by
  have h : 130 ≤ m.dataLen.toNat := hlen
  have hadd : 34 + (m.dataLen - 20 - 14).toNat = m.dataLen.toNat := by
    rw [totalLen_toNat hlen]
    omega
  have hread : load16 (poke (poke m.data 36 (le16 (m.dataLen - 20 - 14))) m.dataLen.toNat (le32 pid)) 36
      = m.dataLen - 20 - 14 := by
    rw [load16_poke_of_disjoint (by omega), load16_poke_le16]
  have hwrite : ∀ x : UInt16,
      poke (poke (poke m.data 36 (le16 (m.dataLen - 20 - 14))) m.dataLen.toNat (le32 pid)) 36 (le16 x)
        = poke (poke m.data m.dataLen.toNat (le32 pid)) 36 (le16 x) := by
    intro x
    have hcomm := @poke_comm m.data 36 m.dataLen.toNat (le16 (m.dataLen - 20 - 14)) (le32 pid)
      (by rw [le16_length]; omega)
    rw [hcomm, poke_poke_self (by rw [le16_length, le16_length])]
  have hpid : ∀ x : UInt16,
      peek (poke (poke m.data m.dataLen.toNat (le32 pid)) 36 (le16 x)) m.dataLen.toNat 4
        = le32 pid := by
    intro x
    rw [peek_poke_of_disjoint (by rw [le16_length]; omega), ← le32_length pid, peek_poke_self]
  unfold addPid
  simp only [load16_poke_le16, hadd, hread, hwrite, hpid]

end AddPid

/-! ### The parts of `get_packets_forward` -/

theorem countPid_pids (data : Mem) : countPid data 44 = data 44 + 1 := by
  unfold countPid
  rw [poke_of_inside le_rfl (by simp)]
  show poke data 36 _ 44 + 1 = data 44 + 1
  rw [poke_of_outside (by rw [le16_length]; omega)]

theorem countPid_of_outside {data : Mem} {i : Nat} (htotal : i < 36 ∨ 38 ≤ i) (hpids : i ≠ 44) :
    countPid data i = data i := by
  unfold countPid
  rw [poke_of_outside (by rw [List.length_singleton]; omega),
    poke_of_outside (by rw [le16_length]; omega)]

section LeaveBy

variable (data : Mem) (addr : EtherAddr)

theorem leaveBy_timeToLive : leaveBy data addr 22 = data 22 - 1 := by
  unfold leaveBy
  rw [poke_of_outside (by rw [addr.size_eq]; omega), poke_of_outside (by omega),
    poke_of_inside le_rfl (by simp)]
  rfl

theorem leaveBy_hdrChecksum : load16 (leaveBy data addr) 24 = load16 data 24 + 1 := by
  unfold leaveBy
  rw [load16_poke_of_disjoint (by rw [addr.size_eq]; omega), load16_poke_le16,
    load16_poke_of_disjoint (by simp)]

theorem leaveBy_of_outside {i : Nat} (heth : 12 ≤ i) (httl : i ≠ 22) (hsum : i < 24 ∨ 26 ≤ i) :
    leaveBy data addr i = data i := by
  unfold leaveBy
  rw [poke_of_outside (by rw [addr.size_eq]; omega), poke_of_outside (by rw [le16_length]; omega),
    poke_of_outside (by rw [List.length_singleton]; omega)]

end LeaveBy

/-- **What `get_packets_forward` sends.** -/
theorem getPacketsForward_forwarded (c : LoopConfig) (portId : Nat) {m : RteMbuf}
    (hlen : 14 + 20 + sizeofColorGet ≤ m.dataLen.toNat)
    (hvalid : ¬ isValidIpv4Pkt (totalLengthPlus4 m.data) m.pktLen.toNat < 0) (pid : UInt32) :
    ∃ port out, getPacketsForward c portId m pid = some (port, out)
      ∧ Forwarded m out pid (exitOf (le32 pid)) := by
  have h : 130 ≤ m.dataLen.toNat := hlen
  have hadd := @addPid_eq { m with data := countPid (totalLengthPlus4 m.data) } hlen pid
  dsimp only at hadd
  unfold getPacketsForward
  dsimp only
  rw [if_neg hvalid, hadd]
  refine ⟨_, _, rfl, ?_⟩
  dsimp only
  generalize (if exitOf (le32 pid) = 0 then portId else exitOf (le32 pid)) = port
  set total : UInt16 := m.dataLen - 20 - 14 + 4
  set head : Mem := countPid (totalLengthPlus4 m.data)
  set body : Mem := poke (poke head m.dataLen.toNat (le32 pid)) 36 (le16 (htons total))
  set addr : EtherAddr := c.portsEthAddr port
  -- one fact for each layer: where it writes, and that the rest is what was there before
  have hhead : ∀ i, (i < 16 ∨ 18 ≤ i) → (i < 36 ∨ 38 ≤ i) → i ≠ 44 → head i = m.data i := by
    intro i hip htotal hpids
    calc head i = totalLengthPlus4 m.data i := countPid_of_outside htotal hpids
      _ = m.data i := poke_of_outside (by rw [le16_length]; omega)
  have hbody : ∀ i < m.dataLen.toNat, (i < 36 ∨ 38 ≤ i) → body i = head i := by
    intro i hi htotal
    calc body i = poke head m.dataLen.toNat (le32 pid) i :=
          poke_of_outside (by rw [le16_length]; omega)
      _ = head i := poke_of_outside (by omega)
  have hout : ∀ i, 12 ≤ i → i ≠ 22 → (i < 24 ∨ 34 ≤ i) →
      leaveBy (setAddrs body (exitOf (le32 pid))) addr i = body i := by
    intro i heth httl hip
    calc leaveBy (setAddrs body (exitOf (le32 pid))) addr i
        = setAddrs body (exitOf (le32 pid)) i := leaveBy_of_outside _ _ heth httl (by omega)
      _ = body i := setAddrs_of_outside (by omega)
  have hrest : ∀ i, 12 ≤ i → i < m.dataLen.toNat → (i < 16 ∨ 18 ≤ i) → i ≠ 22 →
      (i < 24 ∨ 34 ≤ i) → (i < 36 ∨ 38 ≤ i) → i ≠ 44 →
      leaveBy (setAddrs body (exitOf (le32 pid))) addr i = m.data i := by
    intro i heth hi hip httl haddrs htotal hpids
    rw [hout i heth httl haddrs, hbody i hi htotal, hhead i hip htotal hpids]
  refine {
    dataLen := rfl
    pktLen := rfl
    totalLength := ?_
    timeToLive := ?_
    hdrChecksum := ?_
    addrs := ?_
    totalLen := ?_
    pids := ?_
    pid := ?_
    rest := hrest }
  · calc load16 (leaveBy (setAddrs body (exitOf (le32 pid))) addr) 16
        = load16 body 16 := load16_congr fun i hi hlt => hout i (by omega) (by omega) (by omega)
      _ = load16 head 16 := load16_congr fun i hi hlt => hbody i (by omega) (by omega)
      _ = load16 (totalLengthPlus4 m.data) 16 :=
          load16_congr fun i hi hlt => countPid_of_outside (by omega) (by omega)
      _ = load16 m.data 16 + 4 := load16_poke_le16 _ _ _
  · have httl : setAddrs body (exitOf (le32 pid)) 22 = m.data 22 := by
      rw [setAddrs_of_outside (by omega), hbody 22 (by omega) (by omega),
        hhead 22 (by omega) (by omega) (by omega)]
    exact (leaveBy_timeToLive _ addr).trans (by rw [httl])
  · have hsum : load16 (setAddrs body (exitOf (le32 pid))) 24 = load16 m.data 24 := by
      apply load16_congr
      intro i hi hlt
      rw [setAddrs_of_outside (by omega), hbody i (by omega) (by omega),
        hhead i (by omega) (by omega) (by omega)]
    exact (leaveBy_hdrChecksum _ addr).trans (by rw [hsum])
  · have haddrs : ∀ i, 26 ≤ i → i < 34 → body i = m.data i := by
      intro i hi hlt
      rw [hbody i (by omega) (by omega), hhead i (by omega) (by omega) (by omega)]
    apply peek_congr
    intro i hi hlt
    calc leaveBy (setAddrs body (exitOf (le32 pid))) addr i
        = setAddrs body (exitOf (le32 pid)) i :=
          leaveBy_of_outside _ _ (by omega) (by omega) (by omega)
      _ = setAddrs m.data (exitOf (le32 pid)) i := setAddrs_addrs _ haddrs i hi hlt
  · calc load16 (leaveBy (setAddrs body (exitOf (le32 pid))) addr) 36
        = load16 body 36 := load16_congr fun i hi hlt => hout i (by omega) (by omega) (by omega)
      _ = htons total := load16_poke_le16 _ _ _
  · calc leaveBy (setAddrs body (exitOf (le32 pid))) addr 44
        = body 44 := hout 44 (by omega) (by omega) (by omega)
      _ = head 44 := hbody 44 (by omega) (by omega)
      _ = totalLengthPlus4 m.data 44 + 1 := countPid_pids _
      _ = m.data 44 + 1 := by
          rw [totalLengthPlus4, poke_of_outside (by rw [le16_length]; omega)]
  · calc load32 (leaveBy (setAddrs body (exitOf (le32 pid))) addr) m.dataLen.toNat
        = load32 body m.dataLen.toNat :=
          load32_congr fun i hi hlt => hout i (by omega) (by omega) (by omega)
      _ = pid := by
          rw [load32_poke_of_disjoint (by rw [le16_length]; omega), load32_poke_le32]

/-! ## The two functions that append -/

/-- A Get packet with `k` PIDs, whose lengths are those of the frame. -/
structure WellFormedGet (m : RteMbuf) (k : Nat) : Prop where
  versionIhl : m.data 14 = 0x45
  verType : m.data 34 = getPacket
  dataLen : m.dataLen.toNat = 14 + 20 + sizeofColorGet + 4 * k
  pktLen : m.pktLen.toNat = m.dataLen.toNat
  totalLength : (ntohs (load16 m.data 16)).toNat + 14 = m.dataLen.toNat
  totalLen : (ntohs (load16 m.data 36)).toNat + 34 = m.dataLen.toNat
  pids : (m.data 44).toNat = k
  lt : k < 255

/-- Two packets agree in their lengths, in the number of PIDs, and in the bytes from the CoLoR
header to the end. -/
structure AgreeBehindIp (a b : RteMbuf) : Prop where
  dataLen : a.dataLen = b.dataLen
  pktLen : a.pktLen = b.pktLen
  totalLen : load16 a.data 36 = load16 b.data 36
  pids : a.data 44 = b.data 44
  bytes : ∀ i, 34 ≤ i → i < a.dataLen.toNat → a.data i = b.data i

/-- They agree in the total length of the IP header, too. -/
def Agree (a b : RteMbuf) : Prop := AgreeBehindIp a b ∧ load16 a.data 16 = load16 b.data 16

/-- In network byte order, a length has its high byte where the host has the low one. -/
theorem ntohs_add_four {x : UInt16} (h : (ntohs x).toNat < 64000) :
    (ntohs (x + 4)).toNat = (ntohs x).toNat + 1024 := by
  have hadd : (x + 4).toNat = (x.toNat + 4) % 65536 := UInt16.toNat_add x 4
  have hlt : x.toNat < 65536 := x.toNat_lt
  unfold ntohs at h ⊢
  rw [bswap16_toNat] at h ⊢
  have hhigh : x.toNat / 256 < 256 := Nat.div_lt_of_lt_mul hlt
  have hlow : x.toNat % 256 < 250 := by omega
  -- so there is no carry to the other byte
  have hsum : (x + 4).toNat = x.toNat + 4 := by
    have hbytes := Nat.div_add_mod x.toNat 256
    omega
  rw [bswap16_toNat, hsum]
  omega

theorem updatePid_totalLength (m : RteMbuf) (pid : UInt32) :
    load16 (updatePid m pid).data 16 = htons (htons (load16 m.data 16) + 4) := by
  have hsize : sizeofColorGet = 96 := rfl
  unfold updatePid
  dsimp only
  rw [load16_poke_of_disjoint (by omega), load16_poke_of_disjoint (by omega),
    load16_poke_of_disjoint (by omega), load16_poke_le16]

theorem updatePid_totalLen (m : RteMbuf) (pid : UInt32) :
    load16 (updatePid m pid).data 36 = htons (htons (load16 m.data 36) + 4) := by
  have hsize : sizeofColorGet = 96 := rfl
  unfold updatePid
  dsimp only
  rw [load16_poke_le16, load16_poke_of_disjoint (by omega), load16_poke_of_disjoint (by omega),
    load16_poke_of_disjoint (by rw [le16_length]; omega)]

theorem updatePid_pids (m : RteMbuf) (pid : UInt32) :
    (updatePid m pid).data 44 = m.data 44 + 1 := by
  have hsize : sizeofColorGet = 96 := rfl
  unfold updatePid
  dsimp only
  rw [poke_of_outside (by rw [le16_length]; omega), poke_of_inside le_rfl (by simp)]
  show poke (poke m.data 16 _) _ _ 44 + 1 = m.data 44 + 1
  rw [poke_of_outside (by omega), poke_of_outside (by rw [le16_length]; omega)]

section Appended

variable {m : RteMbuf} {k : Nat} (hm : WellFormedGet m k) (pid : UInt32)
include hm

/-- The length of a well-formed packet is far from the end of its half word. -/
theorem totalLength_lt : (ntohs (load16 m.data 16)).toNat < 64000 := by
  have hsize : sizeofColorGet = 96 := rfl
  have hlen := hm.dataLen
  have hk := hm.lt
  have htotal := hm.totalLength
  omega

/-- What `update_PID` leaves of a packet. -/
theorem updatePid_data (i : Nat) (hi : 18 ≤ i) (htotal : i < 36 ∨ 38 ≤ i) (hpids : i ≠ 44)
    (hend : i < m.dataLen.toNat) : (updatePid m pid).data i = m.data i := by
  have hlen := hm.dataLen
  unfold updatePid
  dsimp only
  rw [hm.pids, poke_of_outside (by rw [le16_length]; omega),
    poke_of_outside (by rw [List.length_singleton]; omega), poke_of_outside (by omega),
    poke_of_outside (by rw [le16_length]; omega)]

theorem updatePid_pid : load32 (updatePid m pid).data m.dataLen.toNat = pid := by
  have hsize : sizeofColorGet = 96 := rfl
  have hlen := hm.dataLen
  unfold updatePid
  dsimp only
  rw [hm.pids, ← hlen, load32_poke_of_disjoint (by rw [le16_length]; omega),
    load32_poke_of_disjoint (by rw [List.length_singleton]; omega), load32_poke_le32]

/-- Behind the IP header `get_packets_forward` leaves what `update_PID` leaves. -/
theorem Forwarded.agreeBehindIp {out : RteMbuf} {ret : Nat} (h : Forwarded m out pid ret) :
    AgreeBehindIp out (updatePid m pid) := by
  have hsize : sizeofColorGet = 96 := rfl
  have hlen := hm.dataLen
  have hk := hm.lt
  have htotal : load16 out.data 36 = load16 (updatePid m pid).data 36 := by
    have hlength : m.dataLen - 20 - 14 = htons (load16 m.data 36) := by
      refine UInt16.toNat_inj.mp ?_
      rw [totalLen_toNat (by omega)]
      have hcolor : (htons (load16 m.data 36)).toNat + 34 = m.dataLen.toNat := hm.totalLen
      omega
    rw [h.totalLen, updatePid_totalLen, hlength]
  have hpids : out.data 44 = (updatePid m pid).data 44 := by rw [h.pids, updatePid_pids]
  refine ⟨h.dataLen, h.pktLen, htotal, hpids, ?_⟩
  intro i hi hend
  have hgrown : out.dataLen.toNat = m.dataLen.toNat + 4 := by
    rw [h.dataLen, UInt16.toNat_add, Nat.mod_eq_of_lt]
    · rfl
    · have h4 : (4 : UInt16).toNat = 4 := rfl
      omega
  -- the two bytes of the length, the number of PIDs, the PID, and what neither writes
  by_cases htl : 36 ≤ i ∧ i < 38
  · refine byte_of_peek_eq (n := 2) ?_ htl.1 htl.2
    rw [peek_of_load16, peek_of_load16, htotal]
  · by_cases h44 : i = 44
    · rw [h44, hpids]
    · by_cases hpid : m.dataLen.toNat ≤ i
      · refine byte_of_peek_eq (n := 4) ?_ hpid (by omega)
        rw [peek_of_load32, peek_of_load32, h.pid, updatePid_pid hm]
      · rw [h.rest i (by omega) (by omega) (by omega) (by omega) (by omega) (by omega) h44,
          updatePid_data hm pid i (by omega) (by omega) h44 (by omega)]

/-- Four added to the big-endian length, as if it were in host byte order, is 1024 in its high
byte. -/
theorem totalLength_plus_1024 {out : RteMbuf} {ret : Nat} (h : Forwarded m out pid ret) :
    (ntohs (load16 out.data 16)).toNat = (ntohs (load16 m.data 16)).toNat + 1024 := by
  rw [h.totalLength]
  exact ntohs_add_four (totalLength_lt hm)

theorem updatePid_totalLength_plus_4 :
    (ntohs (load16 (updatePid m pid).data 16)).toNat = (ntohs (load16 m.data 16)).toNat + 4 := by
  have hlt : (htons (load16 m.data 16)).toNat < 64000 := totalLength_lt hm
  have h4 : (4 : UInt16).toNat = 4 := rfl
  rw [updatePid_totalLength, ntohs_htons, UInt16.toNat_add, h4, Nat.mod_eq_of_lt (by omega)]
  rfl

/-- A well-formed packet is valid, with the length changed, too. -/
theorem wellFormedGet_valid :
    ¬ isValidIpv4Pkt (totalLengthPlus4 m.data) m.pktLen.toNat < 0 := by
  have hlen := hm.dataLen
  have hversion : totalLengthPlus4 m.data 14 = 0x45 := by
    rw [totalLengthPlus4, poke_of_outside (by omega), hm.versionIhl]
  have hplus : load16 (totalLengthPlus4 m.data) 16 = load16 m.data 16 + 4 := load16_poke_le16 _ _ _
  have h20 : ¬ htons (load16 (totalLengthPlus4 m.data) 16) < 20 := by
    have h1024 : (htons (load16 m.data 16 + 4)).toNat = (ntohs (load16 m.data 16)).toNat + 1024 :=
      ntohs_add_four (totalLength_lt hm)
    rw [hplus, UInt16.lt_iff_toNat_lt, h1024]
    exact Nat.not_lt.mpr (Nat.le_trans (by decide) (Nat.le_add_left 1024 _))
  unfold isValidIpv4Pkt
  rw [if_neg (by rw [hm.pktLen]; omega), hversion, if_neg (by decide), if_neg (by decide),
    if_neg h20]
  decide

end Appended

/-- **The two functions never agree on the IP header.** For every well-formed Get packet and every
PID, `get_packets_forward` sends a packet that agrees with the one `update_PID` makes behind the IP
header. But the total length of the IP header grows by 1024, and not by 4. -/
theorem appended_totalLength_differs (c : LoopConfig) (portId : Nat) (pid : UInt32) {m : RteMbuf}
    {k : Nat} (hm : WellFormedGet m k) :
    ∃ port out, getPacketsForward c portId m pid = some (port, out)
      ∧ AgreeBehindIp out (updatePid m pid)
      ∧ (ntohs (load16 out.data 16)).toNat = (ntohs (load16 m.data 16)).toNat + 1024
      ∧ (ntohs (load16 (updatePid m pid).data 16)).toNat = (ntohs (load16 m.data 16)).toNat + 4
      ∧ ¬ Agree out (updatePid m pid) := by
  have hlen : 14 + 20 + sizeofColorGet ≤ m.dataLen.toNat := by
    rw [hm.dataLen]
    exact Nat.le_add_right _ _
  obtain ⟨port, out, hsent, hout⟩ :=
    getPacketsForward_forwarded c portId hlen (wellFormedGet_valid hm) pid
  have h1024 := totalLength_plus_1024 hm pid hout
  have hplus4 := updatePid_totalLength_plus_4 hm pid
  refine ⟨port, out, hsent, hout.agreeBehindIp hm pid, h1024, hplus4, ?_⟩
  rintro ⟨-, htotal⟩
  rw [htotal] at h1024
  omega

/-- A Get packet of 130 bytes, without PIDs. -/
def getWithoutPids : RteMbuf where
  data := poke (poke (poke (fun _ => 0) 14 [0x45, 0, 0, 116]) 34 [getPacket, 0]) 36 [0, 96]
  dataLen := 130
  pktLen := 130

theorem getWithoutPids_wellFormed : WellFormedGet getWithoutPids 0 where
  versionIhl := by decide
  verType := by decide
  dataLen := by decide
  pktLen := by decide
  totalLength := by decide
  totalLen := by decide
  pids := by decide
  lt := by decide

/-- An RM that knows no addresses. -/
def noAddresses : LoopConfig := ⟨.ofByte 2, fun _ => ⟨[0, 0, 0, 0, 0, 0], rfl⟩⟩

/-- The PID `PID1` -/
def pid1 : UInt32 := ofLe32 (pidName 0x31)

theorem appended_totalLength_differs_getWithoutPids :
    ∃ port out, getPacketsForward noAddresses 0 getWithoutPids pid1 = some (port, out)
      ∧ AgreeBehindIp out (updatePid getWithoutPids pid1)
      ∧ (ntohs (load16 out.data 16)).toNat = (ntohs (load16 getWithoutPids.data 16)).toNat + 1024
      ∧ (ntohs (load16 (updatePid getWithoutPids pid1).data 16)).toNat
        = (ntohs (load16 getWithoutPids.data 16)).toNat + 4
      ∧ ¬ Agree out (updatePid getWithoutPids pid1) :=
  appended_totalLength_differs noAddresses 0 pid1 getWithoutPids_wellFormed

/-- One packet leaves with the length 1140 in its IP header, the other one with 120. -/
theorem not_agree_getWithoutPids :
    WellFormedGet getWithoutPids 0
      ∧ ∃ port out, getPacketsForward noAddresses 0 getWithoutPids pid1 = some (port, out)
        ∧ ¬ Agree out (updatePid getWithoutPids pid1) := by
  refine ⟨getWithoutPids_wellFormed, ?_⟩
  have hsent : (getPacketsForward noAddresses 0 getWithoutPids pid1).map
      (fun out => ntohs (load16 out.2.data 16)) = some 1140 := by decide
  have hupdated : ntohs (load16 (updatePid getWithoutPids pid1).data 16) = 120 := by decide
  cases hout : getPacketsForward noAddresses 0 getWithoutPids pid1 with
  | none => simp [hout] at hsent
  | some out =>
      refine ⟨out.1, out.2, rfl, ?_⟩
      rintro ⟨-, htotal⟩
      rw [hout, Option.map_some, htotal, hupdated] at hsent
      exact absurd hsent (by decide)

end Rm
