import IcnPrototype.Lib.OnesComplement
import IcnPrototype.Rm.Forward

set_option autoImplicit false

/-! # The checksum of a forwarded Get packet

`is_valid_ipv4_pkt` relies on the hardware for the checksum of a packet that arrives. When
`get_packets_forward` sends it, three things in the IP header have changed: the total length, the
addresses and the time to live. The checksum is counted up by one, which is what the time to live
needs. `checksumCorrect_forwarded_iff` says for which packets it fits the other changes, too.

Sums are taken over the half words of the header as the host reads them. By
`OnesComplement.sum_swap_mod` that is as good as network byte order.
-/

namespace Rm

open Bytes Host OnesComplement

/-- The half words of a header, as the host reads them. -/
def halfWords (data : Mem) (off n : Nat) : List Nat :=
  (List.range n).map fun i => (load16 data (off + 2 * i)).toNat

/-- The checksum of the header of 20 bytes: over the half words in network byte order, with zero
in the place of the checksum. -/
def ChecksumCorrect (data : Mem) : Prop :=
  (ntohs (load16 data 24)).toNat
    = checksum 65535 ((halfWords (poke data 24 [0, 0]) 14 10).map (swap 256))

/-- The sum of the half words of the header. -/
def headerSum (data : Mem) : Nat := (halfWords data 14 10).sum

/-- The sum of the half words of the addresses. -/
def addrSum (data : Mem) : Nat := (halfWords data 26 4).sum

theorem ntohs_toNat (x : UInt16) : (ntohs x).toNat = swap 256 x.toNat := bswap16_toNat x

theorem halfWords_congr {data data' : Mem} {off n : Nat}
    (h : ∀ i, off ≤ i → i < off + 2 * n → data i = data' i) :
    halfWords data off n = halfWords data' off n := by
  apply List.map_congr_left
  intro k hk
  rw [List.mem_range] at hk
  rw [load16_congr fun i hi hlt => h i (by omega) (by omega)]

theorem halfWords_add (data : Mem) (off n k : Nat) :
    halfWords data off (n + k) = halfWords data off n ++ halfWords data (off + 2 * n) k := by
  unfold halfWords
  rw [List.range_add, List.map_append, List.map_map]
  congr 1
  apply List.map_congr_left
  intro i _
  rw [Function.comp_apply, Nat.mul_add, Nat.add_assoc]

/-- The header: version, total length, two half words for fragments, time to live, checksum,
addresses. -/
theorem headerSum_eq (data : Mem) :
    headerSum data = (load16 data 14).toNat + (load16 data 16).toNat + (load16 data 18).toNat
      + (load16 data 20).toNat + (load16 data 22).toNat + (load16 data 24).toNat
      + addrSum data := by
  rw [headerSum, halfWords_add data 14 6 4, List.sum_append]
  simp [halfWords, addrSum, List.range_succ, Nat.add_assoc]

theorem halfWords_le {data : Mem} {off n w : Nat} (h : w ∈ halfWords data off n) : w ≤ 65535 := by
  obtain ⟨i, -, rfl⟩ := List.mem_map.mp h
  exact Nat.le_of_lt_succ (load16 data (off + 2 * i)).toNat_lt

theorem swap_le {x : Nat} (h : x ≤ 65535) : swap 256 x ≤ 65535 := by
  have hhigh : x / 256 < 256 := Nat.div_lt_of_lt_mul (by omega)
  have hlow : x % 256 < 256 := Nat.mod_lt _ (by decide)
  rw [swap]
  omega

theorem swap_eq_zero {x : Nat} : swap 256 x = 0 ↔ x = 0 := by
  unfold swap
  omega

theorem ntohs_eq_max {x : UInt16} : (ntohs x).toNat = 65535 ↔ x = 0xFFFF := by
  have hlt := x.toNat_lt
  have hswap : swap 256 x.toNat = 65535 ↔ x.toNat = 65535 := by
    unfold swap
    omega
  rw [ntohs_toNat, hswap, ← UInt16.toNat_inj]
  rfl

/-- The header with zero in the place of the checksum. -/
theorem headerSum_zeroed (data : Mem) :
    headerSum (poke data 24 [0, 0]) + (load16 data 24).toNat = headerSum data := by
  have hother : ∀ off, (off + 2 ≤ 24 ∨ 26 ≤ off) →
      load16 (poke data 24 [0, 0]) off = load16 data off :=
    fun off h => load16_poke_of_disjoint (by simpa using h)
  have hzero : load16 (poke data 24 [0, 0]) 24 = 0 := load16_poke_le16 data 24 0
  have haddrs : addrSum (poke data 24 [0, 0]) = addrSum data := by
    rw [addrSum, addrSum, halfWords_congr fun i hi _ => poke_of_outside (Or.inr (by simpa using hi))]
  rw [headerSum_eq, headerSum_eq, haddrs, hzero, hother 14 (by omega), hother 16 (by omega),
    hother 18 (by omega), hother 20 (by omega), hother 22 (by omega), UInt16.toNat_zero]
  omega

/-- A sum of half words that are not all zero. -/
theorem sum_swap_pos {data : Mem} {off n : Nat} (hn : 0 < n) (h : load16 data off ≠ 0) :
    0 < ((halfWords data off n).map (swap 256)).sum := by
  have hfirst : (load16 data off).toNat ∈ halfWords data off n :=
    List.mem_map.mpr ⟨0, List.mem_range.mpr hn, rfl⟩
  have hne : swap 256 (load16 data off).toNat ≠ 0 := by
    rw [Ne, swap_eq_zero, ← UInt16.toNat_zero, UInt16.toNat_inj]
    exact h
  calc 0 < swap 256 (load16 data off).toNat := Nat.pos_of_ne_zero hne
    _ ≤ _ := List.single_le_sum (fun _ _ => Nat.zero_le _) _ (List.mem_map_of_mem hfirst)

/-- **When the checksum is correct**: the sum of all half words is 0 modulo 65535, and of the two
zeros the field holds the one with no bits set. -/
theorem checksumCorrect_iff {data : Mem} (hversion : load16 data 14 ≠ 0) :
    ChecksumCorrect data ↔ headerSum data % 65535 = 0 ∧ load16 data 24 ≠ 0xFFFF := by
  have hle : ∀ w ∈ (halfWords (poke data 24 [0, 0]) 14 10).map (swap 256), w ≤ 65535 := by
    intro w hw
    obtain ⟨x, hx, rfl⟩ := List.mem_map.mp hw
    exact swap_le (halfWords_le hx)
  have hpos : 0 < ((halfWords (poke data 24 [0, 0]) 14 10).map (swap 256)).sum := by
    refine sum_swap_pos (by decide) ?_
    rw [load16_poke_of_disjoint (by decide)]
    exact hversion
  -- swapping the bytes of all half words, the one of the checksum included, keeps the sum at zero
  have hbytes : ((ntohs (load16 data 24)).toNat
        + ((halfWords (poke data 24 [0, 0]) 14 10).map (swap 256)).sum) % 65535 = 0
      ↔ headerSum data % 65535 = 0 := by
    have hcons := sum_swap_mod (b := 256) (by decide)
      ((load16 data 24).toNat :: halfWords (poke data 24 [0, 0]) 14 10)
    rw [List.map_cons, List.sum_cons, List.sum_cons, ← ntohs_toNat,
      Nat.add_comm (load16 data 24).toNat] at hcons
    exact headerSum_zeroed data ▸ hcons
  have hlt := (ntohs (load16 data 24)).toNat_lt
  rw [ChecksumCorrect, eq_checksum_iff hle hpos (Nat.le_of_lt_succ hlt), hbytes, Ne, ntohs_eq_max]

/-! ## After `get_packets_forward` -/

/-- What four, added to the total length in host byte order, is modulo 65535: the carry out of the
half word is lost. -/
def lengthChange (data : Mem) : Nat := if 65532 ≤ (load16 data 16).toNat then 3 else 4

/-- The packets whose checksum, counted up by one, fits the header that is sent to the exit `ret`:
their old addresses make up for the new ones and for the length. -/
structure ChecksumFits (data : Mem) (ret : Nat) : Prop where
  timeToLive : data 22 ≠ 0
  hdrChecksum : load16 data 24 ≠ 0xFFFE
  exit : ret ≠ 0
  addrs : addrSum data % 65535 = (87170 + 2 * ret + lengthChange data) % 65535

/-- A header with version 4 does not begin with zeros. -/
theorem version_ne_zero_of_valid {data : Mem} {linkLen : Nat}
    (h : ¬ isValidIpv4Pkt data linkLen < 0) : load16 data 14 ≠ 0 := by
  intro hzero
  have hbytes := load16_toNat data 14
  have h14 : data 14 = 0 := by
    refine UInt8.toNat_inj.mp ?_
    rw [hzero, UInt16.toNat_zero] at hbytes
    rw [UInt8.toNat_zero]
    omega
  have hversion : data 14 >>> 4 ≠ 4 := by
    rw [h14]
    decide
  unfold isValidIpv4Pkt at h
  rw [if_pos hversion] at h
  split at h <;> exact h (by decide)

theorem exitOf_le (pid : List UInt8) : exitOf pid ≤ 3 := by
  unfold exitOf
  split_ifs <;> decide

theorem peek_setAddrs {data : Mem} {ret : Nat} {src dst : UInt32}
    (h : exitAddrs ret = some (src, dst)) :
    peek (setAddrs data ret) 26 8 = le32 src ++ le32 dst := by
  have hsize : (le32 src ++ le32 dst).length = 8 := by
    rw [List.length_append, le32_length, le32_length]
  have hone : poke (poke data 26 (le32 src)) 30 (le32 dst) = poke data 26 (le32 src ++ le32 dst) :=
    (poke_append data 26 _ _).symm
  unfold setAddrs
  rw [h]
  dsimp only
  rw [hone, ← hsize, peek_poke_self]

/-- The addresses towards an exit, 192.168.x.1 and 192.168.x.2. -/
theorem addrSum_setAddrs (data : Mem) {ret : Nat} (hpos : ret ≠ 0) (hle : ret ≤ 3) :
    addrSum (setAddrs data ret) = 87170 + 2 * ret := by
  have hsome : ∃ src dst, exitAddrs ret = some (src, dst) := by
    interval_cases ret
    · exact absurd rfl hpos
    · exact ⟨_, _, rfl⟩
    · exact ⟨_, _, rfl⟩
    · exact ⟨_, _, rfl⟩
  obtain ⟨src, dst, haddrs⟩ := hsome
  -- what was there before does not matter
  have hzeros : addrSum (setAddrs data ret) = addrSum (setAddrs (fun _ => 0) ret) := by
    have hpeek : peek (setAddrs data ret) 26 8 = peek (setAddrs (fun _ => 0) ret) 26 8 := by
      rw [peek_setAddrs haddrs, peek_setAddrs haddrs]
    rw [addrSum, addrSum, halfWords_congr fun i hi hlt => byte_of_peek_eq hpeek hi hlt]
  rw [hzeros]
  interval_cases ret
  · exact absurd rfl hpos
  · decide
  · decide
  · decide

theorem setAddrs_zero (data : Mem) : setAddrs data 0 = data := rfl

theorem toNat_sub_one {x : UInt8} (h : x ≠ 0) : (x - 1).toNat + 1 = x.toNat := by
  have hpos : 0 < x.toNat := Nat.pos_of_ne_zero fun e => h (UInt8.toNat_inj.mp e)
  have hle : (1 : UInt8) ≤ x := UInt8.le_iff_toNat_le.mpr hpos
  rw [UInt8.toNat_sub_of_le _ _ hle]
  exact Nat.sub_add_cancel hpos

section Forwarded

variable {m out : RteMbuf} {pid : UInt32} {ret : Nat} (h : Forwarded m out pid ret)
include h

/-- The version and the fragments are not written. -/
theorem Forwarded.load16_eq (hlen : 14 + 20 + sizeofColorGet ≤ m.dataLen.toNat) {off : Nat}
    (hoff : off = 14 ∨ off = 18 ∨ off = 20) : load16 out.data off = load16 m.data off := by
  have hsize : sizeofColorGet = 96 := rfl
  exact load16_congr fun i hi hlt =>
    h.rest i (by omega) (by omega) (by omega) (by omega) (by omega) (by omega) (by omega)

theorem Forwarded.timeToLive_lt_iff : out.data 22 < m.data 22 ↔ m.data 22 ≠ 0 := by
  rw [h.timeToLive]
  constructor
  · intro hlt hzero
    rw [hzero] at hlt
    exact absurd hlt (by decide)
  · intro hne
    have hsub := toNat_sub_one hne
    rw [UInt8.lt_iff_toNat_lt]
    omega

theorem Forwarded.hdrChecksum_ne_iff :
    load16 out.data 24 ≠ 0xFFFF ↔ load16 m.data 24 ≠ 0xFFFE := by
  rw [h.hdrChecksum]
  refine not_congr ⟨fun h => ?_, fun h => by rw [h]; rfl⟩
  rw [← UInt16.add_sub_cancel (load16 m.data 24) 1, h]
  rfl

/-- How the sum of the header changes. -/
theorem Forwarded.headerSum_eq (hlen : 14 + 20 + sizeofColorGet ≤ m.dataLen.toNat)
    (httl : m.data 22 ≠ 0) (hsum : load16 m.data 24 ≠ 0xFFFF) :
    (headerSum out.data + addrSum m.data) % 65535
      = (headerSum m.data + lengthChange m.data + addrSum (setAddrs m.data ret)) % 65535 := by
  have hsize : sizeofColorGet = 96 := rfl
  have haddrs : addrSum out.data = addrSum (setAddrs m.data ret) := by
    rw [addrSum, addrSum, halfWords_congr fun i hi hlt => byte_of_peek_eq h.addrs hi hlt]
  have hlength : (load16 out.data 16).toNat % 65535
      = ((load16 m.data 16).toNat + lengthChange m.data) % 65535 := by
    have hlt := (load16 m.data 16).toNat_lt
    have hadd : (load16 m.data 16 + 4).toNat = ((load16 m.data 16).toNat + 4) % 65536 :=
      UInt16.toNat_add _ _
    rw [h.totalLength, hadd, lengthChange]
    split <;> omega
  -- the time to live is the low byte of its half word
  have hlive : (load16 out.data 22).toNat + 1 = (load16 m.data 22).toNat := by
    have hsub := toNat_sub_one httl
    have h23 : out.data (22 + 1) = m.data (22 + 1) :=
      h.rest 23 (by omega) (by omega) (by omega) (by omega) (by omega) (by omega) (by omega)
    rw [load16_toNat, load16_toNat, h.timeToLive, h23]
    omega
  have hcheck : (load16 out.data 24).toNat = (load16 m.data 24).toNat + 1 := by
    have hlt := (load16 m.data 24).toNat_lt
    have hne : (load16 m.data 24).toNat ≠ 65535 := fun e => hsum (UInt16.toNat_inj.mp e)
    have hadd : (load16 m.data 24 + 1).toNat = ((load16 m.data 24).toNat + 1) % 65536 :=
      UInt16.toNat_add _ _
    rw [h.hdrChecksum, hadd]
    omega
  rw [Rm.headerSum_eq, Rm.headerSum_eq, h.load16_eq hlen (Or.inl rfl),
    h.load16_eq hlen (Or.inr (Or.inl rfl)), h.load16_eq hlen (Or.inr (Or.inr rfl)), haddrs, hcheck]
  omega

end Forwarded

/-- A Get packet that is sent is what `Forwarded` says. -/
theorem forwarded_of_sent {c : LoopConfig} {portId port : Nat} {m out : RteMbuf} {pid : UInt32}
    (hlen : 14 + 20 + sizeofColorGet ≤ m.dataLen.toNat)
    (hsent : getPacketsForward c portId m pid = some (port, out)) :
    ¬ isValidIpv4Pkt (totalLengthPlus4 m.data) m.pktLen.toNat < 0
      ∧ Forwarded m out pid (exitOf (le32 pid)) := by
  have hvalid : ¬ isValidIpv4Pkt (totalLengthPlus4 m.data) m.pktLen.toNat < 0 := by
    intro hinvalid
    rw [getPacketsForward_eq_none.mpr hinvalid] at hsent
    cases hsent
  obtain ⟨port', out', hsent', hout⟩ := getPacketsForward_forwarded c portId hlen hvalid pid
  rw [hsent] at hsent'
  cases hsent'
  exact ⟨hvalid, hout⟩

/-- **When the header that is sent is correct.** A Get packet arrives with a correct checksum and
is sent. Then it leaves with a correct checksum and a smaller time to live if and only if its
checksum fits. -/
theorem checksumCorrect_forwarded_iff (c : LoopConfig) (portId port : Nat) (m out : RteMbuf)
    (pid : UInt32) (hget : IsGet m) (hcorrect : ChecksumCorrect m.data)
    (hsent : getPacketsForward c portId m pid = some (port, out)) :
    (ChecksumCorrect out.data ∧ out.data 22 < m.data 22)
      ↔ ChecksumFits m.data (exitOf (le32 pid)) := by
  obtain ⟨hvalid, hout⟩ := forwarded_of_sent hget.dataLen hsent
  set ret : Nat := exitOf (le32 pid)
  have hversion : load16 m.data 14 ≠ 0 := by
    have hplus : load16 (totalLengthPlus4 m.data) 14 = load16 m.data 14 :=
      load16_poke_of_disjoint (Or.inl (by decide))
    rw [← hplus]
    exact version_ne_zero_of_valid hvalid
  rw [checksumCorrect_iff hversion] at hcorrect
  obtain ⟨hzero, hsum⟩ := hcorrect
  rw [← hout.load16_eq hget.dataLen (Or.inl rfl)] at hversion
  rw [checksumCorrect_iff hversion, hout.timeToLive_lt_iff, hout.hdrChecksum_ne_iff]
  by_cases httl : m.data 22 = 0
  · exact iff_of_false (fun h => h.2 httl) fun h => h.timeToLive httl
  have hchange := hout.headerSum_eq hget.dataLen httl hsum
  have hcarry : 0 < lengthChange m.data ∧ lengthChange m.data < 5 := by
    unfold lengthChange
    split <;> decide
  by_cases hexit : ret = 0
  · -- the old addresses stay, and nothing makes up for the length
    rw [hexit, setAddrs_zero] at hchange
    refine iff_of_false ?_ fun h => h.exit hexit
    rintro ⟨⟨hsum', -⟩, -⟩
    omega
  · rw [addrSum_setAddrs m.data hexit (exitOf_le _)] at hchange
    constructor
    · rintro ⟨⟨hsum', hne⟩, -⟩
      exact ⟨httl, hne, hexit, by omega⟩
    · intro h
      have haddrs := h.addrs
      exact ⟨⟨by omega, h.hdrChecksum⟩, httl⟩

/-- The Get packet without PIDs with a time to live, addresses and the checksum. -/
def getWithChecksum : RteMbuf :=
  { getWithoutPids with
    data := poke getWithoutPids.data 22 [64, 0, 0x66, 0x88, 10, 0, 0, 1, 10, 0, 0, 2] }

theorem checksumCorrect_forwarded_getWithChecksum :
    ∃ port out, getPacketsForward noAddresses 0 getWithChecksum pid1 = some (port, out)
      ∧ ((ChecksumCorrect out.data ∧ out.data 22 < getWithChecksum.data 22)
        ↔ ChecksumFits getWithChecksum.data (exitOf (le32 pid1))) :=
  ⟨_, _, rfl, checksumCorrect_forwarded_iff noAddresses 0 _ getWithChecksum _ pid1
    ⟨by decide, by decide⟩ (by unfold ChecksumCorrect; decide) rfl⟩

/-- Its checksum does not fit. -/
theorem not_checksumCorrect_getWithChecksum :
    IsGet getWithChecksum ∧ ChecksumCorrect getWithChecksum.data
      ∧ ∃ port out, getPacketsForward noAddresses 0 getWithChecksum pid1 = some (port, out)
        ∧ ¬ ChecksumCorrect out.data := by
  refine ⟨⟨by decide, by decide⟩, by unfold ChecksumCorrect; decide, _, _, rfl, ?_⟩
  unfold ChecksumCorrect
  decide

end Rm
