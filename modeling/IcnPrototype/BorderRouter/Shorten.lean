import IcnPrototype.BorderRouter.Path
import IcnPrototype.BorderRouter.PidRouting

set_option autoImplicit false

/-! # Shortening a packet

Two branches of `push` take four bytes out of a packet. From inside, the last PID of a Data packet
is taken out of the middle: the bytes in front of it are saved, `pull` drops four bytes at the
front, and the saved bytes are written back over what is now at the front. From outside, the last
four bytes of a negotiation packet are cut off.

`pushDataInside_pops` says that the first branch gets every offset right: nothing but the PID is
lost, and nothing but five fields is changed. One field that should change is not among them, and
the other branch leaves it, too: the total length of the IP header. After both the header says
four bytes more than the frame has (`shortened_lengths_differ`).
-/

namespace BorderRouter

open Bytes Host

/-! ## The last PID of a Data packet -/

/-- The buffer without the four bytes at `off`. -/
def without4 (m : Mem) (off : Nat) : Mem := fun i => if i < off then m i else m (i + 4)

theorem without4_of_lt {m : Mem} {off i : Nat} (h : i < off) : without4 m off i = m i := if_pos h

theorem without4_of_le {m : Mem} {off i : Nat} (h : off ≤ i) : without4 m off i = m (i + 4) :=
  if_neg (Nat.not_lt.mpr h)

/-- Writing what is in front of the four bytes over the buffer without its first four. -/
theorem poke_pull_eq (p : Packet) (off : Nat) :
    poke (p.pull 4).mem 0 (peek p.mem 0 off) = without4 p.mem off := by
  funext i
  by_cases h : i < off
  · have hcopy := poke_peek_of_lt (p.pull 4).mem p.mem 0 h
    rw [Nat.zero_add] at hcopy
    rw [hcopy, without4_of_lt h]
  · rw [poke_of_outside (by rw [peek_length]; omega), without4_of_le (by omega)]
    rfl

/-- The header of a Data packet with another length and another number of PIDs, written to where the
old one is. -/
theorem poke_data_head {m src : Mem} (t : List UInt8) (c : UInt8) (ht : t.length = 2)
    (h : ∀ i, 34 ≤ i → i < 114 → m i = src i) :
    poke m 34 ((peek src 34 80).take 2 ++ t ++ ((peek src 34 80).drop 4).take 6 ++ [c]
        ++ (peek src 34 80).drop 11)
      = poke (poke m 36 t) 44 [c] := by
  have hport : ∀ i, 38 ≤ i → i < 38 + 6 → poke m 36 t i = src i := by
    intro i hi hlt
    rw [poke_of_outside (by omega), h i (by omega) (by omega)]
  have hrest : ∀ i, 45 ≤ i → i < 45 + 69 → poke (poke m 36 t) 44 [c] i = src i := by
    intro i hi hlt
    rw [poke_of_outside (by rw [List.length_singleton]; omega), poke_of_outside (by omega),
      h i (by omega) (by omega)]
  rw [peek_take src 34 (by omega), peek_drop src 34 (by omega), peek_take src _ (by omega),
    peek_drop src 34 (by omega)]
  calc poke m 34 (peek src 34 2 ++ t ++ peek src 38 6 ++ [c] ++ peek src 45 69)
      = poke (poke (poke (poke (poke m 34 (peek src 34 2)) 36 t) 38 (peek src 38 6)) 44 [c]) 45
          (peek src 45 69) := by
        rw [poke_append, poke_append, poke_append, poke_append]
        simp only [List.length_append, peek_length, ht, List.length_singleton, Nat.reduceAdd]
    _ = poke (poke m 36 t) 44 [c] := by
        rw [poke_peek_of_eq (m := m) fun i hi hlt => h i (by omega) (by omega),
          poke_peek_of_eq hport, poke_peek_of_eq hrest]

/-- The IP header that `emit` writes differs from the one in the buffer by its addresses. -/
theorem emit_mem_eq (r : IPBorderRouter) (hop : UInt32) {p q : Packet}
    (h : ∀ i, 14 ≤ i → i < 26 → q.mem i = p.mem i) :
    (r.emit p.iphead hop q).2.mem
      = poke (poke q.mem 26 (le32 (r.sIp (r.ipNic hop)))) 30 (le32 hop) := by
  have hfront : poke q.mem 14 (peek p.mem 14 12) = q.mem :=
    poke_peek_of_eq fun i hi hlt => h i hi (by omega)
  show poke q.mem 14 (p.iphead.take 12 ++ le32 (r.sIp (r.ipNic hop)) ++ le32 hop) = _
  rw [Packet.iphead, peek_take p.mem 14 (by omega), poke_append, poke_append, hfront]
  simp only [List.length_append, peek_length, le32_length, Nat.reduceAdd]

/-- The frame `out` is the frame `p` without the last of its `n` PIDs, sent from `src` to `dst`. -/
structure Popped (p out : Packet) (n : Nat) (src dst : UInt32) : Prop where
  length : out.length + 4 = p.length
  sIp : out.sIp = src
  dIp : out.dIp = dst
  totalLen : (ntohs (load16 out.mem 36)).toNat + 4 = (ntohs (load16 p.mem 36)).toNat
  pids : (out.mem 44).toNat = n - 1
  front : ∀ i < 110 + 4 * n, (i < 26 ∨ 34 ≤ i) → (i < 36 ∨ 38 ≤ i) → i ≠ 44 → out.mem i = p.mem i
  behind : ∀ i, 114 + 4 * n ≤ i → i < p.length → out.mem (i - 4) = p.mem i

section Pop

variable {r : IPBorderRouter} {p : Packet} (stack : List UInt8)

/-- Where a Data packet from inside goes: to the next hop of its last PID. -/
def dataHop (r : IPBorderRouter) (stack : List UInt8) (p : Packet) : UInt32 :=
  r.pidIp (cstr (peek p.mem (110 + 4 * (p.mem 44).toNat) 4 ++ stack))

/-- What the branch emits: the buffer without the PID, and then the four writes. -/
theorem pushDataInside_eq (hn : 1 ≤ (p.mem 44).toNat) :
    ∃ out, r.pushDataInside stack p = [out] ∧ out.1 = r.ipNic (dataHop r stack p)
      ∧ out.2.length = p.length - 4
      ∧ out.2.mem = poke (poke (poke (poke (without4 p.mem (110 + 4 * (p.mem 44).toNat)) 36
          (le16 (htons (ntohs (load16 p.mem 36) - 4)))) 44 [UInt8.ofNat ((p.mem 44).toNat - 1)]) 26
          (le32 (r.sIp (r.ipNic (dataHop r stack p))))) 30 (le32 (dataHop r stack p)) := by
  -- the header is in front of the last PID, so it is in the saved bytes
  have hhead : ∀ i, 34 ≤ i → i < 114 →
      without4 p.mem (110 + 4 * (p.mem 44).toNat) i = p.mem i := fun i _ hi =>
    without4_of_lt (by omega)
  have hip : ∀ i, 14 ≤ i → i < 26 →
      poke (poke (without4 p.mem (110 + 4 * (p.mem 44).toNat)) 36
        (le16 (htons (ntohs (load16 p.mem 36) - 4)))) 44 [UInt8.ofNat ((p.mem 44).toNat - 1)] i
      = p.mem i := by
    intro i _ hi
    rw [poke_of_outside (by omega), poke_of_outside (by omega), without4_of_lt (by omega)]
  have hne : (p.mem 44).toNat ≠ 0 := by omega
  rw [IPBorderRouter.pushDataInside, if_pos hne]
  refine ⟨_, rfl, rfl, rfl, ?_⟩
  rw [poke_pull_eq, poke_data_head _ _ (le16_length _) hhead, emit_mem_eq r _ hip]
  rfl

/-- **The last PID of a Data packet is popped.** -/
theorem pushDataInside_pops (hn : 1 ≤ (p.mem 44).toNat)
    (htotal : 4 ≤ (ntohs (load16 p.mem 36)).toNat) (hlen : 114 + 4 * (p.mem 44).toNat ≤ p.length) :
    ∃ out, r.pushDataInside stack p = [out] ∧ out.1 = r.ipNic (dataHop r stack p)
      ∧ Popped p out.2 (p.mem 44).toNat (r.sIp (r.ipNic (dataHop r stack p)))
          (dataHop r stack p) := by
  obtain ⟨out, hout, hnic, hlength, hmem⟩ := pushDataInside_eq (r := r) stack hn
  refine ⟨out, hout, hnic, ?_⟩
  have hn256 : (p.mem 44).toNat < 256 := (p.mem 44).toNat_lt
  constructor
  · omega
  · rw [Packet.sIp, hmem, load32_poke_of_disjoint (by omega), load32_poke_le32]
  · rw [Packet.dIp, hmem, load32_poke_le32]
  · rw [hmem, load16_poke_of_disjoint (by simp), load16_poke_of_disjoint (by simp),
      load16_poke_of_disjoint (by omega), load16_poke_le16, ntohs_htons, UInt16.toNat_sub_of_le]
    · exact Nat.sub_add_cancel htotal
    · exact UInt16.le_iff_toNat_le.mpr htotal
  · rw [hmem, poke_of_outside (by simp), poke_of_outside (by simp), poke_of_inside le_rfl (by simp)]
    show (UInt8.ofNat ((p.mem 44).toNat - 1)).toNat = _
    rw [UInt8.toNat_ofNat', Nat.mod_eq_of_lt (by omega)]
  · intro i hi hip htl hpids
    rw [hmem, poke_of_outside (by simp only [le32_length]; omega),
      poke_of_outside (by simp only [le32_length]; omega),
      poke_of_outside (by simp only [List.length_singleton]; omega),
      poke_of_outside (by simp only [le16_length]; omega), without4_of_lt hi]
  · intro i hi _
    rw [hmem, poke_of_outside (by simp only [le32_length]; omega),
      poke_of_outside (by simp only [le32_length]; omega),
      poke_of_outside (by simp only [List.length_singleton]; omega),
      poke_of_outside (by simp only [le16_length]; omega), without4_of_le (by omega)]
    congr 1
    omega

/-- **Popping the last PID of a Data packet.** For every state of the router and every Data frame
for it on port 0, `push` emits the frame without its last PID, towards the next hop of this PID. -/
theorem push_pops_last_pid (r : IPBorderRouter) (now : UInt32) (hmine : r.isMine p = true)
    (hversion : p.mem 34 = 161) (hn : 1 ≤ (p.mem 44).toNat)
    (htotal : 4 ≤ (ntohs (load16 p.mem 36)).toNat) (hlen : 114 + 4 * (p.mem 44).toNat ≤ p.length) :
    ∃ out, r.push now stack 0 p = (r, [out]) ∧ out.1 = r.ipNic (dataHop r stack p)
      ∧ Popped p out.2 (p.mem 44).toNat (r.sIp (r.ipNic (dataHop r stack p)))
          (dataHop r stack p) := by
  obtain ⟨out, hout, hpopped⟩ := pushDataInside_pops (r := r) stack hn htotal hlen
  refine ⟨out, ?_, hpopped⟩
  simp [IPBorderRouter.push, hmine, hversion, hout]

end Pop

/-- A Data packet from inside with the PIDs 5 and `PID2`. -/
def dataWithTwoPids : Packet :=
  packetWith [161, 0, 0, 88, 0, 0, 0, 0, 0, 0, 2] 114 ((Pid.ofUInt32 5).bytes ++ pid2)

theorem push_pops_last_pid_two :
    ∃ out, IPBorderRouter.new.push 0 [] 0 dataWithTwoPids = (IPBorderRouter.new, [out])
      ∧ out.1 = IPBorderRouter.new.ipNic (dataHop IPBorderRouter.new [] dataWithTwoPids)
      ∧ Popped dataWithTwoPids out.2 (dataWithTwoPids.mem 44).toNat
          (IPBorderRouter.new.sIp (IPBorderRouter.new.ipNic
            (dataHop IPBorderRouter.new [] dataWithTwoPids)))
          (dataHop IPBorderRouter.new [] dataWithTwoPids) :=
  push_pops_last_pid [] IPBorderRouter.new 0 (by decide) (by decide) (by decide) (by decide)
    (by decide)

/-! ## The lengths in the headers -/

/-- The lengths in the IP header and in the CoLoR header are those of the frame. -/
structure LengthsAgree (p : Packet) : Prop where
  ip : (ntohs (load16 p.mem 16)).toNat + 14 = p.length
  color : (ntohs (load16 p.mem 36)).toNat + 34 = p.length

/-- The packets that `push` shortens: Data with PIDs from inside, and negotiation from outside. -/
def Shortened (port : Nat) (p : Packet) : Prop :=
  (p.mem 34 = 161 ∧ p.mem 44 ≠ 0 ∧ port = 0)
    ∨ (p.mem 34 = 163 ∧ IPBorderRouter.isNegotiation p = true ∧ port = 1)

/-- `emit` leaves the total length of the IP header as it was received. -/
theorem emit_ipTotalLength (r : IPBorderRouter) (hop : UInt32) (p q : Packet) :
    load16 (r.emit p.iphead hop q).2.mem 16 = load16 p.mem 16 := by
  have hbytes : ∀ i, 16 ≤ i → i < 18 → (r.emit p.iphead hop q).2.mem i = p.mem i := by
    intro i hi hlt
    show poke q.mem 14 (p.iphead.take 12 ++ le32 (r.sIp (r.ipNic hop)) ++ le32 hop) i = p.mem i
    rw [Packet.iphead, peek_take p.mem 14 (by omega), List.append_assoc, poke_append,
      poke_of_outside (by rw [peek_length]; omega)]
    exact poke_peek_of_mem _ _ (by omega) (by omega)
  exact load16_congr fun i hi hlt => hbytes i hi (by omega)

/-- The two branches shorten the frame by four bytes and write the CoLoR length that it then has. -/
structure ShortenedBy4 (p out : Packet) : Prop where
  length : out.length + 4 = p.length
  ip : load16 out.mem 16 = load16 p.mem 16
  color : ntohs (load16 out.mem 36) = ntohs (load16 p.mem 36) - 4

theorem pushDataInside_shortens {r : IPBorderRouter} {p : Packet} (stack : List UInt8)
    (hn : p.mem 44 ≠ 0) (hlen : 8 ≤ p.length) :
    ∃ out, r.pushDataInside stack p = [out] ∧ ShortenedBy4 p out.2 := by
  have hpos : 1 ≤ (p.mem 44).toNat := by
    have hne : (p.mem 44).toNat ≠ 0 := fun e => hn (UInt8.toNat_inj.mp e)
    omega
  obtain ⟨out, hout, -, hlength, hmem⟩ := pushDataInside_eq (r := r) stack hpos
  refine ⟨out, hout, by omega, ?_, ?_⟩
  · apply load16_congr
    intro i hi hlt
    rw [hmem, poke_of_outside (by omega), poke_of_outside (by omega), poke_of_outside (by omega),
      poke_of_outside (by omega), without4_of_lt (by omega)]
  · rw [hmem, load16_poke_of_disjoint (by simp), load16_poke_of_disjoint (by simp),
      load16_poke_of_disjoint (by omega), load16_poke_le16, ntohs_htons]

theorem pushControlOutside_shortens (r : IPBorderRouter) {p : Packet} (hlen : 8 ≤ p.length) :
    ShortenedBy4 p (r.pushControlOutside p).2 where
  length := by
    rw [pushControlOutside_length]
    omega
  ip := emit_ipTotalLength r (r.nidIp d3rm) p _
  color := by
    rw [pushControlOutside_totalLen]
    exact ntohs_htons _

/-- **The lengths never agree again.** Every frame that `push` shortens leaves four bytes shorter,
with the CoLoR length of the shorter frame (if the length was at least four) and the IP length of
the longer one. -/
theorem shortened_lengths_differ (r : IPBorderRouter) (now : UInt32) (stack : List UInt8) (port : Nat)
    (p : Packet) (hmine : r.isMine p = true) (hagree : LengthsAgree p) (hshort : Shortened port p) :
    ∃ out, (r.push now stack port p).2 = [out] ∧ ShortenedBy4 p out.2 ∧ ¬ LengthsAgree out.2 := by
  have hlen : 34 ≤ p.length := by
    have := hagree.color
    omega
  have hout : ∃ out, (r.push now stack port p).2 = [out] ∧ ShortenedBy4 p out.2 := by
    rcases hshort with ⟨h161, h44, rfl⟩ | ⟨h163, hneg, rfl⟩
    · obtain ⟨out, hout, hshorter⟩ := pushDataInside_shortens (r := r) stack h44 (by omega)
      refine ⟨out, ?_, hshorter⟩
      simp [IPBorderRouter.push, hmine, h161, hout]
    · refine ⟨r.pushControlOutside p, ?_, pushControlOutside_shortens r (by omega)⟩
      have h129 : ¬ p.mem 35 = 129 := by
        intro h129
        rw [IPBorderRouter.isNegotiation, h129] at hneg
        exact absurd hneg (by decide)
      simp [IPBorderRouter.push, hmine, h163, hneg, h129]
  obtain ⟨out, hpush, hshorter⟩ := hout
  refine ⟨out, hpush, hshorter, ?_⟩
  intro hagain
  -- the IP header still has the old length, and the frame is shorter
  have hip := hagain.ip
  have hold := hagree.ip
  have hlength := hshorter.length
  rw [hshorter.ip] at hip
  omega

/-- The Data packet with two PIDs in a frame whose lengths agree. -/
def dataWithLengths : Packet := { dataWithTwoPids with mem := poke dataWithTwoPids.mem 16 [0, 108] }

theorem shortened_lengths_differ_two :
    ∃ out, (IPBorderRouter.new.push 0 [] 0 dataWithLengths).2 = [out]
      ∧ ShortenedBy4 dataWithLengths out.2 ∧ ¬ LengthsAgree out.2 :=
  shortened_lengths_differ IPBorderRouter.new 0 [] 0 dataWithLengths (by decide)
    ⟨by decide, by decide⟩ (Or.inl ⟨by decide, by decide, rfl⟩)

/-- The frame of 122 bytes leaves with 118, and its IP header still says 108 of them are IP. -/
theorem lengths_differ :
    IPBorderRouter.new.isMine dataWithLengths = true ∧ LengthsAgree dataWithLengths
      ∧ Shortened 0 dataWithLengths
      ∧ ∀ out ∈ (IPBorderRouter.new.push 0 [] 0 dataWithLengths).2, ¬ LengthsAgree out.2 := by
  refine ⟨by decide, ⟨by decide, by decide⟩, Or.inl ⟨by decide, by decide, rfl⟩, ?_⟩
  intro out hout hagree
  have hlens : (IPBorderRouter.new.push 0 [] 0 dataWithLengths).2.map
      (fun out => ((ntohs (load16 out.2.mem 16)).toNat, out.2.length)) = [(108, 118)] := by decide
  have hmem := List.mem_map_of_mem
    (f := fun out : Nat × Packet => ((ntohs (load16 out.2.mem 16)).toNat, out.2.length)) hout
  rw [hlens, List.mem_singleton, Prod.mk.injEq] at hmem
  have hip := hagree.ip
  omega

end BorderRouter
