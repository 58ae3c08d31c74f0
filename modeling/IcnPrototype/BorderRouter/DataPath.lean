import IcnPrototype.BorderRouter.Shorten
import IcnPrototype.Lib.Refine

set_option autoImplicit false

/-! # The way of a Data packet

A Data packet carries the PIDs of the domains it has to cross, the next one last. The border router
of a domain gets it from inside, pops the last PID and sends the packet to the next hop of this PID,
which is a border router of the next domain. That router gets it from outside, reads the last PID
without popping it, and sends the packet through its domain to the border router that does; when
there is no PID left, it sends the packet to the host that the NID names. A router that the packet is
not addressed to sends it on as it is.

`Shipment` is what this is about: an address, a stack of PIDs, and a content that nobody looks at.
`shipment_refines` says that the routers do just this with the bytes, whatever their tables hold.
What a whole way does to a packet follows from it (`data_pops`, `data_delivered`).
-/

namespace BorderRouter

open Bytes Host

/-! ## Stops -/

/-- The frame in the buffer of the station that gets it. What is behind it is not from the frame. -/
def Packet.receive (p : Packet) (buffer : Mem) : Packet where
  mem i := if i < p.length then p.mem i else buffer i
  length := p.length

/-- A border router on the way of a packet, with its buffer and the arguments of the call of
`push`. -/
structure Stop where
  router : IPBorderRouter
  buffer : Mem
  port : Nat
  now : UInt32
  stack : List UInt8

/-- One of the addresses of a router. -/
abbrev IPBorderRouter.Owns (r : IPBorderRouter) (addr : UInt32) : Prop :=
  addr = r.sIp 1 ∨ addr = r.sIp 2

/-- What leaves a router: its output 0 leads to `Discard` (`conf/ipbr.click`). -/
def leave (out : Nat × Packet) : Option Packet := if out.1 = 0 then none else some out.2

/-- What leaves a stop that has the packet. -/
def Stop.push (s : Stop) (p : Packet) : Option Packet :=
  (s.router.push s.now s.stack s.port p).2.head?.bind leave

/-- The packet behind a stop. -/
def forward (p : Packet) (s : Stop) : Option Packet := s.push (p.receive s.buffer)

/-! ## Shipments -/

/-- A Data packet without the bytes: where it goes, the PIDs with the next one last, the NID, and
what no router looks at. `restLen` is the part of `total_len` that is not for PIDs. -/
@[ext] structure Shipment where
  dst : UInt32
  pids : List Pid
  nid : List UInt8
  header : List UInt8
  restLen : UInt16
  payload : List UInt8

/-- The address a stop sends a shipment to, and the PIDs it leaves. -/
def Stop.route (s : Stop) (x : Shipment) : Option (UInt32 × List Pid) :=
  match s.port with
  | 0 => x.pids.getLast?.map fun q => (s.router.pidIp (cstr (q.bytes ++ s.stack)), x.pids.dropLast)
  | 1 => match x.pids.getLast? with
    | some q => some (s.router.pidIp (cstr (q.bytes ++ s.stack)), x.pids)
    | none => some (s.router.nidIp (cstr (x.nid ++ s.stack)), x.pids)
  | _ => none

/-- A stop of a shipment: it is routed where it is addressed to, and else sent on as it is. -/
def Shipment.step (x : Shipment) (s : Stop) : Option Shipment :=
  if s.router.Owns x.dst then
    (s.route x).bind fun (hop, pids) =>
      if s.router.ipNic hop = 0 then none else some { x with dst := hop, pids := pids }
  else if 1 ≤ s.router.ipNic x.dst ∧ s.router.ipNic x.dst ≤ 4 then some x else none

/-! ## The shipment of a packet -/

/-- `pids_o` -/
def Packet.pids (p : Packet) : Nat := (p.mem 44).toNat

/-- The PIDs of a Data packet: they are behind the header of 80 bytes. -/
def Packet.dataPids (p : Packet) : List Pid :=
  (List.range p.pids).map fun i => Pid.at p (114 + 4 * i)

/-- What is behind the PIDs. -/
def Packet.payload (p : Packet) : List UInt8 :=
  peek p.mem (114 + 4 * p.pids) (p.length - (114 + 4 * p.pids))

/-- The header of a Data packet without `total_len`, `pids_o` and the NID. -/
def Packet.dataHeader (p : Packet) : List UInt8 :=
  peek p.mem 34 2 ++ peek p.mem 38 6 ++ peek p.mem 45 53

def Packet.shipment (p : Packet) : Shipment where
  dst := p.dIp
  pids := p.dataPids
  nid := peek p.mem 98 16
  header := p.dataHeader
  restLen := ntohs (load16 p.mem 36) - UInt16.ofNat (4 * p.pids)
  payload := p.payload

/-- A Data packet: its PIDs are there as a whole. -/
structure IsData (p : Packet) : Prop where
  version : p.mem 34 = 161
  pids_le : 114 + 4 * p.pids ≤ p.length

theorem receive_received (p : Packet) (buffer : Mem) :
    Received p.mem p.length (p.receive buffer) where
  length := rfl
  mem _ hi := if_pos hi

/-- What is behind the frame is in no field. -/
theorem IsData.received {p q : Packet} (h : IsData p) (hq : Received p.mem p.length q) :
    IsData q ∧ q.shipment = p.shipment := by
  have hroom := h.pids_le
  have hpids : q.pids = p.pids := by rw [Packet.pids, hq.mem 44 (by omega), Packet.pids]
  refine ⟨⟨?_, ?_⟩, ?_⟩
  · rw [hq.mem 34 (by omega), h.version]
  · rw [hpids, hq.length]
    exact hroom
  · apply Shipment.ext
    · exact hq.load32_eq (by omega)
    · show q.dataPids = p.dataPids
      unfold Packet.dataPids
      rw [hpids]
      apply List.map_congr_left
      intro i hi
      have hlt := List.mem_range.mp hi
      simp only [Pid.at, hq.peek_eq (show 114 + 4 * i + 4 ≤ p.length by omega)]
    · exact hq.peek_eq (by omega)
    · show peek q.mem 34 2 ++ peek q.mem 38 6 ++ peek q.mem 45 53 = p.dataHeader
      rw [hq.peek_eq (by omega), hq.peek_eq (by omega), hq.peek_eq (by omega), Packet.dataHeader]
    · show ntohs (load16 q.mem 36) - UInt16.ofNat (4 * q.pids) = p.shipment.restLen
      rw [hpids, hq.load16_eq (by omega)]
      rfl
    · show peek q.mem (114 + 4 * q.pids) (q.length - (114 + 4 * q.pids)) = p.payload
      rw [hpids, hq.length, hq.peek_eq (by omega), Packet.payload]

theorem getLast?_dataPids {p : Packet} (h : p.pids ≠ 0) :
    p.dataPids.getLast? = some (Pid.at p (110 + 4 * p.pids)) := by
  obtain ⟨n, hn⟩ := Nat.exists_eq_succ_of_ne_zero h
  rw [Packet.dataPids, hn, Nat.succ_eq_add_one, List.range_succ, List.map_append,
    List.map_singleton, List.getLast?_concat, show 114 + 4 * n = 110 + 4 * (n + 1) by omega]

/-! ## A stop from outside -/

section Outside

variable (r : IPBorderRouter) (hop : UInt32) {p : Packet}

/-- Only the IP header changes. -/
theorem emit_shipment : (r.emit p.iphead hop p).2.shipment = { p.shipment with dst := hop } := by
  have hip := IPBorderRouter.iphead_length p
  have hmem : ∀ i, 34 ≤ i → (r.emit p.iphead hop p).2.mem i = p.mem i := fun i hi =>
    IPBorderRouter.emit_mem_of_le hip hi
  have hpids : (r.emit p.iphead hop p).2.pids = p.pids := by
    rw [Packet.pids, hmem 44 (by omega), Packet.pids]
  have hpeek : ∀ off n, 34 ≤ off → peek (r.emit p.iphead hop p).2.mem off n = peek p.mem off n :=
    fun off n hoff => peek_congr fun i hi _ => hmem i (by omega)
  apply Shipment.ext
  · exact IPBorderRouter.emit_dIp hip
  · show (r.emit p.iphead hop p).2.dataPids = p.dataPids
    unfold Packet.dataPids
    rw [hpids]
    apply List.map_congr_left
    intro i _
    simp only [Pid.at, hpeek (114 + 4 * i) 4 (by omega)]
  · exact hpeek 98 16 (by omega)
  · show peek _ 34 2 ++ peek _ 38 6 ++ peek _ 45 53 = p.dataHeader
    rw [hpeek 34 2 (by omega), hpeek 38 6 (by omega), hpeek 45 53 (by omega), Packet.dataHeader]
  · show ntohs (load16 _ 36) - UInt16.ofNat (4 * Packet.pids _) = p.shipment.restLen
    rw [hpids, load16_congr fun i hi _ => hmem i (by omega)]
    rfl
  · show peek _ (114 + 4 * Packet.pids _) (p.length - (114 + 4 * Packet.pids _)) = p.payload
    rw [hpids, hpeek _ _ (by omega), Packet.payload]

theorem emit_isData (h : IsData p) : IsData (r.emit p.iphead hop p).2 := by
  have hmem : ∀ i, 34 ≤ i → (r.emit p.iphead hop p).2.mem i = p.mem i := fun i hi =>
    IPBorderRouter.emit_mem_of_le (IPBorderRouter.iphead_length p) hi
  constructor
  · rw [hmem 34 le_rfl, h.version]
  · rw [Packet.pids, hmem 44 (by omega), IPBorderRouter.emit_length]
    exact h.pids_le

end Outside

/-! ## A stop from inside -/

section Inside

variable {r : IPBorderRouter} {p : Packet}

/-- The packet that leaves with its last PID is the old one without it. -/
theorem pop_shipment (stack : List UInt8) (h : IsData p) (hn : p.pids ≠ 0) :
    ∃ out, r.pushDataInside stack p = [out] ∧ out.1 = r.ipNic (dataHop r stack p) ∧ IsData out.2
      ∧ out.2.shipment
        = { p.shipment with dst := dataHop r stack p, pids := p.dataPids.dropLast } := by
  obtain ⟨out, hout, hnic, hlength, hmem⟩ :=
    pushDataInside_eq (r := r) stack (Nat.one_le_iff_ne_zero.mpr hn)
  obtain ⟨k, hk⟩ := Nat.exists_eq_succ_of_ne_zero hn
  have hk256 : k + 1 < 256 := by
    have hlt := (p.mem 44).toNat_lt
    rw [Packet.pids] at hk
    omega
  have hroom := h.pids_le
  -- the bytes in front of the PID, and those behind it
  have hfront : ∀ i, 34 ≤ i → i < 114 + 4 * k → (i < 36 ∨ 38 ≤ i) → i ≠ 44 →
      out.2.mem i = p.mem i := by
    intro i hi hlt htotal hpids
    rw [hmem, poke_of_outside (by rw [le32_length]; omega),
      poke_of_outside (by rw [le32_length]; omega),
      poke_of_outside (by rw [List.length_singleton]; omega),
      poke_of_outside (by rw [le16_length]; omega),
      without4_of_lt (by rw [Packet.pids] at hk; omega)]
  have hbehind : ∀ i, 114 + 4 * k ≤ i → out.2.mem i = p.mem (i + 4) := by
    intro i hi
    rw [hmem, poke_of_outside (by rw [le32_length]; omega),
      poke_of_outside (by rw [le32_length]; omega),
      poke_of_outside (by rw [List.length_singleton]; omega),
      poke_of_outside (by rw [le16_length]; omega),
      without4_of_le (by rw [Packet.pids] at hk; omega)]
  have hpids : out.2.pids = k := by
    rw [Packet.pids, hmem, poke_of_outside (by simp), poke_of_outside (by simp),
      poke_of_inside le_rfl (by simp)]
    show (UInt8.ofNat ((p.mem 44).toNat - 1)).toNat = k
    rw [Packet.pids] at hk
    rw [hk, UInt8.toNat_ofNat', Nat.mod_eq_of_lt (by omega), Nat.succ_sub_one]
  have hpeek : ∀ off n, 34 ≤ off → off + n ≤ 114 + 4 * k → (off + n ≤ 36 ∨ 38 ≤ off) →
      (off + n ≤ 44 ∨ 45 ≤ off) → peek out.2.mem off n = peek p.mem off n :=
    fun off n hoff hend htotal hpids => peek_congr fun i hi hlt =>
      hfront i (by omega) (by omega) (by omega) (by omega)
  refine ⟨out, hout, hnic, ⟨?_, ?_⟩, ?_⟩
  · rw [hfront 34 le_rfl (by omega) (by omega) (by omega), h.version]
  · rw [hpids, hlength]
    omega
  · apply Shipment.ext
    · show load32 out.2.mem 30 = dataHop r stack p
      rw [hmem, load32_poke_le32]
    · show out.2.dataPids = p.dataPids.dropLast
      unfold Packet.dataPids
      rw [hpids, hk, List.range_succ, List.map_append, List.map_singleton, List.dropLast_concat]
      apply List.map_congr_left
      intro i hi
      have hlt := List.mem_range.mp hi
      simp only [Pid.at, hpeek (114 + 4 * i) 4 (by omega) (by omega) (by omega) (by omega)]
    · exact hpeek 98 16 (by omega) (by omega) (by omega) (by omega)
    · show peek _ 34 2 ++ peek _ 38 6 ++ peek _ 45 53 = p.dataHeader
      rw [hpeek 34 2 (by omega) (by omega) (by omega) (by omega),
        hpeek 38 6 (by omega) (by omega) (by omega) (by omega),
        hpeek 45 53 (by omega) (by omega) (by omega) (by omega), Packet.dataHeader]
    · -- four bytes less, for one PID less
      have htotal : ntohs (load16 out.2.mem 36) = ntohs (load16 p.mem 36) - 4 := by
        rw [hmem, load16_poke_of_disjoint (by simp), load16_poke_of_disjoint (by simp),
          load16_poke_of_disjoint (by omega), load16_poke_le16, ntohs_htons]
      have hfour : UInt16.ofNat (4 * (k + 1)) = UInt16.ofNat (4 * k) + 4 := by
        rw [Nat.mul_succ, UInt16.ofNat_add]
        rfl
      show ntohs (load16 out.2.mem 36) - UInt16.ofNat (4 * out.2.pids)
        = ntohs (load16 p.mem 36) - UInt16.ofNat (4 * p.pids)
      rw [htotal, hpids, hk, Nat.succ_eq_add_one, hfour]
      grind
    · show peek _ (114 + 4 * out.2.pids) (out.2.length - (114 + 4 * out.2.pids)) = p.payload
      have hrest : p.length - 4 - (114 + 4 * k) = p.length - (114 + 4 * (k + 1)) := by omega
      rw [Packet.payload, hpids, hlength, hk, hrest]
      apply List.map_congr_left
      intro i _
      rw [hbehind _ (by omega)]
      congr 1
      omega

end Inside

/-! ## The routers do what the stops of a shipment do -/

section Stops

variable {r : IPBorderRouter} {p : Packet} (now : UInt32) (stack : List UInt8)

theorem push_data_inside (hmine : r.isMine p = true) (h : IsData p) :
    (r.push now stack 0 p).2 = r.pushDataInside stack p := by
  simp [IPBorderRouter.push, hmine, h.version]

theorem push_data_outside (hmine : r.isMine p = true) (h : IsData p) :
    (r.push now stack 1 p).2 = [r.pushDataOutside stack p] := by
  simp [IPBorderRouter.push, hmine, h.version]

/-- `push` has no branch for a Data packet from another port. -/
theorem push_data_other (hmine : r.isMine p = true) (h : IsData p) (k : Nat) :
    (r.push now stack (k + 2) p).2 = [] := by
  simp [IPBorderRouter.push, hmine, h.version]

theorem getLast?_dataPids_of_zero (h : p.pids = 0) : p.dataPids.getLast? = none := by
  rw [Packet.dataPids, h]
  rfl

theorem pushDataInside_of_zero (h : p.pids = 0) : r.pushDataInside stack p = [] :=
  if_neg (not_not.mpr h)

theorem pushDataOutside_of_zero (h : p.pids = 0) :
    r.pushDataOutside stack p
      = r.emit p.iphead (r.nidIp (cstr (peek p.mem 98 16 ++ stack))) p :=
  if_neg (not_not.mpr h)

theorem pushDataOutside_of_ne (h : p.pids ≠ 0) :
    r.pushDataOutside stack p = r.emit p.iphead (dataHop r stack p) p :=
  if_pos h

end Stops

section Route

variable {p : Packet} {s : Stop}

theorem route_inside (hport : s.port = 0) (hn : p.pids ≠ 0) :
    s.route p.shipment = some (dataHop s.router s.stack p, p.dataPids.dropLast) := by
  unfold Stop.route
  rw [hport, show p.shipment.pids.getLast? = _ from getLast?_dataPids hn]
  rfl

theorem route_inside_of_zero (hport : s.port = 0) (hn : p.pids = 0) :
    s.route p.shipment = none := by
  unfold Stop.route
  rw [hport, show p.shipment.pids.getLast? = _ from getLast?_dataPids_of_zero hn]
  rfl

/-- From outside, the packet is sent on as it is. -/
theorem route_outside (hport : s.port = 1) :
    ∃ hop, s.route p.shipment = some (hop, p.dataPids)
      ∧ s.router.pushDataOutside s.stack p = s.router.emit p.iphead hop p := by
  unfold Stop.route
  rw [hport]
  by_cases hn : p.pids = 0
  · rw [show p.shipment.pids.getLast? = _ from getLast?_dataPids_of_zero hn]
    exact ⟨_, rfl, pushDataOutside_of_zero s.stack hn⟩
  · rw [show p.shipment.pids.getLast? = _ from getLast?_dataPids hn]
    exact ⟨_, rfl, pushDataOutside_of_ne s.stack hn⟩

theorem route_other {k : Nat} (hport : s.port = k + 2) : s.route p.shipment = none := by
  unfold Stop.route
  rw [hport]
  rfl

/-- What a router emits for a Data packet: a Data packet whose shipment is routed. -/
theorem push_shipment (h : IsData p) (hmine : s.router.isMine p = true) :
    (∀ out ∈ (s.router.push s.now s.stack s.port p).2.head?, IsData out.2)
      ∧ ((s.router.push s.now s.stack s.port p).2.head?.map fun out => (out.1, out.2.shipment))
        = (s.route p.shipment).map fun (hop, pids) =>
            (s.router.ipNic hop, { p.shipment with dst := hop, pids := pids }) := by
  match hport : s.port with
  | 0 =>
      rw [push_data_inside s.now s.stack hmine h]
      by_cases hn : p.pids = 0
      · rw [pushDataInside_of_zero s.stack hn, route_inside_of_zero hport hn]
        exact ⟨by simp, rfl⟩
      · obtain ⟨out, hpush, hnic, hdata, hshipment⟩ := pop_shipment (r := s.router) s.stack h hn
        rw [hpush, route_inside hport hn]
        exact ⟨by simpa using hdata, congrArg some (Prod.ext hnic hshipment)⟩
  | 1 =>
      obtain ⟨hop, hroute, hpush⟩ := route_outside (p := p) hport
      rw [push_data_outside s.now s.stack hmine h, hroute, hpush]
      refine ⟨by simpa using emit_isData s.router hop h, ?_⟩
      exact congrArg some (Prod.ext rfl (emit_shipment s.router hop))
  | k + 2 =>
      rw [push_data_other s.now s.stack hmine h k, route_other hport]
      exact ⟨by simp, rfl⟩

end Route

/-- A packet is at one of the addresses of a router exactly when its shipment is. -/
theorem isMine_iff (r : IPBorderRouter) (p : Packet) :
    r.isMine p = true ↔ r.Owns p.dIp := by
  simp [IPBorderRouter.isMine]

theorem leave_eq_some {out : Nat × Packet} {p : Packet} (h : leave out = some p) : out.2 = p := by
  unfold leave at h
  split at h
  · cases h
  · exact Option.some.inj h

/-- What is for another station leaves as it is. -/
theorem Stop.push_of_not_mine {s : Stop} {p : Packet} (h : ¬ s.router.isMine p = true) :
    s.push p
      = if 1 ≤ s.router.ipNic p.dIp ∧ s.router.ipNic p.dIp ≤ 4 then some p else none := by
  unfold Stop.push IPBorderRouter.push
  rw [if_neg h]
  split
  · next hnic =>
      show leave (s.router.ipNic p.dIp, p) = some p
      exact if_neg (by omega)
  · rfl

/-- A Data packet stays one. -/
theorem forward_isData {p out : Packet} {s : Stop} (h : IsData p) (hout : forward p s = some out) :
    IsData out := by
  have h := (h.received (receive_received p s.buffer)).1
  unfold forward at hout
  by_cases hmine : s.router.isMine (p.receive s.buffer) = true
  · obtain ⟨o, ho, hleave⟩ := Option.bind_eq_some_iff.mp hout
    exact leave_eq_some hleave ▸ (push_shipment h hmine).1 o ho
  · rw [Stop.push_of_not_mine hmine] at hout
    split at hout
    · exact Option.some.inj hout ▸ h
    · cases hout

/-- **One stop does to the bytes what it does to the shipment.** -/
theorem forward_shipment {p : Packet} (h : IsData p) (s : Stop) :
    (forward p s).map Packet.shipment = p.shipment.step s := by
  obtain ⟨h, hsame⟩ := h.received (receive_received p s.buffer)
  rw [← hsame]
  unfold forward Shipment.step
  generalize p.receive s.buffer = p at h ⊢
  by_cases hmine : s.router.isMine p = true
  · have howns : s.router.Owns p.shipment.dst := (isMine_iff s.router p).mp hmine
    rw [if_pos howns, Stop.push]
    have hpush := (push_shipment h hmine).2
    -- both sides drop what goes to output 0
    have hleave : ∀ o : Option (Nat × Packet), (o.bind leave).map Packet.shipment
        = (o.map fun out => (out.1, out.2.shipment)).bind fun out =>
            if out.1 = 0 then none else some out.2 := by
      intro o
      cases o with
      | none => rfl
      | some out =>
          show (leave out).map Packet.shipment = if out.1 = 0 then none else some out.2.shipment
          unfold leave
          split <;> rfl
    rw [hleave, hpush]
    cases s.route p.shipment <;> rfl
  · have howns : ¬ s.router.Owns p.shipment.dst := mt (isMine_iff s.router p).mpr hmine
    rw [if_neg howns, Stop.push_of_not_mine hmine]
    exact apply_ite (Option.map Packet.shipment) _ _ _

/-- **Packets refine shipments.** -/
theorem shipment_refines : Lts.Refines forward Shipment.step IsData Packet.shipment id where
  keeps _ _ _ h hout := forward_isData h hout
  commutes _ s h := forward_shipment h s

/-! ## Any way -/

/-- A stop pops a PID of what is addressed to it and comes from inside. -/
def Stop.Pops (addr : UInt32) (s : Stop) : Prop := s.port = 0 ∧ s.router.Owns addr

instance (addr : UInt32) (s : Stop) : Decidable (s.Pops addr) :=
  inferInstanceAs (Decidable (_ ∧ _))

/-- Routing from inside takes the last PID, and routing from outside none. -/
theorem Stop.route_eq_some {s : Stop} {x : Shipment} {hop : UInt32} {pids : List Pid}
    (h : s.route x = some (hop, pids)) :
    s.port = 0 ∧ x.pids ≠ [] ∧ pids = x.pids.dropLast ∨ s.port ≠ 0 ∧ pids = x.pids := by
  unfold Stop.route at h
  match hport : s.port with
  | 0 =>
      rw [hport] at h
      obtain ⟨q, hq, hout⟩ := Option.map_eq_some_iff.mp h
      have hne : x.pids ≠ [] := fun e => by rw [e] at hq; cases hq
      exact Or.inl ⟨rfl, hne, (Prod.mk.inj hout).2.symm⟩
  | 1 =>
      refine Or.inr ⟨by omega, ?_⟩
      cases hlast : x.pids.getLast? with
      | none =>
          rw [hport, hlast] at h
          exact (Prod.mk.inj (Option.some.inj h)).2.symm
      | some q =>
          rw [hport, hlast] at h
          exact (Prod.mk.inj (Option.some.inj h)).2.symm
  | k + 2 =>
      rw [hport] at h
      cases h

/-- **One stop** pops a PID or leaves the PIDs as they are. -/
theorem Shipment.step_eq_some {x y : Shipment} {s : Stop} (h : x.step s = some y) :
    (if s.Pops x.dst then 1 else 0) ≤ x.pids.length
      ∧ y = { x with
          dst := y.dst
          pids := x.pids.take (x.pids.length - if s.Pops x.dst then 1 else 0) } := by
  unfold Shipment.step at h
  split at h
  · next howns =>
      obtain ⟨⟨hop, pids⟩, hroute, hy⟩ := Option.bind_eq_some_iff.mp h
      dsimp only at hy
      split at hy
      · cases hy
      · obtain rfl := Option.some.inj hy
        rcases Stop.route_eq_some hroute with ⟨hport, hne, rfl⟩ | ⟨hport, rfl⟩
        · have hpops : s.Pops x.dst := ⟨hport, howns⟩
          rw [if_pos hpops, List.dropLast_eq_take]
          exact ⟨List.length_pos_iff.mpr hne, rfl⟩
        · have hpops : ¬ s.Pops x.dst := fun hp => hport hp.1
          rw [if_neg hpops, Nat.sub_zero, List.take_length]
          exact ⟨Nat.zero_le _, rfl⟩
  · -- the shipment is for another station
    next hother =>
      have hpops : ¬ s.Pops x.dst := fun hp => hother hp.2
      split at h
      · obtain rfl := Option.some.inj h
        rw [if_neg hpops, Nat.sub_zero, List.take_length]
        exact ⟨Nat.zero_le _, rfl⟩
      · cases h

@[simp] theorem dataPids_length (p : Packet) : p.dataPids.length = p.pids := by
  rw [Packet.dataPids, List.length_map, List.length_range]

/-- The Data packet `out` is the Data packet `p` without its last `k` PIDs. -/
structure Carried (p out : Packet) (k : Nat) : Prop where
  isData : IsData out
  enough : k ≤ p.pids
  pids : out.dataPids = p.dataPids.take (p.pids - k)
  nid : peek out.mem 98 16 = peek p.mem 98 16
  header : out.dataHeader = p.dataHeader
  totalLen : ntohs (load16 out.mem 36) + UInt16.ofNat (4 * k) = ntohs (load16 p.mem 36)
  payload : out.payload = p.payload
  length : out.length + 4 * k = p.length

/-- A packet whose shipment has lost the last `k` PIDs. -/
theorem carried_of_shipment {p out : Packet} {k : Nat} {dst : UInt32} (h : IsData p)
    (hout : IsData out) (hk : k ≤ p.pids)
    (hs : out.shipment = { p.shipment with dst := dst, pids := p.dataPids.take (p.pids - k) }) :
    Carried p out k := by
  have hpids : out.dataPids = p.dataPids.take (p.pids - k) := congrArg Shipment.pids hs
  have hnum : out.pids = p.pids - k := by
    rw [← dataPids_length, hpids, List.length_take, dataPids_length]
    exact Nat.min_eq_left (Nat.sub_le _ _)
  have hpayload : out.payload = p.payload := congrArg Shipment.payload hs
  refine {
    isData := hout
    enough := hk
    pids := hpids
    nid := congrArg Shipment.nid hs
    header := congrArg Shipment.header hs
    totalLen := ?_
    payload := hpayload
    length := ?_ }
  · have hrest : ntohs (load16 out.mem 36) - UInt16.ofNat (4 * out.pids)
        = ntohs (load16 p.mem 36) - UInt16.ofNat (4 * p.pids) := congrArg Shipment.restLen hs
    have hsplit : UInt16.ofNat (4 * p.pids)
        = UInt16.ofNat (4 * (p.pids - k)) + UInt16.ofNat (4 * k) := by
      rw [← UInt16.ofNat_add]
      congr 1
      omega
    rw [hnum, hsplit] at hrest
    grind
  · have hlen := congrArg List.length hpayload
    have hle := h.pids_le
    have hle' := hout.pids_le
    rw [Packet.payload, Packet.payload, peek_length, peek_length] at hlen
    omega

/-- `"PID3"` -/
def pid3 : List UInt8 := [0x50, 0x49, 0x44, 0x33]

theorem pid2_length : pid2.length = 4 := rfl

theorem pid3_length : pid3.length = 4 := rfl

/-- A Data packet for `d3rm` with the PIDs `PID3` and `PID2`. -/
def dataForHost : Packet :=
  packetWith [161, 0, 0, 88, 0, 0, 0, 0, 0, 0, 2] 98 (d3rm ++ List.replicate 12 0 ++ pid3 ++ pid2)

/-- A router at `addr` that sends packets with `PID3` to `hop`. -/
def routerAt (addr hop : UInt32) : IPBorderRouter :=
  { IPBorderRouter.new with
    ipNic := Function.update IPBorderRouter.new.ipNic hop 1
    sIp := Function.update (fun _ => 0) 1 addr
    pidIp := Function.update IPBorderRouter.new.pidIp pid3 hop }

/-- The stops on both sides of a link between two domains. -/
structure Crossing where
  near : Stop
  far : Stop
  near_port : near.port = 0
  far_port : far.port = 1

/-- A router reaches an address over one of its interfaces. -/
abbrev IPBorderRouter.Reaches (r : IPBorderRouter) (addr : UInt32) : Prop := r.ipNic addr ≠ 0

/-- What the table of a stop has for a PID. -/
def Stop.hop (s : Stop) (q : Pid) : UInt32 := s.router.pidIp (cstr (q.bytes ++ s.stack))

/-- Where a stop behind a link sends a packet: to the router of the next link, or to the host. -/
def Stop.next (s : Stop) (nid : List UInt8) : List (Pid × Crossing) → UInt32
  | [] => s.router.nidIp (cstr (nid ++ s.stack))
  | (q, _) :: _ => s.hop q

/-- The tables of the routers lead a packet at `dst` over the links of the PIDs, in this order, and
from the last one to the host. -/
def Leads (nid : List UInt8) (host : UInt32) : UInt32 → List (Pid × Crossing) → Prop
  | dst, [] => dst = host
  | dst, (q, c) :: way =>
      c.near.router.Owns dst
        ∧ c.near.router.Reaches (c.near.hop q) ∧ c.far.router.Owns (c.near.hop q)
        ∧ c.far.router.Reaches (c.far.next nid way) ∧ Leads nid host (c.far.next nid way) way

instance (nid : List UInt8) (host : UInt32) :
    ∀ (dst : UInt32) (way : List (Pid × Crossing)), Decidable (Leads nid host dst way)
  | dst, [] => inferInstanceAs (Decidable (dst = host))
  | _, (_, c) :: way =>
      haveI : Decidable (Leads nid host (c.far.next nid way) way) :=
        instDecidableLeads nid host (c.far.next nid way) way
      inferInstanceAs (Decidable (_ ∧ _ ∧ _ ∧ _ ∧ _))

/-- The stops of a way. -/
def stops (way : List (Pid × Crossing)) : List Stop := way.flatMap fun c => [c.2.near, c.2.far]

theorem Shipment.step_of_route {x : Shipment} {s : Stop} {hop : UInt32} {pids : List Pid}
    (howns : s.router.Owns x.dst) (hroute : s.route x = some (hop, pids))
    (hreach : s.router.Reaches hop) : x.step s = some { x with dst := hop, pids := pids } := by
  refine (if_pos howns).trans ?_
  rw [hroute]
  exact if_neg hreach

/-- One crossing: the PID of the link is popped. -/
theorem Shipment.cross {x : Shipment} {q : Pid} {c : Crossing} {way : List (Pid × Crossing)}
    (hpids : x.pids = (way.map Prod.fst).reverse ++ [q]) (howns : c.near.router.Owns x.dst)
    (hreach : c.near.router.Reaches (c.near.hop q)) (hfar : c.far.router.Owns (c.near.hop q))
    (hnext : c.far.router.Reaches (c.far.next x.nid way)) :
    Lts.exec Shipment.step x [c.near, c.far]
      = some { x with dst := c.far.next x.nid way, pids := (way.map Prod.fst).reverse } := by
  have hnear : c.near.route x = some (c.near.hop q, (way.map Prod.fst).reverse) := by
    unfold Stop.route
    rw [c.near_port, hpids, List.getLast?_concat, List.dropLast_concat]
    rfl
  have hroute : c.far.route { x with dst := c.near.hop q, pids := (way.map Prod.fst).reverse }
      = some (c.far.next x.nid way, (way.map Prod.fst).reverse) := by
    unfold Stop.route
    rw [c.far_port]
    cases way with
    | nil => rfl
    | cons link way =>
        rw [List.map_cons, List.reverse_cons, List.getLast?_concat]
        rfl
  rw [Lts.exec_cons, Shipment.step_of_route howns hnear hreach, Option.bind_some, Lts.exec_cons,
    Shipment.step_of_route hfar hroute hnext]
  rfl

/-- A shipment with the PIDs of a way arrives without them. -/
theorem Shipment.delivered {host : UInt32} {x : Shipment} {way : List (Pid × Crossing)}
    (hpids : x.pids = (way.map Prod.fst).reverse) (hleads : Leads x.nid host x.dst way) :
    Lts.exec Shipment.step x (stops way) = some { x with dst := host, pids := [] } := by
  induction way generalizing x with
  | nil =>
      obtain rfl : x.dst = host := hleads
      rw [List.map_nil, List.reverse_nil] at hpids
      rw [stops, List.flatMap_nil, Lts.exec_nil, ← hpids]
  | cons link way ih =>
      obtain ⟨q, c⟩ := link
      obtain ⟨howns, hreach, hfar, hnext, hrest⟩ := hleads
      rw [List.map_cons, List.reverse_cons] at hpids
      have hcross := Shipment.cross hpids howns hreach hfar hnext
      have hstops : stops ((q, c) :: way) = [c.near, c.far] ++ stops way := rfl
      rw [hstops, Lts.exec_append, hcross, Option.bind_some]
      exact ih rfl hrest

/-- **A Data packet arrives.** When the tables lead along its PIDs, the routers deliver it to the
host of its NID, without the PIDs and with the rest unchanged. -/
theorem data_delivered {p : Packet} (h : IsData p) {host : UInt32} {way : List (Pid × Crossing)}
    (hpids : p.dataPids = (way.map Prod.fst).reverse)
    (hleads : Leads (peek p.mem 98 16) host p.dIp way) :
    ∃ out, Lts.exec forward p (stops way) = some out ∧ out.dIp = host ∧ out.dataPids = []
      ∧ Carried p out way.length := by
  have hexec := shipment_refines.exec h (stops way)
  rw [List.map_id, Shipment.delivered (x := p.shipment) hpids hleads] at hexec
  obtain ⟨out, hout, hshipment⟩ := Option.map_eq_some_iff.mp hexec
  have hnum : p.pids = way.length := by
    rw [← dataPids_length, hpids, List.length_reverse, List.length_map]
  have hdata : IsData out := Lts.exec_invariant (fun _ _ _ => forward_isData) h hout
  refine ⟨out, hout, congrArg Shipment.dst hshipment, congrArg Shipment.pids hshipment, ?_⟩
  apply @carried_of_shipment p out way.length host h hdata (Nat.le_of_eq hnum.symm)
  rw [hshipment, hnum, Nat.sub_self, List.take_zero]

/-- A link between two routers with nothing on their stacks. -/
def linkOf (near far : IPBorderRouter) : Crossing :=
  ⟨⟨near, fun _ => 0, 0, 0, []⟩, ⟨far, fun _ => 0, 1, 0, []⟩, rfl, rfl⟩

/-- The two links of the PIDs of `dataForHost`. -/
def twoLinks : List (Pid × Crossing) :=
  [(⟨pid2, pid2_length⟩, linkOf IPBorderRouter.new (routerAt 0x20b0a0a 0x30b0a0a)),
    (⟨pid3, pid3_length⟩, linkOf (routerAt 0x30b0a0a 0x40b0a0a) (routerAt 0x40b0a0a 0))]

theorem data_delivered_two :
    ∃ out, Lts.exec forward dataForHost (stops twoLinks) = some out ∧ out.dIp = 0x103a8c0
      ∧ out.dataPids = [] ∧ Carried dataForHost out twoLinks.length :=
  data_delivered ⟨by decide, by decide⟩ (by decide) (by decide)

end BorderRouter
