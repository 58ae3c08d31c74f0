import IcnPrototype.Rm.Forward
import IcnPrototype.BorderRouter.DataPath
import IcnPrototype.Client.ColorGetNew
import IcnPrototype.Server.FlowGenerator

set_option autoImplicit false

/-! # The way of a Get packet

A client sends a Get packet. In every domain it passes, the RM appends a PID and sends the packet to
the border router of this PID; the border router looks the PID up and sends the packet to a border
router of the next domain, and this one sends it to its RM. In the end a server reads from the
packet what the client asks for.

The four programs agree on nothing but offsets. `Asks` says what is at them after any way, and
`exec_asks` that no station on the way breaks it. What the client has written reaches the server
(`get_served`), and a border router finds the PID that the last RM has appended (`get_routed`). The
RMs check the length in the IP header after they have added four to it in the wrong byte order;
`get_kept` says that they never free the packet for it.

An RM writes its PID behind the frame, in the mbuf that holds it, so all of this is about frames that
fit one mbuf with their PIDs.
-/

namespace GetPath

open Bytes Host Rm BorderRouter

/-! ## Stations -/

/-- `EtherEncap(0x0800, FF:FF:FF:FF:FF:FF, FF:FF:FF:FF:FF:FF)` -/
def etherEncap (packet : List UInt8) : List UInt8 := List.replicate 12 0xff ++ [8, 0] ++ packet

/-- The frame of a Get packet that leaves a client. -/
def getFrame (clickInCksum : List UInt8 → UInt16) (h : Client.FlowFields)
    (ipSs payload : List UInt8) : Packet :=
  let frame := etherEncap (Client.getPacket clickInCksum h ipSs payload)
  ⟨poke (fun _ => 0) 0 frame, frame.length⟩

/-- An RM, with the port and the PID of a call of `get_packets_forward`, or a border router. -/
inductive Station where
  | rm (c : LoopConfig) (portId : Nat) (pidXuan : UInt32) (buffer : Mem)
  | router (s : Stop)

/-- The bytes that one mbuf holds, `MBUF_SIZE` without its own fields. -/
def mbufRoom : Nat := 2048

/-- The buffer of a received frame. -/
def mbufOf (p : Packet) : RteMbuf where
  data := p.mem
  dataLen := UInt16.ofNat p.length
  pktLen := UInt32.ofNat p.length

/-- The packet behind a station. -/
def step (p : Packet) : Station → Option Packet
  | .rm c portId pidXuan buffer =>
      (getPacketsForward c portId (mbufOf (p.receive buffer)) pidXuan).map fun out =>
        ⟨out.2.data, out.2.dataLen.toNat⟩
  | .router s => forward p s

/-- The PID that a station appends. -/
def Station.appends : Station → Option UInt32
  | .rm _ _ pidXuan _ => some pidXuan
  | .router _ => none

/-- The PIDs that are appended on a way. -/
def appended (way : List Station) : List UInt32 := way.filterMap Station.appends

/-! ## What is in a Get packet -/

/-- The frame `p` carries the request of a client and the PIDs that were appended. -/
structure Asks (h : Client.FlowFields) (payload : List UInt8) (pids : List UInt32) (p : Packet) :
    Prop where
  length : p.length = 130 + payload.length + 4 * pids.length
  versionIhl : p.mem 14 = 0x45
  totalLength : load16 p.mem 16 = htons 116 + UInt16.ofNat (4 * pids.length)
  front : Stored p.mem 34 ((Client.getHeader h).take 2)
  totalLen : pids ≠ [] → load16 p.mem 36 = htons (UInt16.ofNat (p.length - 34))
  middle : Stored p.mem 38 (((Client.getHeader h).drop 4).take 6)
  number : p.mem 44 = UInt8.ofNat pids.length
  rest : Stored p.mem 45 ((Client.getHeader h).drop 11 ++ (payload ++ pids.flatMap le32))

theorem getHeader_length (h : Client.FlowFields) : (Client.getHeader h).length = 96 := by
  simp [Client.getHeader, Client.headerFront]

/-- The fields that no station writes are bytes of the frame. -/
theorem Asks.congr {h : Client.FlowFields} {payload : List UInt8} {pids : List UInt32}
    {p q : Packet} (ha : Asks h payload pids p) (hlen : q.length = p.length)
    (hmem : ∀ i, 14 ≤ i → i < p.length → (i < 26 ∨ 34 ≤ i) → q.mem i = p.mem i) :
    Asks h payload pids q := by
  have hheader := getHeader_length h
  have hlength := ha.length
  have hstored : ∀ off bs, 34 ≤ off → off + bs.length ≤ p.length → Stored p.mem off bs →
      Stored q.mem off bs := fun off bs hoff hend hbs =>
    (peek_congr fun i hi hlt => hmem i (by omega) (by omega) (by omega)).trans hbs
  have hfields : 130 ≤ p.length := by omega
  refine {
    length := hlen.trans ha.length
    versionIhl := (hmem 14 le_rfl (by omega) (by omega)).trans ha.versionIhl
    totalLength := ?_
    front := hstored 34 _ le_rfl (by rw [List.length_take, hheader]; omega) ha.front
    totalLen := ?_
    middle := hstored 38 _ (by omega)
      (by rw [List.length_take, List.length_drop, hheader]; omega) ha.middle
    number := (hmem 44 (by omega) (by omega) (by omega)).trans ha.number
    rest := hstored 45 _ (by omega) ?_ ha.rest }
  · rw [load16_congr fun i hi hlt => hmem i (by omega) (by omega) (by omega), ha.totalLength]
  · intro hne
    rw [load16_congr fun i hi hlt => hmem i (by omega) (by omega) (by omega), ha.totalLen hne, hlen]
  · rw [List.length_append, List.length_append, List.length_drop, hheader, flatMap_le32_length]
    omega

theorem Asks.receive {h : Client.FlowFields} {payload : List UInt8} {pids : List UInt32}
    {p : Packet} (ha : Asks h payload pids p) (buffer : Mem) :
    Asks h payload pids (p.receive buffer) :=
  ha.congr rfl fun _ _ hi _ => if_pos hi

/-- The client's frame carries its request. -/
theorem getFrame_asks (clickInCksum : List UInt8 → UInt16) (h : Client.FlowFields)
    {ipSs : List UInt8} (hip : ipSs.length = 4) (payload : List UInt8) :
    Asks h payload [] (getFrame clickInCksum h ipSs payload) := by
  have hheader := getHeader_length h
  set sum := clickInCksum (Client.ipHeader 0 ipSs) with hsum
  have hipLen := Client.ipHeader_length sum hip
  have hframe : Stored (getFrame clickInCksum h ipSs payload).mem 0
      (List.replicate 12 0xff ++ [8, 0] ++ (Client.ipHeader sum ipSs
        ++ (Client.getHeader h ++ payload))) := stored_poke _ 0 _
  obtain ⟨-, hpacket⟩ := stored_append.mp hframe
  obtain ⟨hiphead, hget⟩ := stored_append.mp hpacket
  rw [hipLen] at hget
  have hip14 : Stored (getFrame clickInCksum h ipSs payload).mem 14 (Client.ipHeader sum ipSs) :=
    hiphead
  have hget34 : Stored (getFrame clickInCksum h ipSs payload).mem 34
      (Client.getHeader h ++ payload) := hget
  have hslice : ∀ k n, k + n ≤ 96 → Stored (getFrame clickInCksum h ipSs payload).mem (34 + k)
      (((Client.getHeader h).drop k).take n) := fun k n hn =>
    (stored_append.mp hget34).1.slice (by omega)
  refine {
    length := ?_
    versionIhl := ?_
    totalLength := ?_
    front := hslice 0 2 (by omega)
    totalLen := fun hne => absurd rfl hne
    middle := hslice 4 6 (by omega)
    number := ?_
    rest := ?_ }
  · show (etherEncap (Client.getPacket clickInCksum h ipSs payload)).length = _
    simp only [etherEncap, Client.getPacket, List.length_append, List.length_replicate,
      List.length_cons, List.length_nil, ← hsum, hipLen, hheader]
    omega
  · exact (stored_cons.mp (stored_append.mp hip14).1).1
  · have hlen : Stored (getFrame clickInCksum h ipSs payload).mem 16 (le16 (htons 116)) :=
      hip14.slice (k := 2) (n := 2) (by omega)
    show load16 _ 16 = htons 116 + UInt16.ofNat 0
    rw [load16, hlen.peek_eq (le16_length _), ofLe16_le16]
    rfl
  · exact (stored_cons.mp (hslice 10 1 (by omega))).1
  · have hrest := hget34.slice (k := 11) (n := 85 + payload.length)
      (by rw [List.length_append, hheader]; omega)
    rw [List.drop_append_of_le_length (by omega), List.take_of_length_le
      (by rw [List.length_append, List.length_drop, hheader])] at hrest
    rw [List.flatMap_nil, List.append_nil]
    exact hrest

/-! ## What a station does -/

section Rm

variable {c : LoopConfig} {portId : Nat} {pidXuan : UInt32} {buffer : Mem}
  {h : Client.FlowFields} {payload : List UInt8} {pids : List UInt32} {p : Packet}

theorem mbufOf_dataLen (hlen : p.length < 2 ^ 16) : (mbufOf p).dataLen.toNat = p.length := by
  rw [mbufOf, UInt16.toNat_ofNat', Nat.mod_eq_of_lt hlen]

/-- **An RM appends its PID** to a Get packet that it does not free. -/
theorem Asks.rm {out : Nat × RteMbuf} (ha : Asks h payload pids p)
    (hroom : p.length + 4 ≤ mbufRoom)
    (hout : getPacketsForward c portId (mbufOf p) pidXuan = some out) :
    Asks h payload (pids ++ [pidXuan]) ⟨out.2.data, out.2.dataLen.toNat⟩ := by
  rw [mbufRoom] at hroom
  have hheader := getHeader_length h
  have hlength := ha.length
  have hdata := mbufOf_dataLen (p := p) (by omega)
  have hvalid :
      ¬ isValidIpv4Pkt (totalLengthPlus4 (mbufOf p).data) (mbufOf p).pktLen.toNat < 0 := by
    rw [← @getPacketsForward_eq_none c portId (mbufOf p) pidXuan, hout]
    exact fun e => by cases e
  obtain ⟨port, out', hsome, hfwd⟩ := getPacketsForward_forwarded c portId
    (by rw [hdata, sizeofColorGet]; omega) hvalid pidXuan
  obtain rfl : out = (port, out') := Option.some.inj (hout.symm.trans hsome)
  have hlen : out'.dataLen.toNat = p.length + 4 := by
    rw [hfwd.dataLen, UInt16.toNat_add, hdata]
    exact Nat.mod_eq_of_lt (show p.length + 4 < 2 ^ 16 by omega)
  have hkeep : ∀ off bs, 34 ≤ off → off + bs.length ≤ p.length →
      (off + bs.length ≤ 36 ∨ 38 ≤ off) → (off + bs.length ≤ 44 ∨ 45 ≤ off) →
      Stored p.mem off bs → Stored out'.data off bs := by
    intro off bs hoff hend htotal hpids hbs
    refine (peek_congr fun i hi hlt => ?_).trans hbs
    exact hfwd.rest i (by omega) (by omega) (by omega) (by omega) (by omega) (by omega) (by omega)
  refine {
    length := ?_
    versionIhl := ?_
    totalLength := ?_
    front := hkeep 34 _ le_rfl (by rw [List.length_take, hheader]; omega)
      (by rw [List.length_take]; omega) (by rw [List.length_take]; omega) ha.front
    totalLen := ?_
    middle := hkeep 38 _ (by omega) (by rw [List.length_take, List.length_drop, hheader]; omega)
      (by omega) (by rw [List.length_take]; omega) ha.middle
    number := ?_
    rest := ?_ }
  · show out'.dataLen.toNat = _
    rw [hlen, List.length_append, List.length_singleton]
    omega
  · exact (hfwd.rest 14 (by omega) (by omega) (by omega) (by omega) (by omega) (by omega)
      (by omega)).trans ha.versionIhl
  · have hadd : UInt16.ofNat (4 * (pids ++ [pidXuan]).length)
        = UInt16.ofNat (4 * pids.length) + 4 := by
      rw [List.length_append, List.length_singleton, Nat.mul_succ, UInt16.ofNat_add]
      rfl
    calc load16 out'.data 16 = load16 p.mem 16 + 4 := hfwd.totalLength
      _ = htons 116 + (UInt16.ofNat (4 * pids.length) + 4) := by
          rw [ha.totalLength, UInt16.add_assoc]
      _ = htons 116 + UInt16.ofNat (4 * (pids ++ [pidXuan]).length) := by rw [hadd]
  · intro _
    have htotal : (mbufOf p).dataLen - 20 - 14 + 4 = UInt16.ofNat (out'.dataLen.toNat - 34) := by
      apply UInt16.toNat_inj.mp
      rw [hlen, UInt16.toNat_add, totalLen_toNat (by rw [hdata, sizeofColorGet]; omega), hdata,
        UInt16.toNat_ofNat']
      congr 1
      show p.length - 34 + 4 = _
      omega
    show load16 out'.data 36 = htons (UInt16.ofNat (out'.dataLen.toNat - 34))
    rw [hfwd.totalLen, htotal]
  · show out'.data 44 = _
    rw [hfwd.pids, List.length_append, List.length_singleton, UInt8.ofNat_add]
    exact congrArg (· + 1) ha.number
  · have hold := hkeep 45 _ (by omega) (by
      rw [List.length_append, List.length_append, List.length_drop, hheader, flatMap_le32_length]
      omega) (by omega) (by omega) ha.rest
    have hnew : Stored out'.data p.length (le32 pidXuan) := by
      have hpid := hfwd.pid
      rw [hdata] at hpid
      rw [Stored, le32_length, peek_of_load32, hpid]
    rw [List.flatMap_append, List.flatMap_singleton, ← List.append_assoc payload,
      ← List.append_assoc, stored_append]
    refine ⟨hold, ?_⟩
    have hoff : 45 + ((Client.getHeader h).drop 11 ++ (payload ++ pids.flatMap le32)).length
        = p.length := by
      rw [List.length_append, List.length_append, List.length_drop, hheader, flatMap_le32_length]
      omega
    rwa [hoff]

end Rm

section Router

variable {s : Stop} {h : Client.FlowFields} {payload : List UInt8} {pids : List UInt32}
  {p out : Packet}

theorem Asks.version (ha : Asks h payload pids p) : p.mem 34 = 160 :=
  (stored_cons.mp ha.front).1

/-- **Where a border router sends a Get packet**: from inside to the next hop of the PID in front of
the end of the packet, from outside to its RM. -/
theorem push_get (hversion : p.mem 34 = 160) (hmine : s.router.isMine p = true)
    (hout : s.push p = some out) :
    (s.port = 0 ∧ out = (s.router.pushByLastPid p).2)
      ∨ (s.port = 1 ∧ out = (s.router.pushGetOutside p).2) := by
  obtain ⟨o, ho, hleave⟩ := Option.bind_eq_some_iff.mp hout
  have heq := leave_eq_some hleave
  match hport : s.port with
  | 0 =>
      have hpush : (s.router.push s.now s.stack 0 p).2 = [s.router.pushByLastPid p] := by
        simp [IPBorderRouter.push, hmine, hversion]
      rw [hport, hpush] at ho
      exact Or.inl ⟨rfl, heq.symm.trans (congrArg Prod.snd (Option.some.inj ho).symm)⟩
  | 1 =>
      have hpush : (s.router.push s.now s.stack 1 p).2 = [s.router.pushGetOutside p] := by
        simp [IPBorderRouter.push, hmine, hversion]
      rw [hport, hpush] at ho
      exact Or.inr ⟨rfl, heq.symm.trans (congrArg Prod.snd (Option.some.inj ho).symm)⟩
  | k + 2 =>
      have hpush : (s.router.push s.now s.stack (k + 2) p).2 = [] := by
        simp [IPBorderRouter.push, hmine, hversion]
      rw [hport, hpush] at ho
      cases ho

/-- What is emitted differs by its addresses. -/
theorem Asks.emit (ha : Asks h payload pids p) (r : IPBorderRouter) (hop : UInt32) :
    Asks h payload pids (r.emit p.iphead hop p).2 := by
  refine ha.congr IPBorderRouter.emit_length ?_
  intro i hi _ hout
  rw [emit_mem_eq r hop fun _ _ _ => rfl, poke_of_outside (by rw [le32_length]; omega),
    poke_of_outside (by rw [le32_length]; omega)]

theorem Asks.router (ha : Asks h payload pids p) (hout : forward p s = some out) :
    Asks h payload pids out := by
  have ha' := ha.receive s.buffer
  by_cases hmine : s.router.isMine (p.receive s.buffer) = true
  · rcases push_get ha'.version hmine hout with ⟨-, rfl⟩ | ⟨-, rfl⟩
    · exact ha'.emit _ _
    · exact ha'.emit _ _
  · -- the packet is for another station
    rw [forward, Stop.push_of_not_mine hmine] at hout
    split at hout
    · exact Option.some.inj hout ▸ ha'
    · cases hout

end Router

/-! ## Ways -/

section Way

variable {h : Client.FlowFields} {payload : List UInt8} {pids : List UInt32} {p out : Packet}

/-- One station: the PIDs grow by what it appends. -/
theorem Asks.step (ha : Asks h payload pids p) {s : Station}
    (hroom : 130 + payload.length + 4 * (pids ++ appended [s]).length ≤ mbufRoom)
    (hout : step p s = some out) : Asks h payload (pids ++ appended [s]) out := by
  cases s with
  | rm c portId pidXuan buffer =>
      obtain ⟨o, ho, rfl⟩ := Option.map_eq_some_iff.mp hout
      have happ : appended [.rm c portId pidXuan buffer] = [pidXuan] := rfl
      rw [happ] at hroom ⊢
      apply (ha.receive buffer).rm _ ho
      rw [(ha.receive buffer).length]
      rw [List.length_append, List.length_singleton] at hroom
      omega
  | router s =>
      have happ : appended [.router s] = [] := rfl
      rw [happ, List.append_nil]
      exact ha.router hout

/-- **A way appends PIDs and changes nothing else.** -/
theorem exec_asks {way : List Station} (ha : Asks h payload pids p)
    (hroom : 130 + payload.length + 4 * (pids ++ appended way).length ≤ mbufRoom)
    (hrun : Lts.exec step p way = some out) : Asks h payload (pids ++ appended way) out := by
  induction way generalizing p pids with
  | nil =>
      rw [Lts.exec_nil, Option.some.injEq] at hrun
      subst hrun
      rw [show appended [] = [] from rfl, List.append_nil]
      exact ha
  | cons s way ih =>
      obtain ⟨p₁, hstep, hrest⟩ := Lts.exec_cons_eq_some.mp hrun
      have happ : pids ++ appended (s :: way) = pids ++ appended [s] ++ appended way := by
        rw [List.append_assoc, appended, appended, appended, ← List.filterMap_append,
          List.singleton_append]
      rw [happ] at hroom ⊢
      apply ih (ha.step _ hstep) hroom hrest
      rw [List.length_append] at hroom
      omega

end Way

/-! ## What arrives at the server -/

/-- What a client asks for, as the server puts it. -/
def asked (h : Client.FlowFields) : FlowGenerator.Argc where
  flowPackets := h.ccPackets
  flowSize := h.ccFlowSize
  flowTime := h.ccFlowTime

/-- The three numbers, from the front of what is behind the header's addresses. -/
theorem Asks.request {h : Client.FlowFields} {payload : List UInt8} {pids : List UInt32}
    {p : Packet}
    (ha : Asks h payload pids p) : FlowGenerator.request p.mem = asked h := by
  have hrest : Stored p.mem 45 ((Client.getHeader h).drop 11) := (stored_append.mp ha.rest).1
  have hfront : (Client.headerFront.drop 11).length = 69 := rfl
  have hsplit : (Client.getHeader h).drop 11 = Client.headerFront.drop 11
      ++ (le32 h.ccPackets ++ (le32 h.ccFlowSize ++ (le32 h.ccFlowTime ++ [0, 0, 0, 0]))) := by
    rw [Client.getHeader, List.drop_append_of_le_length (by decide)]
  rw [hsplit] at hrest
  obtain ⟨-, hnumbers⟩ := stored_append.mp hrest
  rw [hfront] at hnumbers
  obtain ⟨hpackets, hnumbers⟩ := stored_append.mp hnumbers
  rw [le32_length] at hnumbers
  obtain ⟨hsize, hnumbers⟩ := stored_append.mp hnumbers
  rw [le32_length] at hnumbers
  have htime := (stored_append.mp hnumbers).1
  unfold FlowGenerator.request asked
  congr 1
  · exact hpackets.load32_eq
  · exact hsize.load32_eq
  · exact htime.load32_eq

/-- The server cuts off what is behind the first 1024 bytes, and the request is in front. -/
theorem recvfrom_received (s : FlowGenerator.State) (p : Packet) {i : Nat} (hi : i < p.length)
    (hlt : i < FlowGenerator.recBufsize) :
    FlowGenerator.recvfrom s (peek p.mem 0 p.length) i = p.mem i := by
  have htake : (peek p.mem 0 p.length).take FlowGenerator.recBufsize
      = peek p.mem 0 (min FlowGenerator.recBufsize p.length) := by
    by_cases hle : FlowGenerator.recBufsize ≤ p.length
    · rw [peek_take _ _ hle, Nat.min_eq_left hle]
    · rw [List.take_of_length_le (by rw [peek_length]; omega), Nat.min_eq_right (by omega)]
  rw [FlowGenerator.recvfrom, htake]
  exact poke_peek_of_mem _ _ (Nat.zero_le i) (by omega)

/-- What `main` does with a Get packet: it reads what the client has asked for and starts a thread, or
exits where it takes the numbers for an error. -/
theorem Asks.accepted {h : Client.FlowFields} {payload : List UInt8} {pids : List UInt32}
    {out : Packet} (ha : Asks h payload pids out) (s : FlowGenerator.State) :
    FlowGenerator.step s (.receive (peek out.mem 0 out.length))
      = if FlowGenerator.dataError (asked h) then none
        else some { s with
          rbuf := FlowGenerator.recvfrom s (peek out.mem 0 out.length)
          A := asked h
          pending := s.pending + 1
          accepted := s.accepted ++ [asked h] } := by
  have hlength := ha.length
  have hmem : ∀ i < 130, FlowGenerator.recvfrom s (peek out.mem 0 out.length) i = out.mem i :=
    fun i hi => recvfrom_received s out (by omega) (by rw [FlowGenerator.recBufsize]; omega)
  have hversion : FlowGenerator.versionType
      (FlowGenerator.recvfrom s (peek out.mem 0 out.length)) = 0xa0 :=
    (hmem 34 (by omega)).trans ha.version
  have hrequest : FlowGenerator.request
      (FlowGenerator.recvfrom s (peek out.mem 0 out.length)) = asked h := by
    rw [← ha.request]
    unfold FlowGenerator.request
    rw [load32_congr fun i _ _ => hmem i (by omega), load32_congr fun i _ _ => hmem i (by omega),
      load32_congr fun i _ _ => hmem i (by omega)]
  simp only [FlowGenerator.step, if_pos hversion, hrequest]

/-- **The request of the client reaches the server.** Whatever stations a Get packet passes, the
server exits where it takes the numbers for an error, and starts a thread else. In every run that goes
on from there and meets the condition, the threads that have not copied yet, this one among them,
copy what the client has asked for. -/
theorem get_served (clickInCksum : List UInt8 → UInt16) (h : Client.FlowFields)
    {ipSs : List UInt8} (hip : ipSs.length = 4) (payload : List UInt8) {way : List Station}
    {out : Packet} (hroom : 130 + payload.length + 4 * (appended way).length ≤ mbufRoom)
    (hrun : Lts.exec step (getFrame clickInCksum h ipSs payload) way = some out)
    (s : FlowGenerator.State) :
    (FlowGenerator.step s (.receive (peek out.mem 0 out.length)) = none
        ↔ FlowGenerator.dataError (asked h) = true)
      ∧ ∀ es s', Lts.Along FlowGenerator.step FlowGenerator.Undisturbed s
            (.receive (peek out.mem 0 out.length) :: es) →
          Lts.exec FlowGenerator.step s (.receive (peek out.mem 0 out.length) :: es) = some s' →
          ∃ copies, s'.used = s.used ++ copies ∧ s.pending + 1 ≤ copies.length + s'.pending
            ∧ ∀ a ∈ copies.take (s.pending + 1), a = asked h := by
  have ha : Asks h payload (appended way) out :=
    exec_asks (getFrame_asks clickInCksum h hip payload) hroom hrun
  have hstep := ha.accepted s
  constructor
  · rw [hstep]
    cases FlowGenerator.dataError (asked h) with
    | true => exact iff_of_true rfl rfl
    | false => exact iff_of_false (fun e => by cases e) Bool.false_ne_true
  · intro es s' hcond hexec
    obtain ⟨s₁, hstep₁, hrest⟩ := Lts.exec_cons_eq_some.mp hexec
    -- no thread has copied yet, and `A` is the request
    have hstarted : FlowGenerator.Copies s (s.pending + 1) (asked h) s₁ := by
      rw [hstep] at hstep₁
      split at hstep₁
      · cases hstep₁
      · obtain rfl := Option.some.inj hstep₁
        exact ⟨[], (List.append_nil _).symm, by simp, by simp, fun _ => rfl⟩
    obtain ⟨copies, hused, hle, hfirst, -⟩ :=
      FlowGenerator.exec_copies_of_along hstarted (hcond s₁ hstep₁).2 hrest
    exact ⟨copies, hused, hle, hfirst⟩

/-- A request for 20 packets of 50 bytes. -/
def twentyPackets : Client.FlowFields := ⟨20, 1000, 10⟩

/-- The Get packet of a client, without payload. -/
def twentyGet : Packet := getFrame (fun _ => 0) twentyPackets [10, 0, 0, 1] []

/-- An RM that appends `PID2`, its border router, and the one at the other end of the link. -/
def threeStations : List Station :=
  [.rm noAddresses 0 (ofLe32 pid2) fun _ => 0, .router ⟨IPBorderRouter.new, fun _ => 0, 0, 0, []⟩,
    .router ⟨routerAt 0x20b0a0a 0, fun _ => 0, 1, 0, []⟩]

theorem get_served_twenty : ∃ out s', Lts.exec step twentyGet threeStations = some out
    ∧ Lts.exec FlowGenerator.step (.start ⟨0, 0, 0⟩)
        [.receive (peek out.mem 0 out.length), .copy] = some s'
    ∧ s'.pending = 0
    ∧ ∃ copies, s'.used = [] ++ copies ∧ 0 + 1 ≤ copies.length + s'.pending
      ∧ ∀ a ∈ copies.take (0 + 1), a = asked twentyPackets := by
  obtain ⟨out, hout⟩ := Option.isSome_iff_exists.mp
    (show (Lts.exec step twentyGet threeStations).isSome = true by decide +kernel)
  have hserved := get_served (fun _ => 0) twentyPackets rfl [] (by decide) hout (.start ⟨0, 0, 0⟩)
  have hend : ((Lts.exec step twentyGet threeStations).bind fun out =>
      (Lts.exec FlowGenerator.step (.start ⟨0, 0, 0⟩)
        [.receive (peek out.mem 0 out.length), .copy]).map FlowGenerator.State.pending) = some 0 := by
    decide +kernel
  rw [hout, Option.bind_some] at hend
  obtain ⟨s', hs', hpending⟩ := Option.map_eq_some_iff.mp hend
  have hcond : ((Lts.exec step twentyGet threeStations).map fun out =>
      decide (Lts.Along FlowGenerator.step FlowGenerator.Undisturbed (.start ⟨0, 0, 0⟩)
        [.receive (peek out.mem 0 out.length), .copy])) = some true := by
    decide +kernel
  rw [hout, Option.map_some, Option.some.injEq] at hcond
  exact ⟨out, s', hout, hs', hpending, hserved.2 _ _ (of_decide_eq_true hcond) hs'⟩

/-! ## Where it is sent -/

/-- The last PID is at the end of the packet. -/
theorem Asks.lastPid {h : Client.FlowFields} {payload : List UInt8} {pids front : List UInt32}
    {p : Packet} (ha : Asks h payload pids p) {pid : UInt32} (hpids : pids = front ++ [pid])
    (hroom : p.length < 2 ^ 16) :
    peek p.mem ((ntohs (load16 p.mem 36)).toNat + 30) 4 = le32 pid := by
  subst hpids
  have hlength := ha.length
  rw [List.length_append, List.length_singleton] at hlength
  have htotal : (ntohs (load16 p.mem 36)).toNat + 30 = 130 + payload.length + 4 * front.length := by
    rw [ha.totalLen (by simp), ntohs_htons, UInt16.toNat_ofNat', Nat.mod_eq_of_lt (by omega)]
    omega
  have hrest := ha.rest
  rw [List.flatMap_append, List.flatMap_singleton, ← List.append_assoc payload,
    ← List.append_assoc, stored_append] at hrest
  have hoff : 45 + ((Client.getHeader h).drop 11 ++ (payload ++ front.flatMap le32)).length
      = 130 + payload.length + 4 * front.length := by
    rw [List.length_append, List.length_append, List.length_drop, getHeader_length,
      flatMap_le32_length]
    omega
  rw [hoff] at hrest
  rw [htotal]
  exact hrest.2.peek_eq (le32_length pid)

/-- The address of a frame is not behind its end. -/
theorem isMine_receive {r : IPBorderRouter} {p : Packet} (hlen : 34 ≤ p.length) (buffer : Mem) :
    r.isMine (p.receive buffer) = true ↔ r.Owns p.dIp := by
  have hdst : (p.receive buffer).dIp = p.dIp := (receive_received p buffer).load32_eq (by omega)
  rw [isMine_iff, hdst]

/-- **A Get packet is routed by the PID of the last RM.** Behind any way with an RM on it, a border
router that the packet is addressed to and that gets it from inside sends it to the next hop of the
PID that was appended last, and one that gets it from outside sends it to its RM. -/
theorem get_routed (clickInCksum : List UInt8 → UInt16) (h : Client.FlowFields)
    {ipSs : List UInt8} (hip : ipSs.length = 4) (payload : List UInt8) {way : List Station}
    {p out : Packet} (hroom : 130 + payload.length + 4 * (appended way).length ≤ mbufRoom)
    (hrun : Lts.exec step (getFrame clickInCksum h ipSs payload) way = some p) {pid : UInt32}
    (hpid : (appended way).getLast? = some pid) {s : Stop} (howns : s.router.Owns p.dIp)
    (hout : forward p s = some out) :
    s.port = 0 ∧ out.dIp = s.router.pidIp (IPBorderRouter.key (le32 pid))
      ∨ s.port = 1 ∧ out.dIp = s.router.nidIp d3rm := by
  have ha : Asks h payload (appended way) p :=
    exec_asks (getFrame_asks clickInCksum h hip payload) hroom hrun
  have ha' := ha.receive s.buffer
  have hlength := ha.length
  rw [mbufRoom] at hroom
  have hmine : s.router.isMine (p.receive s.buffer) = true :=
    (isMine_receive (by omega) s.buffer).mpr howns
  obtain ⟨pids, hpids⟩ := List.getLast?_eq_some_iff.mp hpid
  rcases push_get ha'.version hmine hout with ⟨hport, rfl⟩ | ⟨hport, rfl⟩
  · have hlength' := ha'.length
    refine Or.inl ⟨hport, ?_⟩
    rw [IPBorderRouter.pushByLastPid, ha'.lastPid hpids (by omega)]
    exact IPBorderRouter.emit_dIp (IPBorderRouter.iphead_length _)
  · exact Or.inr ⟨hport, IPBorderRouter.emit_dIp (IPBorderRouter.iphead_length _)⟩

theorem get_routed_twenty : ∃ p out,
    Lts.exec step twentyGet (threeStations.take 1) = some p
      ∧ forward p ⟨IPBorderRouter.new, fun _ => 0, 0, 0, []⟩ = some out
      ∧ ((0 : Nat) = 0
          ∧ out.dIp = IPBorderRouter.new.pidIp (IPBorderRouter.key (le32 (ofLe32 pid2)))
        ∨ (0 : Nat) = 1 ∧ out.dIp = IPBorderRouter.new.nidIp d3rm) := by
  obtain ⟨p, hp⟩ := Option.isSome_iff_exists.mp
    (show (Lts.exec step twentyGet (threeStations.take 1)).isSome = true by decide +kernel)
  have hnext : ((Lts.exec step twentyGet (threeStations.take 1)).bind
      fun p => forward p ⟨IPBorderRouter.new, fun _ => 0, 0, 0, []⟩).isSome = true := by
    decide +kernel
  rw [hp, Option.bind_some] at hnext
  obtain ⟨out, hout⟩ := Option.isSome_iff_exists.mp hnext
  have hdst : ((Lts.exec step twentyGet (threeStations.take 1)).map
      fun p => decide (IPBorderRouter.new.Owns p.dIp)) = some true := by
    decide +kernel
  rw [hp, Option.map_some, Option.some.injEq] at hdst
  exact ⟨p, out, hp, hout,
    get_routed (fun _ => 0) twentyPackets rfl [] (by decide) hp rfl (of_decide_eq_true hdst) hout⟩

/-! ## The check of the length -/

/-- Where a packet goes that is sent to an exit. -/
theorem forwarded_dst {m out : RteMbuf} {pid : UInt32} {ret : Nat} {src dst : UInt32}
    (h : Forwarded m out pid ret) (haddrs : exitAddrs ret = some (src, dst)) :
    load32 out.data 30 = dst := by
  have hbytes : ∀ i, 30 ≤ i → i < 30 + 4 → out.data i = setAddrs m.data ret i := fun i hi hlt =>
    byte_of_peek_eq h.addrs (by omega) (by omega)
  rw [load32_congr hbytes, setAddrs, haddrs]
  exact load32_poke_le32 _ _ _

/-- As long as the length has not wrapped around, it is not below 20 in the other byte order. -/
theorem htons_length_ge {n : Nat} (hn : n < 8960) :
    ¬ htons (htons 116 + UInt16.ofNat (4 * n)) < 20 := by
  have h116 : (htons 116).toNat = 29696 := rfl
  have hsum : (htons 116 + UInt16.ofNat (4 * n)).toNat = 29696 + 4 * n := by
    rw [UInt16.toNat_add, h116, UInt16.toNat_ofNat', Nat.mod_eq_of_lt (by omega),
      Nat.mod_eq_of_lt (by omega)]
  rw [UInt16.lt_iff_toNat_lt]
  show ¬ (bswap16 (htons 116 + UInt16.ofNat (4 * n))).toNat < 20
  rw [bswap16_toNat, hsum]
  omega

section Kept

variable {h : Client.FlowFields} {payload : List UInt8} {pids : List UInt32} {p : Packet}
  (ha : Asks h payload pids p)
include ha

/-- The header of a Get packet passes the check of an RM. -/
theorem Asks.valid (hroom : p.length + 4 ≤ mbufRoom) :
    ¬ isValidIpv4Pkt (totalLengthPlus4 (mbufOf p).data) (mbufOf p).pktLen.toNat < 0 := by
  have hlength := ha.length
  rw [mbufRoom] at hroom
  have hlong : ¬ (mbufOf p).pktLen.toNat < 20 := by
    rw [mbufOf, UInt32.toNat_ofNat', Nat.mod_eq_of_lt (by omega)]
    omega
  have h14 : totalLengthPlus4 p.mem 14 = 0x45 := by
    rw [totalLengthPlus4, poke_of_outside (by omega), ha.versionIhl]
  have h16 : load16 (totalLengthPlus4 p.mem) 16
      = htons 116 + UInt16.ofNat (4 * (pids.length + 1)) := by
    rw [totalLengthPlus4, load16_poke_le16, ha.totalLength, Nat.mul_succ, UInt16.ofNat_add,
      UInt16.add_assoc]
    rfl
  show ¬ isValidIpv4Pkt (totalLengthPlus4 p.mem) _ < 0
  unfold isValidIpv4Pkt
  rw [if_neg hlong, h14, if_neg (by decide), if_neg (by decide), h16,
    if_neg (htons_length_ge (by omega))]
  decide

/-- **An RM sends on** every Get packet that one mbuf holds with its PID. -/
theorem Asks.sent (hroom : p.length + 4 ≤ mbufRoom) (c : LoopConfig) (portId : Nat) (pid : UInt32)
    (buffer : Mem) :
    ∃ out, GetPath.step p (.rm c portId pid buffer) = some out
      ∧ (∀ src dst, exitAddrs (exitOf (le32 pid)) = some (src, dst) → out.dIp = dst)
      ∧ Asks h payload (pids ++ [pid]) out := by
  have hin := ha.receive buffer
  have hlength := hin.length
  have hsame : (p.receive buffer).length = p.length := rfl
  have hbound : (p.receive buffer).length < 2 ^ 16 := by
    rw [mbufRoom] at hroom
    omega
  obtain ⟨port, out, hout, hfwd⟩ := getPacketsForward_forwarded c portId
    (by rw [mbufOf_dataLen hbound, sizeofColorGet]; omega) (hin.valid hroom) pid
  refine ⟨⟨out.data, out.dataLen.toNat⟩, ?_, fun _ _ => forwarded_dst hfwd, hin.rm hroom hout⟩
  rw [GetPath.step, hout]
  rfl

end Kept

/-- An exit of the RM: the border router behind it, as its constructor sets it up, the PID of its
link, and the address at the other end of the link. -/
structure Exit where
  router : IPBorderRouter
  pid : UInt32
  far : UInt32

/-- The two exits that have a border router. -/
def exits : List Exit :=
  [⟨.newIpn, ofLe32 (pidName 0x31), 0x20a0a0a⟩, ⟨.new, ofLe32 (pidName 0x32), 0x20b0a0a⟩]

/-- The RM and the constructors say the same about an exit: the RM sends to the inner address of the
router, the router knows the PID and its RM. -/
structure Exit.Agrees (e : Exit) : Prop where
  addrs : exitAddrs (exitOf (le32 e.pid)) = some (e.router.nidIp d3rm, e.router.sIp 2)
  pid : e.router.pidIp (IPBorderRouter.key (le32 e.pid)) = e.far
  far : e.router.ipNic e.far = 1
  rm : e.router.ipNic (e.router.nidIp d3rm) = 2

theorem exits_agree : ∀ e ∈ exits, e.Agrees := by
  refine List.forall_mem_cons.mpr ⟨⟨?_, ?_, ?_, ?_⟩, List.forall_mem_singleton.mpr ⟨?_, ?_, ?_, ?_⟩⟩
  all_goals decide

/-- A router emits what goes to one of its interfaces. -/
theorem forward_of_emit {s : Stop} {p : Packet} {hop : UInt32} (howns : s.router.Owns p.dIp)
    (hlen : 34 ≤ p.length) (hreach : s.router.Reaches hop)
    (hpush : s.router.isMine (p.receive s.buffer) = true →
      (s.router.push s.now s.stack s.port (p.receive s.buffer)).2
        = [s.router.emit (p.receive s.buffer).iphead hop (p.receive s.buffer)]) :
    ∃ out, forward p s = some out ∧ out.dIp = hop
      ∧ out.sIp = s.router.sIp (s.router.ipNic hop) := by
  have hmine : s.router.isMine (p.receive s.buffer) = true :=
    (isMine_receive hlen s.buffer).mpr howns
  have hip := IPBorderRouter.iphead_length (p.receive s.buffer)
  refine ⟨(s.router.emit (p.receive s.buffer).iphead hop (p.receive s.buffer)).2, ?_,
    IPBorderRouter.emit_dIp hip, IPBorderRouter.emit_sIp hip⟩
  rw [forward, Stop.push, hpush hmine]
  exact if_neg hreach

section Exits

variable {h : Client.FlowFields} {payload : List UInt8} {pids : List UInt32} {p : Packet}
  (ha : Asks h payload pids p)
include ha

/-- From inside, a router sends a Get packet to the next hop of its last PID. -/
theorem Asks.leaves {s : Stop} (hport : s.port = 0) (howns : s.router.Owns p.dIp)
    {front : List UInt32} {pid : UInt32} (hpids : pids = front ++ [pid]) (hroom : p.length < 2 ^ 16)
    (hreach : s.router.Reaches (s.router.pidIp (IPBorderRouter.key (le32 pid)))) :
    ∃ out, forward p s = some out ∧ out.dIp = s.router.pidIp (IPBorderRouter.key (le32 pid))
      ∧ out.sIp = s.router.sIp (s.router.ipNic (s.router.pidIp (IPBorderRouter.key (le32 pid))))
      ∧ Asks h payload pids out := by
  have hin := ha.receive s.buffer
  have hlength := ha.length
  obtain ⟨out, hout, hdst, hsrc⟩ := forward_of_emit howns (by omega) hreach fun hmine => by
    rw [← hin.lastPid hpids hroom]
    simp [IPBorderRouter.push, hmine, hin.version, hport, IPBorderRouter.pushByLastPid]
  exact ⟨out, hout, hdst, hsrc, ha.router hout⟩

/-- From outside, a router sends a Get packet to its RM. -/
theorem Asks.enters {s : Stop} (hport : s.port = 1) (howns : s.router.Owns p.dIp)
    (hreach : s.router.Reaches (s.router.nidIp d3rm)) :
    ∃ out, forward p s = some out ∧ out.dIp = s.router.nidIp d3rm
      ∧ out.sIp = s.router.sIp (s.router.ipNic (s.router.nidIp d3rm))
      ∧ Asks h payload pids out := by
  have hin := ha.receive s.buffer
  have hlength := ha.length
  obtain ⟨out, hout, hdst, hsrc⟩ := forward_of_emit howns (by omega) hreach fun hmine => by
    simp [IPBorderRouter.push, hmine, hin.version, hport, IPBorderRouter.pushGetOutside]
  exact ⟨out, hout, hdst, hsrc, ha.router hout⟩

end Exits

/-- **Both exits of the repository work.** Behind any way, a Get packet that gets the PID of an exit
leaves this exit's border router over the link, and one that comes in over the link is sent to the
RM. -/
theorem exits_forward {e : Exit} (he : e ∈ exits) (clickInCksum : List UInt8 → UInt16)
    (h : Client.FlowFields) {ipSs : List UInt8} (hip : ipSs.length = 4) (payload : List UInt8)
    {way : List Station} {p : Packet}
    (hroom : 130 + payload.length + 4 * ((appended way).length + 1) ≤ mbufRoom)
    (hrun : Lts.exec step (getFrame clickInCksum h ipSs payload) way = some p) (c : LoopConfig) (portId : Nat) (buffer buffer' : Mem)
    (now : UInt32) (stack : List UInt8) :
    (∃ out, Lts.exec step p
        [.rm c portId e.pid buffer, .router ⟨e.router, buffer', 0, now, stack⟩] = some out
          ∧ out.dIp = e.far ∧ out.sIp = e.router.sIp 1)
      ∧ (p.dIp = e.router.sIp 1 → ∃ out,
        Lts.exec step p [.router ⟨e.router, buffer', 1, now, stack⟩] = some out
          ∧ out.dIp = e.router.nidIp d3rm ∧ out.sIp = e.router.sIp 2) := by
  have hagree := exits_agree e he
  have ha : Asks h payload (appended way) p := by
    apply exec_asks (getFrame_asks clickInCksum h hip payload) _ hrun
    rw [List.nil_append]
    omega
  have hlength := ha.length
  constructor
  · obtain ⟨p₁, hsent, hdst, ha₁⟩ := ha.sent (by omega) c portId e.pid buffer
    have hlength₁ := ha₁.length
    rw [List.length_append, List.length_singleton] at hlength₁
    rw [mbufRoom] at hroom
    have hreach : e.router.Reaches (e.router.pidIp (IPBorderRouter.key (le32 e.pid))) := by
      rw [IPBorderRouter.Reaches, hagree.pid, hagree.far]
      decide
    obtain ⟨out, hout, hdst', hsrc, -⟩ := ha₁.leaves (s := ⟨e.router, buffer', 0, now, stack⟩) rfl
      (Or.inr (hdst _ _ hagree.addrs)) rfl (by omega) hreach
    refine ⟨out, ?_, hdst'.trans hagree.pid, ?_⟩
    · rw [Lts.exec_cons, hsent, Option.bind_some, Lts.exec_cons, step, hout]
      rfl
    · rw [hsrc, hagree.pid, hagree.far]
  · intro hdst
    have hreach : e.router.Reaches (e.router.nidIp d3rm) := by
      rw [IPBorderRouter.Reaches, hagree.rm]
      decide
    obtain ⟨out, hout, hdst', hsrc, -⟩ := ha.enters (s := ⟨e.router, buffer', 1, now, stack⟩) rfl
      (Or.inl hdst) hreach
    refine ⟨out, ?_, hdst', ?_⟩
    · rw [Lts.exec_cons, step, hout]
      rfl
    · rw [hsrc, hagree.rm]

/-- A Get packet that comes in over the link of `PID1`. -/
def incomingGet : Packet := getFrame (fun _ => 0) twentyPackets [10, 10, 10, 1] []

theorem exits_forward_twenty :
    (∃ out, Lts.exec step incomingGet [.rm noAddresses 0 pid1 fun _ => 0,
        .router ⟨.newIpn, fun _ => 0, 0, 0, []⟩] = some out
          ∧ out.dIp = 0x20a0a0a ∧ out.sIp = IPBorderRouter.newIpn.sIp 1)
      ∧ ∃ out, Lts.exec step incomingGet [.router ⟨.newIpn, fun _ => 0, 1, 0, []⟩] = some out
        ∧ out.dIp = IPBorderRouter.newIpn.nidIp d3rm ∧ out.sIp = IPBorderRouter.newIpn.sIp 2 := by
  have hroom : 130 + ([] : List UInt8).length + 4 * ((appended []).length + 1) ≤ mbufRoom := by
    decide
  have hip : ([10, 10, 10, 1] : List UInt8).length = 4 := rfl
  obtain ⟨hout, hin⟩ := exits_forward (e := ⟨.newIpn, pid1, 0x20a0a0a⟩) List.mem_cons_self
    (fun _ => 0) twentyPackets hip [] hroom rfl noAddresses 0 (fun _ => 0) (fun _ => 0)
    0 []
  exact ⟨hout, hin (by decide)⟩

/-! ## From domain to domain -/

/-- A domain that a Get packet leaves: the call of its RM, its border router, and the one at the
other end of the link. -/
structure Domain where
  c : LoopConfig
  portId : Nat
  buffer : Mem
  pid : UInt32
  near : Stop
  far : Stop
  near_port : near.port = 0
  far_port : far.port = 1

/-- The stations of a domain. -/
def Domain.stations (d : Domain) : List Station :=
  [.rm d.c d.portId d.pid d.buffer, .router d.near, .router d.far]

/-- The tables of a domain lead to the RM of the next one. -/
structure Domain.Leads (d : Domain) : Prop where
  near : ∃ src dst, exitAddrs (exitOf (le32 d.pid)) = some (src, dst) ∧ d.near.router.Owns dst
  reach : d.near.router.Reaches (d.near.router.pidIp (IPBorderRouter.key (le32 d.pid)))
  far : d.far.router.Owns (d.near.router.pidIp (IPBorderRouter.key (le32 d.pid)))
  rm : d.far.router.Reaches (d.far.router.nidIp d3rm)

section Delivered

variable {h : Client.FlowFields} {payload : List UInt8} {pids : List UInt32} {p : Packet}

/-- One domain: the packet is sent to the RM of the next one, with one PID more. -/
theorem Asks.through (ha : Asks h payload pids p) {d : Domain} (hd : d.Leads)
    (hroom : p.length + 4 ≤ mbufRoom) :
    ∃ out, Lts.exec GetPath.step p d.stations = some out ∧ out.dIp = d.far.router.nidIp d3rm
      ∧ Asks h payload (pids ++ [d.pid]) out := by
  obtain ⟨src, dst, haddrs, howns⟩ := hd.near
  have hlength := ha.length
  obtain ⟨p₁, hstep₁, hdst₁, ha₁⟩ := ha.sent hroom d.c d.portId d.pid d.buffer
  have hlength₁ := ha₁.length
  rw [List.length_append, List.length_singleton] at hlength₁
  rw [mbufRoom] at hroom
  obtain ⟨p₂, hstep₂, hdst₂, -, ha₂⟩ :=
    ha₁.leaves d.near_port (hdst₁ _ _ haddrs ▸ howns) rfl (by omega) hd.reach
  obtain ⟨out, hstep₃, hdst₃, -, ha₃⟩ := ha₂.enters d.far_port (hdst₂ ▸ hd.far) hd.rm
  refine ⟨out, ?_, hdst₃, ha₃⟩
  rw [Domain.stations, Lts.exec_cons, hstep₁, Option.bind_some, Lts.exec_cons, GetPath.step, hstep₂,
    Option.bind_some, Lts.exec_cons, GetPath.step, hstep₃]
  rfl

/-- Any number of domains. -/
theorem Asks.delivered (ha : Asks h payload pids p) {ds : List Domain} (hds : ∀ d ∈ ds, d.Leads)
    (hroom : p.length + 4 * ds.length ≤ mbufRoom) :
    ∃ out, Lts.exec GetPath.step p (ds.flatMap Domain.stations) = some out
      ∧ (∀ d, ds.getLast? = some d → out.dIp = d.far.router.nidIp d3rm)
      ∧ Asks h payload (pids ++ ds.map Domain.pid) out := by
  induction ds generalizing p pids with
  | nil =>
      refine ⟨p, rfl, fun d hd => (by cases hd), ?_⟩
      rw [List.map_nil, List.append_nil]
      exact ha
  | cons d ds ih =>
      obtain ⟨hd, hds⟩ := List.forall_mem_cons.mp hds
      rw [List.length_cons] at hroom
      obtain ⟨p₁, hrun₁, hdst₁, ha₁⟩ := ha.through hd (by omega)
      have hlength := ha.length
      have hlength₁ := ha₁.length
      rw [List.length_append, List.length_singleton] at hlength₁
      obtain ⟨out, hrun, hdst, hout⟩ := ih ha₁ hds (by omega)
      refine ⟨out, ?_, ?_, ?_⟩
      · rw [List.flatMap_cons, Lts.exec_append, hrun₁, Option.bind_some, hrun]
      · intro last hlast
        cases ds with
        | nil =>
            obtain rfl : p₁ = out := Option.some.inj hrun
            obtain rfl : d = last := Option.some.inj hlast
            exact hdst₁
        | cons d' ds => exact hdst last hlast
      · rw [List.map_cons]
        rwa [List.append_assoc] at hout

end Delivered

/-- **A Get packet is delivered.** When the tables of the domains lead from each RM to the next one,
and an mbuf holds the frame with all their PIDs, the packet arrives at the last one with a PID of every domain, in their order, and with the request
as the client made it. -/
theorem get_delivered (clickInCksum : List UInt8 → UInt16) (h : Client.FlowFields)
    {ipSs : List UInt8} (hip : ipSs.length = 4) (payload : List UInt8) {ds : List Domain}
    (hds : ∀ d ∈ ds, d.Leads) (hroom : 130 + payload.length + 4 * ds.length ≤ mbufRoom) :
    ∃ out,
      Lts.exec step (getFrame clickInCksum h ipSs payload) (ds.flatMap Domain.stations) = some out
      ∧ (∀ d, ds.getLast? = some d → out.dIp = d.far.router.nidIp d3rm)
      ∧ Asks h payload (ds.map Domain.pid) out := by
  have ha := getFrame_asks clickInCksum h hip payload
  obtain ⟨out, hrun, hdst, hout⟩ := ha.delivered hds (by rw [ha.length, List.length_nil]; omega)
  exact ⟨out, hrun, hdst, hout⟩

/-- A domain whose border router is at `near`. -/
def domainOf (pid : UInt32) (near far : IPBorderRouter) : Domain where
  c := noAddresses
  portId := 0
  buffer _ := 0
  pid := pid
  near := (linkOf near far).near
  far := (linkOf near far).far
  near_port := (linkOf near far).near_port
  far_port := (linkOf near far).far_port

/-- Over the link of `PID2` and then over the link of `PID1`. -/
def twoDomains : List Domain :=
  [domainOf (ofLe32 (pidName 0x32)) .new (routerAt 0x20b0a0a 0),
    domainOf pid1 .newIpn (routerAt 0x20a0a0a 0)]

theorem twoDomains_lead : ∀ d ∈ twoDomains, d.Leads := by
  refine List.forall_mem_cons.mpr ⟨⟨?_, ?_, ?_, ?_⟩, List.forall_mem_singleton.mpr ⟨?_, ?_, ?_, ?_⟩⟩
  · exact ⟨_, _, rfl, by decide⟩
  · decide
  · decide
  · decide
  · exact ⟨_, _, rfl, by decide⟩
  · decide
  · decide
  · decide

theorem get_delivered_two :
    ∃ out, Lts.exec step twentyGet (twoDomains.flatMap Domain.stations) = some out
      ∧ (∀ d, twoDomains.getLast? = some d → out.dIp = d.far.router.nidIp d3rm)
      ∧ Asks twentyPackets [] (twoDomains.map Domain.pid) out :=
  get_delivered (fun _ => 0) twentyPackets rfl [] twoDomains_lead (by decide)

end GetPath
