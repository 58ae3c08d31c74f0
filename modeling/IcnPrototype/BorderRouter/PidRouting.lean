import IcnPrototype.Lib.Run
import IcnPrototype.BorderRouter.Router

set_option autoImplicit false

/-! # Routing by PID

A border router should route a packet by its PID `q` to the next hop of the last announcement
for exactly `q`. The router keeps one entry per *string*, and the string of a PID ends at its
first NUL: `pidIp_eq` says what the table holds after any run of announcements. Two PIDs with
the same string therefore share an entry, for example all PIDs below 2^24, whose first byte is
NUL. The Data branches make the string from an array of exactly four bytes, so it goes on with
the bytes behind the array.

`routing_iff` says exactly in which runs the router is right: those in which every packet finds,
under the string it is looked up with, an announcement with the next hop of the last one for its
PID. PIDs with different strings, on which the bytes behind the array have no effect, are always
right (`routing_of_injOn`).
-/

namespace BorderRouter

open Bytes Host

/-! ## PIDs and announcements -/

/-- The four bytes of a PID. -/
structure Pid where
  bytes : List UInt8
  size_eq : bytes.length = 4
  deriving DecidableEq

/-- The four bytes of a packet at an offset. -/
def Pid.at (p : Packet) (off : Nat) : Pid := ⟨peek p.mem off 4, peek_length _ _ _⟩

/-- The four big-endian bytes of a number, as an RM announces them. -/
def Pid.ofUInt32 (x : UInt32) : Pid := ⟨le32 (htonl x), le32_length _⟩

/-- The string of a PID. -/
def Pid.str (q : Pid) : List UInt8 := cstr q.bytes

/-- One call of `push`: what `time()` returns, what lies on the stack behind the local arrays,
the input port and the packet. -/
structure Input where
  now : UInt32
  stack : List UInt8
  port : Nat
  packet : Packet

/-- The packet is for this router. -/
def Input.isMine (i : Input) : Bool :=
  i.packet.dIp = IPBorderRouter.new.sIp 1 || i.packet.dIp = IPBorderRouter.new.sIp 2

/-- The PID a packet is routed by: the last one of a Get or negotiation packet from inside, and
the last one of a Data packet that has any. -/
def Input.routedBy (i : Input) : Option Pid :=
  let p := i.packet
  if i.isMine then
    if (p.mem 34 = 160 ∨ p.mem 34 = 163 ∧ IPBorderRouter.isNegotiation p) ∧ i.port = 0 then
      some (.at p ((ntohs (load16 p.mem 36)).toNat + 30))
    else if p.mem 34 = 161 ∧ p.mem 44 ≠ 0 ∧ (i.port = 0 ∨ i.port = 1) then
      some (.at p (110 + 4 * (p.mem 44).toNat))
    else none
  else none

/-- The PID and the next hop of an announcement. -/
def Input.announcement (i : Input) : Option (Pid × UInt32) :=
  let p := i.packet
  if i.isMine ∧ p.mem 34 = 163 ∧ p.mem 35 = 129 then
    some (.at p 178, if load32 p.mem 182 = IPBorderRouter.new.sIp 1 then load32 p.mem 186
      else load32 p.mem 182)
  else none

/-- The next hop of the newest announcement that meets a condition; 0 if there is none. -/
def newestHop (cond : Pid → Bool) (announced : List (Pid × UInt32)) : UInt32 :=
  ((announced.find? fun a => cond a.1).map Prod.snd).getD 0

/-! ## Runs -/

/-- The router and the announcements so far, newest first. No step reads them. -/
structure Traced where
  router : IPBorderRouter
  announced : List (Pid × UInt32)

/-- The router after its constructor, whose entry counts as an announcement. -/
def Traced.start : Traced where
  router := IPBorderRouter.new
  announced := [(⟨pid2, rfl⟩, 0x20b0a0a)]

def Traced.step (t : Traced) (i : Input) : Option Traced :=
  some {
    router := (t.router.push i.now i.stack i.port i.packet).1
    announced := i.announcement.toList ++ t.announced }

/-- A packet that is routed by a PID leaves for the next hop of the last announcement for
exactly this PID, on the interface towards it and with the address of this interface. -/
def Correct (t : Traced) (i : Input) : Prop :=
  ∀ q, i.routedBy = some q →
    ∃ out, (t.router.push i.now i.stack i.port i.packet).2 = [out]
      ∧ out.2.dIp = newestHop (· = q) t.announced
      ∧ out.1 = IPBorderRouter.new.ipNic out.2.dIp
      ∧ out.2.sIp = IPBorderRouter.new.sIp out.1

/-- The string a packet for `q` is looked up with. In the Data branches it goes on behind the
array. -/
def Input.lookup (i : Input) (q : Pid) : List UInt8 :=
  if i.packet.mem 34 = 161 then cstr (q.bytes ++ i.stack) else q.str

/-- Under the string of the packet, the last announcement names the next hop of the last one for
exactly its PID: no other PID with this string got between them with another next hop, and the bytes
behind the array do not lead to another string. -/
def Unmistaken (t : Traced) (i : Input) : Prop :=
  ∀ q, i.routedBy = some q →
    newestHop (fun a => a.str = i.lookup q) t.announced = newestHop (· = q) t.announced

/-! ## What the table holds -/

/-- The tables of the constructor, with what the announcements wrote: under a string, the next
hop of the newest announcement with this string. -/
structure Traced.Inv (t : Traced) : Prop where
  ipNic : t.router.ipNic = IPBorderRouter.new.ipNic
  sIp : t.router.sIp = IPBorderRouter.new.sIp
  pidIp_eq : ∀ k, t.router.pidIp k = newestHop (fun q => q.str = k) t.announced

theorem newestHop_cons (cond : Pid → Bool) (a : Pid × UInt32) (announced : List (Pid × UInt32)) :
    newestHop cond (a :: announced) = if cond a.1 then a.2 else newestHop cond announced := by
  rw [newestHop, List.find?_cons]
  cases cond a.1 <;> rfl

theorem Traced.inv_start : Traced.start.Inv where
  ipNic := rfl
  sIp := rfl
  pidIp_eq k := by
    have hstr : (⟨pid2, rfl⟩ : Pid).str = pid2 := by decide
    rw [Traced.start, newestHop_cons, hstr, IPBorderRouter.new]
    by_cases hk : pid2 = k
    · subst hk
      simp
    · simp [newestHop, hk, Ne.symm hk]

/-- Only an announcement changes the tables. -/
theorem push_of_announcement_none {r : IPBorderRouter} {i : Input}
    (hs : r.sIp = IPBorderRouter.new.sIp) (h : i.announcement = none) :
    (r.push i.now i.stack i.port i.packet).1 = r := by
  have hmine : r.isMine i.packet = i.isMine := by rw [IPBorderRouter.isMine, Input.isMine, hs]
  simp only [Input.announcement, ite_eq_right_iff, reduceCtorEq, imp_false, not_and] at h
  simp only [IPBorderRouter.push, hmine]
  by_cases hm : i.isMine = true
  · rw [if_pos hm]
    repeat' split
    all_goals first
      | rfl
      | exact absurd ‹i.packet.mem 35 = 129› (h hm ‹_›)
  · rw [if_neg hm]
    split <;> rfl

/-- An announcement writes one entry and emits nothing. -/
theorem push_of_announcement {r : IPBorderRouter} {i : Input} {q : Pid} {hop : UInt32}
    (hs : r.sIp = IPBorderRouter.new.sIp) (h : i.announcement = some (q, hop)) :
    r.push i.now i.stack i.port i.packet = (r.announce i.now i.packet, [])
      ∧ (r.announce i.now i.packet).pidIp = Function.update r.pidIp q.str hop := by
  have hmine : r.isMine i.packet = i.isMine := by rw [IPBorderRouter.isMine, Input.isMine, hs]
  simp only [Input.announcement] at h
  split at h
  · next hc =>
      obtain ⟨hm, h34, h35⟩ := hc
      obtain ⟨rfl, rfl⟩ := Prod.mk.inj (Option.some.inj h)
      constructor
      · simp only [IPBorderRouter.push, hmine, hm, h34, h35, if_true]
        rfl
      · rw [IPBorderRouter.announce, hs, IPBorderRouter.key_eq_cstr _ (by simp)]
        rfl
  · cases h

theorem Traced.Inv.step {t t' : Traced} {i : Input} (hi : t.Inv) (h : t.step i = some t') :
    t'.Inv := by
  obtain rfl := Option.some.inj h
  cases ha : i.announcement with
  | none =>
      have hpush := push_of_announcement_none hi.sIp ha
      exact ⟨by rw [hpush, hi.ipNic], by rw [hpush, hi.sIp], fun k => by rw [hpush]; exact hi.pidIp_eq k⟩
  | some a =>
      obtain ⟨hpush, hpid⟩ := push_of_announcement hi.sIp ha
      refine ⟨by rw [hpush]; exact hi.ipNic, by rw [hpush]; exact hi.sIp, ?_⟩
      intro k
      show (t.router.push i.now i.stack i.port i.packet).1.pidIp k = newestHop _ (a :: t.announced)
      rw [hpush, hpid, newestHop_cons]
      by_cases hk : a.1.str = k
      · subst hk
        simp
      · rw [Function.update_of_ne (Ne.symm hk), if_neg (by simpa using hk), hi.pidIp_eq k]

/-! ## How a packet is routed -/

/-- A packet routed by `q` goes where the entry of the string of `q` points; in the Data
branches the string goes on behind `q`. -/
theorem push_of_routedBy {r : IPBorderRouter} {i : Input} {q : Pid}
    (hs : r.sIp = IPBorderRouter.new.sIp) (h : i.routedBy = some q) :
    ∃ p' k, (r.push i.now i.stack i.port i.packet).2 = [r.emit i.packet.iphead (r.pidIp k) p']
      ∧ k = i.lookup q := by
  unfold Input.lookup
  have hmine : r.isMine i.packet = i.isMine := by rw [IPBorderRouter.isMine, Input.isMine, hs]
  simp only [Input.routedBy] at h
  split at h
  · next hm =>
      simp only [IPBorderRouter.push, hmine, if_pos hm]
      split at h
      · -- a Get or negotiation packet from inside: the key is the four bytes of the PID
        next hc =>
          obtain ⟨hv, hport⟩ := hc
          rw [Option.some.injEq] at h
          have h161 : ¬ i.packet.mem 34 = 161 := by
            rcases hv with hv | ⟨hv, -⟩ <;> (rw [hv]; decide)
          refine ⟨i.packet, _, ?_, (if_neg h161).symm⟩
          have hkey : q.str = IPBorderRouter.key (peek i.packet.mem
              ((ntohs (load16 i.packet.mem 36)).toNat + 30) 4) := by
            rw [← h, IPBorderRouter.key_eq_cstr _ (by simp)]
            rfl
          rw [hkey]
          rcases hv with hv | ⟨hv, hneg⟩
          · simp only [hv, hport, and_self, if_true]
            rfl
          · have h129 : ¬ i.packet.mem 35 = 129 := by
              rintro h129
              rw [IPBorderRouter.isNegotiation, h129] at hneg
              exact absurd hneg (by decide)
            simp only [hv, hport, hneg, h129, and_self, if_true, if_false]
            rfl
      · split at h
        · -- a Data packet: the key goes on with what the stack holds behind the PID
          next hc =>
            obtain ⟨hv, h44, hport⟩ := hc
            rw [Option.some.injEq] at h
            have hne : (i.packet.mem 44).toNat ≠ 0 := fun e => h44 (UInt8.toNat_inj.mp e)
            have hkey : cstr (q.bytes ++ i.stack)
                = cstr (peek i.packet.mem (110 + 4 * (i.packet.mem 44).toNat) 4 ++ i.stack) := by
              rw [← h]
              rfl
            simp only [hv]
            rcases hport with hport | hport
            · simp only [hport, and_self, if_true, IPBorderRouter.pushDataInside, if_pos hne]
              exact ⟨_, _, rfl, hkey.symm⟩
            · simp only [hport, one_ne_zero, and_false, if_false, and_self, if_true,
                IPBorderRouter.pushDataOutside, if_pos hne]
              exact ⟨_, _, rfl, hkey.symm⟩
        · cases h
  · cases h

/-! ## The exact condition -/

/-- A PID with the string `PID2` is `PID2`. -/
theorem Pid.eq_pid2 {q : Pid} (h : q.str = pid2) : q = ⟨pid2, rfl⟩ := by
  have hlen : q.bytes.length = q.str.length := by rw [h, q.size_eq]; rfl
  have hbytes : q.str = q.bytes :=
    (List.takeWhile_prefix _).eq_of_length hlen.symm
  obtain ⟨bytes, hsize⟩ := q
  have hb : bytes = pid2 := hbytes.symm.trans h
  subst hb
  rfl

theorem newestHop_congr {cond cond' : Pid → Bool} {announced : List (Pid × UInt32)}
    (h : ∀ a ∈ announced, cond a.1 = cond' a.1) :
    newestHop cond announced = newestHop cond' announced := by
  induction announced with
  | nil => rfl
  | cons a announced ih =>
      rw [newestHop_cons, newestHop_cons, h a List.mem_cons_self,
        ih fun b hb => h b (List.mem_cons_of_mem _ hb)]

/-- A packet routed by `q` leaves for the last announcement with the string it is looked up with. -/
theorem push_dIp {t : Traced} {i : Input} {q : Pid} (hi : t.Inv) (h : i.routedBy = some q) :
    ∃ out, (t.router.push i.now i.stack i.port i.packet).2 = [out]
      ∧ out.2.dIp = newestHop (fun a => a.str = i.lookup q) t.announced
      ∧ out.1 = IPBorderRouter.new.ipNic out.2.dIp
      ∧ out.2.sIp = IPBorderRouter.new.sIp out.1 := by
  obtain ⟨p', k, hpush, rfl⟩ := push_of_routedBy hi.sIp h
  refine ⟨_, hpush, ?_, ?_, ?_⟩
  · rw [IPBorderRouter.emit_dIp (IPBorderRouter.iphead_length _), hi.pidIp_eq]
  · rw [IPBorderRouter.emit_dIp (IPBorderRouter.iphead_length _), IPBorderRouter.emit_fst, hi.ipNic]
  · rw [IPBorderRouter.emit_sIp (IPBorderRouter.iphead_length _), IPBorderRouter.emit_fst, hi.sIp]

/-- One packet. -/
theorem correct_iff {t : Traced} {i : Input} (hi : t.Inv) : Correct t i ↔ Unmistaken t i := by
  constructor
  · intro h q hq
    obtain ⟨out, hout, hhop, -⟩ := push_dIp hi hq
    obtain ⟨out', hout', hright, -⟩ := h q hq
    obtain rfl := List.singleton_inj.mp (hout.symm.trans hout')
    exact hhop.symm.trans hright
  · intro h q hq
    obtain ⟨out, hout, hhop, hport⟩ := push_dIp hi hq
    exact ⟨out, hout, hhop.trans (h q hq), hport⟩

/-- **The exact condition.** A run routes every packet by the last announcement for its PID if and
only if every packet of the run finds the next hop of this announcement under the string it is looked
up with. -/
theorem routing_iff (inputs : List Input) :
    Lts.Along Traced.step Correct Traced.start inputs
      ↔ Lts.Along Traced.step Unmistaken Traced.start inputs :=
  Lts.along_congr (I := Traced.Inv) (fun _ _ _ hi h => hi.step h) (fun _ _ hi => correct_iff hi)
    Traced.inv_start

/-! ## PIDs with different strings -/

section Strings

variable {S : Set Pid} {T : Set (List UInt8)}

/-- The PIDs in a packet are among `S`, and when a Data packet is handled, the bytes behind the
arrays are among `T`. -/
def Uses (S : Set Pid) (T : Set (List UInt8)) (i : Input) : Prop :=
  (∀ q, i.routedBy = some q → q ∈ S) ∧ (∀ a, i.announcement = some a → a.1 ∈ S)
    ∧ (i.packet.mem 34 = 161 → i.stack ∈ T)

/-- The announcements of a run are for PIDs of `S`, or the entry of the constructor. -/
def Known (S : Set Pid) (t : Traced) : Prop :=
  ∀ a ∈ t.announced, a.1 ∈ S ∨ a.1 = ⟨pid2, rfl⟩

theorem Known.step {t t' : Traced} {i : Input} (hk : Known S t) (hu : Uses S T i)
    (h : t.step i = some t') : Known S t' := by
  obtain rfl := Option.some.inj h
  intro a ha
  rcases List.mem_append.mp ha with ha | ha
  · exact Or.inl (hu.2.1 a (Option.mem_toList.mp ha))
  · exact hk a ha

theorem unmistaken_of_injOn {t : Traced} {i : Input} (hk : Known S t) (hu : Uses S T i)
    (hinj : Set.InjOn Pid.str S)
    (hstack : ∀ q ∈ S, ∀ stack ∈ T, cstr (q.bytes ++ stack) = q.str) : Unmistaken t i := by
  intro q hq
  have hqS : q ∈ S := hu.1 q hq
  have hlookup : i.lookup q = q.str := by
    unfold Input.lookup
    split
    · next hdata => exact hstack q hqS i.stack (hu.2.2 hdata)
    · rfl
  -- an entry with the string of `q` is an entry of `q`
  apply newestHop_congr
  intro a ha
  rw [decide_eq_decide, hlookup]
  refine ⟨fun heq => ?_, fun heq => heq ▸ rfl⟩
  rcases hk a ha with haS | hpid2
  · exact hinj haS hqS heq
  · have hq2 : q.str = pid2 := by
      rw [← heq, hpid2]
      decide
    rw [hpid2, Pid.eq_pid2 hq2]

/-- **Different strings.** In a run whose PIDs have different strings, with bytes behind the arrays
that do not go on with them, every packet is routed by the last announcement for its PID. -/
theorem routing_of_injOn (hinj : Set.InjOn Pid.str S)
    (hstack : ∀ q ∈ S, ∀ stack ∈ T, cstr (q.bytes ++ stack) = q.str) {inputs : List Input}
    (huses : ∀ i ∈ inputs, Uses S T i) : Lts.Along Traced.step Correct Traced.start inputs := by
  refine Lts.along_of_invariant (I := fun t => t.Inv ∧ Known S t) (U := Uses S T) ?_ ?_
    ⟨Traced.inv_start, by simp [Known, Traced.start]⟩ huses
  · exact fun t i t' hi hu h => ⟨hi.1.step h, hi.2.step hu h⟩
  · exact fun t i hi hu => (correct_iff hi.1).mpr (unmistaken_of_injOn hi.2 hu hinj hstack)

end Strings

/-! ## Packets with given bytes -/

/-- A packet for this router with `head` behind the IP header and `body` at `off`. -/
def packetWith (head : List UInt8) (off : Nat) (body : List UInt8) : Packet where
  mem := poke (poke (poke (fun _ => 0) 30 (le32 0x10b0a0a)) 34 head) off body
  length := off + body.length

/-- The announcement of `q` with the next hop `hop`. -/
def announcementOf (q : Pid) (hop : UInt32) : Input where
  now := 0
  stack := []
  port := 0
  packet := packetWith [163, 129] 178 (q.bytes ++ (le32 0x10b0a0a ++ le32 hop))

/-- A Get packet from inside whose last PID is `q`. -/
def getOf (q : Pid) : Input where
  now := 0
  stack := []
  port := 0
  packet := packetWith [160, 0, 0, 84] 114 q.bytes

/-- The PIDs 5 and 7 are announced with different next hops, and a Get packet with the last PID 5
leaves on interface 2, towards the next hop of the PID 7. -/
theorem routing_wrong :
    ¬ Lts.Along Traced.step Correct Traced.start
      [announcementOf (.ofUInt32 5) 0x20b0a0a, announcementOf (.ofUInt32 7) 0x103a8c0,
        getOf (.ofUInt32 5)] := by
  intro h
  obtain ⟨t, ht⟩ : ∃ t, Lts.exec Traced.step Traced.start
      [announcementOf (.ofUInt32 5) 0x20b0a0a, announcementOf (.ofUInt32 7) 0x103a8c0] = some t :=
    ⟨_, rfl⟩
  have hcorrect : Correct t (getOf (.ofUInt32 5)) := Lts.Along.last (s := Traced.start) h ht rfl
  have hq : (getOf (.ofUInt32 5)).routedBy = some (.ofUInt32 5) := by decide
  have hrun : (Lts.exec Traced.step Traced.start
      [announcementOf (.ofUInt32 5) 0x20b0a0a, announcementOf (.ofUInt32 7) 0x103a8c0]).map
      (fun t => ((t.router.push 0 [] 0 (getOf (.ofUInt32 5)).packet).2.map fun out => (out.1, out.2.dIp),
        newestHop (· = .ofUInt32 5) t.announced)) = some ([(2, 0x103a8c0)], 0x20b0a0a) := by
    decide
  rw [ht, Option.map_some, Option.some.injEq, Prod.mk.injEq] at hrun
  obtain ⟨out, hout, hhop, -⟩ := hcorrect _ hq
  have hout' : (t.router.push 0 [] 0 (getOf (.ofUInt32 5)).packet).2 = [out] := hout
  obtain ⟨hsent, hlast⟩ := hrun
  rw [hout', List.map_singleton, List.cons.injEq, Prod.mk.injEq, hhop, hlast] at hsent
  exact absurd hsent.1.2 (by decide)

end BorderRouter
