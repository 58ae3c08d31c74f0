import IcnPrototype.Rm.MainLoop

set_option autoImplicit false

/-! # Who owns the buffers of `main_loop`

Every buffer is to be released once, and until then to be in one place: in the burst that is
being handled or in a slot of a table (`Loop.Owned`). A core that has crashed releases nothing any
more (`Core.Owned`). The loop does not keep this. The exact condition is `Proper`, step by step.

The invariant `Inv H` is the property with the buffers `H` that a function holds in its locals as
further places. There is one rule for each thing that is done to a buffer.
-/

namespace Rm

open Bytes Host

variable {ethports : Nat}

/-! ## The property -/

/-- What has become of a buffer. -/
def Loop.status (s : Loop ethports) (m : Nat) : Resource.Status :=
  Resource.status (s.log.map Event.use) m

/-- The slots of the tables that hold a buffer. -/
def slotsOf (tables : Fin ethports → List Nat) (m : Nat) : Nat :=
  ∑ port, (tables port).count m

/-- The entries of the burst and the slots of the tables that hold a buffer. -/
def Loop.places (s : Loop ethports) (m : Nat) : Nat :=
  (s.pktsBurst.map Received.mbuf).count m + slotsOf s.txMbufs m

/-- Released once, not touched since, and in no place; or not released, and in one place. -/
def Accounted (status : Resource.Status) (places : Nat) : Prop :=
  status = .released ∧ places = 0 ∨ status = .held ∧ places = 1

/-- Every buffer that was received or allocated is accounted for. -/
def Loop.Owned (s : Loop ethports) : Prop := ∀ m < s.next, Accounted (s.status m) (s.places m)

/-- The same of a core. One that has crashed had a packet in its hands, which is never released. -/
def Core.Owned : Core ethports → Prop
  | .running s => s.Owned
  | .crashed => False

/-- After a burst every buffer was either freed or given to the driver, once, and neither
touched afterwards nor kept in a table; or it was not released and is in one slot. -/
theorem Loop.Owned.after_burst {s : Loop ethports} (h : s.Owned) (hburst : s.pktsBurst = [])
    {m : Nat} (hm : m < s.next) :
    (slotsOf s.txMbufs m = 0 ∧ ∃ A B, s.log.map Event.use = A ++ .release m :: B
        ∧ Resource.Use.release m ∉ A ∧ ∀ u ∈ B, u.res ≠ m)
      ∨ slotsOf s.txMbufs m = 1 ∧ Resource.Use.release m ∉ s.log.map Event.use := by
  have hplaces : s.places m = slotsOf s.txMbufs m := by simp [Loop.places, hburst]
  rw [← hplaces]
  rcases h m hm with ⟨hstatus, hno⟩ | ⟨hstatus, hone⟩
  · exact Or.inl ⟨hno, Resource.status_eq_released_iff.mp hstatus⟩
  · exact Or.inr ⟨hone, Resource.status_eq_held_iff.mp hstatus⟩

/-! ## The condition -/

/-- The packets that `get_trap_message` sends back. -/
def isTrapGet (data : Mem) : Bool :=
  data 14 == 0xa0 && compareSidNid trapHelloSid (peek data 48 20) && (trapHost data).isSome

/-- The packets that `data_trap_message` frees. -/
def isTrapData (data : Mem) : Bool :=
  data 14 == 0xa1 && ((trapHost data).isSome && compareSidNid trapHelloSid2 (peek data 48 20))

/-- The messages a control packet is answered with. -/
def answers (c : LoopConfig) (st : State) (data : Mem) (rand : Nat) : List Send :=
  ((negotiate c.host rand st (CtlPacket.decode data)).map Prod.snd).getD []

/-- A packet the loop treats properly.

* A trap get that `get_trap_message` sends back does not fill the table of its port, and is not,
  at the same time, a Get or control packet.
* Any other packet is no trap data that `data_trap_message` frees, and has an IPv4 header. It is
  a Get packet, and if it is valid it is sent; or it is a control packet that the negotiation can
  handle, and no answer is sent. -/
def ProperPacket (c : LoopConfig) (s : Loop ethports) (r : Received ethports) (o : Outcome) : Prop :=
  if isTrapGet r.pkt.data then
    (s.txMbufs r.portid).length + 1 < maxPktBurst
      ∧ (r.pkt.ipv4Hdr = true → r.pkt.data 34 ≠ getPacket ∧ r.pkt.data 34 ≠ controlPacket)
  else
    isTrapData r.pkt.data = false ∧ r.pkt.ipv4Hdr = true
      ∧ (r.pkt.data 34 = getPacket
          ∧ (0 ≤ isValidIpv4Pkt (totalLengthPlus4 r.pkt.data) r.pkt.pktLen → o.forwarded = true)
        ∨ r.pkt.data 34 = controlPacket
          ∧ (negotiate c.host o.rand s.st (CtlPacket.decode r.pkt.data)).isSome = true
          ∧ ∀ i < (answers c s.st r.pkt.data o.rand).length, o.sent i = false)

/-- A step the loop takes properly: a proper packet, and no `pid_change_request` is sent. -/
def Proper (c : LoopConfig) (s : Loop ethports) (a : LoopAction ethports) : Prop :=
  match s.pktsBurst, a with
  | r :: _, .packet o => ProperPacket c s r o
  | _, .request _ => False
  | _, _ => True

/-- The same of a core. -/
def Core.Proper (c : LoopConfig) : Core ethports → LoopAction ethports → Prop
  | .running s, a => Rm.Proper c s a
  | .crashed, _ => True

/-! ## The invariant -/

/-- The places of a buffer, with the locals `H` among them. -/
def Loop.placesWith (H : List Nat) (s : Loop ethports) (m : Nat) : Nat :=
  H.count m + s.places m

/-- The invariant: `H` are the buffers that functions hold in their locals. -/
structure Inv (H : List Nat) (s : Loop ethports) : Prop where
  logged : ∀ e ∈ s.log, e.use.res < s.next
  placed : ∀ m, s.placesWith H m ≠ 0 → m < s.next
  accounted : ∀ m < s.next, Accounted (s.status m) (s.placesWith H m)
  room : ∀ port, (s.txMbufs port).length < maxPktBurst

variable {H : List Nat} {s s' : Loop ethports} {m : Nat} {c : LoopConfig}
  {r : Received ethports} {o : Outcome} {data : Mem}

theorem inv_start (st : State) : Inv [] (Loop.start st : Loop ethports) := by
  refine ⟨?_, ?_, ?_, ?_⟩
  · intro e he
    cases he
  · intro m hm
    simp [Loop.placesWith, Loop.places, slotsOf, Loop.start] at hm
  · intro m hm
    cases hm
  · intro port
    exact Nat.zero_lt_succ _

/-- A buffer in some place is held. -/
theorem Inv.held (h : Inv H s) (hm : s.placesWith H m ≠ 0) :
    s.status m = .held ∧ s.placesWith H m = 1 := by
  rcases h.accounted m (h.placed m hm) with ⟨-, hno⟩ | hheld
  · exact absurd hno hm
  · exact hheld

/-- A buffer that a local of a function holds is lost when the function is left. -/
theorem Inv.leak (h : Inv (m :: H) s) : ¬ s.Owned := by
  intro howned
  have hpos : s.placesWith (m :: H) m ≠ 0 := by simp [Loop.placesWith]
  obtain ⟨hheld, hone⟩ := h.held hpos
  simp only [Loop.placesWith, List.count_cons_self] at hone
  rcases howned m (h.placed m hpos) with ⟨hstatus, -⟩ | ⟨-, hplaces⟩
  · rw [hheld] at hstatus
    cases hstatus
  · omega

/-! ## The rules -/

@[simp] theorem Loop.emit_next (s : Loop ethports) (e : Event) : (s.emit e).next = s.next := rfl

@[simp] theorem Loop.emit_st (s : Loop ethports) (e : Event) : (s.emit e).st = s.st := rfl

@[simp] theorem Loop.emit_places (s : Loop ethports) (e : Event) (m : Nat) :
    (s.emit e).places m = s.places m := rfl

@[simp] theorem Loop.emit_placesWith (s : Loop ethports) (e : Event) (H : List Nat) (m : Nat) :
    (s.emit e).placesWith H m = s.placesWith H m := rfl

theorem Loop.emit_status (s : Loop ethports) (e : Event) (m : Nat) :
    (s.emit e).status m = e.use.apply m (s.status m) := by
  simp only [Loop.status, Loop.emit, List.map_append, List.map_cons, List.map_nil,
    Resource.status_append, Resource.statusFrom_cons, Resource.statusFrom_nil]

/-- An event about a buffer in some place keeps what the invariant says about the log. -/
theorem Inv.logged_emit (h : Inv H s) {e : Event} (hm : s.placesWith H e.use.res ≠ 0) :
    ∀ e' ∈ (s.emit e).log, e'.use.res < s.next := by
  intro e' he'
  rcases List.mem_append.mp he' with he' | he'
  · exact h.logged e' he'
  · rw [List.mem_singleton.mp he']
    exact h.placed _ hm

/-- A buffer in some place may be inspected. -/
theorem Inv.inspect (h : Inv H s) (hm : s.placesWith H m ≠ 0) : Inv H (s.emit (.inspect m)) := by
  refine ⟨h.logged_emit hm, h.placed, fun m' hm' => ?_, h.room⟩
  suffices hstatus : (s.emit (.inspect m)).status m' = s.status m' by
    rw [hstatus]
    exact h.accounted m' hm'
  rw [Loop.emit_status]
  by_cases heq : m = m'
  · rw [← heq, (h.held hm).1]
    exact Resource.apply_inspect_held m
  · exact Resource.Use.apply_of_ne (u := .inspect m) heq

/-- A buffer that a function holds may be released. -/
theorem Inv.release (h : Inv (m :: H) s) {e : Event} (he : e.use = .release m) :
    Inv H (s.emit e) := by
  have hpos : s.placesWith (m :: H) m ≠ 0 := by simp [Loop.placesWith]
  refine ⟨h.logged_emit (by rw [he]; exact hpos), fun m' hm' => h.placed m' ?_, fun m' hm' => ?_, h.room⟩
  · rw [Loop.emit_placesWith, Loop.placesWith] at hm'
    rw [Loop.placesWith, List.count_cons]
    omega
  · rw [Loop.emit_status, Loop.emit_placesWith, he]
    by_cases heq : m = m'
    · subst heq
      obtain ⟨hheld, hone⟩ := h.held hpos
      rw [Loop.placesWith, List.count_cons_self] at hone
      rw [hheld, Resource.apply_release_held]
      exact Or.inl ⟨rfl, by rw [Loop.placesWith]; omega⟩
    · have hplaces : s.placesWith H m' = s.placesWith (m :: H) m' := by
        simp [Loop.placesWith, List.count_cons_of_ne heq]
      rw [Resource.Use.apply_of_ne (u := .release m) heq, hplaces]
      exact h.accounted m' hm'

/-- A new buffer has no status and no place yet. -/
theorem Inv.fresh (h : Inv H s) (hm : s.next ≤ m) : s.status m = .held ∧ s.placesWith H m = 0 := by
  constructor
  · apply Resource.status_eq_held_iff.mpr
    intro hmem
    obtain ⟨e, he, huse⟩ := List.mem_map.mp hmem
    have hlt := h.logged e he
    rw [huse] at hlt
    exact Nat.not_lt.mpr hm hlt
  · by_contra hpos
    exact Nat.not_lt.mpr hm (h.placed m hpos)

theorem Inv.alloc (h : Inv H s) : Inv (s.next :: H) { s with next := s.next + 1 } := by
  obtain ⟨hheld, hnone⟩ := h.fresh (Nat.le_refl _)
  refine ⟨fun e he => Nat.lt_succ_of_lt (h.logged e he), fun m hm => ?_, fun m hm => ?_, h.room⟩
  · by_cases heq : s.next = m
    · exact heq ▸ Nat.lt_succ_self _
    · refine Nat.lt_succ_of_lt (h.placed m ?_)
      rwa [Loop.placesWith, List.count_cons_of_ne heq] at hm
  · show Accounted (s.status m) ((s.next :: H).count m + s.places m)
    by_cases heq : s.next = m
    · subst heq
      rw [List.count_cons_self]
      rw [Loop.placesWith] at hnone
      exact Or.inr ⟨hheld, by omega⟩
    · rw [List.count_cons_of_ne heq]
      exact h.accounted m (Nat.lt_of_le_of_ne (Nat.le_of_lt_succ hm) (Ne.symm heq))

theorem rxBurst_mbufs (s : Loop ethports) (portid : Fin ethports) (pkts : List RxPacket) :
    (s.rxBurst portid pkts).pktsBurst.map Received.mbuf = List.range' s.next pkts.length := by
  apply List.ext_getElem (by simp [Loop.rxBurst])
  intro i hi hi'
  simp [Loop.rxBurst]

/-- The buffers of a burst are new ones. -/
theorem Inv.rxBurst (h : Inv H s) (hburst : s.pktsBurst = []) (portid : Fin ethports)
    (pkts : List RxPacket) : Inv H (s.rxBurst portid pkts) := by
  have hplaces : ∀ m, (s.rxBurst portid pkts).placesWith H m
      = (List.range' s.next pkts.length).count m + s.placesWith H m := by
    intro m
    simp only [Loop.placesWith, Loop.places, rxBurst_mbufs, hburst, List.map_nil, List.count_nil]
    show H.count m + (_ + slotsOf s.txMbufs m) = _
    omega
  refine ⟨fun e he => Nat.lt_add_right _ (h.logged e he), fun m hm => ?_, fun m hm => ?_, h.room⟩
  · show m < s.next + pkts.length
    by_contra hge
    have hmem : m ∉ List.range' s.next pkts.length := by
      rw [List.mem_range'_1]
      omega
    rw [hplaces, List.count_eq_zero_of_not_mem hmem, (h.fresh (m := m) (by omega)).2] at hm
    exact hm rfl
  · show Accounted (s.status m) _
    rw [hplaces]
    by_cases hlt : m < s.next
    · have hmem : m ∉ List.range' s.next pkts.length := by
        rw [List.mem_range'_1]
        omega
      rw [List.count_eq_zero_of_not_mem hmem, Nat.zero_add]
      exact h.accounted m hlt
    · obtain ⟨hheld, hnone⟩ := h.fresh (Nat.not_lt.mp hlt)
      have hmem : m ∈ List.range' s.next pkts.length :=
        List.mem_range'_1.mpr ⟨Nat.not_lt.mp hlt, hm⟩
      rw [List.count_eq_one_of_mem List.nodup_range' hmem, hnone]
      exact Or.inr ⟨hheld, rfl⟩

/-! ## The rules of the tables -/

theorem count_le_slotsOf (tables : Fin ethports → List Nat) (port : Fin ethports) (m : Nat) :
    (tables port).count m ≤ slotsOf tables m :=
  Finset.single_le_sum (f := fun port => (tables port).count m) (fun _ _ => Nat.zero_le _)
    (Finset.mem_univ port)

/-- The slots when one table is replaced. -/
theorem slotsOf_update (tables : Fin ethports → List Nat) (port : Fin ethports)
    (table : List Nat) (m : Nat) :
    slotsOf (Function.update tables port table) m + (tables port).count m
      = slotsOf tables m + table.count m := by
  have hothers : ∑ q ∈ Finset.univ.erase port, (Function.update tables port table q).count m
      = ∑ q ∈ Finset.univ.erase port, (tables q).count m := by
    apply Finset.sum_congr rfl
    intro q hq
    rw [Function.update_of_ne (Finset.ne_of_mem_erase hq)]
  rw [slotsOf, slotsOf, ← Finset.sum_erase_add _ _ (Finset.mem_univ port), hothers,
    ← Finset.sum_erase_add (a := port) Finset.univ (fun q => (tables q).count m) (Finset.mem_univ port),
    Function.update_self]
  omega

theorem Inv.table_nodup (h : Inv H s) (port : Fin ethports) : (s.txMbufs port).Nodup := by
  apply List.nodup_iff_count_le_one.mpr
  intro m
  have hle := count_le_slotsOf s.txMbufs port m
  by_cases hm : s.placesWith H m = 0
  · rw [Loop.placesWith, Loop.places] at hm
    omega
  · have hone := (h.held hm).2
    rw [Loop.placesWith, Loop.places] at hone
    omega

/-- A function puts the buffer it holds into a table that does not become full. -/
theorem Inv.enqueue (h : Inv (m :: H) s) {port : Fin ethports}
    (hroom : (s.txMbufs port).length + 1 < maxPktBurst) (ret : Nat) :
    Inv H (s.sendSinglePacket m port ret)
      ∧ (s.sendSinglePacket m port ret).placesWith H m ≠ 0 := by
  have heq : s.sendSinglePacket m port ret
      = { s with txMbufs := Function.update s.txMbufs port (s.txMbufs port ++ [m]) } := by
    have hne : (s.txMbufs port ++ [m]).length ≠ maxPktBurst := by
      rw [List.length_append, List.length_singleton]
      omega
    exact if_neg hne
  -- the buffer is in a slot of the table instead of a local
  have hplaces : ∀ m', (s.sendSinglePacket m port ret).placesWith H m' = s.placesWith (m :: H) m' := by
    intro m'
    have hslots := slotsOf_update s.txMbufs port (s.txMbufs port ++ [m]) m'
    rw [List.count_append, List.count_singleton] at hslots
    rw [heq]
    simp only [Loop.placesWith, Loop.places, List.count_cons]
    omega
  have hnext : (s.sendSinglePacket m port ret).next = s.next := by rw [heq]
  have hlog : (s.sendSinglePacket m port ret).log = s.log := by rw [heq]
  refine ⟨⟨?_, fun m' hm' => ?_, fun m' hm' => ?_, fun q => ?_⟩, ?_⟩
  · rw [hlog, hnext]
    exact h.logged
  · rw [hnext]
    exact h.placed m' (hplaces m' ▸ hm')
  · rw [hplaces, Loop.status, hlog]
    exact h.accounted m' (hnext ▸ hm')
  · rw [heq]
    by_cases hq : q = port
    · subst hq
      simpa using hroom
    · simpa [Function.update_of_ne hq] using h.room q
  · rw [hplaces]
    simp [Loop.placesWith]

/-- `send_burst` releases every buffer of the table, in its order. -/
theorem sendBurst_uses (s : Loop ethports) (port : Fin ethports) (ret : Nat) :
    (s.sendBurst port ret).log.map Event.use
      = s.log.map Event.use ++ (s.txMbufs port).map Resource.Use.release := by
  rw [Loop.sendBurst, List.map_append, List.map_append, List.map_map, List.map_map]
  show _ ++ (((s.txMbufs port).take ret).map Resource.Use.release
    ++ ((s.txMbufs port).drop ret).map Resource.Use.release) = _
  rw [← List.map_append, List.take_append_drop]

theorem flush_status (s : Loop ethports) {port : Fin ethports} (hnodup : (s.txMbufs port).Nodup)
    (ret m : Nat) :
    (s.flush port ret).status m
      = if m ∈ s.txMbufs port then (Resource.Use.release m).apply m (s.status m) else s.status m := by
  show Resource.status ((s.sendBurst port ret).log.map Event.use) m = _
  rw [sendBurst_uses, Resource.status_append, Resource.statusFrom_releases hnodup]
  rfl

theorem flush_placesWith (s : Loop ethports) (port : Fin ethports) (ret : Nat) (H : List Nat)
    (m : Nat) :
    (s.flush port ret).placesWith H m + (s.txMbufs port).count m = s.placesWith H m := by
  have hslots := slotsOf_update s.txMbufs port [] m
  rw [List.count_nil] at hslots
  show H.count m + ((s.pktsBurst.map Received.mbuf).count m
    + slotsOf (Function.update s.txMbufs port []) m) + _ = H.count m + (_ + slotsOf s.txMbufs m)
  omega

/-- Sending a table releases what is in it. -/
theorem Inv.flush (h : Inv H s) (port : Fin ethports) (ret : Nat) : Inv H (s.flush port ret) := by
  have htable : ∀ m ∈ s.txMbufs port, s.placesWith H m ≠ 0 := by
    intro m hm
    have hpos := List.count_pos_iff.mpr hm
    have hsum := flush_placesWith s port ret H m
    omega
  refine ⟨fun e he => ?_, fun m hm => h.placed m ?_, fun m hm => ?_, fun q => ?_⟩
  · have hmem : e.use ∈ (s.sendBurst port ret).log.map Event.use := List.mem_map_of_mem he
    rw [sendBurst_uses] at hmem
    rcases List.mem_append.mp hmem with hold | hnew
    · obtain ⟨e', he', huse⟩ := List.mem_map.mp hold
      exact huse ▸ h.logged e' he'
    · obtain ⟨m, hm, huse⟩ := List.mem_map.mp hnew
      exact huse ▸ h.placed m (htable m hm)
  · have hsum := flush_placesWith s port ret H m
    omega
  · have hsum := flush_placesWith s port ret H m
    rw [flush_status s (h.table_nodup port)]
    by_cases hmem : m ∈ s.txMbufs port
    · obtain ⟨hheld, hone⟩ := h.held (htable m hmem)
      have hpos := List.count_pos_iff.mpr hmem
      rw [if_pos hmem, hheld, Resource.apply_release_held]
      exact Or.inl ⟨rfl, by omega⟩
    · rw [List.count_eq_zero_of_not_mem hmem, Nat.add_zero] at hsum
      rw [if_neg hmem, hsum]
      exact h.accounted m hm
  · show (Function.update s.txMbufs port [] q).length < maxPktBurst
    by_cases hq : q = port
    · rw [hq, Function.update_self]
      exact Nat.zero_lt_succ _
    · rw [Function.update_of_ne hq]
      exact h.room q

theorem Inv.drain (h : Inv H s) (port : Fin ethports) (ret : Nat) : Inv H (s.drain port ret) := by
  rw [Loop.drain]
  split
  · exact h
  · exact h.flush port ret

/-! ## The rules of the builders -/

/-- All builders end alike. -/
theorem send_eq (s : Loop ethports) (accepted : Bool) (x : Send) :
    s.send accepted x = (s.build.txBurst s.next accepted).emit (.free s.next) := by
  cases x <;> rfl

theorem Inv.build (h : Inv H s) : Inv (s.next :: H) s.build :=
  h.alloc.inspect (by simp [Loop.placesWith])

/-- A message that is not accepted is freed, once. -/
theorem Inv.send (h : Inv H s) (x : Send) : Inv H (s.send false x) := by
  rw [send_eq]
  exact h.build.release rfl

theorem Inv.sendAll {accepted : Nat → Bool} {sends : List Send} {i : Nat} (h : Inv H s)
    (hno : ∀ j < sends.length, accepted (i + j) = false) :
    Inv H (s.sendAll accepted sends i) := by
  induction sends generalizing i s with
  | nil => exact h
  | cons x xs ih =>
      have hx : accepted i = false := hno 0 (Nat.zero_lt_succ _)
      rw [Loop.sendAll, hx]
      apply ih (h.send x)
      intro j hj
      rw [Nat.add_assoc, Nat.add_comm 1 j]
      exact hno (j + 1) (Nat.succ_lt_succ hj)

/-- The state of the negotiation has nothing to do with the buffers. -/
theorem Inv.setSt (h : Inv H s) (st : State) : Inv H { s with st := st } :=
  ⟨h.logged, h.placed, h.accounted, h.room⟩

/-! ## What cannot be made good -/

/-- `s'` is a later state than `s`. -/
def Loop.Extends (s s' : Loop ethports) : Prop := s.log <+: s'.log ∧ s.next ≤ s'.next

theorem Loop.Extends.refl (s : Loop ethports) : s.Extends s := ⟨List.prefix_rfl, Nat.le_refl _⟩

theorem Loop.Extends.trans {s₁ s₂ s₃ : Loop ethports} (h : s₁.Extends s₂) (h' : s₂.Extends s₃) :
    s₁.Extends s₃ := ⟨h.1.trans h'.1, Nat.le_trans h.2 h'.2⟩

theorem Loop.extends_emit (s : Loop ethports) (e : Event) : s.Extends (s.emit e) :=
  ⟨List.prefix_append _ _, Nat.le_refl _⟩

theorem Loop.extends_txBurst (s : Loop ethports) (m : Nat) (accepted : Bool) :
    s.Extends (s.txBurst m accepted) := by
  cases accepted with
  | false => exact .refl s
  | true => exact s.extends_emit _

theorem Loop.extends_build (s : Loop ethports) : s.Extends s.build :=
  ⟨List.prefix_append _ _, Nat.le_succ _⟩

theorem Loop.extends_send (s : Loop ethports) (accepted : Bool) (x : Send) :
    s.Extends (s.send accepted x) := by
  rw [send_eq]
  exact (s.extends_build.trans (Loop.extends_txBurst _ _ _)).trans (Loop.extends_emit _ _)

theorem Loop.extends_sendAll (s : Loop ethports) (accepted : Nat → Bool) (sends : List Send)
    (i : Nat) : s.Extends (s.sendAll accepted sends i) := by
  induction sends generalizing s i with
  | nil => exact .refl s
  | cons x xs ih => exact (s.extends_send (accepted i) x).trans (ih _ _)

theorem Loop.extends_getPacketsForward (s : Loop ethports) (m : Nat) (data : Mem) (pktLen : Nat)
    (accepted : Bool) : s.Extends (s.getPacketsForward m data pktLen accepted) := by
  rw [Loop.getPacketsForward]
  split
  · exact (s.extends_emit _).trans (Loop.extends_emit _ _)
  · exact (s.extends_emit _).trans (Loop.extends_txBurst _ _ _)

/-- A buffer that was released twice, or touched after its release, stays so. -/
theorem not_owned_of_misused (hm : m < s.next) (hmis : s.status m = .misused) (hext : s.Extends s') :
    ¬ s'.Owned := by
  obtain ⟨⟨log, hlog⟩, hnext⟩ := hext
  have hmis' : s'.status m = .misused := by
    rw [Loop.status, ← hlog, List.map_append, Resource.status_append]
    rw [Loop.status] at hmis
    rw [hmis, Resource.statusFrom_misused]
  intro howned
  rcases howned m (Nat.lt_of_lt_of_le hm hnext) with ⟨hstatus, -⟩ | ⟨hstatus, -⟩ <;>
  · rw [hmis'] at hstatus
    cases hstatus

/-- A buffer that was released is misused when it is looked at. -/
theorem not_owned_of_inspect (hm : m < s.next) (hstatus : s.status m ≠ .held)
    (hext : (s.emit (.inspect m)).Extends s') : ¬ s'.Owned := by
  refine not_owned_of_misused (s := s.emit (.inspect m)) hm ?_ hext
  rw [Loop.emit_status]
  cases hs : s.status m with
  | held => exact absurd hs hstatus
  | released => exact Resource.apply_inspect_released m
  | misused => exact Resource.Use.apply_misused _ m

/-- A buffer that was released must not be in a table. -/
theorem not_owned_of_placed (hm : m < s.next) (hstatus : s.status m ≠ .held) (hplaced : s.places m ≠ 0) :
    ¬ s.Owned := by
  intro howned
  rcases howned m hm with ⟨-, hno⟩ | ⟨hheld, -⟩
  · exact hplaced hno
  · exact hstatus hheld

/-- What was freed is not held. -/
theorem emit_release_not_held {e : Event} (he : e.use = .release m) : (s.emit e).status m ≠ .held := by
  intro hheld
  refine Resource.status_eq_held_iff.mp hheld ?_
  rw [← he]
  exact List.mem_map_of_mem (List.mem_append_right _ List.mem_cons_self)

/-- A message that is accepted is freed nevertheless. -/
theorem send_accepted_misused (h : Inv H s) (x : Send) :
    s.next < (s.send true x).next ∧ (s.send true x).status s.next = .misused := by
  rw [send_eq]
  refine ⟨Nat.lt_succ_self s.next, ?_⟩
  have hheld := (h.build.held (m := s.next) (by simp [Loop.placesWith])).1
  rw [Loop.emit_status]
  show (Event.free s.next).use.apply s.next ((s.build.emit (.accept s.next)).status s.next) = _
  rw [Loop.emit_status, hheld]
  simp [Event.use]

/-- One accepted message is enough. -/
theorem sendAll_accepted_misused {accepted : Nat → Bool} {sends : List Send} {i : Nat}
    (h : Inv H s) (hsome : ∃ j < sends.length, accepted (i + j) = true) :
    ∃ m < (s.sendAll accepted sends i).next, (s.sendAll accepted sends i).status m = .misused := by
  induction sends generalizing i s with
  | nil =>
      obtain ⟨j, hj, -⟩ := hsome
      cases hj
  | cons x xs ih =>
      rw [Loop.sendAll]
      cases hx : accepted i with
      | true =>
          obtain ⟨hlt, hmis⟩ := send_accepted_misused h x
          obtain ⟨⟨log, hlog⟩, hnext⟩ := (s.send true x).extends_sendAll accepted xs (i + 1)
          refine ⟨s.next, Nat.lt_of_lt_of_le hlt hnext, ?_⟩
          rw [Loop.status, ← hlog, List.map_append, Resource.status_append]
          rw [Loop.status] at hmis
          rw [hmis, Resource.statusFrom_misused]
      | false =>
          -- the accepted one is among the others
          refine ih (h.send x) ?_
          obtain ⟨j, hj, hacc⟩ := hsome
          cases j with
          | zero => rw [Nat.add_zero, hx] at hacc; cases hacc
          | succ j =>
              refine ⟨j, Nat.lt_of_succ_lt_succ hj, ?_⟩
              rw [Nat.add_assoc, Nat.add_comm 1 j]
              exact hacc

/-! ## The trap functions -/

theorem trapHost_poke_sid (d : Mem) (b : UInt8) : trapHost (poke d 67 [b]) = trapHost d := by
  have hnid : peek (poke d 67 [b]) 68 16 = peek d 68 16 :=
    peek_poke_of_disjoint (Or.inr (Nat.le_refl _))
  rw [trapHost, trapHost, hnid]

/-- The trap functions change the source address and a byte of the `sid` only. -/
theorem trap_data (c : LoopConfig) (s : Loop ethports) (r : Received ethports) (ret : Nat) {i : Nat}
    (hi : 12 ≤ i) (hsid : i ≠ 67) : (s.trap c r ret).1 i = r.pkt.data i := by
  have hpoke : poke r.pkt.data 67 [3] i = r.pkt.data i :=
    poke_of_outside (by rw [List.length_singleton]; omega)
  rw [Loop.trap]
  by_cases hget : r.pkt.data 14 = 0xa0
  · simp only [hget, if_true, Loop.getTrapMessage, trapHost_poke_sid]
    by_cases hhello : compareSidNid trapHelloSid (peek r.pkt.data 48 20) = true
    · cases trapHost r.pkt.data with
      | some j =>
          simp only [hhello, if_true]
          refine Eq.trans (poke_of_outside ?_) hpoke
          rw [(c.portsEthAddr j).size_eq]
          omega
      | none => simp only [hhello, if_true, hpoke]
    · simp only [hhello]
      rfl
  · simp only [hget, if_false]
    split <;> rfl

theorem trap_decode (c : LoopConfig) (s : Loop ethports) (r : Received ethports) (ret : Nat) :
    CtlPacket.decode (s.trap c r ret).1 = CtlPacket.decode r.pkt.data := by
  have hword : ∀ j, load32 (s.trap c r ret).1 (174 + 4 * j) = load32 r.pkt.data (174 + 4 * j) :=
    fun j => load32_congr fun i hi _ => trap_data c s r ret (by omega) (by omega)
  have heid : peek (s.trap c r ret).1 50 16 = peek r.pkt.data 50 16 :=
    peek_congr fun i hi hi' => trap_data c s r ret (by omega) (by omega)
  simp only [CtlPacket.decode, trap_data c s r ret (i := 35) (by decide) (by decide),
    trap_data c s r ret (i := 41) (by decide) (by decide), heid, hword]

theorem trap_isValidIpv4Pkt (c : LoopConfig) (s : Loop ethports) (r : Received ethports)
    (ret linkLen : Nat) :
    isValidIpv4Pkt (totalLengthPlus4 (s.trap c r ret).1) linkLen
      = isValidIpv4Pkt (totalLengthPlus4 r.pkt.data) linkLen := by
  have hlen : load16 (s.trap c r ret).1 16 = load16 r.pkt.data 16 :=
    load16_congr fun i hi hi' => trap_data c s r ret (by omega) (by omega)
  have hver : ∀ d : Mem, totalLengthPlus4 d 14 = d 14 :=
    fun d => poke_of_outside (Or.inl (by decide))
  have htotal : ∀ d : Mem, load16 (totalLengthPlus4 d) 16 = load16 d 16 + 4 :=
    fun d => load16_poke_le16 d 16 _
  rw [isValidIpv4Pkt, isValidIpv4Pkt, hver, hver, htotal, htotal, hlen,
    trap_data c s r ret (i := 14) (by decide) (by decide)]

/-- **What the trap functions do**: they send a hello back, or free a data packet, or only look
at the packet. -/
theorem trap_cases (c : LoopConfig) (s : Loop ethports) (r : Received ethports) (ret : Nat) :
    (isTrapGet r.pkt.data = true ∧ (s.trap c r ret).2
        = ((s.emit (.inspect r.mbuf)).emit (.inspect r.mbuf)).sendSinglePacket r.mbuf r.portid ret)
      ∨ (isTrapGet r.pkt.data = false ∧ isTrapData r.pkt.data = true ∧ (s.trap c r ret).2
        = ((s.emit (.inspect r.mbuf)).emit (.inspect r.mbuf)).emit (.free r.mbuf))
      ∨ (isTrapGet r.pkt.data = false ∧ isTrapData r.pkt.data = false
        ∧ ((s.trap c r ret).2 = s.emit (.inspect r.mbuf)
          ∨ (s.trap c r ret).2 = (s.emit (.inspect r.mbuf)).emit (.inspect r.mbuf))) := by
  rw [Loop.trap, isTrapGet, isTrapData]
  by_cases hget : r.pkt.data 14 = 0xa0
  · simp only [hget, if_true, Loop.getTrapMessage, trapHost_poke_sid]
    by_cases hsid : compareSidNid trapHelloSid (peek r.pkt.data 48 20) = true
    · cases hhost : trapHost r.pkt.data with
      | some j => simp [hsid]
      | none => simp [hsid]
    · simp [hsid]
  · by_cases hdata : r.pkt.data 14 = 0xa1
    · by_cases hhost : ((trapHost r.pkt.data).isSome
          && compareSidNid trapHelloSid2 (peek r.pkt.data 48 20)) = true
      · simp [hdata, Loop.dataTrapMessage, hhost]
      · simp [hdata, Loop.dataTrapMessage, hhost]
    · simp [hget, hdata]

/-! ## The dispatch -/

/-- **What the dispatch does.** -/
theorem dispatch_cases (h : s.dispatch c r data o = some s') :
    ((r.pkt.ipv4Hdr = false ∨ data 34 ≠ getPacket ∧ data 34 ≠ controlPacket)
        ∧ (s' = s.emit (.inspect r.mbuf) ∨ s' = (s.emit (.inspect r.mbuf)).emit (.inspect r.mbuf)))
      ∨ (r.pkt.ipv4Hdr = true ∧ data 34 = getPacket
        ∧ s' = ((s.emit (.inspect r.mbuf)).emit (.inspect r.mbuf)).getPacketsForward r.mbuf data
          r.pkt.pktLen o.forwarded)
      ∨ (r.pkt.ipv4Hdr = true ∧ data 34 = controlPacket
        ∧ ∃ st, negotiate c.host o.rand s.st (CtlPacket.decode data)
            = some (st, answers c s.st data o.rand)
          ∧ s' = ({ (s.emit (.inspect r.mbuf)).emit (.inspect r.mbuf) with st := st }.sendAll o.sent
            (answers c s.st data o.rand) 0).emit (.free r.mbuf)) := by
  rw [Loop.dispatch] at h
  split at h
  · next hipv4 =>
      split at h
      · next hget => exact Or.inr (Or.inl ⟨hipv4, hget, (Option.some.inj h).symm⟩)
      · next hget =>
          split at h
          · next hcontrol =>
              rw [Option.bind_eq_bind, Option.bind_eq_some_iff] at h
              obtain ⟨⟨st, sends⟩, hneg, heq⟩ := h
              rw [Loop.emit_st, Loop.emit_st] at hneg
              have hanswers : answers c s.st data o.rand = sends := by
                rw [answers, hneg]
                rfl
              rw [hanswers]
              exact Or.inr (Or.inr ⟨hipv4, hcontrol, st, hneg, (Option.some.inj heq).symm⟩)
          · next hcontrol =>
              exact Or.inl ⟨Or.inr ⟨hget, hcontrol⟩, Or.inr (Option.some.inj h).symm⟩
  · next hipv4 =>
      exact Or.inl ⟨Or.inl (Bool.eq_false_iff.mpr hipv4), Or.inl (Option.some.inj h).symm⟩

theorem dispatch_extends (h : s.dispatch c r data o = some s') :
    (s.emit (.inspect r.mbuf)).Extends s' := by
  rcases dispatch_cases h with ⟨-, rfl | rfl⟩ | ⟨-, -, rfl⟩ | ⟨-, -, st, -, rfl⟩
  · exact .refl _
  · exact Loop.extends_emit _ _
  · exact (Loop.extends_emit _ _).trans (Loop.extends_getPacketsForward _ _ _ _ _)
  · have hsent := Loop.extends_sendAll
      { (s.emit (.inspect r.mbuf)).emit (.inspect r.mbuf) with st := st } o.sent
      (answers c s.st data o.rand) 0
    exact (Loop.extends_emit _ (.inspect r.mbuf)).trans (hsent.trans (Loop.extends_emit _ _))

/-- How a packet in a local of the loop is released by the dispatch. -/
def Released (c : LoopConfig) (st : State) (r : Received ethports) (data : Mem) (o : Outcome) : Prop :=
  r.pkt.ipv4Hdr = true
    ∧ (data 34 = getPacket
        ∧ (0 ≤ isValidIpv4Pkt (totalLengthPlus4 data) r.pkt.pktLen → o.forwarded = true)
      ∨ data 34 = controlPacket
        ∧ (negotiate c.host o.rand st (CtlPacket.decode data)).isSome = true
        ∧ ∀ i < (answers c st data o.rand).length, o.sent i = false)

theorem Inv.inspect_twice (h : Inv H s) (hm : s.placesWith H m ≠ 0) :
    Inv H ((s.emit (.inspect m)).emit (.inspect m)) := (h.inspect hm).inspect hm

theorem placesWith_self (H : List Nat) (s : Loop ethports) (m : Nat) : s.placesWith (m :: H) m ≠ 0 := by
  simp [Loop.placesWith]

theorem Inv.dispatch (h : Inv [r.mbuf] s) (hd : s.dispatch c r data o = some s')
    (hreleased : Released c s.st r data o) : Inv [] s' := by
  obtain ⟨hipv4, hkind⟩ := hreleased
  have hin := h.inspect_twice (placesWith_self [] s r.mbuf)
  rcases dispatch_cases hd with ⟨hother, -⟩ | ⟨-, hget, rfl⟩ | ⟨-, hcontrol, st, -, rfl⟩
  · exfalso
    rcases hother with hipv4' | ⟨hget, hcontrol⟩
    · rw [hipv4] at hipv4'
      cases hipv4'
    · rcases hkind with ⟨hget', -⟩ | ⟨hcontrol', -⟩
      · exact hget hget'
      · exact hcontrol hcontrol'
  · have hvalid : 0 ≤ isValidIpv4Pkt (totalLengthPlus4 data) r.pkt.pktLen → o.forwarded = true := by
      rcases hkind with ⟨-, hvalid⟩ | ⟨hcontrol, -⟩
      · exact hvalid
      · rw [hget] at hcontrol
        exact absurd hcontrol (by decide)
    have hin' := hin.inspect (placesWith_self [] _ r.mbuf)
    rw [Loop.getPacketsForward]
    split
    · exact hin'.release rfl
    · next hge =>
        rw [hvalid (Int.not_lt.mp hge)]
        exact hin'.release rfl
  · have hrejected : ∀ i < (answers c s.st data o.rand).length, o.sent i = false := by
      rcases hkind with ⟨hget, -⟩ | ⟨-, -, hrejected⟩
      · rw [hcontrol] at hget
        exact absurd hget (by decide)
      · exact hrejected
    refine Inv.release (Inv.sendAll (hin.setSt st) fun j hj => ?_) rfl
    rw [Nat.zero_add]
    exact hrejected j hj

/-- A packet in a local of the loop that is not released so is lost, or a buffer is released
twice. -/
theorem dispatch_not_owned (h : Inv [r.mbuf] s) (hd : s.dispatch c r data o = some s')
    (hno : ¬ Released c s.st r data o) : ¬ s'.Owned := by
  have hin := h.inspect_twice (placesWith_self [] s r.mbuf)
  rcases dispatch_cases hd with ⟨-, rfl | rfl⟩ | ⟨hipv4, hget, rfl⟩ | ⟨hipv4, hcontrol, st, hneg, rfl⟩
  · exact (h.inspect (placesWith_self [] s r.mbuf)).leak
  · exact hin.leak
  · -- a valid packet that was not sent
    have hin' := hin.inspect (placesWith_self [] _ r.mbuf)
    have hvalid : 0 ≤ isValidIpv4Pkt (totalLengthPlus4 data) r.pkt.pktLen ∧ ¬ o.forwarded = true := by
      by_contra hcon
      exact hno ⟨hipv4, Or.inl ⟨hget, fun hge => by_contra fun hforwarded => hcon ⟨hge, hforwarded⟩⟩⟩
    rw [Loop.getPacketsForward, if_neg (Int.not_lt.mpr hvalid.1), Loop.txBurst, if_neg hvalid.2]
    exact hin'.leak
  · -- an answer that was sent
    have hsome : ∃ j < (answers c s.st data o.rand).length, o.sent (0 + j) = true := by
      by_contra hcon
      refine hno ⟨hipv4, Or.inr ⟨hcontrol, ?_, fun i hi => Bool.eq_false_iff.mpr fun hsent =>
        hcon ⟨i, hi, ?_⟩⟩⟩
      · rw [hneg]
        rfl
      · rwa [Nat.zero_add]
    obtain ⟨m, hlt, hmis⟩ := sendAll_accepted_misused (hin.setSt st) hsome
    exact not_owned_of_misused hlt hmis (Loop.extends_emit _ _)

/-- A packet in a table that the dispatch only looks at. -/
theorem Inv.dispatch_queued (h : Inv [] s) (hplaced : s.placesWith [] r.mbuf ≠ 0)
    (hd : s.dispatch c r data o = some s')
    (hother : r.pkt.ipv4Hdr = true → data 34 ≠ getPacket ∧ data 34 ≠ controlPacket) : Inv [] s' := by
  rcases dispatch_cases hd with ⟨-, rfl | rfl⟩ | ⟨hipv4, hget, -⟩ | ⟨hipv4, hcontrol, -⟩
  · exact h.inspect hplaced
  · exact h.inspect_twice hplaced
  · exact absurd hget (hother hipv4).1
  · exact absurd hcontrol (hother hipv4).2

theorem sendAll_places {accepted : Nat → Bool} (m : Nat) {sends : List Send} {i : Nat}
    (s : Loop ethports) : (s.sendAll accepted sends i).places m = s.places m := by
  induction sends generalizing i s with
  | nil => rfl
  | cons x xs ih =>
      rw [Loop.sendAll, ih, send_eq]
      cases accepted i <;> rfl

/-- A packet in a table that the dispatch frees. -/
theorem dispatch_queued_not_owned (h : Inv [] s) (hplaced : s.placesWith [] r.mbuf ≠ 0)
    (hd : s.dispatch c r data o = some s')
    (hinvalid : isValidIpv4Pkt (totalLengthPlus4 data) r.pkt.pktLen < 0)
    (hno : ¬ (r.pkt.ipv4Hdr = true → data 34 ≠ getPacket ∧ data 34 ≠ controlPacket)) :
    ¬ s'.Owned := by
  have hlt : r.mbuf < s'.next := Nat.lt_of_lt_of_le (h.placed _ hplaced) (dispatch_extends hd).2
  have hplaces : s.places r.mbuf ≠ 0 := by simpa [Loop.placesWith] using hplaced
  rcases dispatch_cases hd with ⟨hother, -⟩ | ⟨-, -, rfl⟩ | ⟨-, -, st, -, rfl⟩
  · refine absurd (fun hipv4 => ?_) hno
    rcases hother with hipv4' | hother
    · rw [hipv4] at hipv4'
      cases hipv4'
    · exact hother
  · rw [Loop.getPacketsForward, if_pos hinvalid] at hlt ⊢
    exact not_owned_of_placed hlt (emit_release_not_held rfl) hplaces
  · refine not_owned_of_placed hlt (emit_release_not_held rfl) ?_
    rw [Loop.emit_places, sendAll_places]
    exact hplaces

/-! ## The loop -/

/-- A hello looks like an IP packet of version 10. -/
theorem isTrapGet_invalid {d : Mem} (h : isTrapGet d = true) (linkLen : Nat) :
    isValidIpv4Pkt (totalLengthPlus4 d) linkLen < 0 := by
  have hver : totalLengthPlus4 d 14 = 0xa0 := by
    simp only [isTrapGet, Bool.and_eq_true, beq_iff_eq] at h
    rw [totalLengthPlus4, poke_of_outside (Or.inl (by decide)), h.1.1]
  rw [isValidIpv4Pkt, hver, if_pos (c := (0xa0 : UInt8) >>> 4 ≠ 4) (by decide)]
  split <;> decide

/-- The loop takes a packet of the burst. -/
theorem Inv.take (h : Inv [] s) {rest : List (Received ethports)} (hburst : s.pktsBurst = r :: rest) :
    Inv [r.mbuf] { s with pktsBurst := rest } := by
  have hplaces : ∀ m, Loop.placesWith [r.mbuf] { s with pktsBurst := rest } m = s.placesWith [] m := by
    intro m
    simp only [Loop.placesWith, Loop.places, hburst, List.map_cons, List.count_cons, List.count_nil]
    omega
  refine ⟨h.logged, fun m hm => h.placed m (hplaces m ▸ hm), fun m hm => ?_, h.room⟩
  rw [hplaces]
  exact h.accounted m hm

/-- A hello that fills its table is sent, and then looked at. -/
theorem sendSinglePacket_full (s : Loop ethports) (m : Nat) {port : Fin ethports}
    (hfull : (s.txMbufs port).length + 1 = maxPktBurst) (ret : Nat) :
    (s.sendSinglePacket m port ret).next = s.next
      ∧ (s.sendSinglePacket m port ret).status m ≠ .held := by
  have heq : s.sendSinglePacket m port ret = ({ s with
      txMbufs := Function.update s.txMbufs port (s.txMbufs port ++ [m]) } : Loop ethports).flush port ret :=
    if_pos (by rw [List.length_append, List.length_singleton, hfull])
  rw [heq]
  refine ⟨rfl, fun hheld => Resource.status_eq_held_iff.mp hheld ?_⟩
  show _ ∈ List.map Event.use (Loop.sendBurst _ port ret).log
  rw [sendBurst_uses]
  refine List.mem_append_right _ (List.mem_map_of_mem ?_)
  show m ∈ Function.update s.txMbufs port (s.txMbufs port ++ [m]) port
  rw [Function.update_self]
  exact List.mem_append_right _ List.mem_cons_self

/-- What the trap functions leave to the dispatch is the packet as it was. -/
theorem trap_released (c : LoopConfig) (s : Loop ethports) (r : Received ethports) (ret : Nat)
    (st : State) (o : Outcome) :
    Released c st r (s.trap c r ret).1 o ↔ Released c st r r.pkt.data o := by
  rw [Released, Released, trap_data c s r ret (i := 34) (by decide) (by decide),
    trap_isValidIpv4Pkt, answers, answers, trap_decode]

/-- **A packet**, properly treated or not. -/
theorem Inv.handle (h : Inv [r.mbuf] s) (hd : s.handle c r o = some s') :
    (ProperPacket c s r o → Inv [] s') ∧ (¬ ProperPacket c s r o → ¬ s'.Owned) := by
  rw [Loop.handle] at hd
  have hin := h.inspect (placesWith_self [] s r.mbuf)
  have hin' := h.inspect_twice (placesWith_self [] s r.mbuf)
  have hver := trap_data c s r o.ret (i := 34) (by decide) (by decide)
  rcases trap_cases c s r o.ret with ⟨hget, heq⟩ | ⟨hget, hdata, heq⟩ | ⟨hget, hdata, heq⟩
  · -- sent back by `get_trap_message`: queued, or out with the full table, then looked at
    rw [heq] at hd
    have hproper : ProperPacket c s r o ↔ (s.txMbufs r.portid).length + 1 < maxPktBurst
        ∧ (r.pkt.ipv4Hdr = true → (s.trap c r o.ret).1 34 ≠ getPacket
          ∧ (s.trap c r o.ret).1 34 ≠ controlPacket) := by
      rw [ProperPacket, if_pos hget, hver]
    rw [hproper]
    by_cases hroom : (s.txMbufs r.portid).length + 1 < maxPktBurst
    · obtain ⟨hqueued, hplaced⟩ := hin'.enqueue hroom o.ret
      refine ⟨fun hp => hqueued.dispatch_queued hplaced hd hp.2, ?_⟩
      intro hno
      refine dispatch_queued_not_owned hqueued hplaced hd ?_ fun hother => hno ⟨hroom, hother⟩
      rw [trap_isValidIpv4Pkt]
      exact isTrapGet_invalid hget _
    · refine ⟨fun hp => absurd hp.1 hroom, ?_⟩
      intro _
      have hle := h.room r.portid
      have hfull : (s.txMbufs r.portid).length + 1 = maxPktBurst := by omega
      obtain ⟨hnext, hstatus⟩ := sendSinglePacket_full
        ((s.emit (.inspect r.mbuf)).emit (.inspect r.mbuf)) r.mbuf hfull o.ret
      refine not_owned_of_inspect ?_ hstatus (dispatch_extends hd)
      rw [hnext]
      exact h.placed _ (placesWith_self [] s r.mbuf)
  · -- freed by `data_trap_message`, then looked at
    rw [heq] at hd
    refine ⟨fun hp => ?_, fun _ => ?_⟩
    · rw [ProperPacket, if_neg (Bool.eq_false_iff.mp hget), hdata] at hp
      cases hp.1
    · refine not_owned_of_inspect ?_ (emit_release_not_held rfl) (dispatch_extends hd)
      exact h.placed _ (placesWith_self [] s r.mbuf)
  · -- left to the dispatch
    have hproper : ProperPacket c s r o ↔ Released c s.st r (s.trap c r o.ret).1 o := by
      rw [trap_released, ProperPacket, if_neg (Bool.eq_false_iff.mp hget), hdata]
      exact and_iff_right rfl
    rw [hproper]
    generalize (s.trap c r o.ret).1 = data at hd
    rcases heq with heq | heq <;> rw [heq] at hd
    · exact ⟨fun hp => hin.dispatch hd hp, fun hno => dispatch_not_owned hin hd hno⟩
    · exact ⟨fun hp => hin'.dispatch hd hp, fun hno => dispatch_not_owned hin' hd hno⟩

/-- `send_pid_change_request` frees its buffer after it was accepted or freed. -/
theorem sendPidChangeRequest_not_owned (h : Inv H s) (accepted : Bool) :
    ¬ (s.sendPidChangeRequest accepted).Owned := by
  have hheld := (h.build.held (placesWith_self H s.build s.next)).1
  refine not_owned_of_misused (m := s.next) ?_ ?_ (.refl _)
  · cases accepted <;> exact Nat.lt_succ_self s.next
  · cases accepted
    · show ((s.build.emit (.free s.next)).emit (.free s.next)).status s.next = _
      rw [Loop.emit_status, Loop.emit_status, hheld]
      simp [Event.use]
    · show ((s.build.emit (.accept s.next)).emit (.free s.next)).status s.next = _
      rw [Loop.emit_status, Loop.emit_status, hheld]
      simp [Event.use]

/-- **A step**, proper or not. -/
theorem Inv.step {a : LoopAction ethports} (h : Inv [] s) (hstep : s.step c a = some s') :
    (Proper c s a → Inv [] s') ∧ (¬ Proper c s a → ¬ s'.Owned) := by
  unfold Loop.step at hstep
  unfold Proper
  -- the loop handles the packets of the burst before it does anything else
  cases hburst : s.pktsBurst with
  | nil =>
      rw [hburst] at hstep
      cases a with
      | rxBurst portid pkts =>
          simp only at hstep
          split at hstep
          · cases hstep
            exact ⟨fun _ => h.rxBurst hburst portid pkts, fun hno => absurd trivial hno⟩
          · cases hstep
      | packet o => cases hstep
      | drain port ret =>
          cases hstep
          exact ⟨fun _ => h.drain port ret, fun hno => absurd trivial hno⟩
      | request accepted =>
          cases hstep
          exact ⟨False.elim, fun _ => sendPidChangeRequest_not_owned h accepted⟩
  | cons r rest =>
      rw [hburst] at hstep
      cases a with
      | packet o => exact (h.take hburst).handle hstep
      | rxBurst portid pkts => cases hstep
      | drain port ret => cases hstep
      | request accepted => cases hstep

/-- The trap functions leave the state of the negotiation alone. -/
theorem trap_st (c : LoopConfig) (s : Loop ethports) (r : Received ethports) (ret : Nat) :
    (s.trap c r ret).2.st = s.st := by
  rcases trap_cases c s r ret with ⟨-, heq⟩ | ⟨-, -, heq⟩ | ⟨-, -, heq | heq⟩
  · rw [heq, Loop.sendSinglePacket]
    split <;> rfl
  · rw [heq]
    rfl
  · rw [heq]
    rfl
  · rw [heq]
    rfl

/-- A packet that the core treats properly does not crash it. -/
theorem ProperPacket.handle_isSome (hp : ProperPacket c s r o) : (s.handle c r o).isSome = true := by
  have hver := trap_data c s r o.ret (i := 34) (by decide) (by decide)
  rw [Loop.handle, Loop.dispatch]
  dsimp only
  rw [hver, trap_decode, Loop.emit_st, Loop.emit_st, trap_st]
  by_cases hipv4 : r.pkt.ipv4Hdr = true
  · rw [if_pos hipv4]
    split
    · rfl
    · next hget =>
        split
        · next hcontrol =>
            rw [ProperPacket] at hp
            split at hp
            · exact absurd hcontrol (hp.2 hipv4).2
            · obtain ⟨-, -, ⟨hget', -⟩ | ⟨-, hsome, -⟩⟩ := hp
              · exact absurd hget' hget
              · obtain ⟨x, hx⟩ := Option.isSome_iff_exists.mp hsome
                rw [hx]
                rfl
        · rfl
  · rw [if_neg hipv4]
    rfl

/-- The invariant of a core. -/
def Core.Inv : Core ethports → Prop
  | .running s => Rm.Inv [] s
  | .crashed => False

/-- A proper step does not crash the core. -/
theorem Proper.step_isSome {a : LoopAction ethports} (hp : Proper c s a) (ha : s.isHandling a = true) :
    (s.step c a).isSome = true := by
  unfold Loop.isHandling at ha
  unfold Proper at hp
  unfold Loop.step
  cases hburst : s.pktsBurst with
  | nil =>
      rw [hburst] at ha
      cases ha
  | cons r rest =>
      rw [hburst] at ha hp
      cases a with
      | packet o =>
          have hp' : ProperPacket c { s with pktsBurst := rest } r o := hp
          exact hp'.handle_isSome
      | rxBurst portid pkts => cases ha
      | drain port ret => cases ha
      | request accepted => cases ha

/-- **A step of the core**, proper or not. -/
theorem Core.Inv.step {k k' : Core ethports} {a : LoopAction ethports} (h : k.Inv)
    (hstep : k.step c a = some k') : (k.Proper c a → k'.Inv) ∧ (¬ k.Proper c a → ¬ k'.Owned) := by
  cases k with
  | crashed => exact h.elim
  | running s =>
      rw [Core.step] at hstep
      cases hs : s.step c a with
      | some s' =>
          rw [hs] at hstep
          obtain rfl := Option.some.inj hstep
          exact Rm.Inv.step h hs
      | none =>
          rw [hs] at hstep
          dsimp only at hstep
          split at hstep
          · next ha =>
              obtain rfl := Option.some.inj hstep
              refine ⟨fun hp => ?_, fun _ => id⟩
              have hsome := Proper.step_isSome hp ha
              rw [hs] at hsome
              cases hsome
          · cases hstep

/-- The RM 2, with addresses of zeros. -/
def rm2Config : LoopConfig := ⟨.ofByte 2, fun _ => ⟨List.replicate 6 0, rfl⟩⟩

end Rm
