import IcnPrototype.Rm.Ownership

set_option autoImplicit false

/-! # Buffers that are lost

A buffer is lost when it was received, is in no place any more, and was never released: the pool
does not get it back. `main_loop` loses the buffer of a packet that it has no use for, and that of a
Get packet that the driver does not take (`Loses`), and of no other packet, whatever else it does
with its buffers. So the lost buffers of a run can be counted at its packets (`card_lost`), and a
pool of a given size is empty after as many of them.

Every function is described by what it adds to the buffers that are accounted for: those that were
released, and those in a table.
-/

namespace Rm

open Bytes Host

variable {ethports : Nat} {s s' : Loop ethports} {m : Nat} {c : LoopConfig}
  {r : Received ethports} {o : Outcome} {data : Mem}

/-! ## The property -/

/-- The buffer was released, or it waits in a table. -/
def Loop.Kept (s : Loop ethports) (m : Nat) : Prop :=
  Resource.Use.release m ∈ s.log.map Event.use ∨ ∃ port, m ∈ s.txMbufs port

instance (s : Loop ethports) (m : Nat) : Decidable (s.Kept m) := instDecidableOr

/-- The buffer is in no place, and it was not released. -/
def Loop.Lost (s : Loop ethports) (m : Nat) : Prop :=
  m ∉ s.pktsBurst.map Received.mbuf ∧ ¬ s.Kept m

instance (s : Loop ethports) (m : Nat) : Decidable (s.Lost m) := instDecidableAnd

/-- The lost buffers. -/
def Loop.lost (s : Loop ethports) : Finset Nat := (Finset.range s.next).filter s.Lost

/-- A packet that loses its buffer: no trap message that the RM answers or frees, and no control
packet; and if it is a Get packet, a valid one that the driver does not take. -/
def Loses (r : Received ethports) (o : Outcome) : Prop :=
  isTrapGet r.pkt.data = false ∧ isTrapData r.pkt.data = false
    ∧ (r.pkt.ipv4Hdr = false ∨ r.pkt.data 34 ≠ getPacket ∧ r.pkt.data 34 ≠ controlPacket
      ∨ r.pkt.data 34 = getPacket
        ∧ 0 ≤ isValidIpv4Pkt (totalLengthPlus4 r.pkt.data) r.pkt.pktLen ∧ o.forwarded = false)

instance (r : Received ethports) (o : Outcome) : Decidable (Loses r o) := instDecidableAnd

/-- A step that loses a buffer. -/
def losesStep (s : Loop ethports) (a : LoopAction ethports) : Bool :=
  match s.pktsBurst, a with
  | r :: _, .packet o => decide (Loses r o)
  | _, _ => false

/-! ## The functions -/

theorem kept_emit (s : Loop ethports) (e : Event) (m : Nat) :
    (s.emit e).Kept m ↔ s.Kept m ∨ e.use = .release m := by
  unfold Loop.Kept Loop.emit
  rw [List.map_append, List.mem_append, List.map_singleton, List.mem_singleton, or_right_comm,
    eq_comm (a := Resource.Use.release m)]

theorem kept_inspect (s : Loop ethports) (n m : Nat) : (s.emit (.inspect n)).Kept m ↔ s.Kept m := by
  rw [kept_emit]
  exact or_iff_left fun h => by cases h

theorem kept_free (s : Loop ethports) (n m : Nat) :
    (s.emit (.free n)).Kept m ↔ s.Kept m ∨ m = n := by
  rw [kept_emit]
  show _ ∨ Resource.Use.release n = .release m ↔ _
  rw [Resource.Use.release.injEq, eq_comm]

theorem kept_txBurst (s : Loop ethports) (n : Nat) (accepted : Bool) (m : Nat) :
    (s.txBurst n accepted).Kept m ↔ s.Kept m ∨ m = n ∧ accepted = true := by
  cases accepted with
  | false => exact (or_iff_left fun h => by cases h.2).symm
  | true =>
      unfold Loop.txBurst
      rw [if_pos rfl, kept_emit, and_iff_left rfl, eq_comm (a := m)]
      show _ ∨ Resource.Use.release n = .release m ↔ _
      rw [Resource.Use.release.injEq]

/-- The tables, one of them apart. -/
theorem exists_mem_tables (tables : Fin ethports → List Nat) (port : Fin ethports) (m : Nat) :
    (∃ q, m ∈ tables q) ↔ m ∈ tables port ∨ ∃ q, q ≠ port ∧ m ∈ tables q := by
  constructor
  · rintro ⟨q, hq⟩
    by_cases heq : q = port
    · exact Or.inl (heq ▸ hq)
    · exact Or.inr ⟨q, heq, hq⟩
  · rintro (hport | ⟨q, -, hq⟩)
    · exact ⟨port, hport⟩
    · exact ⟨q, hq⟩

theorem exists_mem_update (tables : Fin ethports → List Nat) (port : Fin ethports)
    (table : List Nat) (m : Nat) :
    (∃ q, m ∈ Function.update tables port table q)
      ↔ m ∈ table ∨ ∃ q, q ≠ port ∧ m ∈ tables q := by
  have hothers : (∃ q, q ≠ port ∧ m ∈ Function.update tables port table q)
      ↔ ∃ q, q ≠ port ∧ m ∈ tables q := by
    apply exists_congr
    intro q
    apply and_congr_right
    intro hne
    rw [Function.update_of_ne hne]
  rw [exists_mem_tables _ port, Function.update_self, hothers]

/-- What is taken out of a table is released. -/
theorem kept_flush (s : Loop ethports) (port : Fin ethports) (ret m : Nat) :
    (s.flush port ret).Kept m ↔ s.Kept m := by
  have htables : (s.flush port ret).txMbufs = Function.update s.txMbufs port [] := rfl
  have hlog : Resource.Use.release m ∈ (s.flush port ret).log.map Event.use
      ↔ Resource.Use.release m ∈ s.log.map Event.use ∨ m ∈ s.txMbufs port := by
    show _ ∈ (s.sendBurst port ret).log.map Event.use ↔ _
    rw [sendBurst_uses, List.mem_append,
      List.mem_map_of_injective fun _ _ h => Resource.Use.release.inj h]
  unfold Loop.Kept
  rw [hlog, htables, exists_mem_update, exists_mem_tables s.txMbufs port, or_assoc]
  simp only [List.not_mem_nil, false_or]

theorem kept_drain (s : Loop ethports) (port : Fin ethports) (ret m : Nat) :
    (s.drain port ret).Kept m ↔ s.Kept m := by
  unfold Loop.drain
  split
  · rfl
  · exact kept_flush s port ret m

theorem kept_sendSinglePacket (s : Loop ethports) (n : Nat) (port : Fin ethports) (ret m : Nat) :
    (s.sendSinglePacket n port ret).Kept m ↔ s.Kept m ∨ m = n := by
  have hqueued : ({ s with
      txMbufs := Function.update s.txMbufs port (s.txMbufs port ++ [n]) } : Loop ethports).Kept m
        ↔ s.Kept m ∨ m = n := by
    unfold Loop.Kept
    dsimp only
    rw [exists_mem_update, exists_mem_tables s.txMbufs port, List.mem_append, List.mem_singleton,
      or_right_comm (a := m ∈ s.txMbufs port), ← or_assoc]
  unfold Loop.sendSinglePacket
  dsimp only
  split
  · rw [kept_flush, hqueued]
  · exact hqueued

/-- A message is always freed. -/
theorem kept_send (s : Loop ethports) (accepted : Bool) (x : Send) (m : Nat) :
    (s.send accepted x).Kept m ↔ s.Kept m ∨ m = s.next := by
  have hbuild : s.build.Kept m ↔ s.Kept m := kept_inspect { s with next := s.next + 1 } s.next m
  rw [send_eq, kept_free, kept_txBurst, hbuild, or_assoc]
  apply or_congr_right
  exact or_iff_right_of_imp fun h => h.1

theorem next_send (s : Loop ethports) (accepted : Bool) (x : Send) :
    (s.send accepted x).next = s.next + 1 := by
  rw [send_eq]
  cases accepted <;> rfl

theorem next_sendAll (s : Loop ethports) (accepted : Nat → Bool) (sends : List Send) (i : Nat) :
    (s.sendAll accepted sends i).next = s.next + sends.length := by
  induction sends generalizing s i with
  | nil => rfl
  | cons x xs ih =>
      rw [Loop.sendAll, ih, next_send, List.length_cons]
      omega

theorem kept_sendAll (s : Loop ethports) (accepted : Nat → Bool) (sends : List Send) (i m : Nat) :
    (s.sendAll accepted sends i).Kept m
      ↔ s.Kept m ∨ s.next ≤ m ∧ m < s.next + sends.length := by
  induction sends generalizing s i with
  | nil => exact (or_iff_left fun h => by rw [List.length_nil] at h; omega).symm
  | cons x xs ih =>
      rw [Loop.sendAll, ih, kept_send, next_send, List.length_cons, or_assoc]
      apply or_congr_right
      omega

theorem kept_sendPidChangeRequest (s : Loop ethports) (accepted : Bool) (m : Nat) :
    (s.sendPidChangeRequest accepted).Kept m ↔ s.Kept m ∨ m = s.next := by
  have hbuild : s.build.Kept m ↔ s.Kept m := kept_inspect { s with next := s.next + 1 } s.next m
  unfold Loop.sendPidChangeRequest
  cases accepted with
  | false =>
      simp only [Bool.false_eq_true, if_false]
      rw [kept_free, kept_free, kept_txBurst, hbuild]
      tauto
  | true =>
      simp only [if_true]
      rw [kept_free, kept_txBurst, hbuild]
      tauto

theorem kept_getPacketsForward (s : Loop ethports) (n : Nat) (data : Mem) (pktLen : Nat)
    (accepted : Bool) (m : Nat) :
    (s.getPacketsForward n data pktLen accepted).Kept m
      ↔ s.Kept m
        ∨ m = n ∧ (0 ≤ isValidIpv4Pkt (totalLengthPlus4 data) pktLen → accepted = true) := by
  unfold Loop.getPacketsForward
  dsimp only
  split
  · next hinvalid =>
      rw [kept_free, kept_inspect]
      apply or_congr_right
      exact (and_iff_left fun h => absurd hinvalid (not_lt.mpr h)).symm
  · next hvalid =>
      rw [kept_txBurst, kept_inspect]
      apply or_congr_right
      apply and_congr_right
      intro _
      exact (imp_iff_right (not_lt.mp hvalid)).symm

/-! ## One packet -/

/-- What the trap functions account for, besides what was accounted for before. -/
theorem kept_trap (c : LoopConfig) (s : Loop ethports) (r : Received ethports) (ret m : Nat) :
    (s.trap c r ret).2.Kept m
      ↔ s.Kept m ∨ m = r.mbuf ∧ (isTrapGet r.pkt.data = true ∨ isTrapData r.pkt.data = true) := by
  rcases trap_cases c s r ret with ⟨hget, heq⟩ | ⟨hget, hdata, heq⟩ | ⟨hget, hdata, heq | heq⟩
  · rw [heq, kept_sendSinglePacket, kept_inspect, kept_inspect, hget]
    simp
  · rw [heq, kept_free, kept_inspect, kept_inspect, hget, hdata]
    simp
  · rw [heq, kept_inspect, hget, hdata]
    simp
  · rw [heq, kept_inspect, kept_inspect, hget, hdata]
    simp

theorem trap_next (c : LoopConfig) (s : Loop ethports) (r : Received ethports) (ret : Nat) :
    (s.trap c r ret).2.next = s.next ∧ (s.trap c r ret).2.pktsBurst = s.pktsBurst := by
  rcases trap_cases c s r ret with ⟨-, heq⟩ | ⟨-, -, heq⟩ | ⟨-, -, heq | heq⟩
  · rw [heq]
    unfold Loop.sendSinglePacket
    dsimp only
    split
    · exact ⟨rfl, rfl⟩
    · exact ⟨rfl, rfl⟩
  · rw [heq]
    exact ⟨rfl, rfl⟩
  · rw [heq]
    exact ⟨rfl, rfl⟩
  · rw [heq]
    exact ⟨rfl, rfl⟩

theorem pktsBurst_sendAll (s : Loop ethports) (accepted : Nat → Bool) (sends : List Send)
    (i : Nat) : (s.sendAll accepted sends i).pktsBurst = s.pktsBurst := by
  induction sends generalizing s i with
  | nil => rfl
  | cons x xs ih =>
      rw [Loop.sendAll, ih, send_eq]
      cases accepted i <;> rfl

theorem next_getPacketsForward (s : Loop ethports) (n : Nat) (data : Mem) (pktLen : Nat)
    (accepted : Bool) : (s.getPacketsForward n data pktLen accepted).next = s.next
      ∧ (s.getPacketsForward n data pktLen accepted).pktsBurst = s.pktsBurst := by
  unfold Loop.getPacketsForward Loop.txBurst
  dsimp only
  split
  · exact ⟨rfl, rfl⟩
  · split <;> exact ⟨rfl, rfl⟩

/-- What handling a packet accounts for: its own buffer under a condition, and those of the messages
that are sent. -/
structure Handled (s s' : Loop ethports) (n : Nat) (own : Prop) : Prop where
  burst : s'.pktsBurst = s.pktsBurst
  next : s.next ≤ s'.next
  kept : ∀ m, s'.Kept m ↔ s.Kept m ∨ m = n ∧ own ∨ s.next ≤ m ∧ m < s'.next

theorem dispatch_handled (h : s.dispatch c r data o = some s') :
    Handled s s' r.mbuf (r.pkt.ipv4Hdr = true
      ∧ (data 34 = getPacket
          ∧ (0 ≤ isValidIpv4Pkt (totalLengthPlus4 data) r.pkt.pktLen → o.forwarded = true)
        ∨ data 34 = controlPacket)) := by
  have hnew : ∀ m, ¬ (s.next ≤ m ∧ m < s.next) := fun m h => by omega
  rcases dispatch_cases h with ⟨hother, hs'⟩ | ⟨hipv4, hget, rfl⟩ | ⟨hipv4, hcontrol, st, -, rfl⟩
  · have hown : ¬ (r.pkt.ipv4Hdr = true ∧ (data 34 = getPacket
        ∧ (0 ≤ isValidIpv4Pkt (totalLengthPlus4 data) r.pkt.pktLen → o.forwarded = true)
          ∨ data 34 = controlPacket)) := by
      rintro ⟨hipv4, hkind⟩
      rcases hother with hno | ⟨hget, hcontrol⟩
      · rw [hipv4] at hno
        cases hno
      · exact hkind.elim (fun h => hget h.1) hcontrol
    rcases hs' with rfl | rfl
    · refine ⟨rfl, Nat.le_refl _, fun m => ?_⟩
      rw [kept_inspect]
      exact (or_iff_left fun h => h.elim (fun h => hown h.2) (hnew m)).symm
    · refine ⟨rfl, Nat.le_refl _, fun m => ?_⟩
      rw [kept_inspect, kept_inspect]
      exact (or_iff_left fun h => h.elim (fun h => hown h.2) (hnew m)).symm
  · obtain ⟨hnext, hburst⟩ := next_getPacketsForward
      ((s.emit (.inspect r.mbuf)).emit (.inspect r.mbuf)) r.mbuf data r.pkt.pktLen o.forwarded
    refine ⟨hburst, hnext.ge, fun m => ?_⟩
    have hne : data 34 ≠ controlPacket := by rw [hget]; decide
    rw [kept_getPacketsForward, kept_inspect, kept_inspect, hnext]
    apply or_congr_right
    rw [Loop.emit_next, Loop.emit_next, or_iff_left (hnew m), and_iff_right hipv4,
      or_iff_left hne, and_iff_right hget]
  · have hnext : (({ (s.emit (.inspect r.mbuf)).emit (.inspect r.mbuf) with st := st }.sendAll
        o.sent (answers c s.st data o.rand) 0).emit (.free r.mbuf)).next
          = s.next + (answers c s.st data o.rand).length := next_sendAll _ _ _ _
    refine ⟨pktsBurst_sendAll _ _ _ _, ?_, fun m => ?_⟩
    · rw [hnext]
      exact Nat.le_add_right _ _
    · have hst : ({ (s.emit (.inspect r.mbuf)).emit (.inspect r.mbuf) with st := st }
          : Loop ethports).Kept m ↔ s.Kept m := (kept_inspect _ _ _).trans (kept_inspect _ _ _)
      rw [hnext, kept_free, kept_sendAll, hst, or_assoc, or_comm (b := m = r.mbuf)]
      apply or_congr_right
      apply or_congr_left
      exact (and_iff_left ⟨hipv4, Or.inr hcontrol⟩).symm

theorem not_loses_iff : ¬ Loses r o
    ↔ (isTrapGet r.pkt.data = true ∨ isTrapData r.pkt.data = true) ∨ r.pkt.ipv4Hdr = true
      ∧ (r.pkt.data 34 = getPacket
          ∧ (0 ≤ isValidIpv4Pkt (totalLengthPlus4 r.pkt.data) r.pkt.pktLen → o.forwarded = true)
        ∨ r.pkt.data 34 = controlPacket) := by
  have hne : ¬ (r.pkt.data 34 = getPacket ∧ r.pkt.data 34 = controlPacket) := by
    rintro ⟨hget, hcontrol⟩
    rw [hget] at hcontrol
    exact absurd hcontrol (by decide)
  unfold Loses
  simp only [← Bool.not_eq_true]
  tauto

/-- **One packet.** Its buffer is accounted for unless the packet loses it, and so are those of the
messages that are sent. -/
theorem handle_handled (h : s.handle c r o = some s') : Handled s s' r.mbuf (¬ Loses r o) := by
  obtain ⟨hnext, hburst⟩ := trap_next c s r o.ret
  have hd := dispatch_handled h
  have h34 : (s.trap c r o.ret).1 34 = r.pkt.data 34 := trap_data c s r o.ret (by decide) (by decide)
  rw [h34, trap_isValidIpv4Pkt] at hd
  refine ⟨hd.burst.trans hburst, hnext.ge.trans hd.next, fun m => ?_⟩
  rw [hd.kept, kept_trap, hnext, or_assoc]
  apply or_congr_right
  rw [← or_assoc, ← and_or_left, not_loses_iff]

/-! ## Runs -/

theorem Loop.mem_lost : m ∈ s.lost ↔ m < s.next ∧ m ∉ s.pktsBurst.map Received.mbuf ∧ ¬ s.Kept m := by
  rw [Loop.lost, Finset.mem_filter, Finset.mem_range]
  rfl

/-- The numbers of the burst are in use once, and numbers that come later are not in use. -/
structure Numbered (s : Loop ethports) : Prop where
  burst : ∀ r ∈ s.pktsBurst, r.mbuf < s.next ∧ ¬ s.Kept r.mbuf
  nodup : (s.pktsBurst.map Received.mbuf).Nodup
  fresh : ∀ m, s.next ≤ m → ¬ s.Kept m

theorem numbered_start (st : State) : Numbered (Loop.start st : Loop ethports) where
  burst r hr := by cases hr
  nodup := List.nodup_nil
  fresh m _ := by
    rintro (h | ⟨port, h⟩)
    · cases h
    · cases h

theorem Numbered.rxBurst (hs : Numbered s) (hburst : s.pktsBurst = []) (portid : Fin ethports)
    (pkts : List RxPacket) :
    Numbered (s.rxBurst portid pkts) ∧ (s.rxBurst portid pkts).lost = s.lost := by
  have hmbufs := rxBurst_mbufs s portid pkts
  have hnext : (s.rxBurst portid pkts).next = s.next + pkts.length := rfl
  have hkept : ∀ m, (s.rxBurst portid pkts).Kept m ↔ s.Kept m := fun m => Iff.rfl
  refine ⟨⟨?_, ?_, ?_⟩, ?_⟩
  · intro r hr
    have hmem : r.mbuf ∈ List.range' s.next pkts.length := by
      rw [← hmbufs]
      exact List.mem_map_of_mem hr
    rw [List.mem_range'_1] at hmem
    rw [hnext, hkept]
    exact ⟨hmem.2, hs.fresh _ hmem.1⟩
  · rw [hmbufs]
    exact List.nodup_range'
  · intro m hm
    rw [hnext] at hm
    rw [hkept]
    exact hs.fresh m (by omega)
  · ext m
    rw [Loop.mem_lost, Loop.mem_lost, hmbufs, hnext, hkept, hburst, List.mem_range'_1,
      ← and_assoc, ← and_assoc]
    apply and_congr_left
    intro _
    simp only [List.map_nil, List.not_mem_nil, not_false_eq_true, and_true]
    omega

/-- What happens between the bursts loses no buffer. -/
theorem Numbered.between (hs : Numbered s) (hburst : s.pktsBurst = [])
    (hburst' : s'.pktsBurst = []) (hnext : s.next ≤ s'.next)
    (hkept : ∀ m, s'.Kept m ↔ s.Kept m ∨ s.next ≤ m ∧ m < s'.next) :
    Numbered s' ∧ s'.lost = s.lost := by
  refine ⟨⟨?_, ?_, ?_⟩, ?_⟩
  · intro r hr
    rw [hburst'] at hr
    cases hr
  · rw [hburst']
    exact List.nodup_nil
  · intro m hm hk
    rcases (hkept m).mp hk with hk | hk
    · exact hs.fresh m (Nat.le_trans hnext hm) hk
    · omega
  · ext m
    rw [Loop.mem_lost, Loop.mem_lost, hkept, hburst, hburst']
    constructor
    · rintro ⟨hm, hno, hk⟩
      rw [not_or] at hk
      exact ⟨by omega, hno, hk.1⟩
    · rintro ⟨hm, hno, hk⟩
      refine ⟨Nat.lt_of_lt_of_le hm hnext, hno, not_or.mpr ⟨hk, ?_⟩⟩
      omega

/-- A packet that loses its buffer adds it to the lost ones, and the others add none. -/
theorem Numbered.handled {rest : List (Received ethports)} (hs : Numbered s)
    (hburst : s.pktsBurst = r :: rest)
    (h : Handled { s with pktsBurst := rest } s' r.mbuf (¬ Loses r o)) :
    Numbered s' ∧ s'.lost = if Loses r o then insert r.mbuf s.lost else s.lost := by
  have hnodup := hs.nodup
  rw [hburst, List.map_cons, List.nodup_cons] at hnodup
  have hhead := hs.burst r (by rw [hburst]; exact List.mem_cons_self)
  have hnext : s.next ≤ s'.next := h.next
  have hkept : ∀ m, s'.Kept m
      ↔ s.Kept m ∨ m = r.mbuf ∧ ¬ Loses r o ∨ s.next ≤ m ∧ m < s'.next := h.kept
  refine ⟨⟨?_, ?_, ?_⟩, ?_⟩
  · intro r' hr'
    rw [h.burst] at hr'
    have hmem' : r' ∈ s.pktsBurst := by
      rw [hburst]
      exact List.mem_cons_of_mem _ hr'
    obtain ⟨hlt, hk⟩ := hs.burst r' hmem'
    refine ⟨Nat.lt_of_lt_of_le hlt hnext, ?_⟩
    rw [hkept]
    rintro (hk' | ⟨heq, -⟩ | hnew)
    · exact hk hk'
    · -- the burst holds a number once
      apply hnodup.1
      rw [← heq]
      exact List.mem_map_of_mem hr'
    · omega
  · rw [h.burst]
    exact hnodup.2
  · intro m hm
    rw [hkept]
    rintro (hk | ⟨rfl, -⟩ | hnew)
    · exact hs.fresh m (Nat.le_trans hnext hm) hk
    · omega
    · omega
  · have hmem : ∀ m, m ∈ s'.lost ↔ m < s.next ∧ m ∉ rest.map Received.mbuf ∧ ¬ s.Kept m
        ∧ (m = r.mbuf → Loses r o) := by
      intro m
      rw [Loop.mem_lost, hkept, h.burst]
      constructor
      · rintro ⟨hm, hno, hk⟩
        rw [not_or, not_or, not_and, not_not] at hk
        exact ⟨by omega, hno, hk.1, hk.2.1⟩
      · rintro ⟨hm, hno, hk, hloses⟩
        refine ⟨Nat.lt_of_lt_of_le hm hnext, hno, ?_⟩
        rw [not_or, not_or, not_and, not_not]
        exact ⟨hk, hloses, by omega⟩
    ext m
    rw [hmem]
    split
    · next hloses =>
        rw [Finset.mem_insert, Loop.mem_lost, hburst, List.map_cons, List.mem_cons, not_or]
        by_cases heq : m = r.mbuf
        · subst heq
          exact iff_of_true ⟨hhead.1, hnodup.1, hhead.2, fun _ => hloses⟩ (Or.inl rfl)
        · tauto
    · next hkeeps =>
        rw [Loop.mem_lost, hburst, List.map_cons, List.mem_cons, not_or]
        by_cases heq : m = r.mbuf
        · tauto
        · tauto

theorem losesStep_of_nil (hburst : s.pktsBurst = []) (a : LoopAction ethports) :
    losesStep s a = false := by
  unfold losesStep
  rw [hburst]

theorem losesStep_packet {rest : List (Received ethports)} (hburst : s.pktsBurst = r :: rest)
    (o : Outcome) : losesStep s (.packet o) = decide (Loses r o) := by
  unfold losesStep
  rw [hburst]

/-- **One step** of the core. -/
theorem Numbered.step {a : LoopAction ethports} (hs : Numbered s) (h : s.step c a = some s') :
    Numbered s' ∧ s.lost ⊆ s'.lost
      ∧ s'.lost.card = s.lost.card + if losesStep s a = true then 1 else 0 := by
  unfold Loop.step at h
  cases hburst : s.pktsBurst with
  | nil =>
      rw [losesStep_of_nil hburst a, if_neg Bool.false_ne_true, Nat.add_zero]
      rw [hburst] at h
      have hsame : Numbered s' ∧ s'.lost = s.lost →
          Numbered s' ∧ s.lost ⊆ s'.lost ∧ s'.lost.card = s.lost.card := by
        rintro ⟨hs', heq⟩
        exact ⟨hs', heq.ge, congrArg Finset.card heq⟩
      apply hsame
      cases a with
      | rxBurst portid pkts =>
          simp only at h
          split at h
          · cases h
            exact hs.rxBurst hburst portid pkts
          · cases h
      | packet o => cases h
      | drain port ret =>
          cases h
          have hnext : (s.drain port ret).next = s.next ∧ (s.drain port ret).pktsBurst = [] := by
            unfold Loop.drain
            split <;> exact ⟨rfl, hburst⟩
          apply hs.between hburst hnext.2 hnext.1.ge
          intro m
          rw [kept_drain, hnext.1]
          exact (or_iff_left fun hm => by omega).symm
      | request accepted =>
          cases h
          have hnext : (s.sendPidChangeRequest accepted).next = s.next + 1
              ∧ (s.sendPidChangeRequest accepted).pktsBurst = [] := by
            cases accepted <;> exact ⟨rfl, hburst⟩
          apply hs.between hburst hnext.2 (by omega)
          intro m
          rw [kept_sendPidChangeRequest, hnext.1]
          apply or_congr_right
          omega
  | cons r rest =>
      rw [hburst] at h
      cases a with
      | packet o =>
          obtain ⟨hs', heq⟩ := hs.handled hburst (handle_handled h)
          have hnew : r.mbuf ∉ s.lost := by
            rw [Loop.mem_lost, hburst]
            rintro ⟨-, hno, -⟩
            exact hno List.mem_cons_self
          rw [losesStep_packet hburst, heq]
          refine ⟨hs', ?_⟩
          by_cases hloses : Loses r o
          · rw [if_pos hloses, if_pos (decide_eq_true hloses), Finset.card_insert_of_notMem hnew]
            exact ⟨Finset.subset_insert _ _, rfl⟩
          · rw [if_neg hloses, if_neg (mt of_decide_eq_true hloses), Nat.add_zero]
            exact ⟨Finset.Subset.refl _, rfl⟩
      | rxBurst portid pkts => cases h
      | drain port ret => cases h
      | request accepted => cases h

/-- **The lost buffers can be counted at the packets.** In every run, whatever else happens to the
buffers, as many are lost as packets that lose their buffer were handled, and they stay lost. -/
theorem card_lost {st : State} {actions : List (LoopAction ethports)}
    (h : Lts.exec (Loop.step c) (Loop.start st) actions = some s) :
    s.lost.card = Lts.count (Loop.step c) (losesStep · · = true) (Loop.start st) actions
      ∧ ∀ later s', Lts.exec (Loop.step c) s later = some s' → s.lost ⊆ s'.lost := by
  have hstart : (Loop.start st : Loop ethports).lost.card = 0 := rfl
  constructor
  · have hcount := Lts.exec_count (f := fun s : Loop ethports => s.lost.card) (I := Numbered)
      (C := (losesStep · · = true)) (fun s a s' hs h => (hs.step h).1)
      (fun s a s' hs h => (hs.step h).2.2) (numbered_start st) h
    rw [hcount, hstart, Nat.zero_add]
  · intro later s' h'
    have hs : Numbered s :=
      Lts.exec_invariant (fun s a s' hs h => (hs.step h).1) (numbered_start st) h
    have hlater : Numbered s' ∧ s.lost ⊆ s'.lost := by
      refine Lts.exec_invariant (P := fun s' => Numbered s' ∧ s.lost ⊆ s'.lost) ?_
        ⟨hs, Finset.Subset.refl _⟩ h'
      rintro s₁ a s₂ ⟨hs₁, hsub⟩ hstep
      obtain ⟨hs₂, hsub', -⟩ := hs₁.step hstep
      exact ⟨hs₂, hsub.trans hsub'⟩
    exact hlater.2

/-- A packet of zeros: no trap message, no Get packet and no control packet. -/
def zeroPacket : RxPacket := ⟨fun _ => 0, 60, true⟩

/-- Two packets of zeros are received and handled. -/
def zeroRun : List (LoopAction 1) :=
  [.rxBurst ⟨0, Nat.zero_lt_one⟩ [zeroPacket, zeroPacket], .packet ⟨0, 0, true, fun _ => true⟩,
    .packet ⟨0, 0, true, fun _ => true⟩]

/-- Each of them loses its buffer. -/
theorem card_lost_two :
    ∃ s, Lts.exec (Loop.step rm2Config)
        (Loop.start (State.start (.ofByte 2) (threeRms (.ofByte 2)))) zeroRun = some s
      ∧ s.lost.card = 2 := by
  have hrun : (Lts.exec (Loop.step rm2Config)
      (Loop.start (State.start (.ofByte 2) (threeRms (.ofByte 2)))) zeroRun).isSome = true := by
    decide
  obtain ⟨s, hs⟩ := Option.isSome_iff_exists.mp hrun
  refine ⟨s, hs, ?_⟩
  rw [(card_lost hs).1]
  decide

end Rm
