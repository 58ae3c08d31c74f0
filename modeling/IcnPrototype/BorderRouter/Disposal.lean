import IcnPrototype.BorderRouter.PidRouting

set_option autoImplicit false

/-! # Packets the router keeps

A push element of Click owns the packet it is given: it has to hand it to an output or to kill
it, once. `push` never calls `kill`, so every path through its dispatch has to end in exactly one
output. `Input.Emits` lists the paths that do. The others end without one: a packet for the
router with another version byte or from another port, a Data packet from inside without PIDs
(the branch `else { }`), and a control packet that is no negotiation. An announcement is among
them: it is read into the tables and then forgotten.
-/

namespace BorderRouter

open Bytes Host

/-- The interface indices present in `ip_nic`. -/
def IPBorderRouter.interfaces (r : IPBorderRouter) : Set Nat := {n | n ≠ 0 ∧ ∃ ip, r.ipNic ip = n}

/-- The packet is handed to exactly one output, with the index 0 or that of an interface. -/
def Disposed (t : Traced) (i : Input) : Prop :=
  ∃ out, (t.router.push i.now i.stack i.port i.packet).2 = [out]
    ∧ (out.1 = 0 ∨ out.1 ∈ t.router.interfaces)

/-- **The inputs for which some branch emits.** -/
def Input.Emits (i : Input) : Prop :=
  i.isMine = false
    ∨ (i.packet.mem 34 = 160 ∧ (i.port = 0 ∨ i.port = 1))
    ∨ (i.packet.mem 34 = 161 ∧ (i.port = 1 ∨ (i.port = 0 ∧ i.packet.mem 44 ≠ 0)))
    ∨ (i.packet.mem 34 = 163 ∧ IPBorderRouter.isNegotiation i.packet = true
        ∧ (i.port = 0 ∨ i.port = 1))

/-! ## One call of `push` -/

theorem interfaces_of_emit {r : IPBorderRouter} {ip : List UInt8} {hop : UInt32} {p : Packet} :
    (r.emit ip hop p).1 = 0 ∨ (r.emit ip hop p).1 ∈ r.interfaces := by
  by_cases h : r.ipNic hop = 0
  · exact Or.inl h
  · exact Or.inr ⟨h, hop, rfl⟩

/-- A packet for another router goes out unchanged. -/
theorem push_of_not_mine {r : IPBorderRouter} {i : Input} (hmine : r.isMine i.packet = false) :
    ∃ out, (r.push i.now i.stack i.port i.packet).2 = [out]
      ∧ (out.1 = 0 ∨ out.1 ∈ r.interfaces) := by
  simp only [IPBorderRouter.push, hmine, Bool.false_eq_true, if_false]
  split
  · next hnic => exact ⟨_, rfl, Or.inr ⟨by omega, _, rfl⟩⟩
  · exact ⟨_, rfl, Or.inl rfl⟩

section Branches

/-- One output when a branch emits for the packet, none otherwise. -/
def Decided (r : IPBorderRouter) (i : Input) : Prop :=
  (i.Emits ∧ ∃ out, (r.push i.now i.stack i.port i.packet).2 = [out]
      ∧ (out.1 = 0 ∨ out.1 ∈ r.interfaces))
    ∨ (¬ i.Emits ∧ (r.push i.now i.stack i.port i.packet).2 = [])

variable {r : IPBorderRouter} {i : Input} (hmine : r.isMine i.packet = true) (hm : i.isMine = true)
include hmine hm

theorem decided_get (h160 : i.packet.mem 34 = 160) : Decided r i := by
  by_cases hp0 : i.port = 0
  · refine Or.inl ⟨Or.inr (Or.inl ⟨h160, Or.inl hp0⟩), r.pushByLastPid i.packet, ?_,
      interfaces_of_emit⟩
    simp [IPBorderRouter.push, hmine, h160, hp0]
  · by_cases hp1 : i.port = 1
    · refine Or.inl ⟨Or.inr (Or.inl ⟨h160, Or.inr hp1⟩), r.pushGetOutside i.packet, ?_,
        interfaces_of_emit⟩
      simp [IPBorderRouter.push, hmine, h160, hp1]
    · refine Or.inr ⟨by simp [Input.Emits, hm, h160, hp0, hp1], ?_⟩
      simp [IPBorderRouter.push, hmine, h160, hp0, hp1]

theorem decided_data (h161 : i.packet.mem 34 = 161) : Decided r i := by
  by_cases hp0 : i.port = 0
  · have hpush : (r.push i.now i.stack i.port i.packet).2 = r.pushDataInside i.stack i.packet := by
      simp [IPBorderRouter.push, hmine, h161, hp0]
    by_cases h44 : i.packet.mem 44 = 0
    · -- the branch `else { }`
      refine Or.inr ⟨by simp [Input.Emits, hm, h161, hp0, h44], ?_⟩
      rw [hpush, IPBorderRouter.pushDataInside, h44]
      rfl
    · have hne : (i.packet.mem 44).toNat ≠ 0 := fun e => h44 (UInt8.toNat_inj.mp e)
      refine Or.inl ⟨Or.inr (Or.inr (Or.inl ⟨h161, Or.inr ⟨hp0, h44⟩⟩)), ?_⟩
      rw [hpush, IPBorderRouter.pushDataInside, if_pos hne]
      exact ⟨_, rfl, interfaces_of_emit⟩
  · by_cases hp1 : i.port = 1
    · refine Or.inl ⟨Or.inr (Or.inr (Or.inl ⟨h161, Or.inl hp1⟩)),
        r.pushDataOutside i.stack i.packet, ?_, ?_⟩
      · simp [IPBorderRouter.push, hmine, h161, hp1]
      · rw [IPBorderRouter.pushDataOutside]
        split
        · exact interfaces_of_emit
        · exact interfaces_of_emit
    · refine Or.inr ⟨by simp [Input.Emits, hm, h161, hp0, hp1], ?_⟩
      simp [IPBorderRouter.push, hmine, h161, hp0, hp1]

theorem decided_control (h163 : i.packet.mem 34 = 163) : Decided r i := by
  cases hneg : IPBorderRouter.isNegotiation i.packet with
  | false =>
      refine Or.inr ⟨by simp [Input.Emits, hm, h163, hneg], ?_⟩
      by_cases h129 : i.packet.mem 35 = 129
      · -- an announcement goes into the tables only
        simp [IPBorderRouter.push, hmine, h163, h129]
      · simp [IPBorderRouter.push, hmine, h163, h129, hneg]
  | true =>
      have h129 : ¬ i.packet.mem 35 = 129 := by
        intro h129
        rw [IPBorderRouter.isNegotiation, h129] at hneg
        exact absurd hneg (by decide)
      by_cases hp0 : i.port = 0
      · refine Or.inl ⟨Or.inr (Or.inr (Or.inr ⟨h163, hneg, Or.inl hp0⟩)),
          r.pushByLastPid i.packet, ?_, interfaces_of_emit⟩
        simp [IPBorderRouter.push, hmine, h163, hneg, h129, hp0]
      · by_cases hp1 : i.port = 1
        · refine Or.inl ⟨Or.inr (Or.inr (Or.inr ⟨h163, hneg, Or.inr hp1⟩)),
            r.pushControlOutside i.packet, ?_, interfaces_of_emit⟩
          simp [IPBorderRouter.push, hmine, h163, hneg, h129, hp1]
        · refine Or.inr ⟨by simp [Input.Emits, hm, h163, hp0, hp1], ?_⟩
          simp [IPBorderRouter.push, hmine, h163, h129, hp0, hp1]

theorem decided_other (h160 : i.packet.mem 34 ≠ 160) (h161 : i.packet.mem 34 ≠ 161)
    (h163 : i.packet.mem 34 ≠ 163) : Decided r i := by
  refine Or.inr ⟨by simp [Input.Emits, hm, h160, h161, h163], ?_⟩
  simp [IPBorderRouter.push, hmine, h160, h161, h163]

end Branches

/-- **What `push` does with a packet.** -/
theorem decided {r : IPBorderRouter} (hs : r.sIp = IPBorderRouter.new.sIp) (i : Input) :
    Decided r i := by
  have hmine : r.isMine i.packet = i.isMine := by rw [IPBorderRouter.isMine, Input.isMine, hs]
  cases hm : i.isMine with
  | false => exact Or.inl ⟨Or.inl hm, push_of_not_mine (hmine.trans hm)⟩
  | true =>
      by_cases h160 : i.packet.mem 34 = 160
      · exact decided_get (hmine.trans hm) hm h160
      · by_cases h161 : i.packet.mem 34 = 161
        · exact decided_data (hmine.trans hm) hm h161
        · by_cases h163 : i.packet.mem 34 = 163
          · exact decided_control (hmine.trans hm) hm h163
          · exact decided_other (hmine.trans hm) hm h160 h161 h163

theorem disposed_iff_emits {t : Traced} (hi : t.Inv) (i : Input) : Disposed t i ↔ i.Emits := by
  rcases decided hi.sIp i with ⟨hemits, hout⟩ | ⟨hno, hnil⟩
  · exact iff_of_true hout hemits
  · refine iff_of_false ?_ hno
    rintro ⟨out, hout, -⟩
    rw [hnil] at hout
    cases hout

/-! ## Runs -/

/-- **The exact condition.** In a run every packet is handed to exactly one output, with the index
0 or that of an interface, if and only if every packet of the run is one that a branch emits
for. -/
theorem disposed_iff (inputs : List Input) :
    Lts.Along Traced.step Disposed Traced.start inputs ↔ ∀ i ∈ inputs, i.Emits := by
  have hcongr : Lts.Along Traced.step Disposed Traced.start inputs
      ↔ Lts.Along Traced.step (fun _ i => i.Emits) Traced.start inputs :=
    Lts.along_congr (fun t i t' hi h => Traced.Inv.step hi h) (fun t i hi => disposed_iff_emits hi i)
      Traced.inv_start
  exact hcongr.trans (Lts.along_const_iff fun t i => rfl)

/-- A Data packet from inside without PIDs. -/
def dataWithoutPids : Input where
  now := 0
  stack := []
  port := 0
  packet := packetWith [161, 0, 0, 0, 0, 0, 0, 0, 0, 0, 0] 114 []

/-- The router keeps the Data packet without PIDs, and it keeps an announcement. -/
theorem packets_kept :
    ¬ Lts.Along Traced.step Disposed Traced.start [dataWithoutPids]
      ∧ ¬ Lts.Along Traced.step Disposed Traced.start [announcementOf (.ofUInt32 5) 0x20b0a0a] := by
  have hkept : ∀ i : Input, (Traced.start.router.push i.now i.stack i.port i.packet).2.length = 0 →
      ¬ Lts.Along Traced.step Disposed Traced.start [i] := by
    intro i hlen h
    obtain ⟨out, hout, -⟩ := (h _ rfl).1
    rw [hout] at hlen
    cases hlen
  exact ⟨hkept _ (by decide), hkept _ (by decide)⟩

end BorderRouter
