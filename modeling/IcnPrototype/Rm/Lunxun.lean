import IcnPrototype.Lib.Run
import IcnPrototype.Rm.Forward

set_option autoImplicit false

/-! # Which exit a Get packet takes

`ADD_PID` asks `lunxun` for the PID, which names the three exits in turn. It is called for the Get
packets that are not freed, and only for these: `lunxun_in_turn` says that they leave by the exits
1, 2, 3, 1, 2, 3, ..., whatever is freed in between.
-/

namespace Rm

open Bytes Host

/-- The PID of an exit: `PID` and a digit. -/
def pidOf (k : Nat) : UInt32 := ofLe32 (pidName (0x30 + UInt8.ofNat k))

/-! ## In turn -/

/-- `k2` and `flag2` -/
structure Turn where
  k2 : Int
  flag2 : Int

/-- The initial values. -/
def Turn.start : Turn := ⟨0, 0⟩

/-- `lunxun`: the PID and the new values. Where no branch is taken, `k` has no value. -/
def lunxun (s : Turn) : Option (UInt32 × Turn) :=
  if s.k2 = 0 ∧ s.flag2 = 0 then some (pidOf 1, { s with k2 := 1 })
  else if s.k2 = 1 ∧ s.flag2 = 0 then some (pidOf 2, { s with flag2 := 1 })
  else if s.k2 = 1 ∧ s.flag2 = 1 then some (pidOf 3, ⟨0, 0⟩)
  else none

/-- A Get packet, and the port it came from. -/
structure Arrival where
  portId : Nat
  m : RteMbuf

/-- The RM between two Get packets: the values of `lunxun`, what was sent and to which port, and
what was freed. -/
structure Exits where
  turn : Turn
  sent : List (Nat × RteMbuf)
  freed : List RteMbuf

def Exits.start : Exits := ⟨.start, [], []⟩

/-- `get_packets_forward` frees the packet before it asks for a PID. -/
def Arrival.freed (a : Arrival) : Bool :=
  isValidIpv4Pkt (totalLengthPlus4 a.m.data) a.m.pktLen.toNat < 0

/-- `get_packets_forward`, where `ADD_PID` calls `lunxun`. -/
def Exits.step (c : LoopConfig) (s : Exits) (a : Arrival) : Option Exits :=
  if a.freed then some { s with freed := s.freed ++ [a.m] }
  else do
    let (pidXuan, turn) ← lunxun s.turn
    let out ← getPacketsForward c a.portId a.m pidXuan
    some { s with turn := turn, sent := s.sent ++ [out] }

/-- The exit of the packet that is sent after `n` others. -/
def exitAfter (n : Nat) : Nat := n % 3 + 1

/-- Where `lunxun` stands after `n` packets. -/
def Turn.after (n : Nat) : Turn :=
  if n % 3 = 0 then ⟨0, 0⟩ else if n % 3 = 1 then ⟨1, 0⟩ else ⟨1, 1⟩

theorem lunxun_after (n : Nat) :
    lunxun (.after n) = some (pidOf (exitAfter n), .after (n + 1)) := by
  have hlt : n % 3 < 3 := Nat.mod_lt n (by decide)
  have hsucc : (n + 1) % 3 = (n % 3 + 1) % 3 := by rw [Nat.add_mod]
  unfold exitAfter Turn.after
  rw [hsucc]
  match n % 3, hlt with
  | 0, _ => rfl
  | 1, _ => rfl
  | 2, _ => rfl

theorem exitOf_pidOf (n : Nat) : exitOf (le32 (pidOf (exitAfter n))) = exitAfter n := by
  have hlt : n % 3 < 3 := Nat.mod_lt n (by decide)
  unfold exitAfter
  match n % 3, hlt with
  | 0, _ => rfl
  | 1, _ => rfl
  | 2, _ => rfl

/-- The port is the exit of the PID. -/
theorem getPacketsForward_port (c : LoopConfig) (portId : Nat) {m : RteMbuf} {out : Nat × RteMbuf}
    (hlen : 14 + 20 + sizeofColorGet ≤ m.dataLen.toNat) {pid : UInt32}
    (hexit : exitOf (le32 pid) ≠ 0) (hout : getPacketsForward c portId m pid = some out) :
    out.1 = exitOf (le32 pid) := by
  have hadd := @addPid_eq { m with data := countPid (totalLengthPlus4 m.data) } hlen pid
  unfold getPacketsForward at hout
  dsimp only at hout hadd
  rw [hadd] at hout
  dsimp only at hout
  rw [if_neg hexit] at hout
  split at hout
  · cases hout
  · exact (congrArg Prod.fst (Option.some.inj hout)).symm

/-- The packet `out` is the packet `a.m`, sent to the exit `k` with its PID. -/
structure SentTo (a : Arrival) (k : Nat) (out : Nat × RteMbuf) : Prop where
  port : out.1 = k
  forwarded : Forwarded a.m out.2 (pidOf k) k

/-- What the RM has done with the packets so far. -/
structure Exits.InTurn (s : Exits) (as : List Arrival) : Prop where
  turn : s.turn = .after s.sent.length
  freed : s.freed = (as.filter Arrival.freed).map Arrival.m
  sent : List.Forall₂ (fun a out => SentTo a.1 (exitAfter a.2) out)
    (as.filter fun a => !a.freed).zipIdx s.sent

/-- One packet: it is freed, or it takes the exit whose turn it is. -/
theorem Exits.InTurn.step {c : LoopConfig} {s : Exits} {as : List Arrival} (h : s.InTurn as)
    {a : Arrival} (hlen : 14 + 20 + sizeofColorGet ≤ a.m.dataLen.toNat) :
    ∃ s', s.step c a = some s' ∧ s'.InTurn (as ++ [a]) := by
  by_cases hfreed : a.freed = true
  · refine ⟨{ s with freed := s.freed ++ [a.m] }, if_pos hfreed, h.turn, ?_, ?_⟩
    · rw [h.freed, List.filter_append, List.map_append, List.filter_cons_of_pos hfreed]
      rfl
    · rw [List.filter_append, List.filter_cons_of_neg (by simp [hfreed]), List.filter_nil,
        List.append_nil]
      exact h.sent
  · have hvalid : ¬ isValidIpv4Pkt (totalLengthPlus4 a.m.data) a.m.pktLen.toNat < 0 := by
      simpa [Arrival.freed] using hfreed
    obtain ⟨port, out, hout, hfwd⟩ := getPacketsForward_forwarded c a.portId hlen hvalid
      (pidOf (exitAfter s.sent.length))
    rw [exitOf_pidOf] at hfwd
    have hport : port = exitAfter s.sent.length := by
      have hexit := exitOf_pidOf s.sent.length
      rw [← hexit]
      apply getPacketsForward_port c a.portId hlen _ hout
      rw [hexit]
      exact Nat.succ_ne_zero _
    have hstep : s.step c a
        = some { s with turn := .after (s.sent.length + 1), sent := s.sent ++ [(port, out)] } := by
      rw [Exits.step, if_neg hfreed, h.turn, lunxun_after]
      dsimp only [Option.bind_eq_bind, Option.bind_some]
      rw [hout]
      rfl
    have hnumber : (as.filter fun a => !a.freed).length = s.sent.length := by
      have hlength := h.sent.length_eq
      rwa [List.length_zipIdx] at hlength
    refine ⟨_, hstep, ?_, ?_, ?_⟩
    · rw [List.length_append, List.length_singleton]
    · rw [h.freed, List.filter_append, List.filter_cons_of_neg hfreed, List.filter_nil,
        List.append_nil]
    · rw [List.filter_append, List.filter_cons_of_pos (by simp [hfreed]), List.filter_nil,
        List.zipIdx_append, hnumber]
      apply List.rel_append h.sent
      refine List.Forall₂.cons ⟨?_, ?_⟩ List.Forall₂.nil
      · rw [Nat.zero_add]
        exact hport
      · rw [Nat.zero_add]
        exact hfwd

/-- **The exits are taken in turn.** For every sequence of Get packets, the RM frees the ones that
are not valid, and the others leave in their order by the exits 1, 2, 3, 1, 2, 3, ..., each with the
PID and the addresses of its exit. -/
theorem lunxun_in_turn (c : LoopConfig) {as : List Arrival}
    (hlen : ∀ a ∈ as, 14 + 20 + sizeofColorGet ≤ a.m.dataLen.toNat) :
    ∃ s, Lts.exec (Exits.step c) .start as = some s
      ∧ s.freed = (as.filter Arrival.freed).map Arrival.m
      ∧ List.Forall₂ (fun a out => SentTo a.1 (exitAfter a.2) out)
        (as.filter fun a => !a.freed).zipIdx s.sent := by
  have hrun : ∃ s, Lts.exec (Exits.step c) .start as = some s ∧ s.InTurn as := by
    -- induction from the end: the last packet is sent where the others have left off
    induction as using List.reverseRecOn with
    | nil => exact ⟨.start, rfl, rfl, rfl, List.Forall₂.nil⟩
    | append_singleton as a ih =>
        obtain ⟨has, ha⟩ := List.forall_mem_append.mp hlen
        obtain ⟨s, hs, hinTurn⟩ := ih has
        obtain ⟨s', hstep, hinTurn'⟩ := hinTurn.step (c := c) (ha a (List.mem_singleton_self a))
        refine ⟨s', ?_, hinTurn'⟩
        rw [Lts.exec_append, hs, Option.bind_some, Lts.exec_cons, hstep]
        rfl
  obtain ⟨s, hs, hinTurn⟩ := hrun
  exact ⟨s, hs, hinTurn.freed, hinTurn.sent⟩

/-- The same packet with an IP header of another version. -/
def getOfVersion0 : RteMbuf := { getWithoutPids with data := poke getWithoutPids.data 14 [0] }

/-- A packet that is freed, between packets that are sent. -/
def fourArrivals : List Arrival :=
  [⟨0, getWithoutPids⟩, ⟨0, getOfVersion0⟩, ⟨1, getWithoutPids⟩, ⟨0, getWithoutPids⟩]

theorem lunxun_in_turn_four :
    ∃ s, Lts.exec (Exits.step noAddresses) .start fourArrivals = some s
      ∧ s.freed = (fourArrivals.filter Arrival.freed).map Arrival.m
      ∧ List.Forall₂ (fun a out => SentTo a.1 (exitAfter a.2) out)
        (fourArrivals.filter fun a => !a.freed).zipIdx s.sent := by
  apply lunxun_in_turn noAddresses
  simp only [fourArrivals, List.forall_mem_cons]
  exact ⟨by decide, by decide, by decide, by decide, List.forall_mem_nil _⟩

end Rm
