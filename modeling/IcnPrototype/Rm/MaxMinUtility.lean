import IcnPrototype.Lib.Balance
import IcnPrototype.Rm.Forward

set_option autoImplicit false

/-! # Balancing the exits

`max_min_utility` chooses the exit for a flow: the one with the smallest counter of `pc3_port`,
`pc4_port` and `pc5_port`, to which the size of the flow is added. Only a counter smaller than both
others is recognised. For all ties `rand` decides between the three exits, also where two exits tie
and the third one has more (`RandMisses`). `balances_iff` says that nothing else goes wrong, and
`maxMinUtility_balances` what holds in the runs where this does not happen.

The counters are integers here: nothing overflows.
-/

namespace Rm

open Bytes

/-- `pc3_port`, `pc4_port` and `pc5_port` -/
structure PortLoads where
  pc3Port : ℤ
  pc4Port : ℤ
  pc5Port : ℤ
  deriving DecidableEq

/-- What a call of `max_min_utility` depends on, besides the counters: the size of the flow, and
what `rand` returns. -/
structure FlowCall where
  ccFlowSize : UInt32
  rand : Nat

/-- `max_min_utility`: the PID and the counters. -/
def maxMinUtility (s : PortLoads) (a : FlowCall) : UInt32 × PortLoads :=
  let k :=
    if s.pc3Port < s.pc4Port ∧ s.pc3Port < s.pc5Port then 1
    else if s.pc4Port < s.pc3Port ∧ s.pc4Port < s.pc5Port then 2
    else if s.pc5Port < s.pc3Port ∧ s.pc5Port < s.pc4Port then 3
    else a.rand % 3 + 1
  let s :=
    if k = 1 then { s with pc3Port := s.pc3Port + a.ccFlowSize.toNat }
    else if k = 2 then { s with pc4Port := s.pc4Port + a.ccFlowSize.toNat }
    else if k = 3 then { s with pc5Port := s.pc5Port + a.ccFlowSize.toNat }
    else s
  (ofLe32 (pidName (0x30 + UInt8.ofNat k)), s)

/-- The counters along a run of calls. -/
def PortLoads.step (s : PortLoads) (a : FlowCall) : Option PortLoads := some (maxMinUtility s a).2

/-! ## The exits -/

deriving instance DecidableEq for TrapHost

/-- The exit to a host. -/
def TrapHost.exit : TrapHost → Nat
  | pc3 => 1
  | pc4 => 2
  | pc5 => 3

/-- The PID of an exit. -/
def TrapHost.pid (host : TrapHost) : UInt32 := ofLe32 (pidName (0x30 + UInt8.ofNat host.exit))

theorem TrapHost.exitOf_pid (host : TrapHost) : exitOf (le32 host.pid) = host.exit := by
  cases host
  · rfl
  · rfl
  · rfl

theorem TrapHost.pid_injective {host other : TrapHost} (h : host.pid = other.pid) :
    host = other := by
  have hexit : host.exit = other.exit := by rw [← exitOf_pid, ← exitOf_pid, h]
  cases host <;> cases other <;> first | rfl | cases hexit

/-- The counter of an exit. -/
def PortLoads.load (s : PortLoads) : TrapHost → ℤ
  | .pc3 => s.pc3Port
  | .pc4 => s.pc4Port
  | .pc5 => s.pc5Port

def PortLoads.maxLoad (s : PortLoads) : ℤ := max (max s.pc3Port s.pc4Port) s.pc5Port

def PortLoads.minLoad (s : PortLoads) : ℤ := min (min s.pc3Port s.pc4Port) s.pc5Port

theorem PortLoads.exists_maxLoad (s : PortLoads) : ∃ i, s.load i = s.maxLoad := by
  unfold maxLoad
  rcases max_choice (max s.pc3Port s.pc4Port) s.pc5Port with h5 | h5
  · rcases max_choice s.pc3Port s.pc4Port with h3 | h3
    · exact ⟨.pc3, (h5.trans h3).symm⟩
    · exact ⟨.pc4, (h5.trans h3).symm⟩
  · exact ⟨.pc5, h5.symm⟩

theorem PortLoads.exists_minLoad (s : PortLoads) : ∃ i, s.load i = s.minLoad := by
  unfold minLoad
  rcases min_choice (min s.pc3Port s.pc4Port) s.pc5Port with h5 | h5
  · rcases min_choice s.pc3Port s.pc4Port with h3 | h3
    · exact ⟨.pc3, (h5.trans h3).symm⟩
    · exact ⟨.pc4, (h5.trans h3).symm⟩
  · exact ⟨.pc5, h5.symm⟩

theorem PortLoads.within_iff {s : PortLoads} {d : ℤ} :
    Balance.Within s.load d ↔ s.maxLoad - s.minLoad ≤ d := by
  constructor
  · intro h
    obtain ⟨i, hi⟩ := s.exists_maxLoad
    obtain ⟨j, hj⟩ := s.exists_minLoad
    rw [← hi, ← hj]
    exact h i j
  · intro h i j
    have hle : s.load i ≤ s.maxLoad := by cases i <;> simp [load, maxLoad]
    have hge : s.minLoad ≤ s.load j := by cases j <;> simp [load, minLoad]
    exact (sub_le_sub hle hge).trans h

/-! ## One call -/

/-- The exit that `rand` picks. -/
def FlowCall.randHost (a : FlowCall) : TrapHost :=
  if a.rand % 3 = 0 then .pc3 else if a.rand % 3 = 1 then .pc4 else .pc5

/-- The exit of a call. -/
def PortLoads.chosen (s : PortLoads) (a : FlowCall) : TrapHost :=
  if s.pc3Port < s.pc4Port ∧ s.pc3Port < s.pc5Port then .pc3
  else if s.pc4Port < s.pc3Port ∧ s.pc4Port < s.pc5Port then .pc4
  else if s.pc5Port < s.pc3Port ∧ s.pc5Port < s.pc4Port then .pc5
  else a.randHost

theorem FlowCall.randHost_exit (a : FlowCall) : a.randHost.exit = a.rand % 3 + 1 := by
  unfold randHost
  split_ifs with h0 h1
  · rw [h0]; rfl
  · rw [h1]; rfl
  · show 3 = a.rand % 3 + 1
    omega

theorem PortLoads.chosen_exit (s : PortLoads) (a : FlowCall) :
    (s.chosen a).exit =
      if s.pc3Port < s.pc4Port ∧ s.pc3Port < s.pc5Port then 1
      else if s.pc4Port < s.pc3Port ∧ s.pc4Port < s.pc5Port then 2
      else if s.pc5Port < s.pc3Port ∧ s.pc5Port < s.pc4Port then 3
      else a.rand % 3 + 1 := by
  unfold chosen
  split_ifs
  · rfl
  · rfl
  · rfl
  · exact a.randHost_exit

/-- **What `max_min_utility` does**: the flow goes to the exit chosen. -/
theorem maxMinUtility_eq (s : PortLoads) (a : FlowCall) :
    (maxMinUtility s a).1 = (s.chosen a).pid
      ∧ (maxMinUtility s a).2.load = Balance.add s.load (s.chosen a) a.ccFlowSize.toNat := by
  unfold maxMinUtility
  dsimp only
  rw [← s.chosen_exit a]
  refine ⟨rfl, ?_⟩
  funext host
  unfold Balance.add
  cases s.chosen a <;> cases host <;> rfl

/-- The flow is added to a smallest counter, and the PID is that of the same exit. -/
structure BalancesBy (s : PortLoads) (a : FlowCall) (host : TrapHost) : Prop where
  isLeast : Balance.IsLeast s.load host
  load : (maxMinUtility s a).2.load = Balance.add s.load host a.ccFlowSize.toNat
  pid : (maxMinUtility s a).1 = host.pid

/-- The call balances. -/
def Balances (s : PortLoads) (a : FlowCall) : Prop := ∃ host, BalancesBy s a host

/-- Two exits tie, the third one has more, and it is the one `rand` picks. -/
def RandMisses (s : PortLoads) (a : FlowCall) : Prop :=
  ∃ host d, host.exit = a.rand % 3 + 1 ∧ ∀ other ≠ host, s.load other = d ∧ d < s.load host

theorem balances_iff_isLeast {s : PortLoads} {a : FlowCall} :
    Balances s a ↔ Balance.IsLeast s.load (s.chosen a) := by
  obtain ⟨hpid, hload⟩ := maxMinUtility_eq s a
  constructor
  · rintro ⟨host, h⟩
    rw [← TrapHost.pid_injective (h.pid.symm.trans hpid)]
    exact h.isLeast
  · exact fun h => ⟨s.chosen a, h, hload, hpid⟩

theorem TrapHost.forall_iff {p : TrapHost → Prop} : (∀ host, p host) ↔ p .pc3 ∧ p .pc4 ∧ p .pc5 :=
  ⟨fun h => ⟨h .pc3, h .pc4, h .pc5⟩, fun ⟨h3, h4, h5⟩ host => by
    cases host
    · exact h3
    · exact h4
    · exact h5⟩

/-- A counter smaller than both others is that of the exit chosen; else `rand` decides. -/
theorem PortLoads.chosen_isLeast {s : PortLoads} {a : FlowCall} :
    Balance.IsLeast s.load (s.chosen a)
      ↔ s.chosen a ≠ a.randHost ∨ Balance.IsLeast s.load a.randHost := by
  unfold Balance.IsLeast
  simp only [TrapHost.forall_iff]
  unfold chosen
  split_ifs with h3 h4 h5
  all_goals cases a.randHost
  all_goals simp only [load, ne_eq, reduceCtorEq, not_true_eq_false, not_false_eq_true, false_or,
    true_or, iff_true]
  all_goals omega

/-- `rand` picks an exit that has more than both others, which tie. -/
theorem randMisses_iff {s : PortLoads} {a : FlowCall} :
    RandMisses s a ↔ s.chosen a = a.randHost ∧ ¬ Balance.IsLeast s.load a.randHost := by
  have hexit : ∀ host : TrapHost, host.exit = a.rand % 3 + 1 ↔ host = a.randHost := by
    intro host
    rw [← a.randHost_exit]
    refine ⟨fun h => TrapHost.pid_injective ?_, fun h => by rw [h]⟩
    rw [TrapHost.pid, TrapHost.pid, h]
  unfold RandMisses Balance.IsLeast PortLoads.chosen
  simp only [hexit, TrapHost.forall_iff]
  cases a.randHost
  all_goals simp only [PortLoads.load, exists_and_left, exists_eq_left, ne_eq, reduceCtorEq,
    not_true_eq_false, not_false_eq_true, false_implies, true_implies, true_and, and_true]
  all_goals constructor
  case pc3.mp | pc4.mp | pc5.mp =>
    rintro ⟨d, ⟨rfl, hlt⟩, heq, -⟩
    -- no counter is smaller than both others
    rw [if_neg (by omega), if_neg (by omega), if_neg (by omega)]
    exact ⟨rfl, by omega⟩
  case pc3.mpr | pc4.mpr | pc5.mpr =>
    rintro ⟨hchosen, hmin⟩
    refine ⟨_, ⟨rfl, ?_⟩, ?_, ?_⟩
    all_goals split_ifs at hchosen
    all_goals omega

instance (s : PortLoads) (host : TrapHost) : Decidable (Balance.IsLeast s.load host) :=
  decidable_of_iff _ TrapHost.forall_iff.symm

instance (s : PortLoads) (a : FlowCall) : Decidable (RandMisses s a) :=
  decidable_of_iff _ randMisses_iff.symm

/-- **When a call balances.** -/
theorem balances_iff {s : PortLoads} {a : FlowCall} : Balances s a ↔ ¬ RandMisses s a := by
  rw [balances_iff_isLeast, PortLoads.chosen_isLeast, randMisses_iff, not_and_or, Classical.not_not]

/-! ## Runs -/

/-- The sizes of the flows. -/
def flows (calls : List FlowCall) : List ℤ := calls.map fun a => a.ccFlowSize.toNat

/-- Calls that balance do what the balancer does. -/
theorem balancer_of_balances {s s' : PortLoads} {calls : List FlowCall}
    (h : Lts.Along PortLoads.step Balances s calls)
    (hex : Lts.exec PortLoads.step s calls = some s') :
    ∃ ms, Lts.exec Balance.step s.load ms = some s'.load ∧ ms.map Prod.snd = flows calls := by
  induction calls generalizing s with
  | nil =>
      rw [Lts.exec_nil, Option.some.injEq] at hex
      exact ⟨[], congrArg (fun t : PortLoads => some t.load) hex, rfl⟩
  | cons a calls ih =>
      obtain ⟨s₁, h1, hex⟩ := Lts.exec_cons_eq_some.mp hex
      obtain ⟨⟨host, hcall⟩, hrest⟩ := h s₁ h1
      obtain ⟨ms, hms, hflows⟩ := ih hrest hex
      obtain rfl := Option.some.inj h1
      refine ⟨(host, a.ccFlowSize.toNat) :: ms, ?_, ?_⟩
      · rw [Lts.exec_cons_eq_some]
        exact ⟨_, Balance.step_eq_some.mpr ⟨hcall.isLeast, hcall.load.symm⟩, hms⟩
      · rw [List.map_cons, hflows]
        rfl

theorem flows_nonneg {calls : List FlowCall} {x : ℤ} (h : x ∈ flows calls) : 0 ≤ x := by
  obtain ⟨a, -, rfl⟩ := List.mem_map.mp h
  exact Int.natCast_nonneg _

/-- The spread after calls that balance. -/
theorem spread_of_balances {s s' : PortLoads} {calls : List FlowCall}
    (h : Lts.Along PortLoads.step Balances s calls)
    (hex : Lts.exec PortLoads.step s calls = some s') :
    s'.maxLoad - s'.minLoad ≤ Balance.largest (s.maxLoad - s.minLoad) (flows calls) := by
  obtain ⟨ms, hms, hflows⟩ := balancer_of_balances h hex
  rw [← PortLoads.within_iff, ← hflows]
  refine Balance.within_exec ?_ (PortLoads.within_iff.mpr le_rfl) hms
  intro m hm
  exact flows_nonneg (hflows ▸ List.mem_map_of_mem hm)

/-- **When `max_min_utility` balances the exits.** For every start and every run of calls: all calls
balance if and only if `rand` never misses. Then, at every point of the run, the counters differ by
no more than at the beginning or than the largest flow so far. -/
theorem maxMinUtility_balances (s : PortLoads) (calls : List FlowCall) :
    (Lts.Along PortLoads.step Balances s calls
        ↔ Lts.Along PortLoads.step (fun s a => ¬ RandMisses s a) s calls)
      ∧ (Lts.Along PortLoads.step (fun s a => ¬ RandMisses s a) s calls →
        ∀ before after s', calls = before ++ after →
          Lts.exec PortLoads.step s before = some s' →
          s'.maxLoad - s'.minLoad ≤ Balance.largest (s.maxLoad - s.minLoad) (flows before)) := by
  have hiff : Lts.Along PortLoads.step Balances s calls
      ↔ Lts.Along PortLoads.step (fun s a => ¬ RandMisses s a) s calls :=
    Lts.along_congr (I := fun _ => True) (fun _ _ _ _ _ => trivial) (fun _ _ _ => balances_iff)
      trivial
  refine ⟨hiff, ?_⟩
  rintro h before after s' rfl hex
  exact spread_of_balances (Lts.along_append.mp (hiff.mpr h)).1 hex

theorem maxMinUtility_balances_two :
    ∀ before after s', [(⟨7, 2⟩ : FlowCall), ⟨3, 0⟩] = before ++ after →
      Lts.exec PortLoads.step ⟨0, 0, 0⟩ before = some s' →
      s'.maxLoad - s'.minLoad ≤ Balance.largest 0 (flows before) := by
  have hmiss : Lts.Along PortLoads.step (fun s a => ¬ RandMisses s a) ⟨0, 0, 0⟩
      [⟨7, 2⟩, ⟨3, 0⟩] := by decide
  exact (maxMinUtility_balances ⟨0, 0, 0⟩ [⟨7, 2⟩, ⟨3, 0⟩]).2 hmiss

/-- Two exits tie, and the third one, which has more, gets the flow. -/
theorem not_balances :
    ¬ Balances ⟨0, 0, 5⟩ ⟨10, 2⟩
      ∧ PortLoads.step ⟨0, 0, 5⟩ ⟨10, 2⟩ = some ⟨0, 0, 15⟩
      ∧ ¬ PortLoads.maxLoad ⟨0, 0, 15⟩ - PortLoads.minLoad ⟨0, 0, 15⟩
        ≤ Balance.largest (PortLoads.maxLoad ⟨0, 0, 5⟩ - PortLoads.minLoad ⟨0, 0, 5⟩) [10] := by
  refine ⟨?_, by decide, by decide⟩
  rw [balances_iff_isLeast]
  exact fun h => absurd (h .pc3) (by decide)

end Rm
