import IcnPrototype.Lib.Sample
import IcnPrototype.Monitor.RoundTrip

set_option autoImplicit false

/-! # The measurement of a link

`get_link_stats` sends `MAX_NO_PACKETS` probes, one after the other, and waits for the answer of
each. The counters are static; `init_statistics` clears them. If the greatest rtt is over half a
second, the measurement is meant to be repeated. But `end_flag`, which ends the loop over the
probes, is not set again: the second pass sends nothing, and divides by the number of the probes
it has sent (`getLinkStats_measures_iff`).

What is computed in floating point is exact here. The division of 0 by 0 has no value.
-/

namespace Monitor

open Bytes

/-- `MAX_NO_PACKETS` -/
def maxNoPackets : Nat := 5

/-- `TIMEOUT/1000`, in milliseconds. -/
def timeoutMs : ℚ := 500

/-! ## One probe -/

/-- What `select` reports, with what `recvfrom` and `gettimeofday` give if the socket can be
read. There is no other socket in the set. -/
inductive Select
  | error
  | timeout
  | readable (buf : Mem) (recvSize : Int) (now : Timeval)

/-- The static variables. -/
structure LinkTest where
  nsend : Nat
  nreceived : Nat
  tempRtt : List ℚ
  allTime : ℚ
  min : ℚ
  max : ℚ
  avg : ℚ
  mdev : ℚ
deriving DecidableEq

namespace LinkTest

/-- `init_statistics`, and the variables before the first call. -/
def initStatistics : LinkTest := ⟨0, 0, List.replicate maxNoPackets 0, 0, 0, 0, 0, 0⟩

/-- What `unpack` does with an rtt. The write must be in `temp_rtt`. -/
def store (s : LinkTest) (rtt : ℚ) : Option LinkTest :=
  if s.nreceived < maxNoPackets then
    some { s with
      tempRtt := s.tempRtt.set s.nreceived rtt
      allTime := s.allTime + rtt
      nreceived := s.nreceived + 1 }
  else none

/-- `recv_packet` over what `select` reports. It waits on while nothing is left. -/
def recvPacket (pid : Int) (s : LinkTest) : List Select → Option LinkTest
  | [] => none
  | .error :: _ => some s
  | .timeout :: _ => some s
  | .readable buf recvSize now :: rest =>
      match unpack pid s.nsend buf recvSize now with
      | some rtt => s.store rtt
      | none => recvPacket pid s rest

/-- `while(end_flag)`, with at most `fuel` rounds. `k` counts the probes of the call. -/
def probeLoop (pid : Int) (results : Nat → List Select) :
    Nat → Nat → LinkTest → Option (LinkTest × Nat)
  | 0, _, _ => none
  | fuel + 1, k, s => do
      -- `send_packet`
      let s := { s with nsend := s.nsend + 1 }
      let s ← s.recvPacket pid (results k)
      if maxNoPackets ≤ s.nsend then some (s, k + 1)
      else probeLoop pid results fuel (k + 1) s

/-! ## The statistics -/

/-- A turn of the loop of `computer_rtt`: `min`, `max` and `sum_avg`. -/
def rttTurn (avg : ℚ) (acc : ℚ × ℚ × ℚ) (rtt : ℚ) : ℚ × ℚ × ℚ :=
  let (min, max, sumAvg) := acc
  let (min, max) := if rtt < min then (rtt, max) else if max < rtt then (min, rtt) else (min, max)
  (min, max, if rtt - avg < 0 then sumAvg + (avg - rtt) else sumAvg + (rtt - avg))

/-- `computer_rtt`. The reads must be in `temp_rtt`. -/
def computerRtt (s : LinkTest) : Option LinkTest :=
  if maxNoPackets < s.nreceived then none
  else
    let first := s.tempRtt.headD 0
    let avg := if s.nreceived ≠ 0 then s.allTime / s.nreceived else s.avg
    let (min, max, sumAvg) := (s.tempRtt.take s.nreceived).foldl (rttTurn avg) (first, first, 0)
    let mdev := if s.nreceived ≠ 0 then sumAvg / s.nreceived else s.mdev
    some { s with min := min, max := max, avg := avg, mdev := mdev }

end LinkTest

/-- `struct LINK_STATS`. The `packet_loss` has no value after a division by 0. -/
structure LinkStats where
  packetLoss : Option ℚ
  rttAvg : ℚ
  rttMin : ℚ
  rttMax : ℚ
  rttMdev : ℚ
deriving DecidableEq

open LinkTest

/-- The assignments to `link_stats`. -/
def readStats (s : LinkTest) : LinkStats where
  packetLoss := if s.nsend = 0 then none else some (((s.nsend : ℚ) - s.nreceived) / s.nsend * 100)
  rttAvg := s.avg
  rttMin := s.min
  rttMax := s.max
  rttMdev := s.mdev

/-- `while(start_flag)`, with at most `fuel` rounds. -/
def linkLoop (pid : Int) (results : Nat → List Select) :
    Nat → Bool → Nat → LinkTest → Option (LinkStats × LinkTest)
  | 0, _, _, _ => none
  | fuel + 1, endFlag, k, s => do
      let (s, k) ← if endFlag then probeLoop pid results fuel k s else some (s, k)
      let s ← s.computerRtt
      if s.max ≤ timeoutMs then some (readStats s, initStatistics)
      else linkLoop pid results fuel false k initStatistics

/-- `get_link_stats` with working sockets: what it stores, and the static variables after it. -/
def getLinkStats (pid : Int) (results : Nat → List Select) (fuel : Nat) (s : LinkTest) :
    Option (LinkStats × LinkTest) :=
  linkLoop pid results fuel true 0 { s with tempRtt := List.replicate maxNoPackets 0 }

/-! ## Networks -/

/-- What becomes of the probe `nsend`: it is answered with an rtt, or it times out. -/
def probeOutcome (pid nsend : Int) : List Select → Option (Option ℚ)
  | [] => none
  | .error :: _ => none
  | .timeout :: _ => some none
  | .readable buf recvSize now :: rest =>
      match unpack pid nsend buf recvSize now with
      | some rtt => some (some rtt)
      | none => probeOutcome pid nsend rest

/-- A network that answers each probe of a measurement, or lets it time out. -/
structure Network (pid : Int) where
  results : Nat → List Select
  rtts : Nat → Option ℚ
  outcome : ∀ k < maxNoPackets, probeOutcome pid ((k + 1 : Nat) : Int) (results k) = some (rtts k)

/-- The rtts of the first `k` probes. -/
def Network.answers {pid : Int} (net : Network pid) (k : Nat) : List ℚ :=
  (List.range k).filterMap net.rtts

/-! ## The measurement -/

namespace Network

variable {pid : Int} (net : Network pid)

theorem answers_succ (k : Nat) : net.answers (k + 1) = net.answers k ++ (net.rtts k).toList := by
  rw [answers, List.range_succ, List.filterMap_append]
  cases h : net.rtts k <;> simp [answers, h]

theorem answers_length_le (k : Nat) : (net.answers k).length ≤ k := by
  rw [answers]
  exact (List.length_filterMap_le _ _).trans_eq List.length_range

/-- The static variables after `k` probes. -/
def after (k : Nat) : LinkTest where
  nsend := k
  nreceived := (net.answers k).length
  tempRtt := net.answers k ++ List.replicate (maxNoPackets - (net.answers k).length) 0
  allTime := (net.answers k).sum
  min := 0
  max := 0
  avg := 0
  mdev := 0

theorem after_zero : net.after 0 = initStatistics := rfl

end Network

/-- `recv_packet` does what becomes of the probe. -/
theorem recvPacket_eq {pid : Int} {s : LinkTest} {rs : List Select} {o : Option ℚ}
    (h : probeOutcome pid s.nsend rs = some o) :
    s.recvPacket pid rs = o.elim (some s) s.store := by
  induction rs with
  | nil => cases h
  | cons r rs ih =>
      cases r with
      | error => cases h
      | timeout =>
          obtain rfl := Option.some.inj h
          rfl
      | readable buf recvSize now =>
          rw [probeOutcome] at h
          rw [recvPacket]
          cases hunpack : unpack pid s.nsend buf recvSize now with
          | some rtt =>
              rw [hunpack] at h
              obtain rfl := Option.some.inj h
              rfl
          | none =>
              rw [hunpack] at h
              exact ih h

/-- The rtt goes behind those that are there. -/
theorem store_after {pid : Int} (net : Network pid) {k : Nat} (hk : k < maxNoPackets) {rtt : ℚ}
    (hrtt : net.rtts k = some rtt) :
    store { net.after k with nsend := k + 1 } rtt = some (net.after (k + 1)) := by
  have hlen := net.answers_length_le k
  have hroom : (net.answers k).length < maxNoPackets := lt_of_le_of_lt hlen hk
  have hanswers : net.answers (k + 1) = net.answers k ++ [rtt] := by
    rw [net.answers_succ, hrtt]
    rfl
  have hrest : maxNoPackets - (net.answers k).length
      = maxNoPackets - ((net.answers k).length + 1) + 1 := by omega
  have hset : (net.answers k ++ List.replicate (maxNoPackets - (net.answers k).length) 0).set
      (net.answers k).length rtt
      = net.answers (k + 1)
        ++ List.replicate (maxNoPackets - (net.answers (k + 1)).length) 0 := by
    rw [List.set_append_right _ _ (Nat.le_refl _), Nat.sub_self, hrest, List.replicate_succ,
      List.set_cons_zero, hanswers, List.length_append, List.append_assoc]
    rfl
  have hsum : (net.answers k).sum + rtt = (net.answers (k + 1)).sum := by
    rw [hanswers, List.sum_append, List.sum_singleton]
  have hcount : (net.answers k).length + 1 = (net.answers (k + 1)).length := by
    rw [hanswers, List.length_append, List.length_singleton]
  have hlt : (net.after k).nreceived < maxNoPackets := hroom
  rw [store, if_pos hlt]
  simp only [Network.after, hset, hsum, hcount]

/-- **One probe.** -/
theorem recvPacket_after {pid : Int} (net : Network pid) {k : Nat} (hk : k < maxNoPackets) :
    recvPacket pid { net.after k with nsend := k + 1 } (net.results k)
      = some (net.after (k + 1)) := by
  have hout : probeOutcome pid (({ net.after k with nsend := k + 1 } : LinkTest).nsend : Int)
      (net.results k) = some (net.rtts k) := net.outcome k hk
  rw [recvPacket_eq hout]
  cases hrtt : net.rtts k with
  | some rtt => exact store_after net hk hrtt
  | none =>
      have hanswers : net.answers (k + 1) = net.answers k := by
        rw [net.answers_succ, hrtt, Option.toList_none, List.append_nil]
      simp [Network.after, hanswers]

/-- A round of the loop over the probes. -/
theorem probeLoop_succ {pid : Int} {results : Nat → List Select} (fuel : Nat) {k : Nat}
    {s s' : LinkTest} (h : recvPacket pid { s with nsend := s.nsend + 1 } (results k) = some s') :
    probeLoop pid results (fuel + 1) k s
      = if maxNoPackets ≤ s'.nsend then some (s', k + 1)
        else probeLoop pid results fuel (k + 1) s' := by
  rw [probeLoop]
  simp only [h, Option.bind_eq_bind, Option.bind_some]

/-- The loop over the probes ends after the last one, if there are rounds enough for it. -/
theorem probeLoop_after {pid : Int} (net : Network pid) (fuel : Nat) {k : Nat}
    (hk : k < maxNoPackets) :
    probeLoop pid net.results fuel k (net.after k)
      = if maxNoPackets ≤ k + fuel then some (net.after maxNoPackets, maxNoPackets) else none := by
  induction fuel generalizing k with
  | zero =>
      have hno : ¬ maxNoPackets ≤ k + 0 := by omega
      rw [if_neg hno]
      rfl
  | succ fuel ih =>
      have hsend : (net.after (k + 1)).nsend = k + 1 := rfl
      rw [probeLoop_succ fuel (recvPacket_after net hk), hsend]
      by_cases hlast : maxNoPackets ≤ k + 1
      · have hkeq : k + 1 = maxNoPackets := by omega
        have hfuel : maxNoPackets ≤ k + (fuel + 1) := by omega
        rw [if_pos hlast, if_pos hfuel, hkeq]
      · rw [if_neg hlast, ih (Nat.lt_of_not_le hlast), Nat.add_right_comm, Nat.add_assoc]

/-! ## The statistics of the answers -/

/-- `min` and `max` are kept as the extremes of a sample are. -/
theorem foldl_rttTurn (avg : ℚ) (l : List ℚ) (acc : ℚ × ℚ × ℚ) :
    ((l.foldl (rttTurn avg) acc).1, (l.foldl (rttTurn avg) acc).2.1)
      = l.foldl Sample.turn (acc.1, acc.2.1) := by
  induction l generalizing acc with
  | nil => rfl
  | cons x l ih =>
      have hturn : ((rttTurn avg acc x).1, (rttTurn avg acc x).2.1)
          = Sample.turn (acc.1, acc.2.1) x := by
        by_cases hmin : x < acc.1
        · simp [rttTurn, Sample.turn, hmin]
        · by_cases hmax : acc.2.1 < x <;> simp [rttTurn, Sample.turn, hmin, hmax]
      rw [List.foldl_cons, ih, hturn, List.foldl_cons]

/-- What `computer_rtt` leaves, over the answers `l`: their extremes and their mean, or 0. -/
structure Computed (l : List ℚ) (s : LinkTest) : Prop where
  empty : l = [] → s.max = 0
  spans : l ≠ [] → Sample.Spans (s.min, s.max) {x | x ∈ l}
  mean : l ≠ [] → s.avg = l.sum / l.length

theorem computerRtt_after {pid : Int} (net : Network pid) {k : Nat} (hk : k ≤ maxNoPackets) :
    ∃ s, (net.after k).computerRtt = some s ∧ s.nsend = k
      ∧ s.nreceived = (net.answers k).length ∧ Computed (net.answers k) s := by
  have hlen := net.answers_length_le k
  have hroom : ¬ maxNoPackets < (net.after k).nreceived := by
    show ¬ maxNoPackets < (net.answers k).length
    omega
  have htake : (net.after k).tempRtt.take (net.after k).nreceived = net.answers k :=
    List.take_left' rfl
  refine ⟨_, by rw [computerRtt, if_neg hroom], rfl, rfl, ?_⟩
  rw [htake]
  cases hl : net.answers k with
  | nil =>
      refine ⟨fun _ => ?_, fun hne => absurd rfl hne, fun hne => absurd rfl hne⟩
      simp [Network.after, hl, maxNoPackets]
  | cons a l =>
      have hfirst : (net.after k).tempRtt.headD 0 = a := by simp [Network.after, hl]
      have hne : (net.after k).nreceived ≠ 0 := by simp [Network.after, hl]
      refine ⟨fun h => absurd h (List.cons_ne_nil a l), fun _ => ?_, fun _ => ?_⟩
      · have hset : ({a} : Set ℚ) ∪ {x | x ∈ a :: l} = {x | x ∈ a :: l} :=
          Set.union_eq_self_of_subset_left fun x hx => by simp [Set.mem_singleton_iff.mp hx]
        have hspans := Sample.spans_foldl (Sample.spans_singleton a) (a :: l)
        rw [hset] at hspans
        rw [hfirst]
        simp only
        rw [foldl_rttTurn]
        exact hspans
      · simp only [if_pos hne]
        simp [Network.after, hl]

/-! ## The call -/

/-- The statistics of a measurement are well defined: there is no division by 0, and over the
answers, if there are any, they are the loss in percent, the extremes and the mean. -/
structure WellDefined {pid : Int} (net : Network pid) (r : LinkStats) : Prop where
  divides : r.packetLoss ≠ none
  loss : net.answers maxNoPackets ≠ [] →
    r.packetLoss
      = some (100 * ((maxNoPackets : ℚ) - (net.answers maxNoPackets).length) / maxNoPackets)
  least : net.answers maxNoPackets ≠ [] →
    IsLeast {x | x ∈ net.answers maxNoPackets} r.rttMin
  greatest : net.answers maxNoPackets ≠ [] →
    IsGreatest {x | x ∈ net.answers maxNoPackets} r.rttMax
  mean : net.answers maxNoPackets ≠ [] →
    r.rttAvg = (net.answers maxNoPackets).sum / (net.answers maxNoPackets).length
  ordered : net.answers maxNoPackets ≠ [] → r.rttMin ≤ r.rttAvg ∧ r.rttAvg ≤ r.rttMax

/-- A call returns, with well-defined statistics. -/
def Measures {pid : Int} (net : Network pid) : Prop :=
  ∃ fuel r s, getLinkStats pid net.results fuel initStatistics = some (r, s) ∧ WellDefined net r

/-- What is stored after a pass over all probes. -/
theorem wellDefined_readStats {pid : Int} (net : Network pid) {s : LinkTest}
    (hsend : s.nsend = maxNoPackets)
    (hreceived : s.nreceived = (net.answers maxNoPackets).length)
    (hs : Computed (net.answers maxNoPackets) s) : WellDefined net (readStats s) := by
  have hloss : (readStats s).packetLoss
      = some (100 * ((maxNoPackets : ℚ) - (net.answers maxNoPackets).length) / maxNoPackets) := by
    have hne : maxNoPackets ≠ 0 := by decide
    simp only [readStats, hsend, hreceived, if_neg hne]
    congr 1
    ring
  refine
    { divides := by rw [hloss]; exact Option.some_ne_none _
      loss := fun _ => hloss
      least := fun hne => (hs.spans hne).least
      greatest := fun hne => (hs.spans hne).greatest
      mean := hs.mean
      ordered := fun hne => ?_ }
  have hmean : (readStats s).rttAvg = _ := hs.mean hne
  rw [hmean]
  exact ⟨Sample.le_mean hne fun x hx => (hs.spans hne).least.2 hx,
    Sample.mean_le hne fun x hx => (hs.spans hne).greatest.2 hx⟩

/-- The greatest rtt is over the limit if and only if one is. -/
theorem Computed.max_le_iff {l : List ℚ} {s : LinkTest} (hs : Computed l s) :
    s.max ≤ timeoutMs ↔ ∀ rtt ∈ l, rtt ≤ timeoutMs := by
  by_cases hl : l = []
  · rw [hs.empty hl, hl]
    simp [timeoutMs]
  · have hgreatest := (hs.spans hl).greatest
    exact ⟨fun h rtt hrtt => (hgreatest.2 hrtt).trans h, fun h => h _ hgreatest.1⟩

/-- A pass that sends nothing: the static variables are clear, and the loss has no value. -/
theorem linkLoop_nothing (pid : Int) (results : Nat → List Select) (fuel k : Nat) :
    linkLoop pid results (fuel + 1) false k initStatistics
      = some (readStats initStatistics, initStatistics) := by
  rfl

/-- **What a call does.** It returns when there are rounds enough for the probes, and for a second
pass if an rtt is over the limit. -/
theorem getLinkStats_eq {pid : Int} (net : Network pid) (fuel : Nat) :
    ∃ s, s.nsend = maxNoPackets ∧ s.nreceived = (net.answers maxNoPackets).length
      ∧ Computed (net.answers maxNoPackets) s
      ∧ getLinkStats pid net.results (fuel + 1) initStatistics
        = if maxNoPackets ≤ fuel then
            some (readStats (if s.max ≤ timeoutMs then s else initStatistics), initStatistics)
          else none := by
  obtain ⟨s, hrun, hsend, hreceived, hs⟩ := computerRtt_after net (Nat.le_refl maxNoPackets)
  refine ⟨s, hsend, hreceived, hs, ?_⟩
  have hloop := probeLoop_after net fuel (k := 0) (by decide)
  rw [net.after_zero, Nat.zero_add] at hloop
  have hclear : ({ initStatistics with tempRtt := List.replicate maxNoPackets 0 } : LinkTest)
      = initStatistics := rfl
  rw [getLinkStats, hclear, linkLoop, if_pos rfl, hloop]
  by_cases hfuel : maxNoPackets ≤ fuel
  · simp only [if_pos hfuel, Option.bind_eq_bind, Option.bind_some, hrun]
    by_cases hmax : s.max ≤ timeoutMs
    · rw [if_pos hmax, if_pos hmax]
    · obtain ⟨n, rfl⟩ : ∃ n, fuel = n + 1 := Nat.exists_eq_succ_of_ne_zero (by
        rintro rfl
        exact absurd hfuel (by decide))
      rw [if_neg hmax, if_neg hmax, linkLoop_nothing]
  · simp only [if_neg hfuel, Option.bind_eq_bind, Option.bind_none]

/-- Every call returns, and leaves the static variables as it found them. -/
theorem getLinkStats_returns {pid : Int} (net : Network pid) :
    ∃ fuel r, getLinkStats pid net.results fuel initStatistics = some (r, initStatistics) := by
  obtain ⟨s, -, -, -, hrun⟩ := getLinkStats_eq net maxNoPackets
  rw [if_pos (Nat.le_refl _)] at hrun
  exact ⟨_, _, hrun⟩

/-- After an rtt over half a second, the second pass divides by 0. -/
theorem le_of_measures {pid : Int} {net : Network pid} (h : Measures net) :
    ∀ rtt ∈ net.answers maxNoPackets, rtt ≤ timeoutMs := by
  obtain ⟨fuel, r, s', hcall, hwell⟩ := h
  cases fuel with
  | zero => cases hcall
  | succ fuel =>
      obtain ⟨s, -, -, hs, hrun⟩ := getLinkStats_eq net fuel
      refine hs.max_le_iff.mp ?_
      by_contra hmax
      rw [hrun, if_neg hmax] at hcall
      split at hcall
      · have hr : readStats initStatistics = r := congrArg Prod.fst (Option.some.inj hcall)
        exact hwell.divides (hr ▸ rfl)
      · cases hcall

/-- **A measurement is well defined if and only if no rtt is over half a second.** -/
theorem getLinkStats_measures_iff {pid : Int} (net : Network pid) :
    Measures net ↔ ∀ rtt ∈ net.answers maxNoPackets, rtt ≤ timeoutMs := by
  refine ⟨le_of_measures, ?_⟩
  intro h
  obtain ⟨s, hsend, hreceived, hs, hrun⟩ := getLinkStats_eq net maxNoPackets
  rw [if_pos (Nat.le_refl _), if_pos (hs.max_le_iff.mpr h)] at hrun
  exact ⟨_, _, _, hrun, wellDefined_readStats net hsend hreceived hs⟩

/-- An answer to the first probe of the process 1234, which was sent at time 0. -/
def lateReply : Mem :=
  poke (poke (poke (fun _ => 0) 0 [69]) 24 (le16 1234)) 26 (le16 1)

/-- The answer is there just before the timeout, and the clock is read at 501 ms. The other probes
time out. -/
def lateNetwork : Network 1234 where
  results k := if k = 0 then [.readable lateReply 84 ⟨0, 501000⟩] else [.timeout]
  rtts k := if k = 0 then some 501 else none
  outcome k _ := by
    have hreply : unpack 1234 1 lateReply 84 ⟨0, 501000⟩ = some 501 := by decide +kernel
    by_cases hk : k = 0
    · subst hk
      simp [probeOutcome, hreply]
    · simp [probeOutcome, hk]

/-- The measurement of this network divides 0 by 0. -/
theorem not_measures_lateNetwork : ¬ Measures lateNetwork := by
  intro h
  have hanswers : lateNetwork.answers maxNoPackets = [501] := by decide +kernel
  have hle := le_of_measures h 501 (hanswers ▸ List.mem_cons_self)
  rw [timeoutMs] at hle
  norm_num at hle

end Monitor
