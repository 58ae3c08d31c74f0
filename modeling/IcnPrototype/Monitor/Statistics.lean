import IcnPrototype.Lib.Bytes
import IcnPrototype.Lib.Run

set_option autoImplicit false

/-! # The statistics of an interval

Per port, a capture thread counts the frames in `stats_info`, and `get_port_info` takes a snapshot
of the counters at the end of every interval and clears them (`get_port_info.c`). Every access is
in a section locked by a mutex, but neither the counting of a frame nor the change of the interval
is one section: `ethdump_parseEthHead` counts the frame and `ethdump_parseFrame` counts it again
if it is a Get or a Data packet; `record_counter` is in one section and the `memset` in another,
and in between the port is checked and the statistics are written out.

The steps are the four locked sections. Next to the counters there is a ledger of the frames they
have counted. No step reads it. It is cleared with the counters and copied with them, so it says
which frames a snapshot includes.
-/

namespace Monitor.Statistics

open Bytes

/-! ## Counters -/

/-- A captured frame: the buffer, and `size_received`. -/
structure Frame where
  buf : Mem
  size : UInt32

/-- The packets that are counted again. -/
inductive Kind where
  | get
  | data
  deriving DecidableEq

/-- `*head_type`, the byte behind the Ethernet header. -/
def Frame.kind (f : Frame) : Option Kind :=
  if f.buf 14 = 161 then some .data else if f.buf 14 = 160 then some .get else none

/-- `struct GET_PACK_COUNT` and `struct DATA_PACK_COUNT` -/
structure PackCount where
  txPackets : Int
  rxPackets : Int
  totalPackets : Int
  txBytes : Int
  rxBytes : Int
  totalBytes : Int
  deriving DecidableEq

/-- `struct STATS_INFO` without the rates, which are computed from the counters in the
snapshot. -/
structure StatsInfo where
  totalPackets : Int
  totalBytes : Int
  txPackets : Int
  rxPackets : Int
  txBytes : Int
  rxBytes : Int
  getPackCount : PackCount
  dataPackCount : PackCount
  deriving DecidableEq

/-- All counters are 0. -/
def PackCount.zero : PackCount := ⟨0, 0, 0, 0, 0, 0⟩

/-- `memset(&stats_info,0,sizeof(stats_info))` -/
def StatsInfo.zero : StatsInfo := ⟨0, 0, 0, 0, 0, 0, .zero, .zero⟩

/-- `ethdump_parseEthHead`: the counters, and 2 for a frame sent from this port or 1 for another.
The addresses are compared as strings. -/
def ethdumpParseEthHead (localMac : List UInt8) (stats : StatsInfo) (f : Frame) : StatsInfo × Nat :=
  let size : Int := f.size.toNat
  let stats := { stats with
    totalPackets := stats.totalPackets + 1
    totalBytes := stats.totalBytes + size }
  if cstr (peek f.buf 6 6) = cstr (localMac.take 6) then
    ({ stats with txPackets := stats.txPackets + 1, txBytes := stats.txBytes + size }, 2)
  else
    ({ stats with rxPackets := stats.rxPackets + 1, rxBytes := stats.rxBytes + size }, 1)

/-- The counting of a Get or a Data packet in its own counters. -/
def PackCount.add (c : PackCount) (rsflag : Nat) (size : UInt32) : PackCount :=
  let size : Int := size.toNat
  let c := { c with totalPackets := c.totalPackets + 1, totalBytes := c.totalBytes + size }
  if rsflag = 1 then { c with rxPackets := c.rxPackets + 1, rxBytes := c.rxBytes + size }
  else if rsflag = 2 then { c with txPackets := c.txPackets + 1, txBytes := c.txBytes + size }
  else c

/-- The two locked sections of `ethdump_parseFrame`. -/
def countKind (stats : StatsInfo) (kind : Kind) (rsflag : Nat) (size : UInt32) : StatsInfo :=
  match kind with
  | .data => { stats with dataPackCount := stats.dataPackCount.add rsflag size }
  | .get => { stats with getPackCount := stats.getPackCount.add rsflag size }

/-! ## The two threads -/

/-- Counters with their ledger: the frames counted by `ethdump_parseEthHead`, and those counted
as a Get or a Data packet. A frame is named by its place among the captured ones. -/
structure Interval where
  stats : StatsInfo
  counted : List Nat
  kinds : List (Nat × Kind)
  deriving DecidableEq

/-- The capture thread between the two sections of a frame. -/
structure Half where
  index : Nat
  kind : Kind
  rsflag : Nat
  size : UInt32
  deriving DecidableEq

/-- `stats_info`, where the two threads are, the snapshots so far, and the captured frames.
`isOpen` says that the counters have been cleared since the last snapshot. -/
structure State where
  current : Interval
  half : Option Half
  isOpen : Bool
  snapshots : List Interval
  log : List Frame

/-- Before the first interval; the capture thread may start first. -/
def State.start : State where
  current := ⟨.zero, [], []⟩
  half := none
  isOpen := false
  snapshots := []
  log := []

inductive Event where
  /-- The capture thread receives a frame and counts it. -/
  | frame (f : Frame)
  /-- The capture thread counts the Get or Data packet. -/
  | kind
  /-- `record_counter` -/
  | record
  /-- The counters are cleared. -/
  | reset

def step (localMac : List UInt8) (s : State) : Event → Option State
  | .frame f =>
      match s.half with
      | some _ => none
      | none =>
          let counted := ethdumpParseEthHead localMac s.current.stats f
          some { s with
            current := { s.current with
              stats := counted.1
              counted := s.current.counted ++ [s.log.length] }
            half := f.kind.map fun k => ⟨s.log.length, k, counted.2, f.size⟩
            log := s.log ++ [f] }
  | .kind =>
      match s.half with
      | none => none
      | some h => some { s with
          current := { s.current with
            stats := countKind s.current.stats h.kind h.rsflag h.size
            kinds := s.current.kinds ++ [(h.index, h.kind)] }
          half := none }
  | .record =>
      if s.isOpen then some { s with snapshots := s.snapshots ++ [s.current], isOpen := false }
      else none
  | .reset =>
      if s.isOpen then none else some { s with current := ⟨.zero, [], []⟩, isOpen := true }

/-! ## The property -/

/-- The frame is included in a snapshot. -/
def State.recorded (s : State) (n : Nat) : Bool := s.snapshots.any fun snap => n ∈ snap.counted

/-- **The snapshots partition the frames.** Every counted frame is in exactly one snapshot, or in
none yet and in the current counters. A snapshot counts as Get and Data packets exactly those of
its frames that are some, so not more than its frames, and the totals of the snapshots add up to
the number of the frames in them. -/
structure Partitioned (s : State) : Prop where
  once : ∀ n < s.log.length,
    s.snapshots.countP (fun snap => n ∈ snap.counted) = 1
      ∨ (s.snapshots.countP (fun snap => n ∈ snap.counted) = 0 ∧ n ∈ s.current.counted)
  kinds : ∀ snap ∈ s.snapshots, ∀ n k,
    (n, k) ∈ snap.kinds ↔ n ∈ snap.counted ∧ ∃ f, s.log[n]? = some f ∧ f.kind = some k
  le_total : ∀ snap ∈ s.snapshots,
    snap.stats.getPackCount.totalPackets + snap.stats.dataPackCount.totalPackets
      ≤ snap.stats.totalPackets
  totals : (s.snapshots.map fun snap => snap.stats.totalPackets).sum
    = ((List.range s.log.length).filter s.recorded).length

/-- **The condition.** A snapshot is taken while the capture thread is not between the two sections
of a frame, and the counters are cleared when every frame they have counted is in a snapshot. -/
def Undivided (s : State) : Event → Prop
  | .record => s.half = none
  | .reset => ∀ n ∈ s.current.counted, s.recorded n = true
  | _ => True

/-! ## The ledger is what the counters say -/

/-- The counters count the frames of the ledger. -/
structure Interval.Booked (i : Interval) : Prop where
  total : i.stats.totalPackets = i.counted.length
  get : i.stats.getPackCount.totalPackets = i.kinds.countP (·.2 = .get)
  data : i.stats.dataPackCount.totalPackets = i.kinds.countP (·.2 = .data)

theorem ethdumpParseEthHead_totalPackets (localMac : List UInt8) (stats : StatsInfo) (f : Frame) :
    (ethdumpParseEthHead localMac stats f).1.totalPackets = stats.totalPackets + 1 := by
  rw [ethdumpParseEthHead]
  split <;> rfl

theorem ethdumpParseEthHead_packCounts (localMac : List UInt8) (stats : StatsInfo) (f : Frame) :
    (ethdumpParseEthHead localMac stats f).1.getPackCount = stats.getPackCount
      ∧ (ethdumpParseEthHead localMac stats f).1.dataPackCount = stats.dataPackCount := by
  rw [ethdumpParseEthHead]
  split <;> exact ⟨rfl, rfl⟩

theorem PackCount.add_totalPackets (c : PackCount) (rsflag : Nat) (size : UInt32) :
    (c.add rsflag size).totalPackets = c.totalPackets + 1 := by
  rw [PackCount.add]
  split
  · rfl
  · split <;> rfl

theorem Interval.Booked.frame {i : Interval} (hb : i.Booked) (localMac : List UInt8) (f : Frame)
    (n : Nat) :
    ({ i with stats := (ethdumpParseEthHead localMac i.stats f).1, counted := i.counted ++ [n] }
      : Interval).Booked := by
  obtain ⟨hget, hdata⟩ := ethdumpParseEthHead_packCounts localMac i.stats f
  refine ⟨?_, ?_, ?_⟩
  · rw [ethdumpParseEthHead_totalPackets, hb.total]
    simp
  · rw [hget, hb.get]
  · rw [hdata, hb.data]

theorem Interval.Booked.kind {i : Interval} (hb : i.Booked) (h : Half) :
    ({ i with
      stats := countKind i.stats h.kind h.rsflag h.size
      kinds := i.kinds ++ [(h.index, h.kind)] } : Interval).Booked := by
  obtain ⟨index, kind, rsflag, size⟩ := h
  cases kind with
  | get =>
      refine ⟨hb.total, ?_, ?_⟩
      · simp [countKind, PackCount.add_totalPackets, hb.get]
      · simp [countKind, hb.data]
  | data =>
      refine ⟨hb.total, ?_, ?_⟩
      · simp [countKind, hb.get]
      · simp [countKind, PackCount.add_totalPackets, hb.data]

/-- A Get packet is no Data packet, so the two counters count the entries of the ledger. -/
theorem countP_get_add_data (kinds : List (Nat × Kind)) :
    kinds.countP (·.2 = .get) + kinds.countP (·.2 = .data) = kinds.length := by
  induction kinds with
  | nil => rfl
  | cons x kinds ih =>
      obtain ⟨n, k⟩ := x
      cases k <;> simp <;> omega

/-! ## The invariant -/

/-- The entry of a frame that is counted again. -/
def kindOf (log : List Frame) (n : Nat) : Option (Nat × Kind) :=
  (log[n]?.bind Frame.kind).map fun k => (n, k)

theorem kindOf_eq_some {log : List Frame} {n m : Nat} {k : Kind} :
    kindOf log n = some (m, k) ↔ m = n ∧ ∃ f, log[n]? = some f ∧ f.kind = some k := by
  simp only [kindOf, Option.map_eq_some_iff, Option.bind_eq_some_iff, Prod.mk.injEq]
  constructor
  · rintro ⟨k', ⟨f, hf, hk⟩, rfl, rfl⟩
    exact ⟨rfl, f, hf, hk⟩
  · rintro ⟨rfl, f, hf, hk⟩
    exact ⟨k, ⟨f, hf, hk⟩, rfl, rfl⟩

/-- A further frame changes no entry. -/
theorem kindOf_append {log : List Frame} {n : Nat} (h : n < log.length) (f : Frame) :
    kindOf (log ++ [f]) n = kindOf log n := by
  rw [kindOf, kindOf, List.getElem?_append_left h]

theorem kindOf_length (log : List Frame) (f : Frame) :
    kindOf (log ++ [f]) log.length = f.kind.map fun k => (log.length, k) := by
  simp [kindOf]

/-- What holds in every state of a run that meets the condition. The snapshots and the frames
`fresh`, which are in none yet, are all frames in the order in which they were captured. -/
structure Inv (s : State) (old fresh : List Nat) : Prop where
  booked : s.current.Booked
  snap_booked : ∀ snap ∈ s.snapshots, snap.Booked
  counted : s.current.counted = old ++ fresh
  old_recorded : ∀ n ∈ old, s.recorded n = true
  old_of_open : s.isOpen = true → old = []
  partition : s.snapshots.flatMap Interval.counted ++ fresh = List.range s.log.length
  half_fresh : ∀ h, s.half = some h → h.index ∈ fresh
  kinds : s.current.kinds ++ (s.half.map fun h => (h.index, h.kind)).toList
    = s.current.counted.filterMap (kindOf s.log)
  snap_kinds : ∀ snap ∈ s.snapshots, snap.kinds = snap.counted.filterMap (kindOf s.log)

/-- In a list of disjoint parts an element is in one part. -/
theorem countP_mem_eq_one {α β : Type*} [DecidableEq β] {f : α → List β} {b : β} {l : List α}
    (hnd : (l.flatMap f).Nodup) (hmem : b ∈ l.flatMap f) : l.countP (fun a => b ∈ f a) = 1 := by
  induction l with
  | nil => cases hmem
  | cons a l ih =>
      rw [List.flatMap_cons] at hnd hmem
      rw [List.countP_cons]
      by_cases ha : b ∈ f a
      · have hno : b ∉ l.flatMap f := fun h => List.disjoint_of_nodup_append hnd ha h
        have hzero : l.countP (fun a => b ∈ f a) = 0 := by
          rw [List.countP_eq_zero]
          intro x hx hbx
          exact hno (List.mem_flatMap.mpr ⟨x, hx, by simpa using hbx⟩)
        simp [hzero, ha]
      · have hrest := (List.mem_append.mp hmem).resolve_left ha
        simp [ih hnd.of_append_right hrest, ha]

namespace Inv

variable {s : State} {old fresh : List Nat}

theorem recorded_iff (s : State) (n : Nat) :
    s.recorded n = true ↔ n ∈ s.snapshots.flatMap Interval.counted := by
  simp [State.recorded, List.mem_flatMap]

theorem nodup (hi : Inv s old fresh) :
    (s.snapshots.flatMap Interval.counted ++ fresh).Nodup := by
  rw [hi.partition]
  exact List.nodup_range

theorem not_recorded_of_fresh (hi : Inv s old fresh) {n : Nat} (h : n ∈ fresh) :
    ¬ s.recorded n = true := by
  rw [recorded_iff]
  exact fun hmem => List.disjoint_of_nodup_append hi.nodup hmem h

theorem lt_of_mem (hi : Inv s old fresh) {n : Nat}
    (h : n ∈ s.snapshots.flatMap Interval.counted ++ fresh) : n < s.log.length := by
  rw [hi.partition, List.mem_range] at h
  exact h

theorem counted_lt (hi : Inv s old fresh) {n : Nat} (h : n ∈ s.current.counted) :
    n < s.log.length := by
  refine hi.lt_of_mem ?_
  rw [hi.counted] at h
  rcases List.mem_append.mp h with h | h
  · exact List.mem_append_left _ ((recorded_iff s n).mp (hi.old_recorded n h))
  · exact List.mem_append_right _ h

/-- A frame that is in no snapshot yet. -/
theorem countP_fresh (hi : Inv s old fresh) {n : Nat} (h : n ∈ fresh) :
    s.snapshots.countP (fun snap => n ∈ snap.counted) = 0 := by
  rw [List.countP_eq_zero]
  intro snap hsnap hin
  refine hi.not_recorded_of_fresh h ((recorded_iff s n).mpr ?_)
  exact List.mem_flatMap.mpr ⟨snap, hsnap, by simpa using hin⟩

/-- The frames in a snapshot, in the order in which they were captured. -/
theorem filter_recorded (hi : Inv s old fresh) :
    (List.range s.log.length).filter s.recorded = s.snapshots.flatMap Interval.counted := by
  rw [← hi.partition, List.filter_append, List.filter_eq_self.mpr, List.filter_eq_nil_iff.mpr,
    List.append_nil]
  · exact fun n hn => hi.not_recorded_of_fresh hn
  · exact fun n hn => (recorded_iff s n).mpr hn

/-- **The invariant gives the property.** -/
theorem partitioned (hi : Inv s old fresh) : Partitioned s where
  once n hn := by
    have hmem : n ∈ s.snapshots.flatMap Interval.counted ++ fresh := by
      rw [hi.partition, List.mem_range]
      exact hn
    rcases List.mem_append.mp hmem with hmem | hmem
    · exact Or.inl (countP_mem_eq_one hi.nodup.of_append_left hmem)
    · refine Or.inr ⟨hi.countP_fresh hmem, ?_⟩
      rw [hi.counted]
      exact List.mem_append_right _ hmem
  kinds snap hsnap n k := by
    rw [hi.snap_kinds snap hsnap, List.mem_filterMap]
    constructor
    · rintro ⟨m, hm, heq⟩
      obtain ⟨rfl, hf⟩ := kindOf_eq_some.mp heq
      exact ⟨hm, hf⟩
    · rintro ⟨hn, hf⟩
      exact ⟨n, hn, kindOf_eq_some.mpr ⟨rfl, hf⟩⟩
  le_total snap hsnap := by
    have hb := hi.snap_booked snap hsnap
    have hlen := countP_get_add_data snap.kinds
    have hle : snap.kinds.length ≤ snap.counted.length := by
      rw [hi.snap_kinds snap hsnap]
      exact List.length_filterMap_le _ _
    rw [hb.total, hb.get, hb.data]
    omega
  totals := by
    have htotals : (s.snapshots.map fun snap => snap.stats.totalPackets)
        = s.snapshots.map fun snap => (snap.counted.length : Int) :=
      List.map_congr_left fun snap hsnap => (hi.snap_booked snap hsnap).total
    rw [hi.filter_recorded, htotals, List.length_flatMap, Nat.cast_list_sum, List.map_map]
    rfl

/-! ## The four sections -/

/-- A frame goes to the end of the captured ones, and of those in no snapshot. -/
theorem frame (hi : Inv s old fresh) (localMac : List UInt8) (f : Frame) {s' : State}
    (h : step localMac s (.frame f) = some s') : Inv s' old (fresh ++ [s.log.length]) := by
  cases hhalf : s.half with
  | some half => simp [step, hhalf] at h
  | none =>
      simp only [step, hhalf, Option.some.injEq] at h
      subst h
      have hkindOf : ∀ n ∈ s.current.counted, kindOf (s.log ++ [f]) n = kindOf s.log n :=
        fun n hn => kindOf_append (hi.counted_lt hn) f
      refine {
        booked := hi.booked.frame localMac f s.log.length, snap_booked := hi.snap_booked
        counted := ?counted, old_recorded := hi.old_recorded, old_of_open := hi.old_of_open
        partition := ?partition, half_fresh := ?half_fresh, kinds := ?kinds
        snap_kinds := ?snap_kinds }
      case counted =>
        dsimp only
        rw [hi.counted, List.append_assoc]
      case partition =>
        dsimp only
        rw [← List.append_assoc, hi.partition, List.length_append, List.length_singleton,
          List.range_succ]
      case half_fresh =>
        intro half heq
        obtain ⟨k, -, rfl⟩ := Option.map_eq_some_iff.mp heq
        exact List.mem_append_right _ List.mem_cons_self
      case kinds =>
        -- the new frame is the one half done, if it is a Get or a Data packet
        have hkinds := hi.kinds
        rw [hhalf, Option.map_none, Option.toList_none, List.append_nil] at hkinds
        dsimp only
        rw [List.filterMap_append, List.filterMap_congr hkindOf, ← hkinds]
        congr 1
        simp only [List.filterMap_cons, kindOf_length, List.filterMap_nil, Option.map_map]
        cases f.kind <;> rfl
      case snap_kinds =>
        intro snap hsnap
        rw [hi.snap_kinds snap hsnap]
        refine (List.filterMap_congr fun n hn => kindOf_append ?_ f).symm
        exact hi.lt_of_mem (List.mem_append_left _ (List.mem_flatMap.mpr ⟨snap, hsnap, hn⟩))

/-- The second section of a frame. -/
theorem kind (hi : Inv s old fresh) {localMac : List UInt8} {s' : State}
    (h : step localMac s .kind = some s') : Inv s' old fresh := by
  cases hhalf : s.half with
  | none => simp [step, hhalf] at h
  | some half =>
      simp only [step, hhalf, Option.some.injEq] at h
      subst h
      refine ⟨hi.booked.kind half, hi.snap_booked, hi.counted, hi.old_recorded, hi.old_of_open,
        hi.partition, fun _ heq => (Option.some_ne_none _ heq.symm).elim, ?_, hi.snap_kinds⟩
      have hkinds := hi.kinds
      rw [hhalf] at hkinds
      simpa using hkinds

/-- A snapshot while no frame is between its two sections. -/
theorem record (hi : Inv s old fresh) (hhalf : s.half = none) {localMac : List UInt8} {s' : State}
    (h : step localMac s .record = some s') : Inv s' s.current.counted [] := by
  simp only [step] at h
  split at h
  · next hopen =>
      obtain rfl := Option.some.inj h
      have hfresh : s.current.counted = fresh := by
        rw [hi.counted, hi.old_of_open hopen, List.nil_append]
      have hkinds := hi.kinds
      rw [hhalf, Option.map_none, Option.toList_none, List.append_nil] at hkinds
      refine {
        booked := hi.booked, snap_booked := ?snap_booked, counted := (List.append_nil _).symm
        old_recorded := ?old_recorded, old_of_open := fun h => Bool.noConfusion h
        partition := ?partition, half_fresh := ?half_fresh, kinds := hi.kinds
        snap_kinds := ?snap_kinds }
      case snap_booked =>
        intro snap hsnap
        rcases List.mem_append.mp hsnap with hsnap | hsnap
        · exact hi.snap_booked snap hsnap
        · rw [List.mem_singleton] at hsnap
          exact hsnap ▸ hi.booked
      case old_recorded =>
        intro n hn
        simp [State.recorded, hn]
      case partition =>
        -- what was in no snapshot is the last part now
        rw [List.append_nil, List.flatMap_append, List.flatMap_singleton, hfresh]
        exact hi.partition
      case half_fresh =>
        intro half heq
        rw [hhalf] at heq
        cases heq
      case snap_kinds =>
        intro snap hsnap
        rcases List.mem_append.mp hsnap with hsnap | hsnap
        · exact hi.snap_kinds snap hsnap
        · rw [List.mem_singleton] at hsnap
          exact hsnap ▸ hkinds
  · cases h

/-- The counters are cleared when they hold nothing that is in no snapshot. -/
theorem reset (hi : Inv s old fresh) (hall : ∀ n ∈ s.current.counted, s.recorded n = true)
    {localMac : List UInt8} {s' : State} (h : step localMac s .reset = some s') : Inv s' [] [] := by
  simp only [step] at h
  split at h
  · cases h
  · obtain rfl := Option.some.inj h
    have hfresh : fresh = [] := by
      refine List.eq_nil_iff_forall_not_mem.mpr fun n hn => hi.not_recorded_of_fresh hn (hall n ?_)
      rw [hi.counted]
      exact List.mem_append_right _ hn
    -- a frame half done would be in no snapshot
    have hhalf : s.half = none := by
      cases hh : s.half with
      | none => rfl
      | some half =>
          have hmem := hi.half_fresh half hh
          rw [hfresh] at hmem
          cases hmem
    have hpartition := hi.partition
    rw [hfresh] at hpartition
    refine ⟨⟨rfl, rfl, rfl⟩, hi.snap_booked, rfl, fun n hn => (List.not_mem_nil hn).elim, fun _ => rfl,
      hpartition, ?_, ?_, hi.snap_kinds⟩
    · intro half heq
      rw [show (_ : State).half = s.half from rfl, hhalf] at heq
      cases heq
    · simp [hhalf]

/-- **The step lemma.** -/
theorem step (hi : Inv s old fresh) {localMac : List UInt8} {a : Event} {s' : State}
    (h : step localMac s a = some s') (hC : Undivided s a) : ∃ old' fresh', Inv s' old' fresh' := by
  cases a with
  | frame f => exact ⟨_, _, hi.frame localMac f h⟩
  | kind => exact ⟨_, _, hi.kind h⟩
  | record => exact ⟨_, _, hi.record hC h⟩
  | reset => exact ⟨_, _, hi.reset hC h⟩

theorem start : Inv State.start [] [] :=
  ⟨⟨rfl, rfl, rfl⟩, by simp [State.start], rfl, by simp, fun _ => rfl, rfl, by simp [State.start], rfl,
    by simp [State.start]⟩

/-! ## A step that divides a frame -/

/-- A snapshot between the two sections of a frame counts it, but not as what it is. -/
theorem not_partitioned_record (hi : Inv s old fresh) {h : Half} (hhalf : s.half = some h)
    {localMac : List UInt8} {s' : State} (hstep : Statistics.step localMac s .record = some s') :
    ¬ Partitioned s' := by
  simp only [Statistics.step] at hstep
  split at hstep
  · next hopen =>
      obtain rfl := Option.some.inj hstep
      intro hp
      -- the frame half done is counted in the snapshot, and its entry is still to come
      have hcounted : s.current.counted.Nodup := by
        rw [hi.counted, hi.old_of_open hopen, List.nil_append]
        exact hi.nodup.of_append_right
      have hkinds := hi.kinds
      rw [hhalf, Option.map_some, Option.toList_some] at hkinds
      have hnd : (s.current.kinds ++ [(h.index, h.kind)]).Nodup := by
        rw [hkinds]
        apply hcounted.filterMap
        intro n n' x hn hn'
        rw [Option.mem_def] at hn hn'
        obtain ⟨m, k⟩ := x
        exact (kindOf_eq_some.mp hn).1.symm.trans (kindOf_eq_some.mp hn').1
      have hin : (h.index, h.kind) ∈ s.current.counted.filterMap (kindOf s.log) := by
        rw [← hkinds]
        exact List.mem_append_right _ List.mem_cons_self
      obtain ⟨n, hn, heq⟩ := List.mem_filterMap.mp hin
      obtain ⟨rfl, hf⟩ := kindOf_eq_some.mp heq
      have hmem := (hp.kinds s.current (List.mem_append_right _ List.mem_cons_self) h.index h.kind).mpr
        ⟨hn, hf⟩
      exact List.disjoint_of_nodup_append hnd hmem List.mem_cons_self
  · cases hstep

/-- Clearing the counters of a frame in no snapshot loses it. -/
theorem not_partitioned_reset (hi : Inv s old fresh) {n : Nat} (hn : n ∈ s.current.counted)
    (hno : ¬ s.recorded n = true) {localMac : List UInt8} {s' : State}
    (hstep : Statistics.step localMac s .reset = some s') : ¬ Partitioned s' := by
  simp only [Statistics.step] at hstep
  split at hstep
  · cases hstep
  · obtain rfl := Option.some.inj hstep
    intro hp
    rcases hp.once n (hi.counted_lt hn) with hone | ⟨-, hmem⟩
    · obtain ⟨snap, hsnap, hin⟩ := List.countP_pos_iff.mp (hone ▸ Nat.one_pos)
      exact hno (List.any_eq_true.mpr ⟨snap, hsnap, hin⟩)
    · cases hmem

end Inv

/-! ## Runs -/

/-- **The exact condition.** In a run of the two threads the snapshots partition the frames in
every state if and only if no snapshot divides a frame and no clearing loses one. -/
theorem partitioned_iff (localMac : List UInt8) (events : List Event) :
    Lts.Always (step localMac) Partitioned State.start events
      ↔ Lts.Along (step localMac) Undivided State.start events := by
  refine Lts.always_iff_along (I := fun s => ∃ old fresh, Inv s old fresh) ?_ ?_ ?_
    ⟨[], [], Inv.start⟩
  · rintro s ⟨old, fresh, hi⟩
    exact hi.partitioned
  · rintro s a s' ⟨old, fresh, hi⟩ hstep hC
    exact hi.step hstep hC
  · rintro s a s' ⟨old, fresh, hi⟩ hstep hno
    cases a with
    | frame f => exact absurd trivial hno
    | kind => exact absurd trivial hno
    | record =>
        obtain ⟨h, hhalf⟩ := Option.ne_none_iff_exists'.mp hno
        exact hi.not_partitioned_record hhalf hstep
    | reset =>
        simp only [Undivided, not_forall] at hno
        obtain ⟨n, hn, hno⟩ := hno
        exact hi.not_partitioned_reset hn hno hstep

/-- A Get packet of 60 bytes. -/
def getFrame : Frame := ⟨poke (fun _ => 0) 14 [160], 60⟩

/-- A Get packet is counted after the snapshot, and counted as one after the counters have been
cleared: no snapshot has the packet, and the second one has a Get packet among no packets. -/
theorem packet_lost :
    ¬ Lts.Always (step [1, 2, 3, 4, 5, 6]) Partitioned State.start
      [.reset, .record, .frame getFrame, .reset, .kind, .record] := by
  intro h
  obtain ⟨s, hs⟩ : ∃ s, Lts.exec (step [1, 2, 3, 4, 5, 6]) State.start
      [.reset, .record, .frame getFrame, .reset, .kind, .record] = some s := ⟨_, rfl⟩
  have hrun : (Lts.exec (step [1, 2, 3, 4, 5, 6]) State.start
      [.reset, .record, .frame getFrame, .reset, .kind, .record]).map (fun s =>
        s.snapshots.map fun snap =>
          (snap.stats.totalPackets, snap.stats.getPackCount.totalPackets,
            snap.stats.dataPackCount.totalPackets)) = some [(0, 0, 0), (0, 1, 0)] := by
    decide
  rw [hs, Option.map_some, Option.some.injEq] at hrun
  have hin : ((0 : Int), (1 : Int), (0 : Int)) ∈ s.snapshots.map fun snap =>
      (snap.stats.totalPackets, snap.stats.getPackCount.totalPackets,
        snap.stats.dataPackCount.totalPackets) := by
    rw [hrun]
    decide
  obtain ⟨snap, hsnap, heq⟩ := List.mem_map.mp hin
  simp only [Prod.mk.injEq] at heq
  have hle := (h.last hs).le_total snap hsnap
  omega

end Monitor.Statistics
