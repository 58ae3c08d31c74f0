import IcnPrototype.Lib.Run
import IcnPrototype.Monitor.Ledger

set_option autoImplicit false

/-! # The listener and the ticks

`thread_local_listen` reads `timer_manage.timer_info`, blocks in `recvfrom`, builds the new list
from the head it has read, and stores it. A tick may come between any two of these steps, and it
frees the timers it calls.

`timers_kept`: no timer is lost and none comes back as long as the head that was read is still
the head when the datagram arrives, no tick finds a timer due while the list is built, and no
record leaves a stale `elapse` behind. `timer_resurrected` is a run in which the timer that was
read is called while the listener blocks; the datagram brings it back, and it is called again.
-/

namespace Monitor

open Dll

/-! ## Runs -/

/-- Where the listener is. -/
inductive Phase
  | idle
  /-- In `recvfrom`, with the head read before. -/
  | blocked (head : Ptr)
  /-- In `parse_timer_message`, with the head of the new list. -/
  | building (head : Ptr)
deriving DecidableEq, Repr

/-- The timers, the listener and the last clock anybody has read. -/
structure Listening where
  mem : Memory
  timerInfo : Ptr
  phase : Phase
  clock : Int
  ledger : Ledger

/-- The steps of the listener and the ticks. -/
inductive Action (Tm : Type)
  | read
  | receive
  | record (t : Int) (r : TimerMessage Tm)
  | store
  | tick (t : Int)

namespace Listening

variable {Tm : Type} (site : Site Tm)

/-- The listener is idle and there is no timer. -/
def start (clock : Int) : Listening :=
  ⟨⟨fun _ => none, 0⟩, none, .idle, clock, ⟨[], [], []⟩⟩

/-- A step. The clock does not go back. -/
def step (s : Listening) : Action Tm → Option Listening
  | .read =>
      match s.phase with
      | .idle => some { s with phase := .blocked s.timerInfo }
      | _ => none
  | .receive =>
      match s.phase with
      | .blocked head => some { s with phase := .building head }
      | _ => none
  | .record t r =>
      match s.phase with
      | .building head =>
          if s.clock ≤ t then do
            let v := newTimer site r
            let (m, p) ← setChildTimer site s.mem t head r
            some { s with
              mem := m, phase := .building p, clock := t
              ledger := if v.timerId = -1 then s.ledger
                else s.ledger.accept t (Node.entry (s.mem.brk, v)) }
          else none
      | _ => none
  | .store =>
      match s.phase with
      | .building head => some { s with timerInfo := head, phase := .idle }
      | _ => none
  | .tick t =>
      if s.clock ≤ t then do
        let (m, p, calls) ← sigFunc s.mem s.timerInfo t
        some { s with mem := m, timerInfo := p, clock := t, ledger := s.ledger.fire t calls }
      else none

/-- The head of the list: the one that is built, if one is. -/
def current (s : Listening) : Ptr :=
  match s.phase with
  | .building head => head
  | _ => s.timerInfo

/-- The timers that a pointer leads to. -/
def timersFrom (s : Listening) (p : Ptr) : List Node := nodes s.mem.heap s.mem.brk p

/-- The head that was read is still the head. -/
def HeadKept (timerInfo : Ptr) : Phase → Prop
  | .blocked head => head = timerInfo
  | _ => True

instance (timerInfo : Ptr) : ∀ phase : Phase, Decidable (HeadKept timerInfo phase)
  | .blocked head => inferInstanceAs (Decidable (head = timerInfo))
  | .idle => isTrue trivial
  | .building _ => isTrue trivial

/-- The timer a tick at the clock `t` looks at is not due, if a list is being built. -/
def NoneDue (t : Int) (c : Option (Cell TimerInfo)) : Phase → Prop
  | .building _ => ∀ c' ∈ c, t < c'.val.time
  | _ => True

instance (t : Int) (c : Option (Cell TimerInfo)) : ∀ phase : Phase, Decidable (NoneDue t c phase)
  | .building _ => inferInstanceAs (Decidable (∀ c' ∈ c, t < c'.val.time))
  | .idle => isTrue trivial
  | .blocked _ => isTrue trivial

/-- The step meets the condition under which nothing is lost. -/
def Safe (s : Listening) : Action Tm → Prop
  | .receive => HeadKept s.timerInfo s.phase
  | .record t r =>
      (newTimer site r).timerId ≠ -1 →
        leavesStale t (s.mem.brk, newTimer site r) (s.timersFrom s.current) = false
  | .tick t => NoneDue t (load s.mem.heap s.timerInfo) s.phase
  | _ => True

instance (s : Listening) : ∀ a : Action Tm, Decidable (s.Safe site a)
  | .read => isTrue trivial
  | .receive => inferInstanceAs (Decidable (HeadKept s.timerInfo s.phase))
  | .record t r => inferInstanceAs (Decidable ((newTimer site r).timerId ≠ -1 →
      leavesStale t (s.mem.brk, newTimer site r) (s.timersFrom s.current) = false))
  | .store => isTrue trivial
  | .tick t => inferInstanceAs (Decidable (NoneDue t (load s.mem.heap s.timerInfo) s.phase))

/-- A timer that was called is not in the list and is not called again, and an accepted timer
that is not due and was not replaced is in the list. -/
structure Kept (s : Listening) : Prop where
  once : (s.ledger.fired.map fun f => f.2.timer).Nodup
  gone : ∀ f ∈ s.ledger.fired, ∀ a ∈ f.2.timer,
    a ∉ addrs (s.timersFrom s.timerInfo) ∧ a ∉ addrs (s.timersFrom s.current)
  there : ∀ x ∈ s.ledger.accepted, x.addr ∉ s.ledger.replaced → s.clock < x.time →
    x.addr ∈ addrs (s.timersFrom s.current)

/-! ## The invariant -/

/-- While a list is built, `timer_manage.timer_info` leads into it or dangles. -/
structure Inv (s : Listening) (L : List Node) : Prop where
  holds : Holds s.mem s.current L
  ordered : Ordered False s.clock L
  tracks : Tracks s.mem.brk L s.ledger
  due : ∀ x ∈ s.ledger.accepted, ∀ f ∈ s.ledger.callsOf x.addr, x.time ≤ s.clock
  shared : ∀ a ∈ s.timerInfo, a < s.mem.brk ∧ (s.mem.heap a = none ∨ a ∈ addrs L)

theorem current_eq {s : Listening} (hp : ∀ head, s.phase ≠ .building head) :
    s.current = s.timerInfo := by
  rw [current]
  split
  · rename_i head heq
    exact absurd heq (hp head)
  · rfl

theorem mem_first {L : List Node} {a : Addr} (h : a ∈ first L none) : a ∈ addrs L := by
  cases L with
  | nil => cases h
  | cons n L =>
      have ha : n.1 = a := Option.some_injective _ h
      rw [addrs_cons, ha]
      exact List.mem_cons_self

namespace Inv

variable {site} {s : Listening} {L : List Node}

theorem start (clock : Int) : Inv (Listening.start clock) [] where
  holds := ⟨IsList.nil _, fun _ h => nomatch h⟩
  ordered := Ordered.nil _ _
  tracks := Tracks.start 0
  due := fun _ h => nomatch h
  shared := fun _ h => nomatch h

theorem timersFrom_current (hi : Inv s L) : s.timersFrom s.current = L := by
  rw [timersFrom, hi.holds.list.head_eq]
  exact nodes_seg hi.holds.list.seg (length_le_of_nodup hi.holds.list.nodup hi.holds.lt)

/-- What `timer_manage.timer_info` leads to is in the list. -/
theorem timersFrom_subset (hi : Inv s L) {a : Addr}
    (ha : a ∈ addrs (s.timersFrom s.timerInfo)) : a ∈ addrs L := by
  rw [timersFrom] at ha
  cases hp : s.timerInfo with
  | none =>
      rw [hp] at ha
      cases hbrk : s.mem.brk <;> rw [hbrk] at ha <;> cases ha
  | some b =>
      rw [hp] at ha
      obtain ⟨hlt, hnone | hin⟩ := hi.shared b hp
      · -- a freed cell: nothing can be read from there on
        obtain ⟨k, hk⟩ := Nat.exists_eq_succ_of_ne_zero (Nat.ne_zero_of_lt hlt)
        rw [hk, nodes, hnone] at ha
        cases ha
      · obtain ⟨n, hn, rfl⟩ := List.mem_map.mp hin
        obtain ⟨A, B, rfl⟩ := List.append_of_mem hn
        have hlen := length_le_of_nodup hi.holds.list.nodup hi.holds.lt
        rw [List.length_append] at hlen
        have hseg := ((seg_append (n :: B) A none).mp hi.holds.list.seg).2
        have hfuel : (n :: B).length ≤ s.mem.brk := by omega
        rw [show some n.1 = first (n :: B) none from rfl, nodes_seg hseg hfuel] at ha
        rw [addrs_append]
        exact List.mem_append_right _ ha

theorem kept (hi : Inv s L) : s.Kept where
  once := hi.tracks.once
  gone := by
    intro f hf a ha
    have hno : a ∉ addrs L := by
      intro hin
      obtain ⟨n, hn, rfl⟩ := List.mem_map.mp hin
      have hun := hi.tracks.unfired _ (mem_entries hn)
      rw [Ledger.callsOf, List.filter_eq_nil_iff] at hun
      exact hun f hf (decide_eq_true ha)
    refine ⟨fun hin => hno (hi.timersFrom_subset hin), ?_⟩
    rw [hi.timersFrom_current]
    exact hno
  there := by
    intro x hx hrep hfuture
    have hcall : s.ledger.callsOf x.addr = [] := by
      apply List.eq_nil_iff_forall_not_mem.mpr
      intro f hf
      exact absurd hfuture (not_lt.mpr (hi.due x hx f hf))
    obtain ⟨n, hn, hnx⟩ := List.mem_map.mp (hi.tracks.kept x hx hrep hcall)
    rw [hi.timersFrom_current, ← hnx]
    exact mem_addrs hn

/-! ## The steps -/

theorem building (hi : Inv s L) {head : Ptr} (hp : s.phase = .building head) :
    Holds s.mem head L := by
  have hcur : s.current = head := by rw [current, hp]
  exact hcur ▸ hi.holds

theorem range_at (hi : Inv s L) {t : Int} (ht : s.clock ≤ t) :
    ∀ n ∈ L, n.2.time < t + 2 ^ 31 := by
  intro n hn
  have hlt := hi.ordered.range n hn
  omega

theorem due_at (hi : Inv s L) {t : Int} (ht : s.clock ≤ t) :
    ∀ x ∈ s.ledger.accepted, ∀ f ∈ s.ledger.callsOf x.addr, x.time ≤ t :=
  fun x hx f hf => (hi.due x hx f hf).trans ht

/-- A record of the datagram. -/
theorem record {t : Int} {r : TimerMessage Tm} {head : Ptr} (hi : Inv s L)
    (hp : s.phase = .building head) (ht : s.clock ≤ t) (hs : s.Safe site (.record t r)) :
    ∃ s' L', s.step site (.record t r) = some s' ∧ Inv s' L' := by
  have hl := hi.building hp
  have hrange := hi.range_at ht
  have hdue := hi.due_at ht
  by_cases hid : (newTimer site r).timerId = -1
  · obtain ⟨m, hrun, hbrk, hl', hframe⟩ := setChildTimer_unknown hid hl t
    refine ⟨_, L, by simp [step, hp, ht, hid, hrun]; rfl, ?_⟩
    refine ⟨hl', ⟨hi.ordered.chain, hrange⟩, hbrk ▸ hi.tracks.mono, hdue, ?_⟩
    intro a ha
    obtain ⟨hlt, hor⟩ := hi.shared a ha
    refine ⟨hbrk ▸ Nat.lt_succ_of_lt hlt, hor.imp_left fun hnone => ?_⟩
    exact (hframe a hlt).trans hnone
  · obtain ⟨m, p, hrun, hbrk, hl', hrw⟩ := insertTimer_holds hl t (newTimer site r)
    have hstale := hs hid
    rw [hi.timersFrom_current] at hstale
    refine ⟨_, insertNode t (s.mem.brk, newTimer site r) L,
      by simp [step, hp, ht, setChildTimer_eq, hid, hrun]; rfl, ?_⟩
    refine ⟨hl', hi.ordered.insertNode ht hstale, hbrk ▸ hi.tracks.insert t _,
      fun x hx f hf => ?_, fun a ha => ?_⟩
    · rw [Ledger.callsOf_accept] at hf
      rcases hi.tracks.mem_accept hx with hx | hnone
      · exact hdue x hx f hf
      · rw [hnone] at hf
        cases hf
    · obtain ⟨hlt, hor⟩ := hi.shared a ha
      refine ⟨hbrk ▸ Nat.lt_succ_of_lt hlt, ?_⟩
      by_cases hin : a ∈ addrs L
      · exact (hrw.freed a hin).symm
      · exact Or.inl ((hrw.frame a hin (Nat.ne_of_lt hlt)).trans (hor.resolve_right hin))

/-- A tick while the listener is idle or blocks. -/
theorem tick {t : Int} {s' : Listening} (hi : Inv s L) (hp : ∀ head, s.phase ≠ .building head)
    (h : s.step site (.tick t) = some s') : ∃ L', Inv s' L' := by
  rw [step] at h
  split at h
  · rename_i ht
    have hl := hi.holds
    rw [current_eq hp] at hl
    -- a handler that runs to the end of the list reads through the null pointer
    have hsome : L ≠ [] → L.dropWhile (Node.overdue t) ≠ [] := by
      intro hne hall
      simp [sigFunc_undefined hl t hne hall] at h
    obtain ⟨m, hrun, hbrk, hl'⟩ := sigFunc_holds hl t hsome
    have hsplit := entries_called_left t L
    simp only [hrun, Option.bind_eq_bind, Option.bind_some, Option.some.injEq] at h
    subst h
    refine ⟨Monitor.left t L, ?_, hi.ordered.left ht,
      hbrk ▸ hi.tracks.tick t hsplit hl.list.nodup, fun x hx f hf => ?_, fun a ha => ?_⟩
    · have hcur := current_eq (s := ⟨m, first (Monitor.left t L) none, s.phase, t,
        s.ledger.fire t ((called t L).map Node.call)⟩) hp
      rwa [hcur]
    · rcases hi.tracks.mem_callsOf_fire hsplit hx hf with hf | ⟨-, n, hn, rfl⟩
      · exact (hi.due x hx f hf).trans ht
      · exact hi.ordered.called_le ht n hn
    · exact ⟨hl'.lt a (mem_first ha), Or.inr (mem_first ha)⟩
  · cases h

/-- A tick that comes while the list is built and finds no timer due. -/
theorem tick_building {t : Int} {head : Ptr} {s' : Listening} (hi : Inv s L)
    (hp : s.phase = .building head) (hs : s.Safe site (.tick t))
    (h : s.step site (.tick t) = some s') : ∃ L', Inv s' L' := by
  rw [Safe, hp] at hs
  rw [step] at h
  split at h
  case isFalse => cases h
  rename_i ht
  have hl := hi.building hp
  have hrange := hi.range_at ht
  have hdue := hi.due_at ht
  have hfire : s.ledger.fire t [] = s.ledger := by simp [Ledger.fire]
  cases hq : s.timerInfo with
  | none =>
      simp only [hq, sigFunc, Option.bind_eq_bind, Option.bind_some, Option.some.injEq,
        hfire] at h
      subst h
      refine ⟨L, ?_, ⟨hi.ordered.chain, hrange⟩, hi.tracks, hdue, ?_⟩
      · rw [current, hp]
        exact hl
      · intro a ha
        cases ha
  | some a =>
      obtain ⟨hlt, hnone | hin⟩ := hi.shared a hq
      · -- the cell was freed, so the handler faults and there is no step
        simp [hq, sigFunc, setElapse, setVal, Dll.modify, hnone] at h
      obtain ⟨(n : Node), hn, rfl⟩ := List.mem_map.mp hin
      obtain ⟨A, B, rfl⟩ := List.append_of_mem hn
      have hcell := hl.list.seg.cell_mid
      have hfuture : t < n.2.time := hs _ (by rw [hq, load_some, hcell]; rfl)
      -- the timer is not due, so the handler writes `elapse` and calls nothing
      have hpos : 0 < difftime n.2.time t := by
        have hle := (difftime_nonneg (a := n.2.time) (b := t) (by
          have := hrange n hn
          omega)).mpr hfuture.le
        have hne : difftime n.2.time t ≠ 0 := fun h0 => by
          have := difftime_eq_zero.mp h0
          omega
        omega
      simp only [hq, sigFunc_quiet hcell hpos, Option.bind_eq_bind, Option.bind_some,
        Option.some.injEq, hfire] at h
      subst h
      -- `elapse` is in no entry of the ledger and in no address
      have hentries : entries (A ++ n.withElapse (difftime n.2.time t) :: B)
          = entries (A ++ n :: B) := by simp [entries]
      have haddrs : addrs (A ++ n.withElapse (difftime n.2.time t) :: B) = addrs (A ++ n :: B) := by
        simp
      refine ⟨A ++ n.withElapse (difftime n.2.time t) :: B, ⟨?_, haddrs ▸ hl.lt⟩,
        ⟨chain_withElapse_ne (by omega) hi.ordered.chain, fun k hk => ?_⟩,
        hi.tracks.congr hentries, hdue, fun a ha => ⟨?_, Or.inr ?_⟩⟩
      · rw [current, hp]
        exact hl.list.setVal _
      · have hin := mem_entries hk
        rw [hentries] at hin
        obtain ⟨k', hk', hkk⟩ := List.mem_map.mp hin
        have htime : k'.2.time = k.2.time := congrArg Entry.time hkk
        exact htime ▸ hrange k' hk'
      · cases ha
        exact hlt
      · cases ha
        rw [haddrs]
        exact mem_addrs hn

/-- **One step.** A safe step keeps the invariant. -/
theorem step {a : Action Tm} {s' : Listening} (hi : Inv s L) (hs : s.Safe site a)
    (h : s.step site a = some s') : ∃ L', Inv s' L' := by
  cases a with
  | read =>
      rw [Listening.step] at h
      split at h
      · rename_i hp
        cases h
        refine ⟨L, ?_, hi.ordered, hi.tracks, hi.due, hi.shared⟩
        have hl := hi.holds
        rwa [current, hp] at hl
      · cases h
  | receive =>
      rw [Listening.step] at h
      split at h
      · rename_i head hp
        cases h
        -- `Safe`: the head that was read is the one that is stored now
        rw [Safe, hp] at hs
        refine ⟨L, ?_, hi.ordered, hi.tracks, hi.due, hi.shared⟩
        have hl := hi.holds
        rw [current, hp] at hl
        exact hs ▸ hl
      · cases h
  | record t r =>
      rw [Listening.step] at h
      split at h
      · rename_i head hp
        split at h
        · rename_i ht
          obtain ⟨s₁, L', hrun, hi'⟩ := hi.record hp ht hs
          rw [Listening.step, hp] at hrun
          simp only [ht, if_true] at hrun
          rw [h, Option.some.injEq] at hrun
          exact ⟨L', hrun ▸ hi'⟩
        · cases h
      · cases h
  | store =>
      rw [Listening.step] at h
      split at h
      · rename_i head hp
        cases h
        have hl := hi.building hp
        refine ⟨L, hl, hi.ordered, hi.tracks, hi.due, ?_⟩
        intro a ha
        have hin : a ∈ addrs L := mem_first (hl.list.head_eq ▸ ha)
        exact ⟨hl.lt a hin, Or.inr hin⟩
      · cases h
  | tick t =>
      by_cases hp : ∃ head, s.phase = .building head
      · obtain ⟨head, hp⟩ := hp
        exact hi.tick_building hp hs h
      · exact hi.tick (fun head heq => hp ⟨head, heq⟩) h

end Inv

/-- **No timer is lost and none comes back.** In a run in which every step is safe, a timer
that was called is not in the list and is not called again, and an accepted timer that is not
due and was not replaced stays in the list. A tick that faults ends a run: one that finds a freed
`timer_info` while the list is built, or every timer overdue. -/
theorem timers_kept (clock : Int) (actions : List (Action Tm))
    (h : Lts.Along (Listening.step site) (Safe site) (start clock) actions) :
    Lts.Always (Listening.step site) Kept (start clock) actions := by
  refine Lts.always_of_along (I := fun s => ∃ L, Inv s L) (fun s hs => ?_)
    (fun s a s' hs hstep hsafe => ?_) ⟨[], Inv.start clock⟩ h
  · obtain ⟨L, hi⟩ := hs
    exact hi.kept
  · obtain ⟨L, hi⟩ := hs
    exact hi.step hsafe hstep

/-! ## A datagram -/

/-- The steps of the listener on a datagram of type 1 are `parse_timer_message` from the head
that was read. -/
theorem exec_records {rs : List (Int × TimerMessage Tm)} :
    ∀ {s : Listening} {head head' : Ptr} {m' : Memory}, s.phase = .building head →
      (s.clock :: rs.map Prod.fst).IsChain (· ≤ ·) →
      parseTimerMessage site s.mem head rs = some (m', head') →
      ∃ s', Lts.exec (Listening.step site) s (rs.map fun r => .record r.1 r.2) = some s'
        ∧ s'.mem = m' ∧ s'.phase = .building head' ∧ s'.timerInfo = s.timerInfo := by
  induction rs with
  | nil =>
      intro s head head' m' hp _ hparse
      rw [parseTimerMessage, Option.some.injEq, Prod.mk.injEq] at hparse
      exact ⟨s, rfl, hparse.1, hparse.2 ▸ hp, rfl⟩
  | cons r rs ih =>
      intro s head head' m' hp hclock hparse
      obtain ⟨t, r⟩ := r
      rw [List.map_cons, List.isChain_cons_cons] at hclock
      rw [parseTimerMessage, Option.bind_eq_bind, Option.bind_eq_some_iff] at hparse
      obtain ⟨⟨m₁, head₁⟩, hset, hparse⟩ := hparse
      have hle : s.clock ≤ t := hclock.1
      obtain ⟨s', hexec, hm, hp', hti⟩ := ih (s := ⟨m₁, s.timerInfo, .building head₁, t,
        if (newTimer site r).timerId = -1 then s.ledger
        else s.ledger.accept t (Node.entry (s.mem.brk, newTimer site r))⟩) rfl hclock.2 hparse
      refine ⟨s', ?_, hm, hp', hti⟩
      rw [List.map_cons, Lts.exec_cons, Listening.step, hp]
      simp only [hle, if_true, hset, Option.bind_eq_bind, Option.bind_some]
      exact hexec

/-! ## One port -/

/-- The port `10.0.0.1`, and times that are seconds already. -/
def onePort : Site Int where
  portInfo := [⟨1, [49, 48, 46, 48, 46, 48, 46, 49]⟩]
  mktime := id

/-- A message for the port. -/
def portTimer (flag time : Int) : TimerMessage Int :=
  ⟨[49, 48, 46, 48, 46, 48, 46, 49], flag, time⟩

/-- One iteration of the listener with the records of a datagram. -/
def iteration (rs : List (Int × TimerMessage Int)) : List (Action Int) :=
  .read :: .receive :: rs.map (fun r => .record r.1 r.2) ++ [.store]

/-- The port starts at 2 and stops at 3; a tick comes in `recvfrom`. -/
def keptRun : List (Action Int) :=
  iteration [(0, portTimer 0 2)] ++ [.read, .tick 1, .receive, .record 1 (portTimer 1 3), .store,
    .tick 2, .tick 3]

theorem timers_kept_keptRun :
    Lts.Always (Listening.step onePort) Kept (start 0) keptRun :=
  timers_kept onePort 0 keptRun (by decide)

/-- The port starts at 1, when the listener blocks with the head it has read; then the stop of
the port is set for 5. -/
def resurrectRun : List (Action Int) :=
  iteration [(0, portTimer 0 1)] ++ [.read, .tick 1, .receive, .record 1 (portTimer 1 5), .store,
    .tick 2]

/-- The timer called at 1 is stored again and called again at 2. -/
theorem timer_resurrected :
    (Lts.exec (Listening.step onePort) (start 0) resurrectRun).map
        (fun s => s.ledger.callsOf 0)
      = some [(1, ⟨some 0, .portChildProc 0⟩), (2, ⟨some 0, .portChildProc 0⟩)]
      ∧ ¬ Lts.Always (Listening.step onePort) Kept (start 0) resurrectRun := by
  refine ⟨by decide, ?_⟩
  intro h
  have htwice : (Lts.exec (Listening.step onePort) (start 0) resurrectRun).map
      (fun s => decide (s.ledger.fired.map fun f => f.2.timer).Nodup) = some false := by decide
  obtain ⟨s, hs, hno⟩ := Option.map_eq_some_iff.mp htwice
  exact of_decide_eq_false hno (h.last hs).once

end Listening

end Monitor
