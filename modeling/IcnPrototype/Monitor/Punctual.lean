import IcnPrototype.Lib.Run
import IcnPrototype.Monitor.Ledger

set_option autoImplicit false

/-! # Timers fire on time

A run is a sequence of calls of `set_child_timer` and `insert_a_timer` with timers of the future
and of ticks, one for each second, none of which interrupts another. A call made after the tick
of a second reads that second or, if the next tick is late, the next one.

`timers_punctual` says that the timers fire on time as long as no call leaves a stale `elapse`
behind: `delete_repete_timer` does not write the `elapse` of the timer behind the one it takes
out. `timers_not_punctual` is a run in which this calls a timer one second early.
-/

namespace Monitor

open Dll

/-! ## Runs -/

/-- The timers between two ticks. -/
structure Sequential where
  mem : Memory
  timerInfo : Ptr
  /-- The clock of the last tick. -/
  now : Int
  /-- What `time(NULL)` returned last. -/
  clock : Int
  ledger : Ledger

/-- What can happen. -/
inductive Event (Tm : Type)
  | insert (t : Int) (v : TimerInfo)
  | setChild (t : Int) (r : TimerMessage Tm)
  | tick

namespace Sequential

variable {Tm : Type} (site : Site Tm)

/-- Right after the tick at `now`, with no timer. -/
def start (now : Int) : Sequential :=
  ⟨⟨fun _ => none, 0⟩, none, now, now, ⟨[], [], []⟩⟩

/-- The clock does not go back, there is one tick each second, and the timers are in the
future. -/
def Allowed (s : Sequential) : Event Tm → Prop
  | .insert t v => s.clock ≤ t ∧ t ≤ s.now + 1 ∧ t < v.time
  | .setChild t r => s.clock ≤ t ∧ t ≤ s.now + 1 ∧ t < site.mktime r.t
  | .tick => True

instance (s : Sequential) : ∀ e : Event Tm, Decidable (s.Allowed site e)
  | .insert t v => inferInstanceAs (Decidable (s.clock ≤ t ∧ t ≤ s.now + 1 ∧ t < v.time))
  | .setChild t r =>
      inferInstanceAs (Decidable (s.clock ≤ t ∧ t ≤ s.now + 1 ∧ t < site.mktime r.t))
  | .tick => isTrue trivial

/-- The program. -/
def run (s : Sequential) : Event Tm → Option Sequential
  | .insert t v => do
      let (m, p) ← insertTimer s.mem t s.timerInfo v
      some { s with
        mem := m, timerInfo := p, clock := t
        ledger := s.ledger.accept t (Node.entry (s.mem.brk, v)) }
  | .setChild t r => do
      let v := newTimer site r
      let (m, p) ← setChildTimer site s.mem t s.timerInfo r
      some { s with
        mem := m, timerInfo := p, clock := t
        ledger := if v.timerId = -1 then s.ledger
          else s.ledger.accept t (Node.entry (s.mem.brk, v)) }
  | .tick => do
      let (m, p, calls) ← sigFunc s.mem s.timerInfo (s.now + 1)
      some ⟨m, p, s.now + 1, s.now + 1, s.ledger.fire (s.now + 1) calls⟩

/-- A step of a run. -/
def step (s : Sequential) (e : Event Tm) : Option Sequential :=
  if s.Allowed site e then s.run site e else none

/-- The timers in the list. -/
def timers (s : Sequential) : List Node := nodes s.mem.heap s.mem.brk s.timerInfo

/-- The call leaves no stale `elapse` behind. -/
def KeepsElapse (s : Sequential) : Event Tm → Prop
  | .insert t v => leavesStale t (s.mem.brk, v) s.timers = false
  | .setChild t r => (newTimer site r).timerId ≠ -1 →
      leavesStale t (s.mem.brk, newTimer site r) s.timers = false
  | .tick => True

instance (s : Sequential) : ∀ e : Event Tm, Decidable (s.KeepsElapse site e)
  | .insert t v => inferInstanceAs (Decidable (leavesStale t (s.mem.brk, v) s.timers = false))
  | .setChild t r => inferInstanceAs (Decidable ((newTimer site r).timerId ≠ -1 →
      leavesStale t (s.mem.brk, newTimer site r) s.timers = false))
  | .tick => isTrue trivial

/-! ## On time and once -/

/-- The calls made on an accepted timer that was not replaced are one, at its time, if its time
has come, and none before. -/
def OnTime (s : Sequential) : Prop :=
  ∀ x ∈ s.ledger.accepted, x.addr ∉ s.ledger.replaced →
    s.ledger.callsOf x.addr = if x.time ≤ s.now then [(x.time, x.call)] else []

instance (s : Sequential) : Decidable s.OnTime :=
  inferInstanceAs (Decidable (∀ x ∈ s.ledger.accepted, x.addr ∉ s.ledger.replaced →
    s.ledger.callsOf x.addr = if x.time ≤ s.now then [(x.time, x.call)] else []))

/-- All calls so far were on time, and the next step is defined, whatever it is. -/
def Punctual (s : Sequential) : Prop :=
  s.OnTime ∧ ∀ e : Event Tm, s.Allowed site e → (s.step site e).isSome

/-- The invariant. -/
structure Inv (s : Sequential) (L : List Node) : Prop where
  holds : Holds s.mem s.timerInfo L
  ordered : Ordered True s.clock L
  tracks : Tracks s.mem.brk L s.ledger
  now_le : s.now ≤ s.clock
  clock_le : s.clock ≤ s.now + 1
  future : ∀ n ∈ L, s.now < n.2.time
  timely : ∀ x ∈ s.ledger.accepted, ∀ f ∈ s.ledger.callsOf x.addr,
    f = (x.time, x.call) ∧ x.time ≤ s.now

namespace Inv

variable {site} {s : Sequential} {L : List Node}

theorem start (now : Int) : Inv (Sequential.start now) [] where
  holds := ⟨IsList.nil _, fun _ h => nomatch h⟩
  ordered := Ordered.nil _ _
  tracks := Tracks.start 0
  now_le := le_rfl
  clock_le := Int.le_add_one le_rfl
  future := fun _ h => nomatch h
  timely := fun _ h => nomatch h

theorem timers_eq (hi : Inv s L) : s.timers = L := by
  rw [timers, hi.holds.list.head_eq]
  exact nodes_seg hi.holds.list.seg (length_le_of_nodup hi.holds.list.nodup hi.holds.lt)

theorem onTime (hi : Inv s L) : s.OnTime := by
  intro x hx hrep
  split
  · rename_i hdue
    cases hc : s.ledger.callsOf x.addr with
    | nil =>
        obtain ⟨n, hn, hnx⟩ := List.mem_map.mp (hi.tracks.kept x hx hrep hc)
        have htime : n.2.time = x.time := congrArg Entry.time hnx
        have := hi.future n hn
        omega
    | cons f rest =>
        have hf : f ∈ s.ledger.callsOf x.addr := by rw [hc]; exact List.mem_cons_self
        rw [← hc, hi.tracks.callsOf_eq hf, (hi.timely x hx f hf).1]
  · rename_i hfuture
    apply List.eq_nil_iff_forall_not_mem.mpr
    intro f hf
    exact hfuture (hi.timely x hx f hf).2

/-- A new timer in the list. -/
theorem inserted (hi : Inv s L) {t : Int} {v : TimerInfo} (ht : s.clock ≤ t) (ht' : t ≤ s.now + 1)
    (hv : t < v.time) (hs : leavesStale t (s.mem.brk, v) s.timers = false) :
    ∃ m p, insertTimer s.mem t s.timerInfo v = some (m, p)
      ∧ Inv ⟨m, p, s.now, t, s.ledger.accept t (Node.entry (s.mem.brk, v))⟩
          (insertNode t (s.mem.brk, v) L) := by
  rw [hi.timers_eq] at hs
  obtain ⟨m, p, hrun, hbrk, hl, -⟩ := insertTimer_holds hi.holds t v
  have hnow := hi.now_le
  refine ⟨m, p, hrun, hl, hi.ordered.insertNode ht hs, hbrk ▸ hi.tracks.insert t v,
    hnow.trans ht, ht',
    fun n hn => ?_, fun x hx f hf => ?_⟩
  · -- what is in the list now is the new timer, or was in it before
    have hin : n.entry ∈ entries (insertNode t (s.mem.brk, v) L) := mem_entries hn
    rw [insertNode] at hin
    have hor : n.entry = Node.entry (s.mem.brk, v) ∨ n.entry ∈ entries L := by
      split at hin
      · exact Or.inr hin
      · rcases mem_entries_place.mp hin with heq | hin
        · exact Or.inl heq
        · exact Or.inr ((List.eraseP_sublist.map Node.entry).subset hin)
    rcases hor with heq | hin
    · have htime : n.2.time = v.time := congrArg Entry.time heq
      show s.now < n.2.time
      omega
    · obtain ⟨k, hk, hkn⟩ := List.mem_map.mp hin
      have htime : k.2.time = n.2.time := congrArg Entry.time hkn
      have := hi.future k hk
      show s.now < n.2.time
      omega
  · rw [Ledger.callsOf_accept] at hf
    rcases hi.tracks.mem_accept hx with hx | hnone
    · exact hi.timely x hx f hf
    · rw [hnone] at hf
      cases hf

/-- The next tick. -/
theorem ticked (hi : Inv s L) :
    ∃ m p calls, sigFunc s.mem s.timerInfo (s.now + 1) = some (m, p, calls)
      ∧ Inv ⟨m, p, s.now + 1, s.now + 1, s.ledger.fire (s.now + 1) calls⟩
          (Monitor.left (s.now + 1) L) := by
  have hall : ∀ n ∈ L, s.now + 1 ≤ n.2.time := hi.future
  obtain ⟨hsome, hcalled, hleft⟩ := hi.ordered.tick_exact hi.clock_le hall
  obtain ⟨m, hrun, hbrk, hl⟩ := sigFunc_holds hi.holds (s.now + 1) hsome
  have hsplit := entries_called_left (s.now + 1) L
  refine ⟨m, _, _, hrun, hl, hi.ordered.left hi.clock_le,
    hbrk ▸ hi.tracks.tick (s.now + 1) hsplit hi.holds.list.nodup, le_rfl, Int.le_add_one le_rfl,
    hleft, fun x hx f hf => ?_⟩
  rcases hi.tracks.mem_callsOf_fire hsplit hx hf with hf | ⟨rfl, n, hn, rfl⟩
  · obtain ⟨heq, hle⟩ := hi.timely x hx f hf
    exact ⟨heq, hle.trans (Int.le_add_one le_rfl)⟩
  · have htime : n.entry.time = s.now + 1 := hcalled n hn
    exact ⟨by rw [htime], htime.le⟩

/-- Every step is defined. -/
theorem step_isSome (hi : Inv s L) {e : Event Tm} (ha : s.Allowed site e) :
    (s.step site e).isSome := by
  rw [Sequential.step, if_pos ha]
  cases e with
  | insert t v =>
      obtain ⟨m, p, hrun, -⟩ := insertTimer_holds hi.holds t v
      simp [Sequential.run, hrun]
  | setChild t r =>
      obtain ⟨m, p, hrun, -⟩ := insertTimer_holds hi.holds t (newTimer site r)
      by_cases hid : (newTimer site r).timerId = -1
      · simp [Sequential.run, setChildTimer_eq, hid]
      · simp [Sequential.run, setChildTimer_eq, hid, hrun]
  | tick =>
      obtain ⟨m, p, calls, hrun, -⟩ := hi.ticked
      simp [Sequential.run, hrun]

/-- **One step.** A step that keeps `elapse` keeps the invariant. -/
theorem run (hi : Inv s L) {e : Event Tm} (ha : s.Allowed site e) (hk : s.KeepsElapse site e) :
    ∃ s' L', s.run site e = some s' ∧ Inv s' L' := by
  cases e with
  | insert t v =>
      obtain ⟨m, p, hrun, hi'⟩ := hi.inserted ha.1 ha.2.1 ha.2.2 hk
      exact ⟨_, _, by simp [Sequential.run, hrun], hi'⟩
  | setChild t r =>
      by_cases hid : (newTimer site r).timerId = -1
      · have hnow := hi.now_le
        have hrange : ∀ n ∈ L, n.2.time < t + 2 ^ 31 := by
          intro n hn
          have hn' := hi.ordered.range n hn
          have ht : s.clock ≤ t := ha.1
          omega
        obtain ⟨m, hrun, hbrk, hl, -⟩ := setChildTimer_unknown hid hi.holds t
        refine ⟨_, L, by simp [Sequential.run, hid, hrun]; rfl, ?_⟩
        exact ⟨hl, ⟨hi.ordered.chain, hrange⟩, hbrk ▸ hi.tracks.mono, hnow.trans ha.1, ha.2.1,
          hi.future, hi.timely⟩
      · obtain ⟨m, p, hrun, hi'⟩ := hi.inserted ha.1 ha.2.1 ha.2.2 (hk hid)
        exact ⟨_, _, by simp [Sequential.run, setChildTimer_eq, hid, hrun], hi'⟩
  | tick =>
      obtain ⟨m, p, calls, hrun, hi'⟩ := hi.ticked
      exact ⟨_, _, by simp [Sequential.run, hrun], hi'⟩

theorem punctual (site : Site Tm) (hi : Inv s L) : s.Punctual site :=
  ⟨hi.onTime, fun _ ha => hi.step_isSome ha⟩

end Inv

/-- **Timers fire on time and once.** In a run in which no call leaves a stale `elapse` behind,
all calls of a `timer_proc` are on time in every state, and no step is undefined. -/
theorem timers_punctual (now : Int) (events : List (Event Tm))
    (h : Lts.Along (Sequential.step site) (Sequential.KeepsElapse site) (start now) events) :
    Lts.Always (Sequential.step site) (Punctual site) (start now) events := by
  refine Lts.always_of_along (I := fun s => ∃ L, Inv s L) (fun s hs => ?_)
    (fun s e s' hs hstep hk => ?_) ⟨[], Inv.start now⟩ h
  · obtain ⟨L, hi⟩ := hs
    exact hi.punctual site
  · obtain ⟨L, hi⟩ := hs
    rw [Sequential.step] at hstep
    split at hstep
    · rename_i ha
      obtain ⟨s₁, L', hrun, hi'⟩ := hi.run ha hk
      rw [hrun, Option.some.injEq] at hstep
      exact ⟨L', hstep ▸ hi'⟩
    · cases hstep

/-! ## Two ports -/

/-- The ports `10.0.0.1` and `10.0.0.2`, and times that are seconds already. -/
def twoPorts : Site Int where
  portInfo := [⟨1, [49, 48, 46, 48, 46, 48, 46, 49]⟩, ⟨1, [49, 48, 46, 48, 46, 48, 46, 50]⟩]
  mktime := id

/-- A message for the first or the second port. -/
def timerFor (port : UInt8) (flag time : Int) : TimerMessage Int :=
  ⟨[49, 48, 46, 48, 46, 48, 46, 48 + port], flag, time⟩

/-- The start of a port is set for 1, then for 3, and everything else for 2. -/
def replacedRun : List (Event Int) :=
  [.setChild 0 (timerFor 2 0 2), .setChild 0 (timerFor 1 1 2), .setChild 0 (timerFor 1 0 1),
   .setChild 1 (timerFor 1 0 3), .tick, .tick, .tick]

theorem timers_punctual_replacedRun :
    Lts.Always (Sequential.step twoPorts) (Punctual twoPorts) (start 0) replacedRun :=
  timers_punctual twoPorts 0 replacedRun (by decide)

/-- At 2 both ports change, at 1 the first one does; then its change at 2 is put off to 3. -/
def staleRun : List (Event Int) :=
  [.setChild 0 (timerFor 2 0 2), .setChild 0 (timerFor 1 1 2), .setChild 0 (timerFor 1 0 1),
   .setChild 0 (timerFor 1 1 3), .tick]

/-- The tick at 1 starts the second port, whose timer is for 2. -/
theorem timers_not_punctual :
    (Lts.exec (Sequential.step twoPorts) (start 0) staleRun).map
        (fun s => (s.now, s.ledger.callsOf 0))
      = some (1, [(1, ⟨some 0, .portChildProc 1⟩)])
      ∧ ¬ Lts.Always (Sequential.step twoPorts) (Punctual twoPorts) (start 0) staleRun := by
  refine ⟨by decide, ?_⟩
  intro h
  have hlate : (Lts.exec (Sequential.step twoPorts) (start 0) staleRun).map
      (fun s => decide s.OnTime) = some false := by decide
  obtain ⟨s, hs, hno⟩ := Option.map_eq_some_iff.mp hlate
  exact of_decide_eq_false hno (h.last hs).1

end Sequential

end Monitor
