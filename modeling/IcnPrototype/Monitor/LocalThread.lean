import IcnPrototype.Lib.Run
import IcnPrototype.Monitor.LocalComm

set_option autoImplicit false

/-! # The datagrams that are not timer commands

`thread_local_listen` calls `local_listen` in a loop and looks at `type` to see what was returned.
`local_listen` stores 1, 2 or 3 there and leaves it alone for any other type of datagram, for which
it returns `NULL`; and `type` lives as long as the thread. So an unknown datagram is taken for what
the last known one was: after a timer command `timer_info` becomes `NULL`, after an inform request
`sendto` is called with `NULL`.

`timers_left_iff` says that this is all: along every history of datagrams and ticks, the datagrams
that are not timer commands leave the timers alone exactly if none of them is such a datagram.
-/

namespace Monitor

open Bytes Dll

/-! ## The loop -/

/-- The thread while it blocks in `recvfrom`, with what it shares with the timers. -/
structure LocalThread where
  mem : Memory
  /-- `timer_manage->timer_info` -/
  timerInfo : Ptr
  /-- The head that `local_listen` was called with. -/
  head : Ptr
  /-- `type`, which is kept from one datagram to the next. -/
  type : Int32
  /-- Every call of `sendto`, with the buffer it got. -/
  calls : List (Option Sink)

/-- A datagram: what is in `recv_buf` after `recvfrom`, old bytes included, and the clock that is
read for each record. -/
structure Received where
  recvBuf : Mem
  clock : Nat → Int

/-- The type of a datagram. -/
def Received.type (d : Received) : Int32 := loadInt d.recvBuf 0

/-- The records with the clocks at which they are handled. -/
def Received.clocked (d : Received) (records : List (TimerMessage Tm)) :
    List (Int × TimerMessage Tm) :=
  records.zipIdx.map fun r => (d.clock r.2, r.1)

/-- `local_ret` -/
inductive LocalRet where
  | timers (head : Ptr)
  | ack
  | inform (sendBuf : Sink)
  | null

/-- `local_ret` as a list of timers. Of the other pointers, only `NULL` is ever taken for one. -/
def LocalRet.asTimers : LocalRet → Ptr
  | .timers head => head
  | _ => none

/-- `local_ret` as a buffer. Of the other pointers, only `NULL` is ever taken for one. -/
def LocalRet.asBuffer : LocalRet → Option Sink
  | .inform sendBuf => some sendBuf
  | _ => none

namespace LocalThread

/-- What happens to the thread. -/
inductive Event where
  | datagram (d : Received)
  /-- A tick, which comes while the thread blocks. -/
  | tick (t : Int)

variable (site : Site Tm)

/-- The thread at its start, without timers. -/
def start : LocalThread := ⟨⟨fun _ => none, 0⟩, none, none, 0, []⟩

/-- `local_listen`: the timers, `type` and the value. -/
def listen (s : LocalThread) (d : Received) : Option (Memory × Int32 × LocalRet) :=
  match localListen site ⟨d.recvBuf, 1024⟩ with
  | .error _ => none
  | .ok (.timers records) => do
      let (m, head) ← parseTimerMessage site s.mem s.head (d.clocked records)
      some (m, 1, .timers head)
  | .ok .ack => some (s.mem, 2, .ack)
  | .ok (.inform reply) => some (s.mem, 3, .inform reply)
  | .ok .unknown => some (s.mem, s.type, .null)

/-- `switch(type)` -/
def switch (s : LocalThread) (localRet : LocalRet) : LocalThread :=
  if s.type = 1 then { s with timerInfo := localRet.asTimers }
  else if s.type = 3 then { s with calls := s.calls ++ [localRet.asBuffer] }
  else s

/-- A datagram, up to the next `recvfrom`, or a tick. -/
def step (s : LocalThread) : Event → Option LocalThread
  | .datagram d => do
      let (m, type, localRet) ← listen site s d
      let s := switch { s with mem := m, type := type } localRet
      some { s with head := s.timerInfo }
  | .tick t => do
      let (m, p, _) ← sigFunc s.mem s.timerInfo t
      some { s with mem := m, timerInfo := p }

/-- What is sent: `sendto` without a buffer fails and sends nothing. -/
def replies (s : LocalThread) : List Sink := s.calls.filterMap id

/-! ## The property and its condition -/

/-- If the event is a datagram that is no timer command, the timers stay. -/
def LeavesTimers (s : LocalThread) : Event → Prop
  | .datagram d => d.type ≠ 1 →
      ∀ s' ∈ step site s (.datagram d), s'.timerInfo = s.timerInfo ∧ s'.mem = s.mem
  | .tick _ => True

/-- If the event is a datagram that is no inform request, nothing is sent. -/
def SendsNothing (s : LocalThread) : Event → Prop
  | .datagram d => d.type ≠ 3 → ∀ s' ∈ step site s (.datagram d), s'.replies = s.replies
  | .tick _ => True

/-- If the event is a datagram that is no inform request, `sendto` is not called. -/
def CallsNothing (s : LocalThread) : Event → Prop
  | .datagram d => d.type ≠ 3 → ∀ s' ∈ step site s (.datagram d), s'.calls = s.calls
  | .tick _ => True

/-- A type that `local_listen` does not know. -/
def Unknown (type : Int32) : Prop := type ≠ 1 ∧ type ≠ 2 ∧ type ≠ 3

instance (type : Int32) : Decidable (Unknown type) := inferInstanceAs (Decidable (_ ∧ _))

/-- No unknown datagram is taken for a timer command while there are timers. -/
def TimersSafe (s : LocalThread) : Event → Prop
  | .datagram d => Unknown d.type → s.type = 1 → s.timerInfo = none
  | .tick _ => True

instance (s : LocalThread) : ∀ e : Event, Decidable (s.TimersSafe e)
  | .datagram d => inferInstanceAs (Decidable (Unknown d.type → s.type = 1 → s.timerInfo = none))
  | .tick _ => isTrue trivial

/-- No unknown datagram is taken for an inform request. -/
def RepliesSafe (s : LocalThread) : Event → Prop
  | .datagram d => Unknown d.type → s.type ≠ 3
  | .tick _ => True

/-! ## One datagram -/

variable {site}

/-- What a datagram does, by its type. -/
theorem listen_eq_some {s : LocalThread} {d : Received} {m : Memory} {type : Int32}
    {localRet : LocalRet} (h : listen site s d = some (m, type, localRet)) :
    (d.type = 1 ∧ type = 1)
      ∨ (d.type = 2 ∧ m = s.mem ∧ type = 2)
      ∨ (d.type = 3 ∧ m = s.mem ∧ type = 3)
      ∨ (Unknown d.type ∧ m = s.mem ∧ type = s.type ∧ localRet = .null) := by
  rw [listen] at h
  cases hheard : localListen site ⟨d.recvBuf, 1024⟩ with
  | error e =>
      rw [hheard] at h
      cases h
  | ok heard =>
      rw [hheard] at h
      rcases localListen_cases hheard with ⟨h1, records, rfl⟩ | ⟨h2, rfl⟩ | ⟨h3, reply, rfl⟩
        | ⟨hunknown, rfl⟩
      · obtain ⟨⟨m', head⟩, -, hret⟩ := Option.bind_eq_some_iff.mp h
        cases hret
        exact Or.inl ⟨h1, rfl⟩
      · cases h
        exact Or.inr (Or.inl ⟨h2, rfl, rfl⟩)
      · cases h
        exact Or.inr (Or.inr (Or.inl ⟨h3, rfl, rfl⟩))
      · cases h
        exact Or.inr (Or.inr (Or.inr ⟨hunknown, rfl, rfl, rfl⟩))

/-- An unknown datagram has no fault, and is only looked at for its type. -/
theorem listen_unknown {d : Received} (h : Unknown d.type) (s : LocalThread) :
    listen site s d = some (s.mem, s.type, .null) := by
  have hfour : 0 + 4 ≤ 1024 := by decide
  have hread : readInt ⟨d.recvBuf, 1024⟩ 0 = .ok d.type := readInt_eq_ok.mpr ⟨hfour, rfl⟩
  have hheard : localListen site ⟨d.recvBuf, 1024⟩ = .ok .unknown := by
    refine bind_eq_ok.mpr ⟨d.type, hread, ?_⟩
    rw [if_neg h.1, if_neg h.2.1, if_neg h.2.2]
    rfl
  rw [listen, hheard]

/-- An unknown datagram is taken for what `type` says. -/
theorem step_unknown {d : Received} (h : Unknown d.type) (s : LocalThread) :
    step site s (.datagram d)
      = some { s.switch .null with head := (s.switch .null).timerInfo } := by
  rw [step, listen_unknown h]
  rfl

/-- What a datagram that is no timer command and not unknown leaves. -/
theorem step_known {s s' : LocalThread} {d : Received}
    (h : step site s (.datagram d) = some s') (hknown : ¬ Unknown d.type) :
    (d.type ≠ 1 → s'.timerInfo = s.timerInfo ∧ s'.mem = s.mem)
      ∧ (d.type ≠ 3 → s'.calls = s.calls) := by
  obtain ⟨⟨m, type, localRet⟩, hlisten, h⟩ := Option.bind_eq_some_iff.mp h
  cases h
  rcases listen_eq_some hlisten with ⟨h1, rfl⟩ | ⟨h2, rfl, rfl⟩ | ⟨h3, rfl, rfl⟩ | ⟨hu, -⟩
  · exact ⟨fun hne => absurd h1 hne, fun _ => rfl⟩
  · exact ⟨fun _ => ⟨rfl, rfl⟩, fun _ => rfl⟩
  · exact ⟨fun _ => ⟨rfl, rfl⟩, fun hne => absurd h3 hne⟩
  · exact absurd hu hknown

/-- What is done with the null pointer of an unknown datagram. -/
theorem switch_null (s : LocalThread) :
    s.switch .null = { s with
      timerInfo := if s.type = 1 then none else s.timerInfo
      calls := if s.type = 3 then s.calls ++ [none] else s.calls } := by
  rw [switch]
  by_cases h1 : s.type = 1
  · have h3 : ¬ s.type = 3 := by
      rw [h1]
      decide
    rw [if_pos h1, if_pos h1, if_neg h3]
    rfl
  · rw [if_neg h1, if_neg h1]
    split
    · rfl
    · rfl

theorem switch_null_timerInfo (s : LocalThread) :
    (s.switch .null).timerInfo = if s.type = 1 then none else s.timerInfo := by rw [switch_null]

theorem switch_null_calls (s : LocalThread) :
    (s.switch .null).calls = if s.type = 3 then s.calls ++ [none] else s.calls := by rw [switch_null]

theorem switch_null_mem (s : LocalThread) : (s.switch .null).mem = s.mem := by rw [switch_null]

/-! ## Every history -/

/-- The timers are lost to an unknown datagram exactly if it is taken for a timer command while
there are timers. -/
theorem leavesTimers_iff {s : LocalThread} : ∀ {e : Event},
    LeavesTimers site s e ↔ TimersSafe s e
  | .tick _ => Iff.rfl
  | .datagram d => by
      rw [LeavesTimers, TimersSafe]
      constructor
      · intro h hu h1
        have hstep := (h hu.1 _ (step_unknown hu s)).1
        rw [switch_null_timerInfo, if_pos h1] at hstep
        exact hstep.symm
      · intro h hne s' hs'
        by_cases hu : Unknown d.type
        · rw [step_unknown hu] at hs'
          cases hs'
          refine ⟨?_, switch_null_mem s⟩
          show (s.switch .null).timerInfo = s.timerInfo
          rw [switch_null_timerInfo]
          split
          · next h1 => exact (h hu h1).symm
          · rfl
        · exact (step_known hs' hu).1 hne

theorem callsNothing_iff {s : LocalThread} : ∀ {e : Event},
    CallsNothing site s e ↔ RepliesSafe s e
  | .tick _ => Iff.rfl
  | .datagram d => by
      rw [CallsNothing, RepliesSafe]
      constructor
      · intro h hu h3
        have hstep := h hu.2.2 _ (step_unknown hu s)
        have hcalls : (s.switch .null).calls = s.calls := hstep
        rw [switch_null_calls, if_pos h3] at hcalls
        exact List.cons_ne_nil _ _ (List.append_right_eq_self.mp hcalls)
      · intro h hne s' hs'
        by_cases hu : Unknown d.type
        · rw [step_unknown hu] at hs'
          cases hs'
          show (s.switch .null).calls = s.calls
          rw [switch_null_calls, if_neg (h hu)]
        · exact (step_known hs' hu).2 hne

/-- Only an inform request is answered: a call of `sendto` without a buffer sends nothing. -/
theorem sendsNothing {s : LocalThread} : ∀ {e : Event}, SendsNothing site s e
  | .tick _ => trivial
  | .datagram d => by
      intro hne s' hs'
      by_cases hu : Unknown d.type
      · rw [step_unknown hu] at hs'
        cases hs'
        show (s.switch .null).calls.filterMap id = s.calls.filterMap id
        rw [switch_null_calls]
        split
        · rw [List.filterMap_append]
          exact List.append_nil _
        · rfl
      · rw [replies, (step_known hs' hu).2 hne, replies]

variable (site)

theorem along_safe_iff (s : LocalThread) (es : List Event) :
    Lts.Along (step site) (fun s e => LeavesTimers site s e ∧ SendsNothing site s e) s es
      ↔ Lts.Along (step site) TimersSafe s es := by
  refine Lts.along_congr (I := fun _ => True) (fun _ _ _ _ _ => trivial) (fun s e _ => ?_) trivial
  rw [leavesTimers_iff]
  exact and_iff_left sendsNothing

/-- **Datagrams that are no timer commands leave the timers alone, and only inform requests are
answered, exactly along the histories where no unknown datagram is taken for a timer command while
there are timers.** If a call of `sendto` without a buffer counts as an answer, none may be taken
for an inform request either. -/
theorem timers_left_iff (s : LocalThread) (es : List Event) :
    (Lts.Along (step site) (fun s e => LeavesTimers site s e ∧ SendsNothing site s e) s es
        ↔ Lts.Along (step site) TimersSafe s es)
      ∧ (Lts.Along (step site) (fun s e => LeavesTimers site s e ∧ CallsNothing site s e) s es
        ↔ Lts.Along (step site) (fun s e => TimersSafe s e ∧ RepliesSafe s e) s es) := by
  refine ⟨along_safe_iff site s es, ?_⟩
  refine Lts.along_congr (I := fun _ => True) (fun _ _ _ _ _ => trivial) (fun s e _ => ?_) trivial
  rw [leavesTimers_iff, callsNothing_iff]

/-- A host with one port, whose clock does not matter. -/
def onePort : Site Tm where
  portInfo := [⟨1, [49, 0]⟩]
  mktime := fun _ => 10

/-- A timer command for its port. -/
def portCommand : Received where
  recvBuf := recvBufOf (le32 1 ++ le32 1 ++ [49, 0])
  clock := fun _ => 0

/-- A datagram of type 9. -/
def typeNine : Received where
  recvBuf := recvBufOf (le32 9)
  clock := fun _ => 0

/-- The datagram of type 9 is taken for a timer command that leaves no timer. -/
theorem timers_lost :
    ((Lts.exec (step onePort) start [.datagram portCommand]).map timerInfo) = some (some 0)
      ∧ ((Lts.exec (step onePort) start [.datagram portCommand, .datagram typeNine]).map timerInfo)
        = some none
      ∧ ¬ Lts.Along (step onePort)
        (fun s e => LeavesTimers onePort s e ∧ SendsNothing onePort s e) start
        [.datagram portCommand, .datagram typeNine] := by
  refine ⟨by decide +kernel, by decide +kernel, ?_⟩
  rw [along_safe_iff]
  decide +kernel

end LocalThread

end Monitor
