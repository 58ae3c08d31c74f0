import IcnPrototype.Lib.Dll
import IcnPrototype.Lib.Bytes

set_option autoImplicit false

/-! # The timers of `module_stats`

`local_timer.c` and `sig_func` of `main.c`, statement by statement over a heap of
`struct _timer_info`. A null or dangling pointer that is followed makes the result undefined
(`none`), and so does a second `free`. The clock is an argument: each function takes what
`time(NULL)` returns in it.

A loop over a list takes a bound on its rounds from the caller. The number of cells ever
allocated is such a bound, and it is what the callers pass.
-/

namespace Monitor

open Dll

/-! ## Data -/

/-- The `timer_proc` of a timer. -/
inductive TimerProc
  | timerProcLaunch
  | timerProcEnd
deriving DecidableEq, Repr

/-- What a `struct _timer_info` holds besides its links. The broken-down time `t` is left out:
only `time` is read. -/
structure TimerInfo where
  timerId : Int
  /-- 0 starts the process of the port, anything else ends it. -/
  flag : Int
  /-- The time left after the timer before this one. -/
  elapse : Int
  /-- Seconds since the epoch. -/
  time : Int
  timerProc : TimerProc
deriving DecidableEq, Repr

/-- `int elapse = difftime(a, b)`. A difference out of the range of an `int` becomes the least
one, as the conversion of a `double` does on x86. -/
def difftime (a b : Int) : Int :=
  if -2 ^ 31 ≤ a - b ∧ a - b < 2 ^ 31 then a - b else -2 ^ 31

/-- The cells of the timers and how many were ever allocated. -/
structure Memory where
  heap : Heap TimerInfo
  brk : Nat

/-- `malloc` of a `struct _timer_info`. -/
def malloc (m : Memory) : Memory × Ptr :=
  (⟨Function.update m.heap m.brk (some ⟨⟨0, 0, 0, 0, .timerProcLaunch⟩, none, none⟩), m.brk + 1⟩,
    some m.brk)

/-! ## `insert_a_timer` -/

/-- `delete_repete_timer`: take a timer out of its list and return the one after it. -/
def deleteRepeteTimer (h : Heap TimerInfo) (p : Ptr) : Option (Heap TimerInfo × Ptr) := do
  let c ← load h p
  match c.pre, c.next with
  | none, none => do
      let h ← free h p
      some (h, none)
  | none, some q => do
      let h ← setPre h (some q) none
      let ret := (← load h p).next
      let h ← free h p
      some (h, ret)
  | some _, some q => do
      let h ← setPre h (some q) c.pre
      let h ← setNext h (← load h p).pre (← load h p).next
      let ret := (← load h p).next
      let h ← free h p
      some (h, ret)
  | some a, none => do
      let h ← setNext h (some a) none
      let h ← free h p
      some (h, none)

/-- Whether two timers have the same `timer_id` and `flag`. -/
def sameTimer (v w : TimerInfo) : Bool := v.timerId == w.timerId && v.flag == w.flag

/-- `pnew` becomes the only timer. -/
def insertAlone (h : Heap TimerInfo) (t : Int) (pnew : Ptr) : Option (Heap TimerInfo × Ptr) := do
  let h ← setPre h pnew none
  let h ← setNext h pnew none
  let h ← setVal h pnew fun v => { v with elapse := difftime v.time t }
  some (h, pnew)

/-- `pnew` becomes the timer before the first one, `p`. -/
def insertFirst (h : Heap TimerInfo) (t : Int) (p pnew : Ptr) : Option (Heap TimerInfo) := do
  let elapse := difftime (← load h p).val.time (← load h pnew).val.time
  let h ← setPre h pnew none
  let h ← setNext h pnew p
  let h ← setPre h p pnew
  let h ← setVal h pnew fun v => { v with elapse := difftime v.time t }
  setVal h p fun v => { v with elapse := elapse }

/-- `pnew` becomes the timer before `p`, which is not the first one. -/
def insertBefore (h : Heap TimerInfo) (p pnew : Ptr) : Option (Heap TimerInfo) := do
  let elapse := difftime (← load h p).val.time (← load h pnew).val.time
  let h ← setNext h (← load h p).pre pnew
  let h ← setNext h pnew p
  let h ← setPre h pnew (← load h p).pre
  let h ← setPre h p pnew
  let h ← setVal h p fun v => { v with elapse := elapse }
  let pre ← load h (← load h pnew).pre
  setVal h pnew fun v => { v with elapse := difftime v.time pre.val.time }

/-- `pnew` becomes the timer after the last one, `pEnd`. -/
def insertLast (h : Heap TimerInfo) (pEnd pnew : Ptr) : Option (Heap TimerInfo) := do
  let h ← setPre h pnew pEnd
  let h ← setNext h pEnd pnew
  let pre ← load h pEnd
  let h ← setVal h pnew fun v => { v with elapse := difftime v.time pre.val.time }
  setNext h pnew none

/-- The loop of `insert_a_timer` with what follows it. `p` runs over the timers behind the
first one and `pEnd` is the one before it. -/
def insertLoop (pnew : Ptr) : Nat → Heap TimerInfo → Ptr → Ptr → Bool → Bool →
    Option (Heap TimerInfo)
  | 0, _, _, _, _, _ => none
  | fuel + 1, h, p, pEnd, insertFlag, repeteFlag => do
      let new ← load h pnew
      match p with
      | none => if insertFlag then some h else insertLast h pEnd pnew
      | some _ =>
          if insertFlag && repeteFlag then some h else
            let repete := !repeteFlag && sameTimer (← load h p).val new.val
            let (h, p) ← if repete then deleteRepeteTimer h p else some (h, p)
            match p with
            | none => if insertFlag then some h else insertLast h pEnd pnew
            | some _ =>
                let c ← load h p
                let before := !insertFlag && decide (0 ≤ difftime c.val.time new.val.time)
                let h ← if before then insertBefore h p pnew else some h
                insertLoop pnew fuel h (← load h p).next p (insertFlag || before)
                  (repeteFlag || repete)

/-- `insert_a_timer` from `p = head` on. -/
def insertFrom (fuel : Nat) (h : Heap TimerInfo) (t : Int) (head pnew : Ptr) (repeteFlag : Bool) :
    Option (Heap TimerInfo × Ptr) := do
  let c ← load h head
  let new ← load h pnew
  if 0 ≤ difftime c.val.time new.val.time then
    let h ← insertFirst h t head pnew
    let h ← insertLoop pnew fuel h (← load h head).next head true repeteFlag
    some (h, pnew)
  else
    let h ← insertLoop pnew fuel h c.next head false repeteFlag
    some (h, head)

/-- `insert_a_timer` at the clock `t`: put a timer into the list, which is sorted by time, and
take out the one with the same `timer_id` and `flag`. -/
def insertATimer (fuel : Nat) (h : Heap TimerInfo) (t : Int) (head pnew : Ptr) :
    Option (Heap TimerInfo × Ptr) := do
  let new ← load h pnew
  if difftime new.val.time t < 0 then some (h, head) else
    match head with
    | none => insertAlone h t pnew
    | some _ =>
        if sameTimer (← load h head).val new.val then
          let (h, head) ← deleteRepeteTimer h head
          match head with
          | none => insertAlone h t pnew
          | some _ => insertFrom fuel h t head pnew true
        else insertFrom fuel h t head pnew false

/-! ## `set_child_timer` -/

/-- What `set_timer_id` reads of a `struct PORT_INFO`. -/
structure PortInfo where
  portType : Int
  devIp : List UInt8

/-- A `struct TIMER_MESSAGE`; `Tm` is the broken-down time. -/
structure TimerMessage (Tm : Type) where
  ip : List UInt8
  flag : Int
  t : Tm

/-- The ports of a host and its `mktime`, which depends on where the host is. -/
structure Site (Tm : Type) where
  portInfo : List PortInfo
  mktime : Tm → Int

/-- `set_timer_id` from the `i`-th port on. -/
def setTimerId (ip : List UInt8) : List PortInfo → Int → Int
  | [], _ => -1
  | port :: ports, i =>
      if port.portType = 0 then -1
      else if Bytes.cstr ip = Bytes.cstr port.devIp then i
      else setTimerId ip ports (i + 1)

/-- `set_child_timer` at the clock `now`. -/
def setChildTimer {Tm : Type} (site : Site Tm) (m : Memory) (now : Int) (timerInfo : Ptr)
    (timerMessage : TimerMessage Tm) : Option (Memory × Ptr) := do
  let (m, pnew) := malloc m
  let h ← setVal m.heap pnew fun v =>
    { v with timerId := setTimerId timerMessage.ip site.portInfo 0, flag := timerMessage.flag }
  let new ← load h pnew
  if new.val.timerId = -1 then some (⟨h, m.brk⟩, timerInfo) else
    let proc := if new.val.flag ≠ 0 then TimerProc.timerProcEnd else .timerProcLaunch
    let h ← setVal h pnew fun v => { v with timerProc := proc }
    let h ← setVal h pnew fun v => { v with time := site.mktime timerMessage.t }
    let (h, timerInfo) ← insertATimer m.brk h now timerInfo pnew
    some (⟨h, m.brk⟩, timerInfo)

/-- `parse_timer_message`: the records of a datagram of type 1, each with the clock at which it
is handled. -/
def parseTimerMessage {Tm : Type} (site : Site Tm) :
    Memory → Ptr → List (Int × TimerMessage Tm) → Option (Memory × Ptr)
  | m, head, [] => some (m, head)
  | m, head, (now, r) :: rs => do
      let (m, head) ← setChildTimer site m now head r
      parseTimerMessage site m head rs

/-! ## `sig_func` -/

/-- The loop of `del_a_timer` over the timers that are neither first nor last, and the last. -/
def delLoop (head : Ptr) (value : Int) : Nat → Heap TimerInfo → Ptr → Option (Heap TimerInfo × Ptr)
  | 0, _, _ => none
  | fuel + 1, h, p => do
      let c ← load h p
      match c.next with
      | some q =>
          if c.val.timerId = value then do
            let h ← setPre h (some q) c.pre
            let h ← setNext h (← load h p).pre (← load h p).next
            let h ← free h p
            some (h, head)
          else delLoop head value fuel h c.next
      | none =>
          if c.val.timerId = value then do
            let h ← setNext h c.pre none
            let h ← free h p
            some (h, head)
          else some (h, head)

/-- `del_a_timer`: take out the first timer with the `timer_id`. A timer that is alone in its
list is not freed. -/
def delATimer (fuel : Nat) (h : Heap TimerInfo) (head : Ptr) (value : Int) :
    Option (Heap TimerInfo × Ptr) :=
  match head with
  | none => some (h, none)
  | some _ => do
      let c ← load h head
      if c.val.timerId = value then
        match c.next with
        | none => some (h, none)
        | some q => do
            let h ← setPre h (some q) none
            let h ← free h head
            some (h, some q)
      else
        match c.next with
        | none => delLoop head value fuel h head
        | some q => delLoop head value fuel h (some q)

/-- What a `timer_proc` does to the process of a port. -/
inductive PortAction
  | portChildProc (num : Int)
  | portKillProc (num : Int)
deriving DecidableEq, Repr

/-- A call of a `timer_proc`: on which timer and with which effect. -/
structure Call where
  timer : Ptr
  action : PortAction
deriving DecidableEq, Repr

/-- `timer_proc_launch`. -/
def timerProcLaunch (fuel : Nat) (h : Heap TimerInfo) (timerInfo : Ptr) (num : Int) :
    Option (Heap TimerInfo × Ptr × Call) := do
  let (h, head) ← delATimer fuel h timerInfo num
  some (h, head, ⟨timerInfo, .portChildProc num⟩)

/-- `timer_proc_end`. -/
def timerProcEnd (fuel : Nat) (h : Heap TimerInfo) (timerInfo : Ptr) (num : Int) :
    Option (Heap TimerInfo × Ptr × Call) := do
  let (h, head) ← delATimer fuel h timerInfo num
  some (h, head, ⟨timerInfo, .portKillProc num⟩)

/-- `timer_info->timer_proc(timer_info, &id)` with the `timer_id` of the timer. -/
def callTimerProc (fuel : Nat) (h : Heap TimerInfo) (timerInfo : Ptr) :
    Option (Heap TimerInfo × Ptr × Call) := do
  let c ← load h timerInfo
  match c.val.timerProc with
  | .timerProcLaunch => timerProcLaunch fuel h timerInfo c.val.timerId
  | .timerProcEnd => timerProcEnd fuel h timerInfo c.val.timerId

/-- `timer_info->elapse = difftime(timer_info->time, t)`. -/
def setElapse (h : Heap TimerInfo) (t : Int) (p : Ptr) : Option (Heap TimerInfo) :=
  setVal h p fun v => { v with elapse := difftime v.time t }

/-- The first loop of `sig_func`: the timers whose time is over. -/
def overdueLoop (brk : Nat) (t : Int) :
    Nat → Heap TimerInfo → Ptr → Option (Heap TimerInfo × Ptr × List Call)
  | 0, _, _ => none
  | fuel + 1, h, p => do
      let c ← load h p
      if c.val.elapse < 0 then do
        let (h, p, call) ← callTimerProc brk h p
        match p with
        | none => some (h, none, [call])
        | some _ => do
            let h ← setElapse h t p
            let (h, p, calls) ← overdueLoop brk t fuel h p
            some (h, p, call :: calls)
      else some (h, p, [])

/-- The second loop of `sig_func`: the first timer if its time is now, and those that go with
it. It reads `elapse` through the pointer before it looks whether a timer is left. -/
def dueLoop (brk : Nat) : Nat → Heap TimerInfo → Ptr → Option (Heap TimerInfo × Ptr × List Call)
  | 0, _, _ => none
  | fuel + 1, h, p => do
      let c ← load h p
      if c.val.elapse = 0 then do
        let (h, p, call) ← callTimerProc brk h p
        match p with
        | none => some (h, none, [call])
        | some _ => do
            let (h, p, calls) ← dueLoop brk fuel h p
            some (h, p, call :: calls)
      else some (h, p, [])

/-- `sig_func` at the clock `t`: the list that is left and the calls, in order. -/
def sigFunc (m : Memory) (timerInfo : Ptr) (t : Int) : Option (Memory × Ptr × List Call) :=
  match timerInfo with
  | none => some (m, none, [])
  | some _ => do
      let h ← setElapse m.heap t timerInfo
      let (h, p, late) ← overdueLoop m.brk t (m.brk + 1) h timerInfo
      let (h, p, calls) ← dueLoop m.brk (m.brk + 1) h p
      some (⟨h, m.brk⟩, p, late ++ calls)

end Monitor
