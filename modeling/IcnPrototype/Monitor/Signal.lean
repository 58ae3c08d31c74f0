import IcnPrototype.Monitor.Insert

set_option autoImplicit false

/-! # `sig_func` on lists

`sigFunc_holds`: a tick takes off the timers at the front whose time is over, compares the one
that is then first with the clock, and takes off that one and those behind it as long as
`elapse` is zero. It calls the `timer_proc` of each, once.

If the time of every timer of a list is over, the first loop leaves no timer, and the second
one follows the null pointer (`sigFunc_undefined`).
-/

namespace Monitor

open Dll

/-! ## The operation on the list -/

/-- The call of the `timer_proc` of a timer. -/
def Node.call (n : Node) : Call where
  timer := some n.1
  action :=
    match n.2.timerProc with
    | .timerProcLaunch => .portChildProc n.2.timerId
    | .timerProcEnd => .portKillProc n.2.timerId

/-- The time of the timer is over at the clock `t`. -/
def Node.overdue (t : Int) (n : Node) : Bool := difftime n.2.time t < 0

/-- The timer goes with the one before it. -/
def Node.due (n : Node) : Bool := n.2.elapse = 0

/-- The first timer is compared with the clock. -/
def refresh (t : Int) : List Node → List Node
  | [] => []
  | n :: L => n.withElapse (difftime n.2.time t) :: L

/-- The timers a tick calls at the clock `t`. -/
def called (t : Int) (L : List Node) : List Node :=
  L.takeWhile (Node.overdue t) ++ (refresh t (L.dropWhile (Node.overdue t))).takeWhile Node.due

/-- The timers a tick leaves. -/
def left (t : Int) (L : List Node) : List Node :=
  (refresh t (L.dropWhile (Node.overdue t))).dropWhile Node.due

@[simp] theorem Node.call_withElapse (n : Node) (elapse : Int) :
    (n.withElapse elapse).call = n.call := rfl

@[simp] theorem addrs_refresh (t : Int) (L : List Node) : addrs (refresh t L) = addrs L := by
  cases L <;> rfl

/-! ## The calls -/

/-- `del_a_timer` with the `timer_id` of the first timer takes it off. -/
theorem delATimer_isList (fuel : Nat) {h : Heap TimerInfo} {head : Ptr} {n : Node}
    {L : List Node} (hl : IsList h head (n :: L)) :
    ∃ h', delATimer fuel h (some n.1) n.2.timerId = some (h', first L none)
      ∧ IsList h' (first L none) L := by
  have hn : h n.1 = some ⟨n.2, none, first L none⟩ := hl.seg.1
  cases L with
  | nil => exact ⟨h, by simp [delATimer, hn], IsList.nil h⟩
  | cons m L =>
      have hm : h m.1 = some ⟨m.2, some n.1, first L none⟩ := hl.seg.2.1
      have hnd := hl.nodup
      simp only [addrs_cons, List.nodup_cons, List.mem_cons, not_or] at hnd
      obtain ⟨⟨hnm, hnL⟩, hmL, hL⟩ := hnd
      have hn' : Function.update h m.1 (some ⟨m.2, none, first L none⟩) n.1
          = some ⟨n.2, none, some m.1⟩ := by simp [hnm, hn]
      refine ⟨_, by simp [delATimer, hn, setPre_some hm, free_some hn']; rfl, ?_⟩
      refine hl.splice (A := []) (M := [n, m]) (B := L) [m] ?_ ?_ (by simp) (fun _ => rfl) ?_
      · rintro a (ha | ha)
        · cases ha
        · have han : a ≠ n.1 := fun e => hnL (e ▸ ha)
          have ham : a ≠ m.1 := fun e => hmL (e ▸ ha)
          simp [han, ham]
      · exact ⟨by simp [Ne.symm hnm], trivial⟩
      · simp [hmL, hL]

/-- The call of the `timer_proc` of the first timer takes it off. -/
theorem callTimerProc_isList (brk : Nat) {h : Heap TimerInfo} {head : Ptr} {n : Node}
    {L : List Node} (hl : IsList h head (n :: L)) :
    ∃ h', callTimerProc brk h (some n.1) = some (h', first L none, n.call)
      ∧ IsList h' (first L none) L := by
  have hn : h n.1 = some ⟨n.2, none, first L none⟩ := hl.seg.1
  obtain ⟨h', hrun, hl'⟩ := delATimer_isList brk hl
  refine ⟨h', ?_, hl'⟩
  cases hproc : n.2.timerProc <;>
    simp [callTimerProc, timerProcLaunch, timerProcEnd, Node.call, hn, hproc, hrun]

theorem setElapse_isList (t : Int) {h : Heap TimerInfo} {head : Ptr} {n : Node} {L : List Node}
    (hl : IsList h head (n :: L)) :
    ∃ h', setElapse h t (some n.1) = some h' ∧ IsList h' (some n.1) (refresh t (n :: L)) := by
  have hnd := List.nodup_cons.mp hl.nodup
  refine ⟨_, setVal_some hl.seg.1 _, ⟨?_, hl.seg.2.update hnd.1 _⟩, rfl, hl.nodup⟩
  exact Function.update_self ..

/-! ## The loops -/

/-- The first loop calls the timers whose time is over. -/
theorem overdueLoop_isList (brk : Nat) (t : Int) :
    ∀ (L : List Node) (n : Node) (fuel : Nat) (h : Heap TimerInfo), L.length < fuel →
      IsList h (some n.1) (refresh t (n :: L)) →
      ∃ h', overdueLoop brk t fuel h (some n.1)
          = some (h', first ((n :: L).dropWhile (Node.overdue t)) none,
              ((n :: L).takeWhile (Node.overdue t)).map Node.call)
        ∧ IsList h' (first ((n :: L).dropWhile (Node.overdue t)) none)
            (refresh t ((n :: L).dropWhile (Node.overdue t)))
  | L, n, fuel + 1, h, hfuel, hl => by
      have hn : h n.1 = some ⟨{ n.2 with elapse := difftime n.2.time t }, none, first L none⟩ :=
        hl.seg.1
      by_cases hover : n.overdue t
      · have hneg : difftime n.2.time t < 0 := by simpa [Node.overdue] using hover
        obtain ⟨h₁, hcall, hl₁⟩ := callTimerProc_isList brk hl
        rw [Node.call_withElapse] at hcall
        rw [List.takeWhile_cons_of_pos hover, List.dropWhile_cons_of_pos hover]
        cases L with
        | nil =>
            -- the last timer was called: the loop ends at the null pointer
            refine ⟨h₁, ?_, IsList.nil h₁⟩
            simp only [Node.withElapse_fst] at hcall
            simp [overdueLoop, hn, hneg, hcall]
        | cons m L =>
            obtain ⟨h₂, hset, hl₂⟩ := setElapse_isList t hl₁
            obtain ⟨h', hrun, hl'⟩ := overdueLoop_isList brk t L m fuel h₂ (by simpa using hfuel) hl₂
            refine ⟨h', ?_, hl'⟩
            simp only [Node.withElapse_fst] at hcall
            simp [overdueLoop, hn, hneg, hcall, hset, hrun]
      · have hpos : ¬ difftime n.2.time t < 0 := by simpa [Node.overdue] using hover
        rw [List.takeWhile_cons_of_neg hover, List.dropWhile_cons_of_neg hover]
        exact ⟨h, by simp [overdueLoop, hn, hpos], hl⟩

/-- The second loop calls the timers that are due together. -/
theorem dueLoop_isList (brk : Nat) :
    ∀ (L : List Node) (n : Node) (fuel : Nat) (h : Heap TimerInfo), L.length < fuel →
      IsList h (some n.1) (n :: L) →
      ∃ h', dueLoop brk fuel h (some n.1)
          = some (h', first ((n :: L).dropWhile Node.due) none,
              ((n :: L).takeWhile Node.due).map Node.call)
        ∧ IsList h' (first ((n :: L).dropWhile Node.due) none) ((n :: L).dropWhile Node.due)
  | L, n, fuel + 1, h, hfuel, hl => by
      have hn : h n.1 = some ⟨n.2, none, first L none⟩ := hl.seg.1
      by_cases hdue : n.due
      · have hzero : n.2.elapse = 0 := by simpa [Node.due] using hdue
        obtain ⟨h₁, hcall, hl₁⟩ := callTimerProc_isList brk hl
        rw [List.takeWhile_cons_of_pos hdue, List.dropWhile_cons_of_pos hdue]
        cases L with
        | nil => exact ⟨h₁, by simp [dueLoop, hn, hzero, hcall], IsList.nil h₁⟩
        | cons m L =>
            obtain ⟨h', hrun, hl'⟩ := dueLoop_isList brk L m fuel h₁ (by simpa using hfuel) hl₁
            exact ⟨h', by simp [dueLoop, hn, hzero, hcall, hrun], hl'⟩
      · have hpos : ¬ n.2.elapse = 0 := by simpa [Node.due] using hdue
        rw [List.takeWhile_cons_of_neg hdue, List.dropWhile_cons_of_neg hdue]
        exact ⟨h, by simp [dueLoop, hn, hpos], hl⟩

/-! ## `sig_func` -/

section Tick

variable {m : Memory} {timerInfo : Ptr} {L : List Node} {t : Int}

/-- `sig_func` up to its second loop. -/
theorem sigFunc_overdue (hl : Holds m timerInfo L) (t : Int) (hne : L ≠ []) :
    ∃ h, sigFunc m timerInfo t
        = (dueLoop m.brk (m.brk + 1) h (first (L.dropWhile (Node.overdue t)) none)).map
            (fun r => (⟨r.1, m.brk⟩, r.2.1, (L.takeWhile (Node.overdue t)).map Node.call ++ r.2.2))
      ∧ IsList h (first (L.dropWhile (Node.overdue t)) none)
          (refresh t (L.dropWhile (Node.overdue t))) := by
  cases L with
  | nil => exact absurd rfl hne
  | cons n L =>
      obtain rfl : timerInfo = some n.1 := hl.list.head_eq
      have hfuel : (n :: L).length ≤ m.brk := length_le_of_nodup hl.list.nodup hl.lt
      rw [List.length_cons] at hfuel
      obtain ⟨h₁, hset, hl₁⟩ := setElapse_isList t hl.list
      obtain ⟨h₂, hover, hl₂⟩ := overdueLoop_isList m.brk t L n (m.brk + 1) h₁ (by omega) hl₁
      refine ⟨h₂, ?_, hl₂⟩
      simp only [sigFunc, hset, hover, Option.bind_eq_bind, Option.bind_some]
      cases dueLoop m.brk (m.brk + 1) h₂ (first ((n :: L).dropWhile (Node.overdue t)) none)
      · rfl
      · rfl

/-- What a tick leaves was in the list. -/
theorem addrs_left_subset (t : Int) (L : List Node) : addrs (left t L) ⊆ addrs L := by
  intro a ha
  have hin : a ∈ addrs (refresh t (L.dropWhile (Node.overdue t))) :=
    ((List.dropWhile_suffix Node.due).sublist.map Prod.fst).subset ha
  rw [addrs_refresh] at hin
  exact ((List.dropWhile_suffix (Node.overdue t)).sublist.map Prod.fst).subset hin

/-- **`sig_func` on lists**, for a list in which the time of some timer is not over. -/
theorem sigFunc_holds (hl : Holds m timerInfo L) (t : Int)
    (hsome : L ≠ [] → L.dropWhile (Node.overdue t) ≠ []) :
    ∃ m', sigFunc m timerInfo t
        = some (m', first (left t L) none, (called t L).map Node.call)
      ∧ m'.brk = m.brk ∧ Holds m' (first (left t L) none) (left t L) := by
  by_cases hne : L = []
  · subst hne
    obtain rfl : timerInfo = none := hl.list.head_eq
    exact ⟨m, rfl, rfl, hl⟩
  obtain ⟨h₂, hrun, hl₂⟩ := sigFunc_overdue hl t hne
  have hlen : (L.dropWhile (Node.overdue t)).length ≤ m.brk :=
    (List.dropWhile_suffix _).length_le.trans (length_le_of_nodup hl.list.nodup hl.lt)
  have hlt : ∀ a ∈ addrs (left t L), a < m.brk := fun a ha => hl.lt a (addrs_left_subset t L ha)
  cases hrest : L.dropWhile (Node.overdue t) with
  | nil => exact absurd hrest (hsome hne)
  | cons x R =>
      -- `x` is the first timer whose time is not over, and the second loop starts at it
      rw [hrest] at hrun hl₂ hlen
      rw [List.length_cons] at hlen
      obtain ⟨h₃, hdue, hl₃⟩ := dueLoop_isList m.brk R (x.withElapse (difftime x.2.time t))
        (m.brk + 1) h₂ (by omega) hl₂
      simp only [Node.withElapse_fst] at hdue
      refine ⟨⟨h₃, m.brk⟩, ?_, rfl, ?_, hlt⟩
      · simp [hrun, hdue, called, left, hrest, refresh]
      · simpa [left, hrest, refresh] using hl₃

/-- A tick that finds the time of every timer over follows a null pointer. -/
theorem sigFunc_undefined (hl : Holds m timerInfo L) (t : Int) (hne : L ≠ [])
    (hall : L.dropWhile (Node.overdue t) = []) : sigFunc m timerInfo t = none := by
  obtain ⟨h₂, hrun, -⟩ := sigFunc_overdue hl t hne
  rw [hrun, hall]
  rfl

/-- A tick that finds the timer it looks at in the future only writes its `elapse`. -/
theorem sigFunc_quiet {a : Addr} {c : Cell TimerInfo} (hc : m.heap a = some c)
    (hfuture : 0 < difftime c.val.time t) :
    sigFunc m (some a) t = some (⟨Function.update m.heap a
      (some { c with val := { c.val with elapse := difftime c.val.time t } }), m.brk⟩, some a, []) := by
  have hpos : ¬ difftime c.val.time t < 0 := by omega
  have hzero : difftime c.val.time t ≠ 0 := by omega
  simp [sigFunc, setElapse, setVal_some hc, overdueLoop, dueLoop, hpos, hzero]

end Tick

end Monitor
