import IcnPrototype.Monitor.Signal

set_option autoImplicit false

/-! # The order of the list and `elapse`

`sig_func` compares only the first timer with the clock; for the others it relies on `elapse`,
the time left after the timer before. `Follows` is what of this must hold between two
neighbours. Insertion keeps it except in one case (`leavesStale`): `delete_repete_timer` does
not write the `elapse` of the timer behind the erased one, and nothing else does if the new
timer is not placed there.

Only whether `elapse` is zero matters. An `elapse` that is zero too often calls a timer early,
one that is not zero too often calls it late; the second part is kept apart, because what is
said of a list in which a tick was late needs the first part only.
-/

namespace Monitor

open Dll

/-! ## `difftime` -/

theorem difftime_eq_zero {a b : Int} : difftime a b = 0 ↔ a = b := by
  unfold difftime
  split <;> omega

/-- What the code takes for not past is not past, and less than 2^31 seconds ahead. -/
theorem difftime_nonneg_iff {a b : Int} : 0 ≤ difftime a b ↔ b ≤ a ∧ a < b + 2 ^ 31 := by
  unfold difftime
  split <;> omega

theorem difftime_neg_iff {a b : Int} : difftime a b < 0 ↔ a < b ∨ b + 2 ^ 31 ≤ a := by
  rw [← not_le, difftime_nonneg_iff]
  omega

theorem difftime_nonneg {a b : Int} (h : a - b < 2 ^ 31) : 0 ≤ difftime a b ↔ b ≤ a := by
  rw [difftime_nonneg_iff, and_iff_left]
  omega

/-! ## What a timer was set to -/

/-- A timer as it was accepted: its address and what it was set to. -/
structure Entry where
  addr : Addr
  timerId : Int
  flag : Int
  time : Int
  timerProc : TimerProc
deriving DecidableEq, Repr

/-- The entry of a node; `elapse` is not part of it. -/
def Node.entry (n : Node) : Entry :=
  ⟨n.1, n.2.timerId, n.2.flag, n.2.time, n.2.timerProc⟩

/-- The entries of a list. -/
def entries (L : List Node) : List Entry := L.map Node.entry

theorem mem_entries {n : Node} {L : List Node} (hn : n ∈ L) : n.entry ∈ entries L :=
  List.mem_map_of_mem hn

@[simp] theorem Node.entry_withElapse (n : Node) (elapse : Int) :
    (n.withElapse elapse).entry = n.entry := rfl

@[simp] theorem entries_refresh (t : Int) (L : List Node) : entries (refresh t L) = entries L := by
  cases L <;> rfl

theorem mem_entries_place {new : Node} {x : Entry} {base : Int} {L : List Node} :
    x ∈ entries (place new base L) ↔ x = new.entry ∨ x ∈ entries L := by
  induction L generalizing base with
  | nil => simp [place, entries]
  | cons p L ih =>
      rw [place]
      split
      · simp [entries]
      · simp only [entries, List.map_cons, List.mem_cons] at ih ⊢
        rw [ih]
        tauto

/-! ## Neighbours -/

/-- `y` may stand behind `x`. With `exact`, timers of one time are called in one tick. -/
structure Follows (exact : Prop) (x y : Node) : Prop where
  le : x.2.time ≤ y.2.time
  early : y.2.elapse = 0 → x.2.time = y.2.time
  late : exact → x.2.time = y.2.time → y.2.elapse = 0

/-- The list is in order, and no timer is out of the range of `difftime` from the clock on. -/
structure Ordered (exact : Prop) (clock : Int) (L : List Node) : Prop where
  chain : L.IsChain (Follows exact)
  range : ∀ n ∈ L, n.2.time < clock + 2 ^ 31

section Chain

variable {exact : Prop} {new : Node}

theorem Ordered.nil (exact : Prop) (clock : Int) : Ordered exact clock [] :=
  ⟨.nil, fun _ h => nomatch h⟩

/-- The `elapse` of the first timer is free. -/
theorem chain_withElapse {p : Node} {L : List Node} (elapse : Int)
    (hc : (p :: L).IsChain (Follows exact)) : (p.withElapse elapse :: L).IsChain (Follows exact) := by
  cases L with
  | nil => exact .singleton _
  | cons q L =>
      rw [List.isChain_cons_cons] at hc ⊢
      exact ⟨⟨hc.1.le, hc.1.early, hc.1.late⟩, hc.2⟩

theorem chain_refresh (t : Int) {L : List Node} (hc : L.IsChain (Follows exact)) :
    (refresh t L).IsChain (Follows exact) := by
  cases L with
  | nil => exact .nil
  | cons n L => exact chain_withElapse _ hc

/-- A timer whose `elapse` was just written follows the one before it. -/
theorem follows_withElapse {x n : Node} (h : x.2.time ≤ n.2.time) :
    Follows exact x (n.withElapse (difftime n.2.time x.2.time)) where
  le := h
  early := fun h0 => (difftime_eq_zero.mp h0).symm
  late := fun _ heq => difftime_eq_zero.mpr heq.symm

/-- An `elapse` that is not zero calls no timer early, wherever it stands. -/
theorem chain_withElapse_ne {n : Node} {elapse : Int} (he : elapse ≠ 0) {B : List Node} :
    ∀ {A : List Node}, (A ++ n :: B).IsChain (Follows False) →
      (A ++ n.withElapse elapse :: B).IsChain (Follows False)
  | [], hc => chain_withElapse elapse hc
  | [x], hc => by
      rw [List.singleton_append, List.isChain_cons_cons] at hc ⊢
      exact ⟨⟨hc.1.le, fun h0 => absurd h0 he, fun h => h.elim⟩, chain_withElapse elapse hc.2⟩
  | x :: y :: A, hc => by
      rw [List.cons_append, List.cons_append, List.isChain_cons_cons] at hc ⊢
      exact ⟨hc.1, chain_withElapse_ne (A := y :: A) he hc.2⟩

/-- Nothing in the chain is earlier than its first timer. -/
theorem chain_le {x : Node} {L : List Node} (hc : (x :: L).IsChain (Follows exact)) :
    ∀ n ∈ L, x.2.time ≤ n.2.time := by
  induction L generalizing x with
  | nil =>
      intro n hn
      cases hn
  | cons y L ih =>
      intro n hn
      rw [List.isChain_cons_cons] at hc
      rcases List.mem_cons.mp hn with rfl | hn
      · exact hc.1.le
      · exact hc.1.le.trans (ih hc.2 n hn)

/-! ## Insertion -/

/-- Between `p` and the rest of the list a timer was erased, the next one has kept an `elapse` of
zero although it is later than `p`, and `new` is not placed between them. -/
def staleBehind (new p : Node) : List Node → Bool
  | [] => false
  | s :: _ => s.2.elapse = 0 ∧ p.2.time ≠ s.2.time
      ∧ ¬ (p.2.time < new.2.time ∧ new.2.time ≤ s.2.time)

/-- Erasing the timer that `new` repeats from the list behind `p` leaves such a timer. -/
def stale (new : Node) : Node → List Node → Bool
  | _, [] => false
  | p, d :: L => if new.repeats d then staleBehind new p L else stale new d L

/-- `insert_a_timer` at the clock `t` leaves a timer with the wrong `elapse`. -/
def leavesStale (t : Int) (new : Node) : List Node → Bool
  | [] => false
  | p :: L => 0 ≤ difftime new.2.time t && !new.repeats p && stale new p L

/-- Placing the new timer first. Its own `elapse` is free. -/
theorem chain_place_first (elapse : Int) {p : Node} {L : List Node}
    (hp : new.2.time ≤ p.2.time) (hc : (p :: L).IsChain (Follows exact)) :
    (new.withElapse elapse :: p.withElapse (difftime p.2.time new.2.time) :: L).IsChain
      (Follows exact) := by
  rw [List.isChain_cons_cons]
  exact ⟨follows_withElapse (x := new.withElapse _) hp, chain_withElapse _ hc⟩

theorem chain_place_head {x : Node} (hx : x.2.time ≤ new.2.time) {p : Node} {L : List Node}
    (hp : new.2.time ≤ p.2.time) (hc : (p :: L).IsChain (Follows exact)) :
    (x :: new.withElapse (difftime new.2.time x.2.time)
      :: p.withElapse (difftime p.2.time new.2.time) :: L).IsChain (Follows exact) := by
  rw [List.isChain_cons_cons]
  exact ⟨follows_withElapse hx, chain_place_first _ hp hc⟩

/-- Placing the new timer keeps the order. -/
theorem chain_place {L : List Node} {x : Node} (hc : (x :: L).IsChain (Follows exact))
    (hx : x.2.time ≤ new.2.time) (hr : ∀ n ∈ L, n.2.time - new.2.time < 2 ^ 31) :
    (x :: place new x.2.time L).IsChain (Follows exact) := by
  induction L generalizing x with
  | nil =>
      rw [place, List.isChain_cons_cons]
      exact ⟨follows_withElapse hx, .singleton _⟩
  | cons p L ih =>
      obtain ⟨hp, hr⟩ := List.forall_mem_cons.mp hr
      rw [List.isChain_cons_cons] at hc
      rw [place]
      split
      · rename_i hbefore
        exact chain_place_head hx ((difftime_nonneg hp).mp hbefore) hc.2
      · rename_i hbefore
        rw [difftime_nonneg hp] at hbefore
        rw [List.isChain_cons_cons]
        exact ⟨hc.1, ih hc.2 (by omega) hr⟩

theorem chain_place_top (t : Int) {L : List Node} (hc : L.IsChain (Follows exact))
    (hr : ∀ n ∈ L, n.2.time - new.2.time < 2 ^ 31) : (place new t L).IsChain (Follows exact) := by
  cases L with
  | nil => exact .singleton _
  | cons p L =>
      have hp := hr p List.mem_cons_self
      rw [place]
      split
      · rename_i hbefore
        exact chain_place_first _ ((difftime_nonneg hp).mp hbefore) hc
      · rename_i hbefore
        rw [difftime_nonneg hp] at hbefore
        exact chain_place hc (by omega) fun n hn => hr n (List.mem_cons_of_mem _ hn)

/-- What stands behind an erased timer follows the one before it, unless its `elapse` is
stale. -/
theorem Follows.trans {x d s : Node} (hxd : Follows exact x d) (hds : Follows exact d s)
    (hstale : s.2.elapse = 0 → x.2.time = s.2.time) : Follows exact x s where
  le := hxd.le.trans hds.le
  early := hstale
  late := fun he heq => hds.late he (le_antisymm hds.le (heq ▸ hxd.le))

/-- Where the erased timer leaves no stale one behind it, what follows it follows the one before
it. -/
theorem Follows.of_erased {x d s : Node} {L : List Node} (hxd : Follows exact x d)
    (hds : Follows exact d s) (hs : staleBehind new x (s :: L) = false)
    (hbetween : ¬ (x.2.time < new.2.time ∧ new.2.time ≤ s.2.time)) : Follows exact x s := by
  apply hxd.trans hds
  intro h0
  simp only [staleBehind, decide_eq_false_iff_not] at hs
  by_contra hne
  exact hs ⟨h0, hne, hbetween⟩

/-- Erasing behind the place of the new timer. -/
theorem chain_erase {L : List Node} {x : Node} (hc : (x :: L).IsChain (Follows exact))
    (hx : new.2.time ≤ x.2.time) (hs : stale new x L = false) :
    (x :: L.eraseP new.repeats).IsChain (Follows exact) := by
  induction L generalizing x with
  | nil => exact hc
  | cons d L ih =>
      rw [List.isChain_cons_cons] at hc
      rw [stale] at hs
      by_cases hrep : new.repeats d
      · rw [List.eraseP_cons_of_pos hrep]
        rw [if_pos hrep] at hs
        cases L with
        | nil => exact .singleton _
        | cons s L =>
            have hds := List.isChain_cons_cons.mp hc.2
            have hbetween : ¬ (x.2.time < new.2.time ∧ new.2.time ≤ s.2.time) := by omega
            rw [List.isChain_cons_cons]
            exact ⟨hc.1.of_erased hds.1 hs hbetween, hds.2⟩
      · rw [List.eraseP_cons_of_neg hrep, List.isChain_cons_cons]
        rw [if_neg hrep] at hs
        exact ⟨hc.1, ih hc.2 (hx.trans hc.1.le) hs⟩

/-- Erasing and placing behind the first timer. -/
theorem chain_erase_place {L : List Node} {x : Node} (hc : (x :: L).IsChain (Follows exact))
    (hx : x.2.time < new.2.time) (hr : ∀ n ∈ L, n.2.time - new.2.time < 2 ^ 31)
    (hs : stale new x L = false) :
    (x :: place new x.2.time (L.eraseP new.repeats)).IsChain (Follows exact) := by
  induction L generalizing x with
  | nil => exact chain_place hc hx.le hr
  | cons d L ih =>
      obtain ⟨hd, hr'⟩ := List.forall_mem_cons.mp hr
      rw [List.isChain_cons_cons] at hc
      rw [stale] at hs
      by_cases hrep : new.repeats d
      · rw [List.eraseP_cons_of_pos hrep]
        rw [if_pos hrep] at hs
        cases L with
        | nil => exact chain_place (.singleton _) hx.le hr'
        | cons s L =>
            have hds := List.isChain_cons_cons.mp hc.2
            have hsr := hr' s List.mem_cons_self
            rw [place]
            split
            · rename_i hbefore
              exact chain_place_head hx.le ((difftime_nonneg hsr).mp hbefore) hds.2
            · -- the new timer goes further back, so `s` now stands behind `x`
              rename_i hbefore
              rw [difftime_nonneg hsr] at hbefore
              have hbetween : ¬ (x.2.time < new.2.time ∧ new.2.time ≤ s.2.time) :=
                fun hb => hbefore hb.2
              rw [List.isChain_cons_cons]
              refine ⟨hc.1.of_erased hds.1 hs hbetween, chain_place hds.2 (by omega) ?_⟩
              intro n hn
              exact hr' n (List.mem_cons_of_mem _ hn)
      · rw [List.eraseP_cons_of_neg hrep, place]
        rw [if_neg hrep] at hs
        split
        · rename_i hbefore
          have hle := (difftime_nonneg hd).mp hbefore
          exact chain_place_head hx.le hle (chain_erase hc.2 hle hs)
        · rename_i hbefore
          rw [difftime_nonneg hd] at hbefore
          rw [List.isChain_cons_cons]
          exact ⟨hc.1, ih hc.2 (by omega) hr' hs⟩

/-- **Insertion keeps the order**, unless it leaves a stale `elapse`. -/
theorem Ordered.insertNode {clock t : Int} {L : List Node} (ho : Ordered exact clock L)
    (ht : clock ≤ t) (hs : leavesStale t new L = false) :
    Ordered exact t (insertNode t new L) := by
  have hrange : ∀ n ∈ L, n.2.time < t + 2 ^ 31 := fun n hn => by have := ho.range n hn; omega
  rw [Monitor.insertNode]
  split
  · exact ⟨ho.chain, hrange⟩
  rename_i hfuture
  obtain ⟨hle, hlt⟩ := difftime_nonneg_iff.mp (not_lt.mp hfuture)
  have hrange' : ∀ n ∈ L, n.2.time - new.2.time < 2 ^ 31 := by
    intro n hn
    have := hrange n hn
    omega
  have hsub : ∀ n ∈ L.eraseP new.repeats, n ∈ L := fun n hn => List.eraseP_sublist.subset hn
  refine ⟨?_, fun n hn => ?_⟩
  · -- the first timer is erased, or it stays and the new one goes before or behind it
    cases L with
    | nil => exact .singleton _
    | cons e B =>
        have he := hrange' e List.mem_cons_self
        have hrangeB : ∀ n ∈ B, n.2.time - new.2.time < 2 ^ 31 :=
          fun n hn => hrange' n (List.mem_cons_of_mem _ hn)
        by_cases hrep : new.repeats e
        · rw [List.eraseP_cons_of_pos hrep]
          exact chain_place_top t ho.chain.tail hrangeB
        · have hst : stale new e B = false := by
            simpa [leavesStale, not_lt.mp hfuture, hrep] using hs
          rw [List.eraseP_cons_of_neg hrep, place]
          split
          · rename_i hbefore
            have hbefore := (difftime_nonneg he).mp hbefore
            exact chain_place_first _ hbefore (chain_erase ho.chain hbefore hst)
          · rename_i hbefore
            rw [difftime_nonneg he] at hbefore
            exact chain_erase_place ho.chain (by omega) hrangeB hst
  · -- insertion changes no time
    rcases mem_entries_place.mp (mem_entries hn) with heq | hin
    · have htime : n.2.time = new.2.time := congrArg Entry.time heq
      omega
    · obtain ⟨k, hk, hkn⟩ := List.mem_map.mp hin
      have htime : k.2.time = n.2.time := congrArg Entry.time hkn
      have := hrange k (List.eraseP_sublist.subset hk)
      omega

/-! ## A tick -/

theorem entries_append (A B : List Node) : entries (A ++ B) = entries A ++ entries B :=
  List.map_append

/-- A tick calls a timer or leaves it, and does nothing else to the list. -/
theorem entries_called_left (t : Int) (L : List Node) :
    entries (called t L) ++ entries (left t L) = entries L := by
  rw [called, left, entries_append, List.append_assoc, ← entries_append _ (List.dropWhile _ _),
    List.takeWhile_append_dropWhile, entries_refresh, ← entries_append,
    List.takeWhile_append_dropWhile]

theorem Node.overdue_iff {t : Int} {n : Node} (h : n.2.time < t + 2 ^ 31) :
    n.overdue t = true ↔ n.2.time < t := by
  have hiff := difftime_nonneg (a := n.2.time) (b := t) (by omega)
  simp only [Node.overdue, decide_eq_true_eq]
  omega

theorem Node.due_iff {n : Node} : n.due = true ↔ n.2.elapse = 0 := by
  simp [Node.due]

/-- A timer that is due with the one before it has its time. -/
theorem Follows.time_eq {t : Int} {x y : Node} (h : Follows exact x y) (hx : x.2.time = t)
    (hdue : y.due = true) : y.2.time = t :=
  (h.early (Node.due_iff.mp hdue)).symm.trans hx

/-- Timers called together have one time. -/
theorem chain_takeWhile_due {t : Int} {L : List Node} {x : Node}
    (hc : (x :: L).IsChain (Follows exact)) (hx : x.2.time = t) :
    ∀ n ∈ L.takeWhile Node.due, n.2.time = t := by
  induction L generalizing x with
  | nil =>
      intro n hn
      cases hn
  | cons y L ih =>
      intro n hn
      rw [List.isChain_cons_cons] at hc
      by_cases hdue : y.due
      · rw [List.takeWhile_cons_of_pos hdue] at hn
        have hy := hc.1.time_eq hx hdue
        rcases List.mem_cons.mp hn with rfl | hn
        · exact hy
        · exact ih hc.2 hy n hn
      · rw [List.takeWhile_cons_of_neg hdue] at hn
        cases hn

/-- What stands behind the timers called together is later. -/
theorem chain_dropWhile_due {t : Int} {L : List Node} {x : Node}
    (hc : (x :: L).IsChain (Follows True)) (hx : x.2.time = t) :
    ∀ n ∈ L.dropWhile Node.due, t < n.2.time := by
  induction L generalizing x with
  | nil =>
      intro n hn
      cases hn
  | cons y L ih =>
      intro n hn
      rw [List.isChain_cons_cons] at hc
      by_cases hdue : y.due
      · rw [List.dropWhile_cons_of_pos hdue] at hn
        exact ih hc.2 (hc.1.time_eq hx hdue) n hn
      · rw [List.dropWhile_cons_of_neg hdue] at hn
        have hne : x.2.time ≠ y.2.time :=
          fun heq => hdue (Node.due_iff.mpr (hc.1.late trivial heq))
        have hle := hc.1.le
        rcases List.mem_cons.mp hn with rfl | hn
        · omega
        · have := chain_le hc.2 n hn
          omega

variable {clock t : Int} {L : List Node}

/-- A tick calls no timer before its time. -/
theorem Ordered.called_le (ho : Ordered exact clock L) (ht : clock ≤ t) :
    ∀ n ∈ called t L, n.2.time ≤ t := by
  intro n hn
  rcases List.mem_append.mp hn with hn | hn
  · have hlt := (Node.overdue_iff (by
      have := ho.range n (List.takeWhile_prefix _ |>.subset hn)
      omega)).mp (List.mem_takeWhile_imp hn)
    exact hlt.le
  · have hsuffix := List.dropWhile_suffix (l := L) (Node.overdue t)
    cases hrest : L.dropWhile (Node.overdue t) with
    | nil =>
        rw [hrest] at hn
        cases hn
    | cons x R =>
        rw [hrest] at hn hsuffix
        by_cases hdue : (x.withElapse (difftime x.2.time t)).due
        · have hx : x.2.time = t := difftime_eq_zero.mp (Node.due_iff.mp hdue)
          rw [refresh, List.takeWhile_cons_of_pos hdue] at hn
          rcases List.mem_cons.mp hn with rfl | hn
          · exact hx.le
          · exact (chain_takeWhile_due (ho.chain.suffix hsuffix) hx n hn).le
        · rw [refresh, List.takeWhile_cons_of_neg hdue] at hn
          cases hn

/-- A tick leaves the list in order. -/
theorem Ordered.left (ho : Ordered exact clock L) (ht : clock ≤ t) :
    Ordered exact t (left t L) := by
  refine ⟨?_, fun n hn => ?_⟩
  · have hc := ho.chain.suffix (List.dropWhile_suffix (Node.overdue t))
    exact (chain_refresh t hc).suffix (List.dropWhile_suffix Node.due)
  · have hin : n.entry ∈ entries L := by
      rw [← entries_called_left t L]
      exact List.mem_append_right _ (mem_entries hn)
    obtain ⟨k, hk, hkn⟩ := List.mem_map.mp hin
    have htime : k.2.time = n.2.time := congrArg Entry.time hkn
    have := ho.range k hk
    omega

/-- The first timer is compared with the clock: the timers called together are those whose time it
is, and what stands behind them is later. -/
theorem chain_refresh_due {x : Node} {R : List Node} (hc : (x :: R).IsChain (Follows True))
    (hx : t ≤ x.2.time) :
    (∀ n ∈ (refresh t (x :: R)).takeWhile Node.due, n.2.time = t)
      ∧ ∀ n ∈ (refresh t (x :: R)).dropWhile Node.due, t < n.2.time := by
  rw [refresh]
  by_cases hdue : (x.withElapse (difftime x.2.time t)).due
  · have hxt : x.2.time = t := difftime_eq_zero.mp (Node.due_iff.mp hdue)
    rw [List.takeWhile_cons_of_pos hdue, List.dropWhile_cons_of_pos hdue]
    refine ⟨fun n hn => ?_, chain_dropWhile_due hc hxt⟩
    rcases List.mem_cons.mp hn with rfl | hn
    · exact hxt
    · exact chain_takeWhile_due hc hxt n hn
  · have hxt : x.2.time ≠ t := fun heq => hdue (Node.due_iff.mpr (difftime_eq_zero.mpr heq))
    have hlt : t < x.2.time := lt_of_le_of_ne hx (Ne.symm hxt)
    rw [List.takeWhile_cons_of_neg hdue, List.dropWhile_cons_of_neg hdue]
    refine ⟨by simp, ?_⟩
    intro n hn
    rcases List.mem_cons.mp hn with rfl | hn
    · exact hlt
    · exact hlt.trans_le (chain_le hc n hn)

/-- If no timer is overdue, a tick calls those whose time it is and leaves the later ones. -/
theorem Ordered.tick_exact (ho : Ordered True clock L) (ht : clock ≤ t)
    (hall : ∀ n ∈ L, t ≤ n.2.time) :
    (L ≠ [] → L.dropWhile (Node.overdue t) ≠ [])
      ∧ (∀ n ∈ called t L, n.2.time = t) ∧ ∀ n ∈ Monitor.left t L, t < n.2.time := by
  cases L with
  | nil => simp [called, Monitor.left, refresh]
  | cons x R =>
      have hx := hall x List.mem_cons_self
      have hno : ¬ x.overdue t = true := by
        rw [Node.overdue_iff (by have := ho.range x List.mem_cons_self; omega)]
        omega
      have hdrop : (x :: R).dropWhile (Node.overdue t) = x :: R :=
        List.dropWhile_cons_of_neg hno
      rw [called, Monitor.left, hdrop, List.takeWhile_cons_of_neg hno, List.nil_append]
      exact ⟨fun h => h, chain_refresh_due ho.chain hx⟩

end Chain

end Monitor
