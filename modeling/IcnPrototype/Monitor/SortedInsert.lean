import IcnPrototype.Lib.Run
import IcnPrototype.Lib.SortedSet
import IcnPrototype.Monitor.Order

set_option autoImplicit false

/-! # `insert_a_timer` and sorted sets

What `insert_a_timer` is for: the timers are a set sorted by time, with at most one timer for each
`timer_id` and `flag`. A new timer is put into the set, unless its time is past (`insertEntry`).

The code compares times through `int elapse = difftime(..)`. For times that are 2^31 seconds apart,
about 68 years, this says that the later one is past. `refines_iff` shows that the code inserts into
the sorted set exactly where no such difference decides, and `insertions_refine` what this means for
runs.
-/

namespace Monitor

open Dll

/-! ## The sorted set -/

/-- What only one timer may have. -/
def Entry.key (x : Entry) : Int × Int := (x.timerId, x.flag)

/-- A new timer at the clock `t`. -/
def insertEntry (t : Int) (x : Entry) (L : List Entry) : List Entry :=
  if x.time < t then L else SortedSet.insert Entry.key Entry.time x L

theorem wf_insertEntry {t : Int} {x : Entry} {L : List Entry}
    (h : SortedSet.Wf Entry.key Entry.time L) :
    SortedSet.Wf Entry.key Entry.time (insertEntry t x L) := by
  rw [insertEntry]
  split
  · exact h
  · exact h.insert x

/-! ## The code on entries -/

/-- The code's comparison of a new timer with one in the list. -/
def NotAfter (x y : Entry) : Prop := 0 ≤ difftime y.time x.time

instance : DecidableRel NotAfter := fun x y => inferInstanceAs (Decidable (0 ≤ difftime y.time x.time))

theorem entries_cons (n : Node) (L : List Node) : entries (n :: L) = n.entry :: entries L := rfl

theorem entries_place (new : Node) (base : Int) (L : List Node) :
    entries (place new base L) = (entries L).orderedInsert NotAfter new.entry := by
  induction L generalizing base with
  | nil => rfl
  | cons p L ih =>
      rw [place, entries_cons]
      by_cases hbefore : 0 ≤ difftime p.2.time new.2.time
      · rw [if_pos hbefore, List.orderedInsert_cons_of_le NotAfter _
          (show NotAfter new.entry p.entry from hbefore)]
        rfl
      · rw [if_neg hbefore, List.orderedInsert_of_not_le NotAfter _
          (show ¬ NotAfter new.entry p.entry from hbefore), entries_cons, ih]

theorem repeats_iff {new n : Node} : new.repeats n = true ↔ n.entry.key = new.entry.key := by
  rw [Node.repeats, sameTimer, Bool.and_eq_true, beq_iff_eq, beq_iff_eq]
  exact Prod.mk.injEq .. ▸ Iff.rfl

theorem entries_eraseP (new : Node) (L : List Node) :
    entries (L.eraseP new.repeats) = (entries L).eraseP fun y => y.key = new.entry.key := by
  have hsame : new.repeats = (fun y : Entry => decide (y.key = new.entry.key)) ∘ Node.entry := by
    funext n
    rw [Function.comp_apply, Bool.eq_iff_iff, repeats_iff, decide_eq_true_iff]
  rw [entries, entries, List.eraseP_map, hsame]

/-- What the code does to the list, on entries. -/
theorem entries_insertNode (t : Int) (new : Node) (L : List Node) :
    entries (insertNode t new L)
      = if difftime new.2.time t < 0 then entries L
        else ((entries L).eraseP fun y => y.key = new.entry.key).orderedInsert NotAfter new.entry := by
  rw [insertNode]
  split
  · rfl
  · rw [entries_place, entries_eraseP]

/-! ## Where the code inserts into the sorted set -/

/-- No difference that decides is out of the range of an `int`: the new timer is past, or less than
2^31 seconds ahead, and so is, seen from it, the first of the other timers that is not earlier. -/
def InRange (t : Int) (x : Entry) (L : List Entry) : Prop :=
  x.time < t ∨ (x.time < t + 2 ^ 31
    ∧ ∀ y ∈ (L.eraseP fun y => y.key = x.key).find? (fun y => x.time ≤ y.time),
        y.time < x.time + 2 ^ 31)

instance (t : Int) (x : Entry) (L : List Entry) : Decidable (InRange t x L) :=
  inferInstanceAs (Decidable (x.time < t ∨ (x.time < t + 2 ^ 31
    ∧ ∀ y ∈ (L.eraseP fun y => y.key = x.key).find? (fun y => x.time ≤ y.time),
        y.time < x.time + 2 ^ 31)))

theorem notAfter_iff {x y : Entry} : NotAfter x y ↔ x.time ≤ y.time ∧ y.time < x.time + 2 ^ 31 :=
  difftime_nonneg_iff

/-- **The exact condition of one insertion.** -/
theorem entries_insertNode_iff (t : Int) {new : Node} {L : List Node} (hfresh : new.1 ∉ addrs L) :
    entries (insertNode t new L) = insertEntry t new.entry (entries L)
      ↔ InRange t new.entry (entries L) := by
  have hnotMem : new.entry ∉ entries L := by
    intro hmem
    obtain ⟨n, hn, heq⟩ := List.mem_map.mp hmem
    have haddr : n.1 = new.1 := congrArg Entry.addr heq
    exact hfresh (haddr ▸ mem_addrs hn)
  have htime : new.entry.time = new.2.time := rfl
  rw [entries_insertNode, insertEntry, InRange, htime]
  by_cases hpast : new.2.time < t
  · rw [if_pos (difftime_neg_iff.mpr (Or.inl hpast)), if_pos hpast]
    exact iff_of_true rfl (Or.inl hpast)
  · rw [if_neg hpast, or_iff_right hpast]
    by_cases hrange : new.2.time < t + 2 ^ 31
    · have hpos : ¬ difftime new.2.time t < 0 :=
        not_lt.mpr (difftime_nonneg_iff.mpr ⟨not_lt.mp hpast, hrange⟩)
      rw [if_neg hpos, and_iff_right hrange]
      have hnotMem' : new.entry ∉ (entries L).eraseP fun y => y.key = new.entry.key :=
        fun h => hnotMem (List.eraseP_sublist.subset h)
      -- the first timer that is not earlier decides
      rw [SortedSet.insert, SortedSet.orderedInsert_eq_iff (fun a b h => (notAfter_iff.mp h).1)
        hnotMem']
      refine forall_congr' fun y => imp_congr_right fun hy => ?_
      have hle : new.entry.time ≤ y.time := by simpa using List.find?_some hy
      rw [notAfter_iff, and_iff_right hle]
      rfl
    · rw [if_pos (difftime_neg_iff.mpr (Or.inr (not_lt.mp hrange)))]
      refine iff_of_false (fun heq => hnotMem ?_) fun h => hrange h.1
      rw [heq]
      exact SortedSet.mem_insert_self _ _

/-! ## Runs -/

/-- What `insert_a_timer` works on. -/
structure Timers where
  mem : Memory
  timerInfo : Ptr

/-- A call of `insert_a_timer` with a new timer. -/
structure Insertion where
  clock : Int
  timer : TimerInfo

namespace Timers

/-- No timer. -/
def start : Timers := ⟨⟨fun _ => none, 0⟩, none⟩

/-- The timers in the list. -/
def list (s : Timers) : List Node := nodes s.mem.heap s.mem.brk s.timerInfo

/-- The program. -/
def insert (s : Timers) (a : Insertion) : Option Timers := do
  let (m, p) ← insertTimer s.mem a.clock s.timerInfo a.timer
  some ⟨m, p⟩

/-- What was accepted with `a`. -/
def entry (s : Timers) (a : Insertion) : Entry := Node.entry (s.mem.brk, a.timer)

/-- The list is doubly linked, and a sorted set. -/
structure Wf (s : Timers) : Prop where
  holds : Holds s.mem s.timerInfo s.list
  sorted : SortedSet.Wf Entry.key Entry.time (entries s.list)

/-- The insertion is defined, it leaves a doubly linked list, and on entries it is the insertion into
the sorted set. A timer whose time is past leaves the list as it is. -/
def Refines (s : Timers) (a : Insertion) : Prop :=
  ∃ s', s.insert a = some s' ∧ Holds s'.mem s'.timerInfo s'.list
    ∧ entries s'.list = insertEntry a.clock (s.entry a) (entries s.list)
    ∧ (a.timer.time < a.clock → s'.list = s.list)

/-- The differences that decide about `a` are in range. -/
def Fits (s : Timers) (a : Insertion) : Prop := InRange a.clock (s.entry a) (entries s.list)

instance (s : Timers) (a : Insertion) : Decidable (s.Fits a) :=
  inferInstanceAs (Decidable (InRange ..))

theorem list_eq {s : Timers} {L : List Node} (h : Holds s.mem s.timerInfo L) : s.list = L := by
  rw [list, h.list.head_eq]
  exact nodes_seg h.list.seg (length_le_of_nodup h.list.nodup h.lt)

theorem wf_start : start.Wf := ⟨⟨IsList.nil _, fun _ h => nomatch h⟩, .nil⟩

variable {s : Timers}

/-- What an insertion leaves, on nodes. -/
theorem insert_eq (hs : s.Wf) (a : Insertion) :
    ∃ s', s.insert a = some s' ∧ Holds s'.mem s'.timerInfo s'.list
      ∧ s'.list = insertNode a.clock (s.mem.brk, a.timer) s.list := by
  obtain ⟨m, p, hrun, -, hl, -⟩ := insertTimer_holds hs.holds a.clock a.timer
  have hlist : list ⟨m, p⟩ = insertNode a.clock (s.mem.brk, a.timer) s.list := list_eq hl
  refine ⟨⟨m, p⟩, by simp [insert, hrun], ?_, hlist⟩
  rw [hlist]
  exact hl

theorem insertNode_past {t : Int} {new : Node} {L : List Node} (hpast : new.2.time < t) :
    insertNode t new L = L :=
  if_pos (difftime_neg_iff.mpr (Or.inl hpast))

/-- **One insertion.** It inserts into the sorted set exactly if the differences that decide are in
range. -/
theorem refines_iff (hs : s.Wf) (a : Insertion) : s.Refines a ↔ s.Fits a := by
  have hfresh : s.mem.brk ∉ addrs s.list := fun hm => Nat.lt_irrefl _ (hs.holds.lt _ hm)
  have hiff : entries (insertNode a.clock (s.mem.brk, a.timer) s.list)
      = insertEntry a.clock (s.entry a) (entries s.list) ↔ s.Fits a :=
    entries_insertNode_iff a.clock hfresh
  obtain ⟨s', hrun, hholds, hlist⟩ := insert_eq hs a
  constructor
  · rintro ⟨s₁, hrun₁, -, hentries, -⟩
    rw [hrun, Option.some.injEq] at hrun₁
    subst hrun₁
    rw [hlist] at hentries
    exact hiff.mp hentries
  · intro hfits
    refine ⟨s', hrun, hholds, ?_, fun hpast => ?_⟩
    · rw [hlist]
      exact hiff.mpr hfits
    · rw [hlist]
      exact insertNode_past hpast

/-- An insertion in range leaves a sorted set. -/
theorem Wf.insert {s' : Timers} {a : Insertion} (hs : s.Wf) (hrun : s.insert a = some s')
    (hfits : s.Fits a) : s'.Wf := by
  obtain ⟨s₁, hrun₁, hholds, hentries, -⟩ := (refines_iff hs a).mpr hfits
  rw [hrun, Option.some.injEq] at hrun₁
  subst hrun₁
  refine ⟨hholds, ?_⟩
  rw [hentries]
  exact wf_insertEntry hs.sorted

/-- Every run is defined as long as the insertions are in range. -/
theorem exec_isSome (hs : s.Wf) {as : List Insertion}
    (h : Lts.Along Timers.insert Fits s as) : (Lts.exec Timers.insert s as).isSome := by
  induction as generalizing s with
  | nil => rfl
  | cons a as ih =>
      obtain ⟨s', hrun, -⟩ := insert_eq hs a
      obtain ⟨hfits, hrest⟩ := h s' hrun
      rw [Lts.exec_cons, hrun]
      exact ih (hs.insert hrun hfits) hrest

/-- **Insertions refine those into a sorted set.** A run inserts into the sorted set all along
exactly if the differences that decide are in range all along. It is then defined, and the list is a
sorted set in every state. -/
theorem insertions_refine (s : Timers) (hs : s.Wf) (as : List Insertion) :
    (Lts.Along Timers.insert Refines s as ↔ Lts.Along Timers.insert Fits s as)
      ∧ (Lts.Along Timers.insert Fits s as →
          (Lts.exec Timers.insert s as).isSome ∧ Lts.Always Timers.insert Wf s as) := by
  have hkeep : ∀ s a s', Wf s → Timers.insert s a = some s' → Fits s a → Wf s' :=
    fun _ _ _ hs hrun hfits => hs.insert hrun hfits
  constructor
  · exact Lts.along_congr_of_keep hkeep (fun _ a hs => refines_iff hs a) hs
  · intro h
    exact ⟨exec_isSome hs h, Lts.always_of_along (fun _ hs => hs) hkeep hs h⟩

/-- Port 0 at 5 and port 1 at 3; then port 0 at 9 instead, and port 2 too late. -/
def fourInsertions : List Insertion :=
  [⟨0, ⟨0, 0, 0, 5, .timerProcLaunch⟩⟩, ⟨0, ⟨1, 0, 0, 3, .timerProcLaunch⟩⟩,
    ⟨1, ⟨0, 0, 0, 9, .timerProcLaunch⟩⟩, ⟨2, ⟨2, 0, 0, 1, .timerProcLaunch⟩⟩]

theorem insertions_refine_fourInsertions :
    Lts.Along Timers.insert Refines start fourInsertions
      ∧ Lts.Always Timers.insert Wf start fourInsertions := by
  have hfits : Lts.Along Timers.insert Fits start fourInsertions := by decide
  obtain ⟨hiff, hwf⟩ := insertions_refine start wf_start fourInsertions
  exact ⟨hiff.mpr hfits, (hwf hfits).2⟩

/-- Seconds after the clock at which a timer is taken for one that is past. -/
def farTimer : Insertion := ⟨0, ⟨0, 0, 0, 2 ^ 31, .timerProcLaunch⟩⟩

theorem not_refines_farTimer : start.Wf ∧ ¬ start.Refines farTimer := by
  refine ⟨wf_start, ?_⟩
  rw [refines_iff wf_start]
  decide

end Timers

end Monitor
