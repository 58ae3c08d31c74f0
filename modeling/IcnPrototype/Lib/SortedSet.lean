import Mathlib.Tactic

set_option autoImplicit false

/-! # Sets as sorted lists

A set with at most one member for each key, kept as a list sorted by time. `insert` replaces the
member with the key of the new one, and puts the new one before the first that is not earlier.

Of several members with one key, the one that is inserted last stays (`find?_insertAll`).

Code that compares times with a relation of its own inserts like this exactly if the relation
holds for the first member that is not earlier (`orderedInsert_eq_iff`).
-/

namespace SortedSet

variable {α κ τ : Type*} [LinearOrder τ] {key : α → κ} {time : α → τ}

/-- The new member takes the place of the one with its key. -/
def insert [DecidableEq κ] (key : α → κ) (time : α → τ) (x : α) (L : List α) : List α :=
  (L.eraseP fun y => key y = key x).orderedInsert (fun a b => time a ≤ time b) x

/-- Sorted by time, with different keys. -/
structure Wf (key : α → κ) (time : α → τ) (L : List α) : Prop where
  sorted : L.Pairwise fun a b => time a ≤ time b
  unique : (L.map key).Nodup

theorem Wf.nil : Wf key time ([] : List α) := ⟨.nil, List.nodup_nil⟩

variable [DecidableEq κ]

theorem key_notMem_eraseP {k : κ} {L : List α} (h : (L.map key).Nodup) :
    k ∉ (L.eraseP fun y => key y = k).map key := by
  induction L with
  | nil => simp
  | cons y L ih =>
      rw [List.map_cons, List.nodup_cons] at h
      by_cases hy : key y = k
      · rw [List.eraseP_cons_of_pos (by simpa using hy), ← hy]
        exact h.1
      · rw [List.eraseP_cons_of_neg (by simpa using hy), List.map_cons, List.mem_cons, not_or]
        exact ⟨fun e => hy e.symm, ih h.2⟩

/-- **Insertion keeps the list sorted and the keys different.** -/
theorem Wf.insert {L : List α} (h : Wf key time L) (x : α) : Wf key time (insert key time x L) := by
  have hsub : (L.eraseP fun y => key y = key x).Sublist L := List.eraseP_sublist
  refine ⟨?_, ?_⟩
  · have : Std.Total fun a b : α => time a ≤ time b := ⟨fun a b => le_total (time a) (time b)⟩
    have : IsTrans α fun a b => time a ≤ time b := ⟨fun a b c => le_trans⟩
    exact List.Pairwise.orderedInsert x _ (h.sorted.sublist hsub)
  · have hperm := (List.perm_orderedInsert (fun a b => time a ≤ time b) x
      (L.eraseP fun y => key y = key x)).map key
    rw [SortedSet.insert, hperm.nodup_iff, List.map_cons, List.nodup_cons]
    exact ⟨key_notMem_eraseP h.unique, h.unique.sublist (hsub.map key)⟩

theorem mem_insert_self (x : α) (L : List α) : x ∈ insert key time x L :=
  (List.mem_orderedInsert _).mpr (Or.inl rfl)

/-! ## Members and their keys -/

/-- With different keys, a key finds the member that has it. -/
theorem find?_eq_some_iff {L : List α} (h : (L.map key).Nodup) {k : κ} {x : α} :
    L.find? (fun y => key y = k) = some x ↔ x ∈ L ∧ key x = k := by
  constructor
  · intro hfind
    exact ⟨List.mem_of_find?_eq_some hfind, by simpa using List.find?_some hfind⟩
  · rintro ⟨hmem, rfl⟩
    cases hfind : L.find? fun y => key y = key x with
    | none => exact absurd (decide_eq_true rfl) (List.find?_eq_none.mp hfind x hmem)
    | some y =>
        have hy : key y = key x := by simpa using List.find?_some hfind
        exact congrArg some
          (List.inj_on_of_nodup_map h (List.mem_of_find?_eq_some hfind) hmem hy)

/-- The new member is found under its key, and the others as before. -/
theorem find?_insert {L : List α} (h : Wf key time L) (x : α) (k : κ) :
    (insert key time x L).find? (fun y => key y = k)
      = if key x = k then some x else L.find? fun y => key y = k := by
  have hins := (h.insert x).unique
  split
  · next hk => exact (find?_eq_some_iff hins).mpr ⟨mem_insert_self x L, hk⟩
  · next hk =>
      ext y
      rw [find?_eq_some_iff hins, find?_eq_some_iff h.unique]
      refine and_congr_left fun hy => ?_
      have hne : key y ≠ key x := fun heq => hk (heq.symm.trans hy)
      rw [insert, List.mem_orderedInsert, or_iff_right fun heq => hne (congrArg key heq),
        List.mem_eraseP_of_neg (by simpa using hne)]

/-- Insertion of several members, one after the other. -/
def insertAll (key : α → κ) (time : α → τ) (xs L : List α) : List α :=
  xs.foldl (fun L x => insert key time x L) L

theorem Wf.insertAll {L : List α} (h : Wf key time L) (xs : List α) :
    Wf key time (insertAll key time xs L) := by
  induction xs generalizing L with
  | nil => exact h
  | cons x xs ih => exact ih (h.insert x)

/-- **The last one wins.** Under each key is the last new member with the key, or else what was there
before. -/
theorem find?_insertAll {L : List α} (h : Wf key time L) (xs : List α) (k : κ) :
    (insertAll key time xs L).find? (fun y => key y = k)
      = (xs.filter fun x => key x = k).getLast?.or (L.find? fun y => key y = k) := by
  induction xs generalizing L with
  | nil => rfl
  | cons x xs ih =>
      have hstep : insertAll key time (x :: xs) L = insertAll key time xs (insert key time x L) := rfl
      rw [hstep, ih (h.insert x), find?_insert h x k]
      by_cases hk : key x = k
      · rw [if_pos hk, List.filter_cons_of_pos (by simpa using hk), List.getLast?_cons]
        cases (xs.filter fun x => key x = k).getLast? <;> rfl
      · rw [if_neg hk, List.filter_cons_of_neg (by simpa using hk)]

/-- Insertion where the members are seen through a function that keeps keys and times. -/
theorem map_insert {β : Type*} {f : α → β} {key' : β → κ} {time' : β → τ}
    (hkey : ∀ a, key' (f a) = key a) (htime : ∀ a, time' (f a) = time a) (x : α) (L : List α) :
    (insert key time x L).map f = insert key' time' (f x) (L.map f) := by
  have herase : (fun y => decide (key y = key x))
      = (fun y => decide (key' y = key' (f x))) ∘ f := by
    funext y
    rw [Function.comp_apply, hkey, hkey]
  have hle : ∀ a b, time a ≤ time b ↔ time' (f a) ≤ time' (f b) := by
    intro a b
    rw [htime, htime]
  rw [insert, insert, List.map_orderedInsert _ (fun a b => time' a ≤ time' b) f _ x
    (fun a _ => hle a x) fun a _ => hle x a, List.eraseP_map, herase]

theorem mem_of_mem_insert {x y : α} {L : List α} (h : y ∈ insert key time x L) : y = x ∨ y ∈ L :=
  ((List.mem_orderedInsert _).mp h).imp_right fun h => List.eraseP_sublist.subset h

section Relations

variable {r r' : α → α → Prop} [DecidableRel r] [DecidableRel r']

/-- Insertion with a stronger relation is the same if it holds where the weaker one first does. -/
theorem orderedInsert_eq_iff (hsub : ∀ a b, r' a b → r a b) {x : α} {L : List α} (hx : x ∉ L) :
    L.orderedInsert r' x = L.orderedInsert r x
      ↔ ∀ y, L.find? (fun y => r x y) = some y → r' x y := by
  induction L with
  | nil => simp
  | cons b L ih =>
      rw [List.mem_cons, not_or] at hx
      by_cases hr : r x b
      · rw [List.orderedInsert_cons_of_le r L hr, List.find?_cons_of_pos (by simpa using hr)]
        constructor
        · intro heq y hy
          cases hy
          by_contra hno
          rw [List.orderedInsert_of_not_le r' L hno, List.cons.injEq] at heq
          exact hx.1 heq.1.symm
        · intro h
          rw [List.orderedInsert_cons_of_le r' L (h b rfl)]
      · have hr' : ¬ r' x b := fun h => hr (hsub x b h)
        rw [List.orderedInsert_of_not_le r L hr, List.orderedInsert_of_not_le r' L hr',
          List.find?_cons_of_neg (by simpa using hr), List.cons.injEq, eq_self_iff_true, true_and]
        exact ih hx.2

end Relations

end SortedSet
