import Mathlib.Tactic
import Mathlib.Algebra.Order.BigOperators.Group.List

set_option autoImplicit false

/-! # Statistics of a sample

A program keeps the least and the greatest of the values it has seen and compares each new value
with both, with the second only if it is not less than the first (`turn`). Over a list of values
this gives the extremes of the list (`spans_foldl`). The mean is between them.
-/

namespace Sample

variable {α : Type*}

section Extremes

variable [LinearOrder α]

/-- The least and the greatest value, after one more value. -/
def turn (acc : α × α) (x : α) : α × α :=
  if x < acc.1 then (x, acc.2) else if acc.2 < x then (acc.1, x) else acc

/-- The pair is the least and the greatest value of a set. -/
structure Spans (acc : α × α) (S : Set α) : Prop where
  least : IsLeast S acc.1
  greatest : IsGreatest S acc.2

theorem spans_singleton (a : α) : Spans (a, a) {a} := ⟨isLeast_singleton, isGreatest_singleton⟩

theorem Spans.turn {acc : α × α} {S : Set α} (h : Spans acc S) (x : α) :
    Spans (turn acc x) (insert x S) := by
  have hle : acc.1 ≤ acc.2 := h.least.2 h.greatest.1
  have hleast := h.least.insert x
  have hgreatest := h.greatest.insert x
  rw [Sample.turn]
  split
  · rename_i hx
    rw [min_eq_left hx.le] at hleast
    rw [max_eq_right (hx.le.trans hle)] at hgreatest
    exact ⟨hleast, hgreatest⟩
  · rename_i hx
    rw [min_eq_right (not_lt.mp hx)] at hleast
    split
    · rename_i hx'
      rw [max_eq_left hx'.le] at hgreatest
      exact ⟨hleast, hgreatest⟩
    · rename_i hx'
      rw [max_eq_right (not_lt.mp hx')] at hgreatest
      exact ⟨hleast, hgreatest⟩

/-- **The extremes of a set and a list.** -/
theorem spans_foldl {acc : α × α} {S : Set α} (h : Spans acc S) (l : List α) :
    Spans (l.foldl Sample.turn acc) (S ∪ {x | x ∈ l}) := by
  induction l generalizing acc S with
  | nil => simpa using h
  | cons x l ih =>
      have hset : S ∪ {y | y ∈ x :: l} = insert x S ∪ {y | y ∈ l} := by
        ext y
        simp only [Set.mem_union, Set.mem_ofPred_eq, List.mem_cons, Set.mem_insert_iff]
        tauto
      rw [List.foldl_cons, hset]
      exact ih (h.turn x)

end Extremes

section Mean

variable [Field α] [LinearOrder α] [IsStrictOrderedRing α]

theorem length_pos_cast {l : List α} (h : l ≠ []) : (0 : α) < l.length := by
  exact_mod_cast List.length_pos_iff.mpr h

/-- The mean is not over an upper bound. -/
theorem mean_le {l : List α} (hl : l ≠ []) {b : α} (h : ∀ x ∈ l, x ≤ b) :
    l.sum / l.length ≤ b := by
  rw [div_le_iff₀ (length_pos_cast hl), mul_comm, ← nsmul_eq_mul]
  exact List.sum_le_card_nsmul l b h

/-- The mean is not under a lower bound. -/
theorem le_mean {l : List α} (hl : l ≠ []) {b : α} (h : ∀ x ∈ l, b ≤ x) :
    b ≤ l.sum / l.length := by
  rw [le_div_iff₀ (length_pos_cast hl), mul_comm, ← nsmul_eq_mul]
  exact List.card_nsmul_le_sum l b h

end Mean

end Sample
