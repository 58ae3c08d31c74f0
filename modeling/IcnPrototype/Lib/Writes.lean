import Mathlib.Logic.Function.Basic
import Mathlib.Tactic

set_option autoImplicit false

/-! # Sequences of writes to a table

A table is a function, and a program that fills it performs a list of writes one after the other.
A later write to a place hides the earlier ones, so the table is known from the last write to
each place (`writes_of_lastWrite`), and a sequence of writes leaves no trace exactly when every
last write repeats what was there (`writes_eq_self_iff`).

A ring of `n` slots is filled in the same way: `ringWrites` are the writes of a list of values
from a slot on.
-/

namespace Table

variable {α β σ : Type*} [DecidableEq α]

/-- The table after the writes, in their order. -/
def writes (f : α → β) (l : List (α × β)) : α → β :=
  l.foldl (fun f w => Function.update f w.1 w.2) f

@[simp] theorem writes_nil (f : α → β) : writes f [] = f := rfl

@[simp] theorem writes_cons (f : α → β) (w : α × β) (l : List (α × β)) :
    writes f (w :: l) = writes (Function.update f w.1 w.2) l := rfl

theorem writes_append (f : α → β) (l l' : List (α × β)) :
    writes f (l ++ l') = writes (writes f l) l' :=
  List.foldl_append

/-! ## The last write -/

/-- `b` is what is written last to `a`. -/
def LastWrite (l : List (α × β)) (a : α) (b : β) : Prop :=
  ∃ before after, l = before ++ (a, b) :: after ∧ ∀ w ∈ after, w.1 ≠ a

/-- A place that is not written to keeps its value. -/
theorem writes_of_ne {f : α → β} {l : List (α × β)} {a : α} (h : ∀ w ∈ l, w.1 ≠ a) :
    writes f l a = f a := by
  induction l generalizing f with
  | nil => rfl
  | cons w l ih =>
      rw [List.forall_mem_cons] at h
      rw [writes_cons, ih h.2, Function.update_of_ne (Ne.symm h.1)]

theorem writes_of_lastWrite {f : α → β} {l : List (α × β)} {a : α} {b : β}
    (h : LastWrite l a b) : writes f l a = b := by
  obtain ⟨before, after, rfl, hafter⟩ := h
  rw [writes_append, writes_cons, writes_of_ne hafter, Function.update_self]

/-- A place is not written to, or there is a last write to it. -/
theorem ne_or_lastWrite (l : List (α × β)) (a : α) :
    (∀ w ∈ l, w.1 ≠ a) ∨ ∃ b, LastWrite l a b := by
  induction l with
  | nil => exact Or.inl (by simp)
  | cons w l ih =>
      rcases ih with hne | ⟨b, before, after, rfl, hafter⟩
      · by_cases hw : w.1 = a
        · exact Or.inr ⟨w.2, [], l, by rw [← hw]; rfl, hne⟩
        · exact Or.inl (List.forall_mem_cons.mpr ⟨hw, hne⟩)
      · exact Or.inr ⟨b, w :: before, after, rfl, hafter⟩

/-- When all writes to a place agree, and there are some, it holds what they write. -/
theorem writes_of_agree {f : α → β} {l : List (α × β)} {a : α} {b : β} (hmem : ∃ w ∈ l, w.1 = a)
    (h : ∀ w ∈ l, w.1 = a → w.2 = b) : writes f l a = b := by
  rcases ne_or_lastWrite l a with hne | ⟨b', hlast⟩
  · obtain ⟨w, hw, ha⟩ := hmem
    exact absurd ha (hne w hw)
  · rw [writes_of_lastWrite hlast]
    obtain ⟨before, after, rfl, -⟩ := hlast
    exact h (a, b') (by simp) rfl

/-- **Writes that leave no trace** repeat what the table holds. -/
theorem writes_eq_self_iff {f : α → β} {l : List (α × β)} :
    writes f l = f ↔ ∀ a b, LastWrite l a b → f a = b := by
  constructor
  · intro h a b hlast
    rw [← writes_of_lastWrite (f := f) hlast, h]
  · intro h
    funext a
    rcases ne_or_lastWrite l a with hne | ⟨b, hlast⟩
    · exact writes_of_ne hne
    · rw [writes_of_lastWrite hlast, h a b hlast]

/-! ## Rings -/

/-- The writes that append the values to a ring of `n` slots, from a slot on. -/
def ringWrites (n : Nat) : Nat → List β → List (Nat × β)
  | _, [] => []
  | slot, b :: bs => (slot, b) :: ringWrites n ((slot + 1) % n) bs

/-- The slot after `k` appends. -/
def ringNext (n slot k : Nat) : Nat := (slot + k) % n

theorem ringNext_zero {n slot : Nat} (h : slot < n) : ringNext n slot 0 = slot :=
  Nat.mod_eq_of_lt h

theorem ringNext_succ (n slot k : Nat) : ringNext n ((slot + 1) % n) k = ringNext n slot (k + 1) := by
  rw [ringNext, ringNext, Nat.mod_add_mod]
  congr 1
  omega

/-- The ring stands at the same slot again exactly after whole turns. -/
theorem ringNext_eq_iff {n slot k : Nat} (h : slot < n) : ringNext n slot k = slot ↔ k % n = 0 := by
  have hmod : ringNext n slot k = (slot + k % n) % n := by rw [ringNext, Nat.add_mod_mod]
  have hlt : k % n < n := Nat.mod_lt k (by omega)
  rw [hmod]
  constructor
  · intro heq
    by_cases hwrap : slot + k % n < n
    · rw [Nat.mod_eq_of_lt hwrap] at heq
      omega
    · rw [Nat.mod_eq_sub_mod (by omega), Nat.mod_eq_of_lt (by omega)] at heq
      omega
  · intro hzero
    rw [hzero, Nat.add_zero, Nat.mod_eq_of_lt h]

end Table
