import IcnPrototype.Lib.Run

set_option autoImplicit false

/-! # Balancing loads

Loads are a function `ι → α`. The balancer adds every new amount to a load that is smallest at
that moment. Then no two loads come to differ by more than they did at the beginning, or by more
than the largest amount (`within_exec`).
-/

namespace Balance

variable {ι α : Type*} [DecidableEq ι] [AddCommGroup α] [LinearOrder α]

/-- No two loads differ by more than `d`. -/
def Within (f : ι → α) (d : α) : Prop := ∀ i j, f i - f j ≤ d

/-- The load `i` is smallest. -/
def IsLeast (f : ι → α) (i : ι) : Prop := ∀ j, f i ≤ f j

/-- One load more. -/
def add (f : ι → α) (i : ι) (x : α) : ι → α := Function.update f i (f i + x)

open Classical in
/-- The balancer: an amount goes to a smallest load only. -/
noncomputable def step (f : ι → α) (m : ι × α) : Option (ι → α) :=
  if IsLeast f m.1 then some (add f m.1 m.2) else none

theorem step_eq_some {f f' : ι → α} {m : ι × α} :
    step f m = some f' ↔ IsLeast f m.1 ∧ add f m.1 m.2 = f' := by
  rw [step, Option.ite_none_right_eq_some, Option.some.injEq]

/-- The largest amount, or `d` if that is larger. -/
def largest (d : α) (xs : List α) : α := xs.foldl max d

/-- **One amount.** -/
theorem Within.add [IsOrderedAddMonoid α] {f : ι → α} {d x : α} {i : ι} (h : Within f d)
    (hmin : IsLeast f i) (hx : 0 ≤ x) : Within (add f i x) (max d x) := by
  intro j k
  unfold Balance.add
  by_cases hj : j = i
  · by_cases hk : k = i
    · rw [hj, hk, sub_self]
      exact hx.trans (le_max_right d x)
    · -- the load was smallest, so it leads by the new amount at most
      rw [hj, Function.update_self, Function.update_of_ne hk]
      refine le_max_of_le_right ?_
      rw [sub_le_iff_le_add']
      exact add_le_add_left (hmin k) x
  · by_cases hk : k = i
    · rw [hk, Function.update_self, Function.update_of_ne hj]
      refine le_max_of_le_left ?_
      calc f j - (f i + x) ≤ f j - f i := sub_le_sub_left (le_add_of_nonneg_right hx) (f j)
        _ ≤ d := h j i
    · rw [Function.update_of_ne hj, Function.update_of_ne hk]
      exact le_max_of_le_left (h j k)

/-- **A run of the balancer.** -/
theorem within_exec [IsOrderedAddMonoid α] {f f' : ι → α} {ms : List (ι × α)} {d : α}
    (hpos : ∀ m ∈ ms, 0 ≤ m.2) (h : Within f d) (hex : Lts.exec step f ms = some f') :
    Within f' (largest d (ms.map Prod.snd)) := by
  induction ms generalizing f d with
  | nil =>
      rw [Lts.exec_nil, Option.some.injEq] at hex
      exact hex ▸ h
  | cons m ms ih =>
      rw [List.forall_mem_cons] at hpos
      obtain ⟨f₁, hm, hex⟩ := Lts.exec_cons_eq_some.mp hex
      obtain ⟨hmin, rfl⟩ := step_eq_some.mp hm
      exact ih hpos.2 (h.add hmin hpos.1) hex

end Balance
