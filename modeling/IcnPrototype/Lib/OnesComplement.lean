import Mathlib.Tactic

set_option autoImplicit false

/-! # One's complement sums

One's complement addition of words of which `M` is the largest: a carry out of the word is added
at its other end. Sums are the usual ones modulo `M`, but 0 and `M` are told apart: a sum is 0
only if every word is (`onesSum_eq_zero`). So the checksum of a header that is not all zero is
known modulo `M`, and it is never `M` itself (`eq_checksum_iff`).

A word of two digits to the base `b` has `M = b * b - 1`. Modulo this `M`, to swap the digits is to
multiply by `b`, so whether a sum is 0 does not depend on the byte order (`sum_swap_mod`).
-/

namespace OnesComplement

variable {M : Nat}

/-- Addition with end-around carry. -/
def onesAdd (M a b : Nat) : Nat := if a + b ≤ M then a + b else a + b - M

/-- The sum of the words. -/
def onesSum (M : Nat) (ws : List Nat) : Nat := ws.foldr (onesAdd M) 0

/-- The complement of the sum of the words. -/
def checksum (M : Nat) (ws : List Nat) : Nat := M - onesSum M ws

theorem onesAdd_le {a b : Nat} (ha : a ≤ M) (hb : b ≤ M) : onesAdd M a b ≤ M := by
  unfold onesAdd
  split <;> omega

theorem onesAdd_mod (a b : Nat) : onesAdd M a b % M = (a + b) % M := by
  unfold onesAdd
  split
  · rfl
  · exact (Nat.mod_eq_sub_mod (by omega)).symm

theorem onesAdd_eq_zero {a b : Nat} : onesAdd M a b = 0 ↔ a = 0 ∧ b = 0 := by
  unfold onesAdd
  split <;> omega

theorem onesSum_cons (w : Nat) (ws : List Nat) :
    onesSum M (w :: ws) = onesAdd M w (onesSum M ws) := rfl

theorem onesSum_le {ws : List Nat} (h : ∀ w ∈ ws, w ≤ M) : onesSum M ws ≤ M := by
  induction ws with
  | nil => exact Nat.zero_le M
  | cons w ws ih =>
      rw [List.forall_mem_cons] at h
      rw [onesSum_cons]
      exact onesAdd_le h.1 (ih h.2)

theorem onesSum_mod (ws : List Nat) : onesSum M ws % M = ws.sum % M := by
  induction ws with
  | nil => rfl
  | cons w ws ih => rw [onesSum_cons, onesAdd_mod, List.sum_cons, Nat.add_mod, ih, ← Nat.add_mod]

theorem onesSum_eq_zero {ws : List Nat} : onesSum M ws = 0 ↔ ws.sum = 0 := by
  induction ws with
  | nil => rfl
  | cons w ws ih => rw [onesSum_cons, onesAdd_eq_zero, ih, List.sum_cons, Nat.add_eq_zero_iff]

/-- **The checksum of words that are not all zero**: the word that makes the sum a multiple of
`M`, and of the two words that do so not `M`. -/
theorem eq_checksum_iff {ws : List Nat} {c : Nat} (hws : ∀ w ∈ ws, w ≤ M) (hpos : 0 < ws.sum)
    (hc : c ≤ M) : c = checksum M ws ↔ (c + ws.sum) % M = 0 ∧ c ≠ M := by
  have hle := onesSum_le hws
  have hne : onesSum M ws ≠ 0 := fun e => Nat.ne_of_gt hpos (onesSum_eq_zero.mp e)
  have hmod : (c + ws.sum) % M = (c + onesSum M ws) % M := by
    rw [Nat.add_mod, ← onesSum_mod, ← Nat.add_mod]
  rw [checksum, hmod]
  constructor
  · intro heq
    have hsum : c + onesSum M ws = M := by omega
    exact ⟨by rw [hsum, Nat.mod_self], by omega⟩
  · rintro ⟨hzero, hcM⟩
    obtain ⟨k, hk⟩ := Nat.dvd_of_mod_eq_zero hzero
    -- the sum is a positive multiple of `M` below `2 * M`
    have hk1 : k = 1 := by
      rcases k with _ | _ | k
      · omega
      · rfl
      · rw [Nat.mul_add, Nat.mul_add] at hk
        omega
    subst hk1
    omega

/-- **The sum of words**: of the two words that are congruent to the usual sum and may be 0 and
`M`, the one that is 0 only if all words are. -/
theorem eq_onesSum_iff {ws : List Nat} {x : Nat} (hws : ∀ w ∈ ws, w ≤ M) (hx : x ≤ M) :
    x = onesSum M ws ↔ x % M = ws.sum % M ∧ (x = 0 ↔ ws.sum = 0) := by
  have hle := onesSum_le hws
  rw [← onesSum_mod, ← onesSum_eq_zero (M := M)]
  constructor
  · rintro rfl
    exact ⟨rfl, Iff.rfl⟩
  · rintro ⟨hmod, hzero⟩
    rcases Nat.lt_or_eq_of_le hx with hlt | hxM
    · rcases Nat.lt_or_eq_of_le hle with hlt' | heq
      · rwa [Nat.mod_eq_of_lt hlt, Nat.mod_eq_of_lt hlt'] at hmod
      · -- the sum is `M`, so the word would be 0
        rw [heq, Nat.mod_self, Nat.mod_eq_of_lt hlt] at hmod
        exact hmod.trans (hzero.mp hmod).symm
    · rcases Nat.lt_or_eq_of_le hle with hlt' | heq
      · rw [hxM, Nat.mod_self, Nat.mod_eq_of_lt hlt'] at hmod
        rw [hzero.mpr hmod.symm, hmod]
      · exact hxM.trans heq.symm

/-- A sum that is a multiple of `M`, of words that are not all zero. -/
theorem onesSum_eq_max {ws : List Nat} (hws : ∀ w ∈ ws, w ≤ M) (hdvd : M ∣ ws.sum)
    (hpos : 0 < ws.sum) : onesSum M ws = M := by
  refine ((eq_onesSum_iff hws (Nat.le_refl M)).mpr ⟨?_, ?_⟩).symm
  · rw [Nat.mod_self, Nat.mod_eq_zero_of_dvd hdvd]
  · constructor
    · rintro rfl
      exact Nat.zero_dvd.mp hdvd
    · intro h
      exact absurd h (Nat.ne_of_gt hpos)

/-- **The verification law.** Words to which their checksum is added sum up to `M`, so the checksum
over them is 0. -/
theorem checksum_eq_zero {ws ws' : List Nat} (hws : ∀ w ∈ ws, w ≤ M) (hws' : ∀ w ∈ ws', w ≤ M)
    (hM : 0 < M) (hsum : ws'.sum = ws.sum + checksum M ws) : checksum M ws' = 0 := by
  have hle := onesSum_le hws
  have hdvd : M ∣ ws'.sum := by
    have hmod : (ws.sum + checksum M ws) % M = (onesSum M ws + checksum M ws) % M := by
      rw [Nat.add_mod, ← onesSum_mod, ← Nat.add_mod]
    have hall : onesSum M ws + checksum M ws = M := by
      rw [checksum]
      omega
    rw [hall, Nat.mod_self, ← hsum] at hmod
    exact Nat.dvd_of_mod_eq_zero hmod
  have hpos : 0 < ws'.sum := by
    rcases Nat.eq_zero_or_pos ws.sum with hzero | hpos
    · have hc : checksum M ws = M := by
        rw [checksum, onesSum_eq_zero.mpr hzero, Nat.sub_zero]
      omega
    · omega
  rw [checksum, onesSum_eq_max hws' hdvd hpos, Nat.sub_self]

/-! ## Byte order -/

/-- A word with its two digits swapped. -/
def swap (b x : Nat) : Nat := b * (x % b) + x / b

theorem swap_modEq {b : Nat} (hb : 0 < b) (x : Nat) : swap b x ≡ b * x [MOD b * b - 1] := by
  have hbb : 1 ≤ b * b := Nat.mul_pos hb hb
  have hone : b * b ≡ 1 [MOD b * b - 1] := by
    have hself : b * b - 1 + 1 ≡ 0 + 1 [MOD b * b - 1] :=
      Nat.ModEq.add_right 1 (Nat.modEq_zero_iff_dvd.mpr dvd_rfl)
    rwa [Nat.sub_add_cancel hbb, Nat.zero_add] at hself
  calc swap b x = b * (x % b) + 1 * (x / b) := by rw [swap, Nat.one_mul]
    _ ≡ b * (x % b) + b * b * (x / b) [MOD b * b - 1] :=
        Nat.ModEq.add_left _ (hone.symm.mul_right _)
    _ = b * x := by rw [Nat.mul_assoc, ← Nat.mul_add, Nat.mod_add_div]

theorem sum_swap_modEq {b : Nat} (hb : 0 < b) (ws : List Nat) :
    (ws.map (swap b)).sum ≡ b * ws.sum [MOD b * b - 1] := by
  induction ws with
  | nil => rfl
  | cons w ws ih =>
      rw [List.map_cons, List.sum_cons, List.sum_cons, Nat.mul_add]
      exact (swap_modEq hb w).add ih

theorem coprime_mul_self_sub_one {b : Nat} (hb : 0 < b) : Nat.Coprime (b * b - 1) b := by
  have hbb : 1 ≤ b * b := Nat.mul_pos hb hb
  have hdvd : Nat.gcd (b * b - 1) b ∣ b * b - (b * b - 1) :=
    Nat.dvd_sub ((Nat.gcd_dvd_right _ b).mul_left b) (Nat.gcd_dvd_left _ b)
  rw [Nat.sub_sub_self hbb] at hdvd
  exact Nat.dvd_one.mp hdvd

/-- **Whether a sum is 0 does not depend on the byte order.** -/
theorem sum_swap_mod {b : Nat} (hb : 0 < b) (ws : List Nat) :
    (ws.map (swap b)).sum % (b * b - 1) = 0 ↔ ws.sum % (b * b - 1) = 0 := by
  rw [sum_swap_modEq hb ws, ← Nat.dvd_iff_mod_eq_zero, ← Nat.dvd_iff_mod_eq_zero]
  exact (coprime_mul_self_sub_one hb).dvd_mul_left

end OnesComplement
