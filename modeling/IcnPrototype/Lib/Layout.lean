import IcnPrototype.Lib.Bytes

set_option autoImplicit false

/-! # What is stored where

`Stored m off bs` says that the bytes `bs` are in the buffer `m` from `off` on. The layout of a
struct is the concatenation of its fields and their padding, and `stored_append` takes it apart
into one statement for each field, at the field's offset. A field is loaded back from where it is
stored.
-/

namespace Bytes

/-- The bytes `bs` are at `off`. -/
def Stored (m : Mem) (off : Nat) (bs : List UInt8) : Prop := peek m off bs.length = bs

theorem stored_append {m : Mem} {off : Nat} {as bs : List UInt8} :
    Stored m off (as ++ bs) ↔ Stored m off as ∧ Stored m (off + as.length) bs := by
  unfold Stored
  rw [List.length_append, peek_append]
  constructor
  · intro h
    exact List.append_inj h (peek_length _ _ _)
  · rintro ⟨ha, hb⟩
    rw [ha, hb]

theorem stored_cons {m : Mem} {off : Nat} {b : UInt8} {bs : List UInt8} :
    Stored m off (b :: bs) ↔ m off = b ∧ Stored m (off + 1) bs := by
  rw [← List.singleton_append, stored_append]
  exact and_congr_left fun _ => List.singleton_inj

theorem stored_poke (m : Mem) (off : Nat) (bs : List UInt8) : Stored (poke m off bs) off bs :=
  peek_poke_self m off bs

/-- A part of what is stored. -/
theorem Stored.slice {m : Mem} {off : Nat} {bs : List UInt8} (h : Stored m off bs) {k n : Nat}
    (hn : k + n ≤ bs.length) : Stored m (off + k) ((bs.drop k).take n) := by
  have hlen : ((bs.drop k).take n).length = n := by
    rw [List.length_take, List.length_drop]
    omega
  unfold Stored at h ⊢
  rw [hlen, ← h, peek_drop m off (by omega), peek_take m _ (by omega)]

/-- What is stored outside of a write stays. -/
theorem Stored.poke {m : Mem} {off o : Nat} {as bs : List UInt8} (h : Stored m off as)
    (hdisj : off + as.length ≤ o ∨ o + bs.length ≤ off) : Stored (poke m o bs) off as :=
  (peek_poke_of_disjoint hdisj).trans h

/-- What is stored in a block arrives with a copy of the block. -/
theorem Stored.copy {src : Mem} {off n : Nat} {bs : List UInt8} (h : Stored src off bs)
    (hn : off + bs.length ≤ n) (m : Mem) : Stored (Bytes.poke m 0 (peek src 0 n)) off bs := by
  refine Eq.trans (peek_congr fun i hi hlt => ?_) h
  have hcopy := poke_peek_of_lt m src 0 (Nat.lt_of_lt_of_le hlt hn)
  rwa [Nat.zero_add] at hcopy

theorem Stored.peek_eq {m : Mem} {off n : Nat} {bs : List UInt8} (h : Stored m off bs)
    (hn : bs.length = n) : peek m off n = bs := by
  subst hn
  exact h

theorem Stored.load32_eq {m : Mem} {off : Nat} {x : UInt32} (h : Stored m off (le32 x)) :
    load32 m off = x := by
  rw [load32, h.peek_eq (le32_length x), ofLe32_le32]

theorem Stored.load64_eq {m : Mem} {off : Nat} {x : UInt64} (h : Stored m off (le64 x)) :
    load64 m off = x := by
  rw [load64, h.peek_eq (le64_length x), ofLe64_le64]

/-- The C string of an array that has a NUL does not depend on what is behind the array. -/
theorem Stored.cstr_eq {m : Mem} {off n : Nat} {bs : List UInt8} (h : Stored m off bs)
    (h0 : 0 ∈ bs) (hn : bs.length ≤ n) : cstr (peek m off n) = cstr bs := by
  obtain ⟨k, rfl⟩ := Nat.exists_eq_add_of_le hn
  rw [peek_append, show peek m off bs.length = bs from h, cstr_append_of_mem h0]

end Bytes
