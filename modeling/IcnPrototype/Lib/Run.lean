import Mathlib.Tactic

set_option autoImplicit false

/-! # Runs of a partial step function

A system is a partial step function `step : σ → α → Option σ`: `none` means that the action is
not enabled in the state, or that the program has no defined behaviour there. A run is the list
of its actions.

* `exec step s as` is the state after the actions `as`.
* `Always step P s as` says that `P` holds in every state the run visits.
* `Along step C s as` says that every step the run takes meets the condition `C`, which may
  look at the state before the step and at the action.

The rules below are the only inductions over runs that the development needs: an invariant
kept by every step (`exec_invariant`), one kept by the steps that meet a condition
(`always_of_along`), and the exact form, where a step outside the condition is at once visible
in the state it leads to (`always_iff_along`). `exec_count` counts the steps that meet a condition,
and `exec_last` finds the step that wrote last.
-/

namespace Lts

variable {σ α : Type*} {step : σ → α → Option σ}

/-- The state after the actions `as`, if every one of them is enabled in turn. -/
def exec (step : σ → α → Option σ) : σ → List α → Option σ
  | s, [] => some s
  | s, a :: as => (step s a).bind (fun s' => exec step s' as)

/-- `P` holds in every state the run `as` visits from `s`, the first one included. -/
def Always (step : σ → α → Option σ) (P : σ → Prop) : σ → List α → Prop
  | s, [] => P s
  | s, a :: as => P s ∧ ∀ s', step s a = some s' → Always step P s' as

/-- Every step the run `as` takes from `s` meets the condition `C`. -/
def Along (step : σ → α → Option σ) (C : σ → α → Prop) : σ → List α → Prop
  | _, [] => True
  | s, a :: as => ∀ s', step s a = some s' → C s a ∧ Along step C s' as

/-- Whether a run meets a condition can be computed by running it. -/
instance decidableAlong {C : σ → α → Prop} [∀ s a, Decidable (C s a)] :
    ∀ (s : σ) (as : List α), Decidable (Along step C s as)
  | _, [] => isTrue trivial
  | s, a :: as =>
      match hstep : step s a with
      | none => isTrue fun s' h => by rw [hstep] at h; cases h
      | some s₁ =>
          haveI := decidableAlong (C := C) s₁ as
          decidable_of_iff (C s a ∧ Along step C s₁ as)
            ⟨fun h s' h1 => by rw [hstep, Option.some.injEq] at h1; exact h1 ▸ h,
              fun h => h s₁ hstep⟩

/-- Whether a property holds all along a run can be computed by running it. -/
instance decidableAlways {P : σ → Prop} [DecidablePred P] :
    ∀ (s : σ) (as : List α), Decidable (Always step P s as)
  | s, [] => decidable_of_iff (P s) Iff.rfl
  | s, a :: as =>
      match hstep : step s a with
      | none => decidable_of_iff (P s)
          ⟨fun h => ⟨h, fun s' h1 => by rw [hstep] at h1; cases h1⟩, fun h => h.1⟩
      | some s₁ =>
          haveI := decidableAlways (P := P) s₁ as
          decidable_of_iff (P s ∧ Always step P s₁ as)
            ⟨fun h => ⟨h.1, fun s' h1 => by rw [hstep, Option.some.injEq] at h1; exact h1 ▸ h.2⟩,
              fun h => ⟨h.1, h.2 s₁ hstep⟩⟩

@[simp] theorem exec_nil (s : σ) : exec step s [] = some s := rfl

theorem exec_cons (s : σ) (a : α) (as : List α) :
    exec step s (a :: as) = (step s a).bind (fun s' => exec step s' as) := rfl

theorem exec_cons_eq_some {s s' : σ} {a : α} {as : List α} :
    exec step s (a :: as) = some s' ↔ ∃ s₁, step s a = some s₁ ∧ exec step s₁ as = some s' := by
  rw [exec_cons, Option.bind_eq_some_iff]

theorem exec_append (s : σ) (as bs : List α) :
    exec step s (as ++ bs) = (exec step s as).bind (fun s' => exec step s' bs) := by
  induction as generalizing s with
  | nil => rfl
  | cons a as ih =>
      rw [List.cons_append, exec_cons, exec_cons]
      cases hstep : step s a with
      | none => rfl
      | some s₁ => exact ih s₁

theorem exec_append_eq_some {s s' : σ} {as bs : List α} :
    exec step s (as ++ bs) = some s'
      ↔ ∃ s₁, exec step s as = some s₁ ∧ exec step s₁ bs = some s' := by
  rw [exec_append, Option.bind_eq_some_iff]

/-! ## Invariants -/

/-- **The invariant rule.** What every step keeps holds after every run. -/
theorem exec_invariant {P : σ → Prop} (hstep : ∀ s a s', P s → step s a = some s' → P s')
    {as : List α} {s s' : σ} (h0 : P s) (h : exec step s as = some s') : P s' := by
  induction as generalizing s with
  | nil =>
      rw [exec_nil, Option.some.injEq] at h
      exact h ▸ h0
  | cons a as ih =>
      obtain ⟨s₁, h1, h2⟩ := exec_cons_eq_some.mp h
      exact ih (hstep s a s₁ h0 h1) h2

/-- `Always` is the statement about every prefix of the run. -/
theorem always_iff_prefix {P : σ → Prop} {as : List α} {s : σ} :
    Always step P s as ↔ ∀ bs cs s', as = bs ++ cs → exec step s bs = some s' → P s' := by
  induction as generalizing s with
  | nil =>
      constructor
      · intro h bs cs s' heq hex
        obtain ⟨rfl, rfl⟩ := List.append_eq_nil_iff.mp heq.symm
        rw [exec_nil, Option.some.injEq] at hex
        exact hex ▸ h
      · intro h
        exact h [] [] s rfl rfl
  | cons a as ih =>
      constructor
      · rintro ⟨h0, hrest⟩ bs cs s' heq hex
        cases bs with
        | nil =>
            rw [exec_nil, Option.some.injEq] at hex
            exact hex ▸ h0
        | cons b bs =>
            rw [List.cons_append, List.cons.injEq] at heq
            obtain ⟨rfl, heq⟩ := heq
            obtain ⟨s₁, h1, h2⟩ := exec_cons_eq_some.mp hex
            exact ih.mp (hrest s₁ h1) bs cs s' heq h2
      · intro h
        refine ⟨h [] (a :: as) s rfl rfl, fun s₁ h1 => ih.mpr ?_⟩
        intro bs cs s' heq hex
        exact h (a :: bs) cs s' (by rw [heq, List.cons_append])
          (exec_cons_eq_some.mpr ⟨s₁, h1, hex⟩)

/-- What holds in every state of a run holds in its last one. -/
theorem Always.last {P : σ → Prop} {as : List α} {s s' : σ} (h : Always step P s as)
    (hex : exec step s as = some s') : P s' :=
  always_iff_prefix.mp h as [] s' (List.append_nil as).symm hex

/-! ## Invariants under a condition on the steps -/

/-- **The conditional invariant rule.** What every step that meets `C` keeps holds in every
state of a run all of whose steps meet `C`. -/
theorem always_of_along {I P : σ → Prop} {C : σ → α → Prop}
    (hP : ∀ s, I s → P s)
    (hkeep : ∀ s a s', I s → step s a = some s' → C s a → I s')
    {as : List α} {s : σ} (h0 : I s) (hC : Along step C s as) : Always step P s as := by
  induction as generalizing s with
  | nil => exact hP s h0
  | cons a as ih =>
      refine ⟨hP s h0, ?_⟩
      intro s' h1
      obtain ⟨hCa, hrest⟩ := hC s' h1
      exact ih (hkeep s a s' h0 h1 hCa) hrest

/-- **The exact condition of a run property.** If the steps that meet `C` keep the invariant
and a step that does not meet `C` leads to a state without `P`, then `P` holds all along a run
exactly when every step of the run meets `C`. -/
theorem always_iff_along {I P : σ → Prop} {C : σ → α → Prop}
    (hP : ∀ s, I s → P s)
    (hkeep : ∀ s a s', I s → step s a = some s' → C s a → I s')
    (hbreak : ∀ s a s', I s → step s a = some s' → ¬ C s a → ¬ P s')
    {as : List α} {s : σ} (h0 : I s) : Always step P s as ↔ Along step C s as := by
  refine ⟨fun h => ?_, always_of_along hP hkeep h0⟩
  induction as generalizing s with
  | nil => trivial
  | cons a as ih =>
      intro s' h1
      -- a step outside the condition would show in the state it leads to
      have hCa : C s a := by
        by_contra hno
        refine hbreak s a s' h0 h1 hno ?_
        exact always_iff_prefix.mp (h.2 s' h1) [] as s' rfl rfl
      exact ⟨hCa, ih (hkeep s a s' h0 h1 hCa) (h.2 s' h1)⟩

/-- What every action of a kind meets in the states of an invariant is met along a run of such
actions. -/
theorem along_of_invariant {I : σ → Prop} {U : α → Prop} {C : σ → α → Prop}
    (hkeep : ∀ s a s', I s → U a → step s a = some s' → I s')
    (hC : ∀ s a, I s → U a → C s a) {as : List α} {s : σ} (h0 : I s) (hU : ∀ a ∈ as, U a) :
    Along step C s as := by
  induction as generalizing s with
  | nil => trivial
  | cons a as ih =>
      intro s' h1
      obtain ⟨hUa, hrest⟩ := List.forall_mem_cons.mp hU
      exact ⟨hC s a h0 hUa, ih (hkeep s a s' h0 hUa h1) hrest⟩

/-- When the steps that meet a condition keep the invariant, a condition that agrees with it in the
states of the invariant is met along the same runs. -/
theorem along_congr_of_keep {I : σ → Prop} {C D : σ → α → Prop}
    (hkeep : ∀ s a s', I s → step s a = some s' → D s a → I s')
    (hCD : ∀ s a, I s → (C s a ↔ D s a)) {as : List α} {s : σ} (h0 : I s) :
    Along step C s as ↔ Along step D s as := by
  induction as generalizing s with
  | nil => rfl
  | cons a as ih =>
      refine forall_congr' fun s' => imp_congr_right fun h1 => ?_
      rw [hCD s a h0]
      exact and_congr_right fun hD => ih (hkeep s a s' h0 h1 hD)

/-- When every step keeps the invariant, conditions that agree in its states are met along the same
runs. -/
theorem along_congr {I : σ → Prop} {C D : σ → α → Prop}
    (hkeep : ∀ s a s', I s → step s a = some s' → I s')
    (hCD : ∀ s a, I s → (C s a ↔ D s a)) {as : List α} {s : σ} (h0 : I s) :
    Along step C s as ↔ Along step D s as :=
  along_congr_of_keep (fun s a s' hI h1 _ => hkeep s a s' hI h1) hCD h0

/-- What holds in every state of a run holds behind every step. -/
theorem along_of_always {P : σ → Prop} {as : List α} {s : σ} (h : Always step P s as) :
    Along step (fun s a => ∀ s', step s a = some s' → P s') s as := by
  induction as generalizing s with
  | nil => trivial
  | cons a as ih =>
      intro s' h1
      refine ⟨?_, ih (h.2 s' h1)⟩
      intro s₂ h2
      exact always_iff_prefix.mp (h.2 s₂ h2) [] as s₂ rfl rfl

/-- A condition on the actions alone, along a run whose steps are all enabled. -/
theorem along_const_iff {U : α → Prop} (htotal : ∀ s a, (step s a).isSome = true)
    {as : List α} {s : σ} : Along step (fun _ a => U a) s as ↔ ∀ a ∈ as, U a := by
  induction as generalizing s with
  | nil => simp [Along]
  | cons a as ih =>
      obtain ⟨s', h1⟩ := Option.isSome_iff_exists.mp (htotal s a)
      rw [List.forall_mem_cons, Along]
      constructor
      · intro h
        exact ⟨(h s' h1).1, ih.mp (h s' h1).2⟩
      · rintro ⟨ha, hrest⟩ s₁ _
        exact ⟨ha, ih.mpr hrest⟩

/-- A condition is met along a run when it is met along its two parts. -/
theorem along_append {C : σ → α → Prop} {as bs : List α} {s : σ} :
    Along step C s (as ++ bs)
      ↔ Along step C s as ∧ ∀ s', exec step s as = some s' → Along step C s' bs := by
  induction as generalizing s with
  | nil => simp [Along]
  | cons a as ih =>
      constructor
      · intro h
        refine ⟨fun s₁ h1 => ⟨(h s₁ h1).1, (ih.mp (h s₁ h1).2).1⟩, ?_⟩
        intro s' hex
        obtain ⟨s₁, h1, h2⟩ := exec_cons_eq_some.mp hex
        exact (ih.mp (h s₁ h1).2).2 s' h2
      · rintro ⟨has, hbs⟩ s₁ h1
        refine ⟨(has s₁ h1).1, ih.mpr ⟨(has s₁ h1).2, fun s' h2 => ?_⟩⟩
        exact hbs s' (exec_cons_eq_some.mpr ⟨s₁, h1, h2⟩)

/-- A condition met along a run is met by the last step. -/
theorem Along.last {C : σ → α → Prop} {as : List α} {s s₁ s₂ : σ} {a : α}
    (h : Along step C s (as ++ [a])) (h1 : exec step s as = some s₁) (h2 : step s₁ a = some s₂) :
    C s₁ a := by
  induction as generalizing s with
  | nil =>
      rw [exec_nil, Option.some.injEq] at h1
      subst h1
      exact (h s₂ h2).1
  | cons b as ih =>
      obtain ⟨s', hs', hrest⟩ := exec_cons_eq_some.mp h1
      exact ih (h s' hs').2 hrest

/-! ## Counting steps -/

/-- How many steps of a run meet a condition. -/
def count (step : σ → α → Option σ) (C : σ → α → Prop) [∀ s a, Decidable (C s a)] :
    σ → List α → Nat
  | _, [] => 0
  | s, a :: as =>
      match step s a with
      | none => 0
      | some s' => (if C s a then 1 else 0) + count step C s' as

/-- **The counting rule.** A measure that grows by one with the steps of a condition, and is left
alone by the others, counts these steps. -/
theorem exec_count {I : σ → Prop} {C : σ → α → Prop} [∀ s a, Decidable (C s a)] {f : σ → Nat}
    (hkeep : ∀ s a s', I s → step s a = some s' → I s')
    (hcount : ∀ s a s', I s → step s a = some s' → f s' = f s + if C s a then 1 else 0)
    {as : List α} {s s' : σ} (h0 : I s) (h : exec step s as = some s') :
    f s' = f s + count step C s as := by
  induction as generalizing s with
  | nil =>
      rw [exec_nil, Option.some.injEq] at h
      subst h
      rfl
  | cons a as ih =>
      obtain ⟨s₁, h1, h2⟩ := exec_cons_eq_some.mp h
      calc f s' = f s₁ + count step C s₁ as := ih (hkeep s a s₁ h0 h1) h2
        _ = f s + ((if C s a then 1 else 0) + count step C s₁ as) := by
          rw [hcount s a s₁ h0 h1, Nat.add_assoc]
        _ = f s + count step C s (a :: as) := by rw [count, h1]

/-! ## Steps that overwrite -/

/-- **The last write.** When a step sets a part of the state to what its action says, or leaves it
alone, a run leaves there what the last action says that says anything. -/
theorem exec_last {β : Type*} {f : σ → β} {g : α → Option β}
    (hstep : ∀ s a s', step s a = some s' → f s' = (g a).getD (f s)) {as : List α} {s s' : σ}
    (h : exec step s as = some s') : f s' = ((as.filterMap g).getLast?).getD (f s) := by
  induction as generalizing s with
  | nil =>
      rw [exec_nil, Option.some.injEq] at h
      subst h
      rfl
  | cons a as ih =>
      obtain ⟨s₁, h1, h2⟩ := exec_cons_eq_some.mp h
      rw [ih h2, hstep s a s₁ h1]
      cases hg : g a with
      | none => rw [List.filterMap_cons_none hg, Option.getD_none]
      | some b =>
          rw [List.filterMap_cons_some hg, List.getLast?_cons, Option.getD_some, Option.getD_some]

/-- A run exists when each action is possible, if that does not depend on the state. -/
theorem exec_isSome_iff {V : α → Prop} (hstep : ∀ s a, (step s a).isSome = true ↔ V a)
    {as : List α} {s : σ} : (exec step s as).isSome = true ↔ ∀ a ∈ as, V a := by
  induction as generalizing s with
  | nil => simp
  | cons a as ih =>
      rw [exec_cons, List.forall_mem_cons, ← hstep s a]
      cases step s a with
      | none => simp
      | some s₁ => simpa using ih

end Lts
