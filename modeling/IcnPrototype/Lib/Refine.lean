import IcnPrototype.Lib.Run

set_option autoImplicit false

/-! # Refinement by an abstraction function

The steps of a concrete system are those of an abstract one, seen through a function `view` of the
states and a function `name` of the actions. Both systems are partial, and a step is enabled in
one of them exactly when it is in the other, so a run of the concrete system says what the
abstract one does and the other way round. An invariant may restrict the concrete states.
-/

namespace Lts

variable {σ τ α β : Type*} {step : σ → α → Option σ} {step' : τ → β → Option τ}

/-- **A refinement**: in the states of the invariant, the view of a step is the step of the view. -/
structure Refines (step : σ → α → Option σ) (step' : τ → β → Option τ) (I : σ → Prop)
    (view : σ → τ) (name : α → β) : Prop where
  keeps : ∀ s a s', I s → step s a = some s' → I s'
  commutes : ∀ s a, I s → (step s a).map view = step' (view s) (name a)

namespace Refines

variable {I : σ → Prop} {view : σ → τ} {name : α → β}

/-- **The view of a run is the run of the view.** -/
theorem exec (h : Refines step step' I view name) {s : σ} (hs : I s) (as : List α) :
    (Lts.exec step s as).map view = Lts.exec step' (view s) (as.map name) := by
  induction as generalizing s with
  | nil => rfl
  | cons a as ih =>
      rw [List.map_cons, exec_cons, exec_cons, ← h.commutes s a hs]
      cases hstep : step s a with
      | none => rfl
      | some s₁ => exact ih (h.keeps s a s₁ hs hstep)

/-- A run has as many steps that meet a condition as its view. -/
theorem count (h : Refines step step' I view name) {C : σ → α → Prop} {D : τ → β → Prop}
    [∀ s a, Decidable (C s a)] [∀ t b, Decidable (D t b)]
    (hC : ∀ s a, C s a ↔ D (view s) (name a)) {s : σ} (hs : I s) (as : List α) :
    Lts.count step C s as = Lts.count step' D (view s) (as.map name) := by
  induction as generalizing s with
  | nil => rfl
  | cons a as ih =>
      rw [List.map_cons, Lts.count, Lts.count, ← h.commutes s a hs]
      cases hstep : step s a with
      | none => rfl
      | some s₁ =>
          show (if C s a then 1 else 0) + Lts.count step C s₁ as
            = (if D (view s) (name a) then 1 else 0) + Lts.count step' D (view s₁) (as.map name)
          rw [ih (h.keeps s a s₁ hs hstep), if_congr (hC s a) rfl rfl]

end Refines

end Lts
