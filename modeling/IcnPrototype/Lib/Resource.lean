import Mathlib.Tactic

set_option autoImplicit false

/-! # Resources that are released once

A log of what a program does to its resources: it looks at them, and it releases them. The
status of a resource is computed from the log; it is `released` exactly if the resource was
released once and not touched afterwards (`status_eq_released_iff`), and `held` exactly if it was
not released (`status_eq_held_iff`).
-/

namespace Resource

/-- What is done to a resource. -/
inductive Use (α : Type*)
  | inspect (r : α)
  | release (r : α)
deriving DecidableEq, Repr

/-- The resource a use is about. -/
def Use.res {α : Type*} : Use α → α
  | inspect r => r
  | release r => r

/-- What has become of a resource. -/
inductive Status
  | held
  | released
  | misused
deriving DecidableEq, Repr

variable {α : Type*} [DecidableEq α]

/-- The status of a resource after a use of it. -/
def Use.next {α : Type*} : Status → Use α → Status
  | .held, .inspect _ => .held
  | .held, .release _ => .released
  | .released, _ => .misused
  | .misused, _ => .misused

/-- The status of `r` after a use of some resource. -/
def Use.apply (r : α) (s : Status) (u : Use α) : Status := if u.res = r then Use.next s u else s

/-- The status of `r` after a log. -/
def statusFrom (r : α) (s : Status) (log : List (Use α)) : Status := log.foldl (Use.apply r) s

/-- The status of `r`, which is held at the start. -/
def status (log : List (Use α)) (r : α) : Status := statusFrom r .held log

variable {r : α} {s : Status} {log : List (Use α)}

@[simp] theorem statusFrom_nil (r : α) (s : Status) : statusFrom r s [] = s := rfl

@[simp] theorem statusFrom_cons (r : α) (s : Status) (u : Use α) (log : List (Use α)) :
    statusFrom r s (u :: log) = statusFrom r (u.apply r s) log := rfl

theorem status_append (log log' : List (Use α)) (r : α) :
    status (log ++ log') r = statusFrom r (status log r) log' :=
  List.foldl_append

theorem Use.apply_of_ne {u : Use α} (h : u.res ≠ r) : u.apply r s = s := if_neg h

@[simp] theorem Use.apply_misused (u : Use α) (r : α) : u.apply r .misused = .misused := by
  rw [Use.apply]
  split <;> rfl

@[simp] theorem apply_inspect_held (r : α) : (Use.inspect r).apply r .held = .held := if_pos rfl

@[simp] theorem apply_release_held (r : α) : (Use.release r).apply r .held = .released := if_pos rfl

@[simp] theorem apply_inspect_released (r : α) : (Use.inspect r).apply r .released = .misused :=
  if_pos rfl

@[simp] theorem apply_release_released (r : α) : (Use.release r).apply r .released = .misused :=
  if_pos rfl

/-- What was misused stays so. -/
@[simp] theorem statusFrom_misused (r : α) (log : List (Use α)) :
    statusFrom r .misused log = .misused := by
  induction log with
  | nil => rfl
  | cons u log ih => rw [statusFrom_cons, Use.apply_misused, ih]

/-- The uses after a release: none, or the resource is misused. -/
theorem statusFrom_released :
    statusFrom r .released log = .released ↔ ∀ u ∈ log, u.res ≠ r := by
  induction log with
  | nil => simp
  | cons u log ih =>
      by_cases hu : u.res = r
      · have hmis : u.apply r .released = .misused := if_pos hu
        simp [hmis, hu]
      · rw [statusFrom_cons, Use.apply_of_ne hu, ih]
        simp [hu]

/-- A released resource is not held again. -/
theorem statusFrom_released_ne_held (r : α) (log : List (Use α)) :
    statusFrom r .released log ≠ .held := by
  induction log with
  | nil => simp
  | cons u log ih =>
      rw [statusFrom_cons, Use.apply]
      split
      · simp [Use.next]
      · exact ih

/-- A resource is held as long as it was not released. -/
theorem status_eq_held_iff : status log r = .held ↔ Use.release r ∉ log := by
  rw [status]
  induction log with
  | nil => simp
  | cons u log ih =>
      rw [statusFrom_cons, List.mem_cons, not_or]
      by_cases hu : u.res = r
      · cases u with
        | inspect r' =>
            obtain rfl : r' = r := hu
            rw [apply_inspect_held, ih]
            simp
        | release r' =>
            obtain rfl : r' = r := hu
            rw [apply_release_held]
            exact iff_of_false (statusFrom_released_ne_held r' log) (by simp)
      · rw [Use.apply_of_ne hu, ih]
        refine (and_iff_right ?_).symm
        rintro rfl
        exact hu rfl

/-- **Released once and not touched afterwards.** -/
theorem status_eq_released_iff : status log r = .released
    ↔ ∃ A B, log = A ++ .release r :: B ∧ Use.release r ∉ A ∧ ∀ u ∈ B, u.res ≠ r := by
  constructor
  · intro h
    have hmem : Use.release r ∈ log := by
      by_contra hno
      rw [status_eq_held_iff.mpr hno] at h
      cases h
    obtain ⟨A, B, rfl, hA⟩ := List.eq_append_cons_of_mem hmem
    exact ⟨A, B, rfl, hA, by
      rwa [status_append, status_eq_held_iff.mpr hA, statusFrom_cons, apply_release_held,
        statusFrom_released] at h⟩
  · rintro ⟨A, B, rfl, hA, hB⟩
    rw [status_append, status_eq_held_iff.mpr hA, statusFrom_cons, apply_release_held,
      statusFrom_released]
    exact hB

/-- Releasing several resources, each once. -/
theorem statusFrom_releases {T : List α} (hT : T.Nodup) :
    statusFrom r s (T.map .release) = if r ∈ T then (Use.release r).apply r s else s := by
  induction T generalizing s with
  | nil => simp
  | cons t T ih =>
      rw [List.nodup_cons] at hT
      rw [List.map_cons, statusFrom_cons, ih hT.2]
      by_cases ht : t = r
      · subst ht
        simp [hT.1]
      · have ht' : r ≠ t := fun e => ht e.symm
        rw [Use.apply_of_ne (u := .release t) ht]
        simp [ht']

end Resource
