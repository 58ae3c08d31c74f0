import IcnPrototype.Monitor.Timer

set_option autoImplicit false

/-! # What the timer functions do to the list

The pointer code of `Timer` against operations on the list of timers: `insert_a_timer` erases
the timer with the same `timer_id` and `flag` and places the new one (`insertATimer_isList`),
and `sig_func` takes off a prefix (`sigFunc_holds`). Nothing is assumed of the times or of
`elapse`; both are as the code leaves them.
-/

namespace Monitor

open Dll

/-- A timer and its address. -/
abbrev Node := Addr × TimerInfo

/-! ## `delete_repete_timer` -/

/-- What an operation that may link in the cell `new` does to the other cells: those off the list
are left alone, and those that leave the list are freed. -/
structure Rewrites (new : Addr) (h h' : Heap TimerInfo) (L L' : List Node) : Prop where
  frame : ∀ a, a ∉ addrs L → a ≠ new → h' a = h a
  freed : ∀ a ∈ addrs L, a ∈ addrs L' ∨ h' a = none

theorem Rewrites.refl (new : Addr) (h : Heap TimerInfo) (L : List Node) : Rewrites new h h L L :=
  ⟨fun _ _ _ => rfl, fun _ ha => Or.inl ha⟩

theorem Rewrites.trans {new : Addr} {h h₁ h₂ : Heap TimerInfo} {head : Ptr}
    {L L₁ L₂ : List Node} (h01 : Rewrites new h h₁ L L₁) (h12 : Rewrites new h₁ h₂ L₁ L₂)
    (hl : IsList h₁ head L₁) (hnew : h₁ new ≠ none)
    (hsub : ∀ a ∈ addrs L₁, a ∈ addrs L ∨ a = new) : Rewrites new h h₂ L L₂ := by
  refine ⟨fun a ha hne => ?_, fun a ha => ?_⟩
  · have ha₁ : a ∉ addrs L₁ := fun hm => (hsub a hm).elim ha hne
    rw [h12.frame a ha₁ hne, h01.frame a ha hne]
  · rcases h01.freed a ha with ha₁ | hnone
    · exact h12.freed a ha₁
    · have ha₁ : a ∉ addrs L₁ := by
        intro hm
        obtain ⟨n, hn, rfl⟩ := List.mem_map.mp hm
        obtain ⟨p, q, hc⟩ := hl.seg.cell hn
        rw [hnone] at hc
        cases hc
      have hne : a ≠ new := by
        rintro rfl
        exact hnew hnone
      exact Or.inr ((h12.frame a ha₁ hne).trans hnone)

section Delete

variable {h : Heap TimerInfo} {d e s : Addr} {v w u : TimerInfo} {x z : Ptr}

theorem deleteAlone_cells (hd : h d = some ⟨v, none, none⟩) :
    ∃ h', deleteRepeteTimer h (some d) = some (h', none)
      ∧ h' d = none
      ∧ ∀ a, a ≠ d → h' a = h a := by
  simp +contextual [deleteRepeteTimer, free, hd]

theorem deleteFirst_cells (hd : h d = some ⟨v, none, some s⟩) (hs : h s = some ⟨w, some d, z⟩)
    (hds : d ≠ s) :
    ∃ h', deleteRepeteTimer h (some d) = some (h', some s)
      ∧ h' d = none
      ∧ h' s = some ⟨w, none, z⟩
      ∧ ∀ a, a ≠ d → a ≠ s → h' a = h a := by
  simp +contextual [deleteRepeteTimer, setPre, free, Dll.modify, hd, hs, hds, Ne.symm hds]

theorem deleteMiddle_cells (he : h e = some ⟨u, x, some d⟩)
    (hd : h d = some ⟨v, some e, some s⟩) (hs : h s = some ⟨w, some d, z⟩) (hed : e ≠ d)
    (hes : e ≠ s) (hds : d ≠ s) :
    ∃ h', deleteRepeteTimer h (some d) = some (h', some s)
      ∧ h' e = some ⟨u, x, some s⟩
      ∧ h' d = none
      ∧ h' s = some ⟨w, some e, z⟩
      ∧ ∀ a, a ≠ e → a ≠ d → a ≠ s → h' a = h a := by
  simp +contextual only [deleteRepeteTimer, load_some, setNext, setPre, free, Dll.modify, hd, hs,
    he, Option.bind_eq_bind, Option.bind_some, Option.map_some, Function.update_of_ne,
    Function.update_self, ne_eq, not_false_eq_true, hed, hes, hds, Ne.symm hed, Ne.symm hes,
    Ne.symm hds, Option.some.injEq, Prod.mk.injEq, and_true, exists_eq_left', implies_true,
    and_self]

theorem deleteLast_cells (he : h e = some ⟨u, x, some d⟩) (hd : h d = some ⟨v, some e, none⟩)
    (hed : e ≠ d) :
    ∃ h', deleteRepeteTimer h (some d) = some (h', none)
      ∧ h' e = some ⟨u, x, none⟩
      ∧ h' d = none
      ∧ ∀ a, a ≠ e → a ≠ d → h' a = h a := by
  simp +contextual [deleteRepeteTimer, setNext, free, Dll.modify, he, hd, hed, Ne.symm hed]

end Delete

/-- `delete_repete_timer` takes the timer out, frees it and returns the one after it. -/
theorem deleteRepeteTimer_isList {h : Heap TimerInfo} {head : Ptr} (A : List Node) {d : Node}
    {B : List Node} (hl : IsList h head (A ++ d :: B)) :
    ∃ h', deleteRepeteTimer h (some d.1) = some (h', first B none)
      ∧ IsList h' (first (A ++ B) none) (A ++ B) ∧ h' d.1 = none
      ∧ ∀ a, a ∉ addrs (A ++ d :: B) → h' a = h a := by
  have hnd := hl.nodup
  -- the four branches of the code: whether `d` has a timer before it, and one after it
  rcases List.eq_nil_or_concat A with rfl | ⟨A, e, rfl⟩
  · cases B with
    | nil =>
        obtain ⟨h', hrun, hfree, hframe⟩ := deleteAlone_cells hl.seg.1
        refine ⟨h', hrun, IsList.nil _, hfree, ?_⟩
        intro a ha
        simp only [List.nil_append, addrs_cons, addrs_nil, List.mem_singleton] at ha
        exact hframe a ha
    | cons s B =>
        simp only [List.nil_append, addrs_cons, List.nodup_cons, List.mem_cons, not_or] at hnd
        obtain ⟨⟨hds, hdB⟩, hsB, hB⟩ := hnd
        obtain ⟨h', hrun, hfree, hs, hframe⟩ := deleteFirst_cells hl.seg.1 hl.seg.2.1 hds
        refine ⟨h', hrun, ?_, hfree, fun a ha => ?_⟩
        · refine hl.splice (A := []) (M := [d, s]) (B := B) [s] ?_ ⟨hs, trivial⟩ (by simp)
            (fun _ => rfl) ?_
          · rintro a (ha | ha)
            · cases ha
            · exact hframe a (fun e => hdB (e ▸ ha)) (fun e => hsB (e ▸ ha))
          · simp [hsB, hB]
        · simp only [List.nil_append, addrs_cons, List.mem_cons, not_or] at ha
          exact hframe a ha.1 ha.2.1
  · simp only [List.concat_eq_append, List.append_assoc, List.cons_append, List.nil_append]
      at hl hnd ⊢
    have he := hl.seg.cell_mid
    cases B with
    | nil =>
        simp [List.nodup_append] at hnd
        obtain ⟨hA, hed, hdis⟩ := hnd
        obtain ⟨h', hrun, he, hfree, hframe⟩ := deleteLast_cells he hl.seg.cell_next hed
        refine ⟨h', hrun, ?_, hfree, fun a ha => ?_⟩
        · refine hl.splice (A := A) (M := [e, d]) (B := []) [e] ?_ ⟨he, trivial⟩ (fun _ => rfl)
            (by simp) ?_
          · rintro a (ha | ha)
            · exact hframe a (hdis a ha).1 (hdis a ha).2
            · cases ha
          · simp [List.nodup_append, hA]
            exact fun a ha => (hdis a ha).1
        · simp only [addrs_append, addrs_cons, addrs_nil, List.mem_append, List.mem_cons,
            List.not_mem_nil, or_false, not_or] at ha
          exact hframe a ha.2.1 ha.2.2
    | cons s B =>
        simp [List.nodup_append] at hnd
        obtain ⟨hA, ⟨⟨hed, hes, heB⟩, ⟨hds, hdB⟩, hsB, hB⟩, hdis⟩ := hnd
        have hs := ((seg_append _ A none).mp hl.seg).2.2.2.1
        obtain ⟨h', hrun, he, hfree, hs, hframe⟩ :=
          deleteMiddle_cells he hl.seg.cell_next hs hed hes hds
        refine ⟨h', hrun, ?_, hfree, fun a ha => ?_⟩
        · refine hl.splice (A := A) (M := [e, d, s]) (B := B) [e, s] ?_ ⟨he, hs, trivial⟩
            (fun _ => rfl) (fun _ => rfl) ?_
          · rintro a (ha | ha)
            · obtain ⟨hae, had, has, -⟩ := hdis a ha
              exact hframe a hae had has
            · exact hframe a (fun e => heB (e ▸ ha)) (fun e => hdB (e ▸ ha))
                (fun e => hsB (e ▸ ha))
          · simp [List.nodup_append, hA, hes, heB, hsB, hB]
            exact fun a ha => ⟨(hdis a ha).1, (hdis a ha).2.2⟩
        · simp only [addrs_append, addrs_cons, List.mem_append, List.mem_cons, not_or] at ha
          exact hframe a ha.2.1 ha.2.2.1 ha.2.2.2.1

/-! ## Linking a timer in -/

/-- The node with another `elapse`. -/
def Node.withElapse (n : Node) (elapse : Int) : Node := (n.1, { n.2 with elapse := elapse })

@[simp] theorem Node.withElapse_fst (n : Node) (elapse : Int) : (n.withElapse elapse).1 = n.1 := rfl

@[simp] theorem Node.withElapse_time (n : Node) (elapse : Int) :
    (n.withElapse elapse).2.time = n.2.time := rfl

@[simp] theorem Node.withElapse_elapse (n : Node) (elapse : Int) :
    (n.withElapse elapse).2.elapse = elapse := rfl

section Cells

variable {h : Heap TimerInfo} {n p e : Addr} {v w u : TimerInfo} {x x' y z : Ptr}

theorem insertAlone_cells (t : Int) (hn : h n = some ⟨v, x, x'⟩) :
    ∃ h', insertAlone h t (some n) = some (h', some n)
      ∧ h' n = some ⟨{ v with elapse := difftime v.time t }, none, none⟩
      ∧ ∀ a, a ≠ n → h' a = h a := by
  simp +contextual [insertAlone, setPre, setNext, setVal, Dll.modify, hn]

theorem insertFirst_cells (t : Int) (hn : h n = some ⟨v, x, x'⟩) (hp : h p = some ⟨w, y, z⟩)
    (hnp : n ≠ p) :
    ∃ h', insertFirst h t (some p) (some n) = some h'
      ∧ h' n = some ⟨{ v with elapse := difftime v.time t }, none, some p⟩
      ∧ h' p = some ⟨{ w with elapse := difftime w.time v.time }, some n, z⟩
      ∧ ∀ a, a ≠ n → a ≠ p → h' a = h a := by
  simp +contextual [insertFirst, setPre, setNext, setVal, Dll.modify, hn, hp, hnp, Ne.symm hnp]

theorem insertBefore_cells (hn : h n = some ⟨v, x, x'⟩) (he : h e = some ⟨u, y, some p⟩)
    (hp : h p = some ⟨w, some e, z⟩) (hnp : n ≠ p) (hne : n ≠ e) (hep : e ≠ p) :
    ∃ h', insertBefore h (some p) (some n) = some h'
      ∧ h' e = some ⟨u, y, some n⟩
      ∧ h' n = some ⟨{ v with elapse := difftime v.time u.time }, some e, some p⟩
      ∧ h' p = some ⟨{ w with elapse := difftime w.time v.time }, some n, z⟩
      ∧ ∀ a, a ≠ e → a ≠ n → a ≠ p → h' a = h a := by
  simp +contextual only [insertBefore, load_some, setNext, setPre, setVal, Dll.modify, hp, hn, he,
    Option.bind_eq_bind, Option.bind_some, Option.map_some, Function.update_of_ne,
    Function.update_self, Function.update_idem, ne_eq, not_false_eq_true, hne, hnp, hep,
    Ne.symm hne, Ne.symm hnp, Ne.symm hep, Option.some.injEq, exists_eq_left', implies_true,
    and_self]

theorem insertLast_cells (hn : h n = some ⟨v, x, x'⟩) (he : h e = some ⟨u, y, z⟩) (hne : n ≠ e) :
    ∃ h', insertLast h (some e) (some n) = some h'
      ∧ h' e = some ⟨u, y, some n⟩
      ∧ h' n = some ⟨{ v with elapse := difftime v.time u.time }, some e, none⟩
      ∧ ∀ a, a ≠ e → a ≠ n → h' a = h a := by
  simp +contextual [insertLast, setPre, setNext, setVal, Dll.modify, hn, he, hne, Ne.symm hne]

end Cells

section Link

variable {h : Heap TimerInfo} {head : Ptr} {new : Node} {x x' : Ptr}

theorem insertAlone_isList (t : Int) (hn : h new.1 = some ⟨new.2, x, x'⟩) :
    ∃ h', insertAlone h t (some new.1) = some (h', some new.1)
      ∧ IsList h' (some new.1) [new.withElapse (difftime new.2.time t)]
      ∧ ∀ a, a ≠ new.1 → h' a = h a := by
  obtain ⟨h', hrun, hnew, hframe⟩ := insertAlone_cells t hn
  exact ⟨h', hrun, ⟨⟨hnew, trivial⟩, rfl, List.nodup_singleton _⟩, hframe⟩

theorem insertFirst_isList (t : Int) {p : Node} {B : List Node} (hl : IsList h head (p :: B))
    (hn : h new.1 = some ⟨new.2, x, x'⟩) (hfresh : new.1 ∉ addrs (p :: B)) :
    ∃ h', insertFirst h t (some p.1) (some new.1) = some h'
      ∧ IsList h' (some new.1) (new.withElapse (difftime new.2.time t)
          :: p.withElapse (difftime p.2.time new.2.time) :: B)
      ∧ ∀ a, a ∉ addrs (p :: B) → a ≠ new.1 → h' a = h a := by
  have hnd := hl.nodup
  simp only [addrs_cons, List.mem_cons, not_or] at hfresh
  simp only [addrs_cons, List.nodup_cons] at hnd
  obtain ⟨h', hrun, hnew, hp, hframe⟩ := insertFirst_cells t hn hl.seg.1 hfresh.1
  refine ⟨h', hrun, ?_, fun a ha hne => ?_⟩
  · refine hl.splice (A := []) (M := [p]) (B := B)
      [new.withElapse (difftime new.2.time t), p.withElapse (difftime p.2.time new.2.time)]
      ?_ ⟨hnew, hp, trivial⟩ (by simp) (fun _ => rfl) ?_
    · rintro a (ha | ha)
      · cases ha
      · exact hframe a (fun e => hfresh.2 (e ▸ ha)) (fun e => hnd.1 (e ▸ ha))
    · simp [hfresh, hnd]
  · simp only [addrs_cons, List.mem_cons, not_or] at ha
    exact hframe a hne ha.1

theorem insertBefore_isList (A : List Node) {e p : Node} {B : List Node}
    (hl : IsList h head (A ++ e :: p :: B)) (hn : h new.1 = some ⟨new.2, x, x'⟩)
    (hfresh : new.1 ∉ addrs (A ++ e :: p :: B)) :
    ∃ h', insertBefore h (some p.1) (some new.1) = some h'
      ∧ IsList h' head (A ++ e :: new.withElapse (difftime new.2.time e.2.time)
          :: p.withElapse (difftime p.2.time new.2.time) :: B)
      ∧ ∀ a, a ∉ addrs (A ++ e :: p :: B) → a ≠ new.1 → h' a = h a := by
  have hnd := hl.nodup
  simp only [addrs_append, addrs_cons, List.mem_append, List.mem_cons, not_or] at hfresh
  simp [List.nodup_append] at hnd
  obtain ⟨hA, ⟨⟨hep, heB⟩, hpB, hB⟩, hdis⟩ := hnd
  obtain ⟨h', hrun, he, hnew, hp, hframe⟩ := insertBefore_cells hn hl.seg.cell_mid
    hl.seg.cell_next hfresh.2.2.1 hfresh.2.1 hep
  refine ⟨h', hrun, ?_, fun a ha hne => ?_⟩
  · refine hl.splice_after (M := [p]) [new.withElapse (difftime new.2.time e.2.time),
      p.withElapse (difftime p.2.time new.2.time)] ?_ ⟨he, hnew, hp, trivial⟩ (fun _ => rfl) ?_
    · rintro a (ha | ha)
      · obtain ⟨hae, hap, -⟩ := hdis a ha
        exact hframe a hae (fun e => hfresh.1 (e ▸ ha)) hap
      · exact hframe a (fun e => heB (e ▸ ha)) (fun e => hfresh.2.2.2 (e ▸ ha))
          (fun e => hpB (e ▸ ha))
    · simp [List.nodup_append, hA, hep, heB, hpB, hB, hfresh, Ne.symm hfresh.2.1]
      intro a ha
      exact ⟨(hdis a ha).1, fun e => hfresh.1 (e ▸ ha), (hdis a ha).2⟩
  · simp only [addrs_append, addrs_cons, List.mem_append, List.mem_cons, not_or] at ha
    exact hframe a ha.2.1 hne ha.2.2.1

theorem insertLast_isList (A : List Node) {e : Node} (hl : IsList h head (A ++ [e]))
    (hn : h new.1 = some ⟨new.2, x, x'⟩) (hfresh : new.1 ∉ addrs (A ++ [e])) :
    ∃ h', insertLast h (some e.1) (some new.1) = some h'
      ∧ IsList h' head (A ++ [e, new.withElapse (difftime new.2.time e.2.time)])
      ∧ ∀ a, a ∉ addrs (A ++ [e]) → a ≠ new.1 → h' a = h a := by
  have hnd := hl.nodup
  simp only [addrs_append, addrs_cons, addrs_nil, List.mem_append, List.mem_singleton,
    not_or] at hfresh
  simp [List.nodup_append] at hnd
  obtain ⟨hA, hdis⟩ := hnd
  obtain ⟨h', hrun, he, hnew, hframe⟩ := insertLast_cells hn hl.seg.cell_mid hfresh.2
  refine ⟨h', hrun, ?_, fun a ha hne => ?_⟩
  · refine hl.splice_after (M := []) (B := [])
      [new.withElapse (difftime new.2.time e.2.time)] ?_ ⟨he, hnew, trivial⟩ (by simp) ?_
    · rintro a (ha | ha)
      · exact hframe a (hdis a ha) (fun e => hfresh.1 (e ▸ ha))
      · cases ha
    · simp [List.nodup_append, hA, Ne.symm hfresh.2]
      intro a ha
      exact ⟨hdis a ha, fun e => hfresh.1 (e ▸ ha)⟩
  · simp only [addrs_append, addrs_cons, addrs_nil, List.mem_append, List.mem_singleton,
      not_or] at ha
    exact hframe a ha.2 hne

end Link

end Monitor
