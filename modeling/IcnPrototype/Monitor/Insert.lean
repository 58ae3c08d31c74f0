import IcnPrototype.Monitor.TimerList

set_option autoImplicit false

/-! # `insert_a_timer` on lists

`insertATimer_isList`: on a list of timers `insert_a_timer` erases the first timer with the
`timer_id` and `flag` of the new one, and places the new one before the first timer that is not
earlier. `elapse` is written on the new timer and on the one behind it, and on no other: not on
the one behind the erased timer.
-/

namespace Monitor

open Dll

/-! ## The operation on the list -/

/-- Put `new` before the first timer that is not earlier. The timer before `L`, or the clock if
there is none, is at `base`. -/
def place (new : Node) : Int → List Node → List Node
  | base, [] => [new.withElapse (difftime new.2.time base)]
  | base, p :: L =>
      if 0 ≤ difftime p.2.time new.2.time then
        new.withElapse (difftime new.2.time base)
          :: p.withElapse (difftime p.2.time new.2.time) :: L
      else p :: place new p.2.time L

/-- Whether a timer in the list has the `timer_id` and `flag` of `new`. -/
def Node.repeats (new n : Node) : Bool := sameTimer n.2 new.2

/-- `insert_a_timer` at the clock `t`. -/
def insertNode (t : Int) (new : Node) (L : List Node) : List Node :=
  if difftime new.2.time t < 0 then L else place new t (L.eraseP new.repeats)

theorem mem_addrs_place {new : Node} {a : Addr} {base : Int} {L : List Node} :
    a ∈ addrs (place new base L) ↔ a = new.1 ∨ a ∈ addrs L := by
  induction L generalizing base with
  | nil => simp [place]
  | cons p L ih =>
      rw [place]
      split
      · simp
      · rw [addrs_cons, List.mem_cons, ih, addrs_cons, List.mem_cons]
        tauto

/-! ## The loop -/

section Loop

variable {head : Ptr} {new : Node}

theorem sameTimer_withElapse (v w : TimerInfo) (elapse : Int) :
    sameTimer v { w with elapse := elapse } = sameTimer v w := rfl

/-- Erasing a timer that is not the first one. -/
theorem deleteRepeteTimer_after (new : Addr) {h : Heap TimerInfo} {A : List Node} {e d : Node}
    {B : List Node} (hl : IsList h head (A ++ e :: d :: B)) :
    ∃ h', deleteRepeteTimer h (some d.1) = some (h', first B none)
      ∧ IsList h' head (A ++ e :: B)
      ∧ (∀ a, a ∉ addrs (A ++ e :: d :: B) → h' a = h a)
      ∧ Rewrites new h h' (A ++ e :: d :: B) (A ++ e :: B) := by
  obtain ⟨h', hdel, hl', hfree, hframe⟩ :=
    deleteRepeteTimer_isList (A ++ [e]) (d := d) (B := B) (by simpa using hl)
  simp only [List.append_assoc, List.cons_append, List.nil_append] at hl' hframe
  refine ⟨h', hdel, ⟨hl'.seg, ?_, hl'.nodup⟩, hframe, fun a ha _ => hframe a ha, fun a ha => ?_⟩
  · rw [hl.head_eq, first_append, first_append]
    rfl
  · simp only [addrs_append, addrs_cons, List.mem_append, List.mem_cons] at ha ⊢
    by_cases had : a = d.1
    · exact Or.inr (had ▸ hfree)
    · exact Or.inl (by tauto)

section Turn

variable {n d : Addr} {h h₁ : Heap TimerInfo} {c cd cd₁ : Cell TimerInfo} {pEnd : Ptr}
  {insertFlag repeteFlag : Bool}

/-- With both flags set the loop is over. -/
theorem insertLoop_both (hc : h n = some c) (fuel : Nat) (p pEnd : Ptr) :
    insertLoop (some n) (fuel + 1) h p pEnd true true = some h := by
  cases p <;> simp [insertLoop, hc]

/-- A turn that goes on to the next timer. -/
theorem insertLoop_advance (hc : h n = some c) (hd : h d = some cd) (fuel : Nat)
    (hopen : (insertFlag && repeteFlag) = false)
    (hrep : repeteFlag = false → sameTimer cd.val c.val = false)
    (hbefore : insertFlag = false → ¬ 0 ≤ difftime cd.val.time c.val.time) :
    insertLoop (some n) (fuel + 1) h (some d) pEnd insertFlag repeteFlag
      = insertLoop (some n) fuel h cd.next (some d) insertFlag repeteFlag := by
  have hkeep : (!repeteFlag && sameTimer cd.val c.val) = false := by simpa using hrep
  have hbehind : (!insertFlag && decide (0 ≤ difftime cd.val.time c.val.time)) = false := by
    simpa using hbefore
  rw [insertLoop]
  simp only [load_some, hc, hd, hopen, hkeep, hbehind, Option.bind_eq_bind, Option.bind_some,
    Bool.or_false, Bool.false_eq_true, if_false]

/-- A turn that links the new timer in before `d`. -/
theorem insertLoop_before (hc : h n = some c) (hd : h d = some cd) (fuel : Nat)
    (hrep : repeteFlag = false → sameTimer cd.val c.val = false)
    (hbefore : 0 ≤ difftime cd.val.time c.val.time)
    (hrun : insertBefore h (some d) (some n) = some h₁) (hd₁ : h₁ d = some cd₁) :
    insertLoop (some n) (fuel + 1) h (some d) pEnd false repeteFlag
      = insertLoop (some n) fuel h₁ cd₁.next (some d) true repeteFlag := by
  have hkeep : (!repeteFlag && sameTimer cd.val c.val) = false := by simpa using hrep
  have hplace : (!false && decide (0 ≤ difftime cd.val.time c.val.time)) = true :=
    decide_eq_true hbefore
  rw [insertLoop]
  simp only [load_some, hc, hd, hd₁, hrun, hkeep, hplace, Option.bind_eq_bind, Option.bind_some,
    Bool.false_and, Bool.false_or, Bool.or_false, Bool.false_eq_true, if_false, if_true]

/-- A turn that erases `d` goes on as the turn of the next timer with `repete_flag` set. -/
theorem insertLoop_erased {q : Ptr} {c₁ : Cell TimerInfo} {fuel : Nat} (hc : h n = some c)
    (hd : h d = some cd) (hrep : sameTimer cd.val c.val = true)
    (hdel : deleteRepeteTimer h (some d) = some (h₁, q)) (hc₁ : h₁ n = some c₁)
    (hval : c₁.val = c.val) (hq : ∀ s, q = some s → 0 < fuel ∧ h₁ s ≠ none) :
    insertLoop (some n) (fuel + 1) h (some d) pEnd insertFlag false
      = insertLoop (some n) (fuel + 1) h₁ q pEnd insertFlag true := by
  cases q with
  | none => cases insertFlag <;> simp [insertLoop, hc, hd, hrep, hdel, hc₁]
  | some s =>
      obtain ⟨hfuel, hs⟩ := hq s rfl
      obtain ⟨cs, hs⟩ := Option.ne_none_iff_exists'.mp hs
      cases insertFlag with
      | false => simp [insertLoop, hc, hd, hrep, hdel, hc₁, hs, hval]
      | true =>
          -- the new timer is in, so only the test of both flags at the next turn is left
          obtain ⟨k, rfl⟩ : ∃ k, fuel = k + 1 := ⟨fuel - 1, by omega⟩
          rw [insertLoop_both hc₁, insertLoop]
          simp [hc, hd, hrep, hdel, hs, insertLoop_both hc₁]

end Turn

theorem first_allocated {h : Heap TimerInfo} {A B : List Node} {e : Node} {fuel : Nat}
    (hl : IsList h head (A ++ e :: B)) (hfuel : B.length + 1 < fuel + 1) :
    ∀ s, first B none = some s → 0 < fuel ∧ h s ≠ none := by
  intro s hs
  cases B with
  | nil => cases hs
  | cons b B =>
      cases hs
      refine ⟨by omega, ?_⟩
      rw [hl.seg.cell_next]
      exact Option.some_ne_none _

theorem mem_third (A : List Node) (e m : Node) (B : List Node) : m ∈ A ++ e :: m :: B := by
  simp

/-- The cell of the new timer once it is in the list. -/
theorem new_cell (new : Node) {h : Heap TimerInfo} {L : List Node} (hl : IsList h head L)
    {elapse : Int} (hin : new.withElapse elapse ∈ L) :
    ∃ p q, h new.1 = some ⟨{ new.2 with elapse := elapse }, p, q⟩ :=
  hl.seg.cell hin

/-- The loop after the new timer is in and before a timer was erased. -/
theorem insertLoop_erase (new : Node) (elapse : Int) {h : Heap TimerInfo} :
    ∀ (B A : List Node) (e : Node) (fuel : Nat), B.length < fuel → IsList h head (A ++ e :: B) →
      new.withElapse elapse ∈ A ++ [e] →
      ∃ h', insertLoop (some new.1) fuel h (first B none) (some e.1) true false = some h'
        ∧ IsList h' head (A ++ e :: B.eraseP new.repeats)
        ∧ Rewrites new.1 h h' (A ++ e :: B) (A ++ e :: B.eraseP new.repeats)
  | [], A, e, fuel + 1, _, hl, hin => by
      obtain ⟨p, q, hc⟩ := new_cell new hl hin
      exact ⟨h, by simp [insertLoop, hc], hl, Rewrites.refl _ _ _⟩
  | d :: B, A, e, fuel + 1, hfuel, hl, hin => by
      -- the new timer is before `d`, so it stays whether `d` does or not
      have hin' : ∀ C, new.withElapse elapse ∈ A ++ e :: C := by
        intro C
        simp only [List.mem_append, List.mem_cons] at hin ⊢
        tauto
      have hd := hl.seg.cell_next
      obtain ⟨p, q, hc⟩ := new_cell new hl (hin' _)
      have hsame := sameTimer_withElapse d.2 new.2 elapse
      rw [List.length_cons] at hfuel
      by_cases hrep : sameTimer d.2 new.2
      · obtain ⟨h₁, hdel, hl₁, -, hrw⟩ := deleteRepeteTimer_after new.1 hl
        obtain ⟨p₁, q₁, hc₁⟩ := new_cell new hl₁ (hin' _)
        rw [List.eraseP_cons_of_pos (p := new.repeats) hrep]
        refine ⟨h₁, ?_, hl₁, hrw⟩
        rw [first_cons,
          insertLoop_erased hc hd (hsame.trans hrep) hdel hc₁ rfl (first_allocated hl₁ hfuel)]
        exact insertLoop_both hc₁ _ _ _
      · rw [Bool.not_eq_true] at hrep
        rw [hrep] at hsame
        have hstep : insertLoop (some new.1) (fuel + 1) h (some d.1) (some e.1) true false
            = insertLoop (some new.1) fuel h (first B none) (some d.1) true false :=
          insertLoop_advance hc hd fuel rfl (fun _ => hsame) (by simp)
        have := insertLoop_erase new elapse B (A ++ [e]) d fuel (by omega) (by simpa using hl)
          (List.mem_append_left _ hin)
        rw [first_cons, hstep,
          List.eraseP_cons_of_neg (p := new.repeats) (by simp [Node.repeats, hrep])]
        simpa using this

theorem Rewrites.of_inserted {h h' : Heap TimerInfo} {L L' : List Node} {n : Addr}
    (hframe : ∀ a, a ∉ addrs L → a ≠ n → h' a = h a) (hsub : ∀ a ∈ addrs L, a ∈ addrs L') :
    Rewrites n h h' L L' :=
  ⟨hframe, fun a ha => Or.inl (hsub a ha)⟩

/-- The loop after a timer was erased and before the new one is in. -/
theorem insertLoop_place {h : Heap TimerInfo} {x x' : Ptr} (hn : h new.1 = some ⟨new.2, x, x'⟩) :
    ∀ (B A : List Node) (e : Node) (fuel : Nat), B.length < fuel → IsList h head (A ++ e :: B) →
      new.1 ∉ addrs (A ++ e :: B) →
      ∃ h', insertLoop (some new.1) fuel h (first B none) (some e.1) false true = some h'
        ∧ IsList h' head (A ++ e :: place new e.2.time B)
        ∧ ∀ a, a ∉ addrs (A ++ e :: B) → a ≠ new.1 → h' a = h a
  | [], A, e, fuel + 1, _, hl, hfresh => by
      obtain ⟨h', hrun, hl', hframe⟩ := insertLast_isList A hl hn hfresh
      exact ⟨h', by simp [insertLoop, hn, hrun], hl', hframe⟩
  | d :: B, A, e, fuel + 1, hfuel, hl, hfresh => by
      have hd := hl.seg.cell_next
      rw [List.length_cons] at hfuel
      rw [place]
      split
      · rename_i hbefore
        obtain ⟨h', hrun, hl', hframe⟩ := insertBefore_isList A hl hn hfresh
        have hd' : h' d.1 = some ⟨(d.withElapse (difftime d.2.time new.2.time)).2, some new.1,
            first B none⟩ := ((seg_append _ A none).mp hl'.seg).2.2.2.1
        obtain ⟨p, q, hc⟩ := new_cell new hl' (mem_third A e _ _)
        obtain ⟨fuel, rfl⟩ : ∃ k, fuel = k + 1 := ⟨fuel - 1, by omega⟩
        refine ⟨h', ?_, hl', hframe⟩
        calc insertLoop (some new.1) (fuel + 1 + 1) h (some d.1) (some e.1) false true
            = insertLoop (some new.1) (fuel + 1) h' (first B none) (some d.1) true true :=
              insertLoop_before hn hd (fuel + 1) (by simp) hbefore hrun hd'
          _ = some h' := insertLoop_both hc fuel _ _
      · rename_i hbefore
        have hstep : insertLoop (some new.1) (fuel + 1) h (some d.1) (some e.1) false true
            = insertLoop (some new.1) fuel h (first B none) (some d.1) false true :=
          insertLoop_advance hn hd fuel rfl (by simp) (fun _ => hbefore)
        have := insertLoop_place hn B (A ++ [e]) d fuel (by omega) (by simpa using hl)
          (by simpa using hfresh)
        rw [first_cons, hstep]
        simpa using this

/-- The loop from the start, when the new timer does not go first. -/
theorem insertLoop_isList {h : Heap TimerInfo} {x x' : Ptr} (hn : h new.1 = some ⟨new.2, x, x'⟩) :
    ∀ (B A : List Node) (e : Node) (fuel : Nat), B.length < fuel → IsList h head (A ++ e :: B) →
      new.1 ∉ addrs (A ++ e :: B) →
      ∃ h', insertLoop (some new.1) fuel h (first B none) (some e.1) false false = some h'
        ∧ IsList h' head (A ++ e :: place new e.2.time (B.eraseP new.repeats))
        ∧ Rewrites new.1 h h' (A ++ e :: B)
          (A ++ e :: place new e.2.time (B.eraseP new.repeats))
  | [], A, e, fuel + 1, _, hl, hfresh => by
      obtain ⟨h', hrun, hl', hframe⟩ := insertLast_isList A hl hn hfresh
      refine ⟨h', by simp [insertLoop, hn, hrun], hl', .of_inserted hframe fun a ha => ?_⟩
      simp only [addrs_append, List.mem_append, addrs_cons, addrs_nil, List.mem_cons] at ha ⊢
      tauto
  | d :: B, A, e, fuel + 1, hfuel, hl, hfresh => by
      -- the turn at `d` erases it, links the new timer in before it, or does neither
      have hd := hl.seg.cell_next
      rw [List.length_cons] at hfuel
      by_cases hrep : sameTimer d.2 new.2
      · obtain ⟨h₁, hdel, hl₁, hframe₁, hrw₁⟩ := deleteRepeteTimer_after new.1 hl
        have hn₁ : h₁ new.1 = some ⟨new.2, x, x'⟩ := (hframe₁ _ hfresh).trans hn
        have hfresh₁ : new.1 ∉ addrs (A ++ e :: B) := by
          simp only [addrs_append, addrs_cons, List.mem_append, List.mem_cons] at hfresh ⊢
          tauto
        rw [List.eraseP_cons_of_pos (p := new.repeats) hrep]
        -- what is left is the loop on the rest, with `repete_flag` set
        obtain ⟨h', hrun, hl', hframe⟩ :=
          insertLoop_place hn₁ B A e (fuel + 1) (by omega) hl₁ hfresh₁
        refine ⟨h', ?_, hl', hrw₁.trans (.of_inserted hframe fun a ha => ?_) hl₁ (by simp [hn₁]) ?_⟩
        · rw [first_cons, insertLoop_erased hn hd hrep hdel hn₁ rfl (first_allocated hl₁ hfuel)]
          exact hrun
        · simp only [addrs_append, List.mem_append, addrs_cons, List.mem_cons,
            mem_addrs_place] at ha ⊢
          tauto
        · intro a ha
          simp only [addrs_append, addrs_cons, List.mem_append, List.mem_cons] at ha ⊢
          tauto
      · rw [Bool.not_eq_true] at hrep
        rw [List.eraseP_cons_of_neg (p := new.repeats) (by simp [Node.repeats, hrep]), place]
        split
        · rename_i hbefore
          obtain ⟨h₁, hrun₁, hl₁, hframe₁⟩ := insertBefore_isList A hl hn hfresh
          have hd₁ : h₁ d.1 = some ⟨(d.withElapse (difftime d.2.time new.2.time)).2, some new.1,
              first B none⟩ := ((seg_append _ A none).mp hl₁.seg).2.2.2.1
          obtain ⟨p, q, hc⟩ := new_cell new hl₁ (mem_third A e _ _)
          -- what is left only looks for a timer to erase
          obtain ⟨h', hrun, hl', hrw⟩ := insertLoop_erase new
            (difftime new.2.time e.2.time) B
            (A ++ [e, new.withElapse (difftime new.2.time e.2.time)])
            (d.withElapse (difftime d.2.time new.2.time)) fuel (by omega) (by simpa using hl₁)
            (by simp)
          simp only [List.append_assoc, List.cons_append, List.nil_append,
            Node.withElapse_fst] at hrun hl' hrw
          refine ⟨h', ?_, hl', Rewrites.trans (.of_inserted hframe₁ fun a ha => ?_) hrw hl₁
            (by simp [hc]) ?_⟩
          · rw [first_cons, insertLoop_before hn hd fuel (fun _ => hrep) hbefore hrun₁ hd₁]
            exact hrun
          · simp only [addrs_append, List.mem_append, addrs_cons, List.mem_cons,
              Node.withElapse_fst] at ha ⊢
            tauto
          · intro a ha
            simp only [addrs_append, List.mem_append, addrs_cons, List.mem_cons,
              Node.withElapse_fst] at ha ⊢
            tauto
        · rename_i hbefore
          have hstep : insertLoop (some new.1) (fuel + 1) h (some d.1) (some e.1) false false
              = insertLoop (some new.1) fuel h (first B none) (some d.1) false false :=
            insertLoop_advance hn hd fuel rfl (fun _ => hrep) (fun _ => hbefore)
          have := insertLoop_isList hn B (A ++ [e]) d fuel (by omega) (by simpa using hl)
            (by simpa using hfresh)
          rw [first_cons, hstep]
          simpa using this

end Loop

/-! ## `insert_a_timer` -/

section Whole

variable {h : Heap TimerInfo} {head : Ptr} {new : Node} {x x' : Ptr}

/-- From `p = head` on, with and without a timer erased before. -/
theorem insertFrom_isList (t : Int) (hn : h new.1 = some ⟨new.2, x, x'⟩) {e : Node} {B : List Node}
    (fuel : Nat) (repeteFlag : Bool) (hfuel : B.length < fuel) (hl : IsList h head (e :: B))
    (hfresh : new.1 ∉ addrs (e :: B)) :
    ∃ h' head', insertFrom fuel h t head (some new.1) repeteFlag = some (h', head')
      ∧ IsList h' head' (place new t (e :: if repeteFlag then B else B.eraseP new.repeats))
      ∧ Rewrites new.1 h h' (e :: B)
        (place new t (e :: if repeteFlag then B else B.eraseP new.repeats)) := by
  obtain rfl : head = some e.1 := hl.head_eq
  have he : h e.1 = some ⟨e.2, none, first B none⟩ := hl.seg.1
  rw [place]
  split
  · -- the new timer is the first one, and what is left only looks for a timer to erase
    rename_i hbefore
    obtain ⟨h₁, hrun₁, hl₁, hframe₁⟩ := insertFirst_isList t hl hn hfresh
    have he₁ : h₁ e.1 = some ⟨(e.withElapse (difftime e.2.time new.2.time)).2, some new.1,
        first B none⟩ := hl₁.seg.2.1
    have hrw₁ : Rewrites new.1 h h₁ (e :: B) (new.withElapse (difftime new.2.time t)
        :: e.withElapse (difftime e.2.time new.2.time) :: B) := by
      refine .of_inserted hframe₁ fun a ha => ?_
      exact List.mem_cons_of_mem _ ha
    obtain ⟨p, q, hc⟩ := new_cell new hl₁ List.mem_cons_self
    cases repeteFlag with
    | true =>
        obtain ⟨fuel, rfl⟩ : ∃ k, fuel = k + 1 := ⟨fuel - 1, by omega⟩
        have hlast := insertLoop_both hc fuel (first B none) (some e.1)
        exact ⟨h₁, some new.1, by simp [insertFrom, he, hn, hbefore, hrun₁, he₁, hlast], hl₁, hrw₁⟩
    | false =>
        obtain ⟨h', hrun, hl', hrw⟩ := insertLoop_erase new (difftime new.2.time t) B
          [new.withElapse (difftime new.2.time t)] (e.withElapse (difftime e.2.time new.2.time))
          fuel hfuel hl₁ (by simp)
        simp only [Node.withElapse_fst] at hrun
        refine ⟨h', some new.1, by simp [insertFrom, he, hn, hbefore, hrun₁, he₁, hrun], hl',
          hrw₁.trans hrw hl₁ (by simp [hc]) fun a ha => ?_⟩
        simp only [addrs_cons, Node.withElapse_fst, List.mem_cons] at ha ⊢
        tauto
  · rename_i hbefore
    cases repeteFlag with
    | true =>
        obtain ⟨h', hrun, hl', hframe⟩ := insertLoop_place hn B [] e fuel hfuel hl hfresh
        refine ⟨h', some e.1, by simp [insertFrom, he, hn, hbefore, hrun], hl',
          .of_inserted hframe fun a ha => ?_⟩
        simp only [if_true, addrs_cons, List.mem_cons, mem_addrs_place] at ha ⊢
        tauto
    | false =>
        obtain ⟨h', hrun, hl', hrw⟩ := insertLoop_isList hn B [] e fuel hfuel hl hfresh
        exact ⟨h', some e.1, by simp [insertFrom, he, hn, hbefore, hrun], hl', hrw⟩

/-- **`insert_a_timer` on lists.** -/
theorem insertATimer_isList (t : Int) {L : List Node} (fuel : Nat) (hfuel : L.length < fuel)
    (hl : IsList h head L) (hn : h new.1 = some ⟨new.2, x, x'⟩) (hfresh : new.1 ∉ addrs L) :
    ∃ h' head', insertATimer fuel h t head (some new.1) = some (h', head')
      ∧ IsList h' head' (insertNode t new L) ∧ Rewrites new.1 h h' L (insertNode t new L) := by
  rw [insertNode]
  split
  · -- a time that has passed: the function returns and the list stays
    rename_i hpast
    exact ⟨h, head, by simp [insertATimer, hn, hpast], hl, .refl _ _ _⟩
  rename_i hpast
  cases L with
  | nil =>
      obtain rfl : head = none := hl.head_eq
      obtain ⟨h', hrun, hl', hframe⟩ := insertAlone_isList t hn
      refine ⟨h', some new.1, by simp [insertATimer, hn, hpast, hrun], hl', ?_⟩
      exact .of_inserted (fun a _ hne => hframe a hne) (by simp)
  | cons e B =>
      obtain rfl : head = some e.1 := hl.head_eq
      have he : h e.1 = some ⟨e.2, none, first B none⟩ := hl.seg.1
      rw [List.length_cons] at hfuel
      by_cases hrep : sameTimer e.2 new.2
      · -- the first timer goes
        rw [List.eraseP_cons_of_pos (p := new.repeats) hrep]
        obtain ⟨h₁, hdel, hl₁, hfree, hframe₁⟩ := deleteRepeteTimer_isList [] hl
        have hn₁ : h₁ new.1 = some ⟨new.2, x, x'⟩ := (hframe₁ _ hfresh).trans hn
        have hrw₁ : Rewrites new.1 h h₁ (e :: B) B := by
          refine ⟨fun a ha _ => hframe₁ a ha, ?_⟩
          intro a ha
          rcases List.mem_cons.mp ha with rfl | ha
          · exact Or.inr hfree
          · exact Or.inl ha
        have hsub : ∀ a ∈ addrs B, a ∈ addrs (e :: B) ∨ a = new.1 :=
          fun a ha => Or.inl (List.mem_cons_of_mem _ ha)
        cases B with
        | nil =>
            obtain ⟨h', hrun, hl', hframe⟩ := insertAlone_isList t hn₁
            refine ⟨h', some new.1, ?_, hl', hrw₁.trans ?_ hl₁ (by simp [hn₁]) hsub⟩
            · simpa [insertATimer, hn, hpast, he, hrep, hdel] using hrun
            · exact .of_inserted (fun a _ hne => hframe a hne) (by simp)
        | cons s B =>
            obtain ⟨h', head', hrun, hl', hrw⟩ := insertFrom_isList t hn₁ fuel true
              (by rw [List.length_cons] at hfuel; omega) hl₁
              (fun hm => hfresh (List.mem_cons_of_mem _ hm))
            refine ⟨h', head', ?_, hl', hrw₁.trans hrw hl₁ (by simp [hn₁]) hsub⟩
            simpa [insertATimer, hn, hpast, he, hrep, hdel] using hrun
      · obtain ⟨h', head', hrun, hl', hrw⟩ :=
          insertFrom_isList t hn fuel false (by omega) hl hfresh
        rw [List.eraseP_cons_of_neg (p := new.repeats) hrep]
        refine ⟨h', head', ?_, hl', hrw⟩
        simpa [insertATimer, hn, hpast, he, hrep] using hrun

end Whole

/-! ## `set_child_timer` -/

/-- The timers `L` are what `timerInfo` points to. -/
structure Holds (m : Memory) (timerInfo : Ptr) (L : List Node) : Prop where
  list : IsList m.heap timerInfo L
  lt : ∀ a ∈ addrs L, a < m.brk

/-- A call of `insert_a_timer` with a newly allocated timer. -/
def insertTimer (m : Memory) (now : Int) (timerInfo : Ptr) (v : TimerInfo) :
    Option (Memory × Ptr) := do
  let (m, pnew) := malloc m
  let h ← setVal m.heap pnew fun _ => v
  let (h, timerInfo) ← insertATimer m.brk h now timerInfo pnew
  some (⟨h, m.brk⟩, timerInfo)

/-- The timer that `set_child_timer` makes of a message. -/
def newTimer {Tm : Type} (site : Site Tm) (timerMessage : TimerMessage Tm) : TimerInfo where
  timerId := setTimerId timerMessage.ip site.portInfo 0
  flag := timerMessage.flag
  elapse := 0
  time := site.mktime timerMessage.t
  timerProc := if timerMessage.flag ≠ 0 then .timerProcEnd else .timerProcLaunch

/-- `set_child_timer` inserts a timer, unless the message names no port; the cell it has
allocated is lost then. -/
theorem setChildTimer_eq {Tm : Type} (site : Site Tm) (m : Memory) (now : Int) (timerInfo : Ptr)
    (r : TimerMessage Tm) :
    setChildTimer site m now timerInfo r
      = if (newTimer site r).timerId = -1 then
          some (⟨Function.update m.heap m.brk (some ⟨{ newTimer site r with
            time := 0, timerProc := .timerProcLaunch }, none, none⟩), m.brk + 1⟩, timerInfo)
        else insertTimer m now timerInfo (newTimer site r) := by
  simp [setChildTimer, insertTimer, malloc, newTimer, setVal, Dll.modify]

/-- A message whose address is not found: only the new cell is written. -/
theorem setChildTimer_unknown {Tm : Type} {site : Site Tm} {r : TimerMessage Tm}
    (hid : (newTimer site r).timerId = -1) {m : Memory} {timerInfo : Ptr} {L : List Node}
    (hl : Holds m timerInfo L) (now : Int) :
    ∃ m', setChildTimer site m now timerInfo r = some (m', timerInfo) ∧ m'.brk = m.brk + 1
      ∧ Holds m' timerInfo L ∧ ∀ a < m.brk, m'.heap a = m.heap a := by
  have hbrk : m.brk ∉ addrs L := fun hm => Nat.lt_irrefl _ (hl.lt _ hm)
  refine ⟨_, by rw [setChildTimer_eq, if_pos hid], rfl, ?_, fun a ha => ?_⟩
  · exact ⟨hl.list.update hbrk _, fun a ha => Nat.lt_succ_of_lt (hl.lt a ha)⟩
  · exact Function.update_of_ne (Nat.ne_of_lt ha) _ _

theorem addrs_insertNode_lt {t : Int} {n : Addr} {v : TimerInfo} {L : List Node}
    (hlt : ∀ a ∈ addrs L, a < n) : ∀ a ∈ addrs (insertNode t (n, v) L), a < n + 1 := by
  intro a ha
  rw [insertNode] at ha
  split at ha
  · exact Nat.lt_succ_of_lt (hlt a ha)
  · rcases mem_addrs_place.mp ha with rfl | ha
    · exact Nat.lt_succ_self _
    · refine Nat.lt_succ_of_lt (hlt a ?_)
      exact (List.eraseP_sublist.map Prod.fst).subset ha

/-- **`insert_a_timer` with a new timer.** -/
theorem insertTimer_holds {m : Memory} {timerInfo : Ptr} {L : List Node}
    (hl : Holds m timerInfo L) (now : Int) (v : TimerInfo) :
    ∃ m' head', insertTimer m now timerInfo v = some (m', head') ∧ m'.brk = m.brk + 1
      ∧ Holds m' head' (insertNode now (m.brk, v) L)
      ∧ Rewrites m.brk m.heap m'.heap L (insertNode now (m.brk, v) L) := by
  have hfresh : m.brk ∉ addrs L := fun hm => Nat.lt_irrefl _ (hl.lt _ hm)
  let new : Node := (m.brk, v)
  have hn : Function.update m.heap m.brk (some ⟨v, none, none⟩) new.1
      = some ⟨new.2, none, none⟩ := Function.update_self ..
  have hfuel : L.length < m.brk + 1 :=
    Nat.lt_succ_of_le (length_le_of_nodup hl.list.nodup hl.lt)
  obtain ⟨h', head', hrun, hl', hrw⟩ :=
    insertATimer_isList now (m.brk + 1) hfuel (hl.list.update hfresh _) hn hfresh
  refine ⟨⟨h', m.brk + 1⟩, head', ?_, rfl, ⟨hl', addrs_insertNode_lt hl.lt⟩, ?_⟩
  · simp only [new] at hrun
    simp [insertTimer, malloc, setVal, Dll.modify, hrun]
  · refine ⟨fun a ha hne => ?_, hrw.freed⟩
    exact (hrw.frame a ha hne).trans (Function.update_of_ne hne _ _)

end Monitor
