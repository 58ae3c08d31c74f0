import IcnPrototype.Monitor.Order

set_option autoImplicit false

/-! # Which timers were accepted, replaced and called

The ledger says of a run what a user of the timers may count on: which timers were accepted,
which of them a later one has replaced, and which calls the ticks have made. It is written from
the arguments of the calls alone and never reads the list. `Tracks` connects it with the list.
-/

namespace Monitor

open Dll

/-- The history of the timers. -/
structure Ledger where
  accepted : List Entry
  /-- The addresses of the timers a later one has replaced. -/
  replaced : List Addr
  /-- The calls of a `timer_proc`, each with the clock of its tick. -/
  fired : List (Int × Call)

/-- The call of the `timer_proc` of an accepted timer. -/
def Entry.call (x : Entry) : Call where
  timer := some x.addr
  action :=
    match x.timerProc with
    | .timerProcLaunch => .portChildProc x.timerId
    | .timerProcEnd => .portKillProc x.timerId

@[simp] theorem Node.entry_call (n : Node) : n.entry.call = n.call := rfl

namespace Ledger

/-- The calls made on the timer at `a`. -/
def callsOf (g : Ledger) (a : Addr) : List (Int × Call) :=
  g.fired.filter fun f => f.2.timer = some a

/-- `x` replaces `y`: it has the same `timer_id` and `flag`, and `y` was not called yet. -/
def replaces (g : Ledger) (x y : Entry) : Bool :=
  y.timerId == x.timerId && y.flag == x.flag && (g.callsOf y.addr).isEmpty

/-- A timer is handed to `insert_a_timer` at the clock `t`. It is accepted if its time is not
past. -/
def accept (g : Ledger) (t : Int) (x : Entry) : Ledger :=
  if difftime x.time t < 0 then g else
    { g with
      accepted := x :: g.accepted
      replaced := (g.accepted.filter (g.replaces x)).map Entry.addr ++ g.replaced }

/-- A tick at the clock `t` makes calls. -/
def fire (g : Ledger) (t : Int) (calls : List Call) : Ledger :=
  { g with fired := g.fired ++ calls.map fun c => (t, c) }

theorem callsOf_fire (g : Ledger) (t : Int) (calls : List Call) (a : Addr) :
    (g.fire t calls).callsOf a
      = g.callsOf a ++ (calls.filter fun c => c.timer = some a).map fun c => (t, c) := by
  rw [callsOf, fire, List.filter_append, List.filter_map]
  rfl

@[simp] theorem callsOf_accept (g : Ledger) (t : Int) (x : Entry) (a : Addr) :
    (g.accept t x).callsOf a = g.callsOf a := by
  rw [accept]
  split <;> rfl

end Ledger

/-- The list holds every accepted timer that was neither replaced nor called, and it holds
accepted timers only, none of which was called. -/
structure Tracks (brk : Nat) (L : List Node) (g : Ledger) : Prop where
  sub : ∀ x ∈ entries L, x ∈ g.accepted
  inj : ∀ x ∈ g.accepted, ∀ y ∈ g.accepted, x.addr = y.addr → x = y
  lt : ∀ x ∈ g.accepted, x.addr < brk
  called : ∀ f ∈ g.fired, ∃ x ∈ g.accepted, f.2 = x.call
  once : (g.fired.map fun f => f.2.timer).Nodup
  unfired : ∀ x ∈ entries L, g.callsOf x.addr = []
  kept : ∀ x ∈ g.accepted, x.addr ∉ g.replaced → g.callsOf x.addr = [] → x ∈ entries L

namespace Tracks

variable {brk : Nat} {L : List Node} {g : Ledger}

theorem start (brk : Nat) : Tracks brk [] ⟨[], [], []⟩ := by
  constructor <;> simp [entries]

theorem mono (h : Tracks brk L g) : Tracks (brk + 1) L g :=
  { h with lt := fun x hx => Nat.lt_succ_of_lt (h.lt x hx) }

/-- The `elapse` of the timers is of no account. -/
theorem congr {L' : List Node} (h : Tracks brk L g) (heq : entries L' = entries L) :
    Tracks brk L' g :=
  ⟨heq ▸ h.sub, h.inj, h.lt, h.called, h.once, heq ▸ h.unfired, heq ▸ h.kept⟩

/-- What was not accepted was not called. -/
theorem callsOf_fresh (h : Tracks brk L g) : g.callsOf brk = [] := by
  rw [Ledger.callsOf, List.filter_eq_nil_iff]
  intro f hf hcall
  obtain ⟨x, hx, heq⟩ := h.called f hf
  rw [heq] at hcall
  have hbrk : x.addr = brk := by simpa [Entry.call] using hcall
  exact absurd (h.lt x hx) (by rw [hbrk]; exact lt_irrefl _)

/-- A timer accepted now was not called. -/
theorem mem_accept (h : Tracks brk L g) {t : Int} {v : TimerInfo} {x : Entry}
    (hx : x ∈ (g.accept t (Node.entry (brk, v))).accepted) :
    x ∈ g.accepted ∨ g.callsOf x.addr = [] := by
  rw [Ledger.accept] at hx
  split at hx
  · exact Or.inl hx
  · rcases List.mem_cons.mp hx with rfl | hx
    · exact Or.inr h.callsOf_fresh
    · exact Or.inl hx

theorem mem_entries_erase {new : Node} {x : Entry} (hx : x ∈ entries L)
    (hno : x.timerId = new.2.timerId → x.flag ≠ new.2.flag) :
    x ∈ entries (L.eraseP new.repeats) := by
  obtain ⟨n, hn, rfl⟩ := List.mem_map.mp hx
  refine mem_entries ((List.mem_eraseP_of_neg ?_).mpr hn)
  intro hrep
  simp only [Node.repeats, sameTimer, Bool.and_eq_true, beq_iff_eq] at hrep
  exact hno hrep.1 hrep.2

/-- Handing a new timer to `insert_a_timer`. -/
theorem insert (h : Tracks brk L g) (t : Int) (v : TimerInfo) :
    Tracks (brk + 1) (insertNode t (brk, v) L) (g.accept t (Node.entry (brk, v))) := by
  have hfresh := h.callsOf_fresh
  rw [insertNode, Ledger.accept]
  by_cases hpast : difftime v.time t < 0
  · rw [if_pos hpast, if_pos (show difftime (Node.entry (brk, v)).time t < 0 from hpast)]
    exact h.mono
  rw [if_neg hpast, if_neg (show ¬ difftime (Node.entry (brk, v)).time t < 0 from hpast)]
  have hsub : ∀ x ∈ entries (L.eraseP (Node.repeats (brk, v))), x ∈ entries L :=
    fun x hx => (List.eraseP_sublist.map Node.entry).subset hx
  refine {
    sub := ?sub, inj := ?inj, lt := ?lt, called := ?called, once := h.once
    unfired := ?unfired, kept := ?kept }
  case sub =>
    intro x hx
    rcases mem_entries_place.mp hx with rfl | hx
    · exact List.mem_cons_self
    · exact List.mem_cons_of_mem _ (h.sub x (hsub x hx))
  case inj =>
    -- the address of the new timer is that of no accepted one
    intro x hx y hy heq
    rcases List.mem_cons.mp hx with rfl | hx <;> rcases List.mem_cons.mp hy with rfl | hy
    · rfl
    · exact absurd (h.lt y hy) (by rw [← heq]; exact lt_irrefl _)
    · exact absurd (h.lt x hx) (by rw [heq]; exact lt_irrefl _)
    · exact h.inj x hx y hy heq
  case lt =>
    intro x hx
    rcases List.mem_cons.mp hx with rfl | hx
    · exact Nat.lt_succ_self brk
    · exact Nat.lt_succ_of_lt (h.lt x hx)
  case called =>
    intro f hf
    obtain ⟨x, hx, heq⟩ := h.called f hf
    exact ⟨x, List.mem_cons_of_mem _ hx, heq⟩
  case unfired =>
    intro x hx
    rcases mem_entries_place.mp hx with rfl | hx
    · exact hfresh
    · exact h.unfired x (hsub x hx)
  case kept =>
    -- a timer that leaves the list has the `timer_id` and `flag` of the new one, so it counts as
    -- replaced
    intro x hx hrep hcall
    rw [mem_entries_place]
    rcases List.mem_cons.mp hx with rfl | hx
    · exact Or.inl rfl
    · simp only [List.mem_append, not_or] at hrep
      refine Or.inr (mem_entries_erase (h.kept x hx hrep.2 hcall) fun hid hflag => hrep.1 ?_)
      refine List.mem_map_of_mem (List.mem_filter.mpr ⟨hx, ?_⟩)
      have hcall' : g.callsOf x.addr = [] := hcall
      simp only [Ledger.replaces, Bool.and_eq_true, beq_iff_eq, List.isEmpty_iff]
      exact ⟨⟨hid, hflag⟩, hcall'⟩

/-- A tick that calls the timers `F` and leaves `L'`. -/
theorem tick {F L' : List Node} (h : Tracks brk L g) (t : Int)
    (hsplit : entries F ++ entries L' = entries L) (hnd : (addrs L).Nodup) :
    Tracks brk L' (g.fire t (F.map Node.call)) := by
  have haddrs : addrs F ++ addrs L' = addrs L := by
    have := congrArg (List.map Entry.addr) hsplit
    simpa [entries, addrs, Function.comp_def, Node.entry] using this
  rw [← haddrs, List.nodup_append] at hnd
  obtain ⟨hF, hL', hdis⟩ := hnd
  have hinF : ∀ x ∈ entries F, x ∈ entries L := fun x hx => hsplit ▸ List.mem_append_left _ hx
  have hinL : ∀ x ∈ entries L', x ∈ entries L := fun x hx => hsplit ▸ List.mem_append_right _ hx
  have hnone : ∀ a, a ∉ addrs F → ((F.map Node.call).filter fun c => c.timer = some a) = [] := by
    intro a ha
    rw [List.filter_eq_nil_iff]
    intro c hc hca
    obtain ⟨n, hn, rfl⟩ := List.mem_map.mp hc
    have : n.1 = a := by simpa [Node.call] using hca
    exact ha (this ▸ mem_addrs hn)
  refine {
    sub := fun x hx => h.sub x (hinL x hx), inj := h.inj, lt := h.lt
    called := ?called, once := ?once, unfired := ?unfired, kept := ?kept }
  case called =>
    intro f hf
    rcases List.mem_append.mp hf with hf | hf
    · exact h.called f hf
    · simp only [List.mem_map] at hf
      obtain ⟨c, ⟨n, hn, rfl⟩, rfl⟩ := hf
      exact ⟨n.entry, h.sub _ (hinF _ (mem_entries hn)), rfl⟩
  case once =>
    -- the timers called now are different, and none of them was called before
    have hmap : (((F.map Node.call).map fun c => (t, c)).map fun f => f.2.timer)
        = (addrs F).map some := by
      simp [addrs, Function.comp_def, Node.call]
    rw [Ledger.fire, List.map_append, hmap, List.nodup_append]
    refine ⟨h.once, hF.map (Option.some_injective _), ?_⟩
    intro p hp q hq heq
    obtain ⟨f, hf, rfl⟩ := List.mem_map.mp hp
    obtain ⟨a, ha, rfl⟩ := List.mem_map.mp hq
    obtain ⟨n, hn, rfl⟩ := List.mem_map.mp ha
    have hun := h.unfired _ (hinF _ (mem_entries hn))
    rw [Ledger.callsOf, List.filter_eq_nil_iff] at hun
    exact hun f hf (decide_eq_true heq)
  case unfired =>
    intro x hx
    obtain ⟨n, hn, rfl⟩ := List.mem_map.mp hx
    rw [Ledger.callsOf_fire, h.unfired _ (hinL _ (mem_entries hn)), hnone, List.map_nil,
      List.nil_append]
    exact fun hm => hdis _ hm _ (mem_addrs hn) rfl
  case kept =>
    intro x hx hrep hcall
    rw [Ledger.callsOf_fire, List.append_eq_nil_iff] at hcall
    have hin := h.kept x hx hrep hcall.1
    rw [← hsplit] at hin
    refine (List.mem_append.mp hin).resolve_left fun hxF => ?_
    obtain ⟨n, hn, rfl⟩ := List.mem_map.mp hxF
    have := List.map_eq_nil_iff.mp hcall.2
    rw [List.filter_eq_nil_iff] at this
    exact this n.call (List.mem_map_of_mem hn) (by simp [Node.call, Node.entry])

/-- A call on an accepted timer is an old one, or the tick has made it. -/
theorem mem_callsOf_fire {F L' : List Node} (h : Tracks brk L g) {t : Int}
    (hsplit : entries F ++ entries L' = entries L) {x : Entry} (hx : x ∈ g.accepted)
    {f : Int × Call} (hf : f ∈ (g.fire t (F.map Node.call)).callsOf x.addr) :
    f ∈ g.callsOf x.addr ∨ f = (t, x.call) ∧ ∃ n ∈ F, n.entry = x := by
  rw [Ledger.callsOf_fire, List.mem_append] at hf
  apply hf.imp_right
  intro hf
  simp only [List.mem_map, List.mem_filter, decide_eq_true_eq] at hf
  obtain ⟨c, ⟨⟨n, hn, rfl⟩, haddr⟩, rfl⟩ := hf
  have hacc : n.entry ∈ g.accepted :=
    h.sub _ (hsplit ▸ List.mem_append_left _ (mem_entries hn))
  have hnx : n.entry = x := h.inj _ hacc x hx (Option.some_injective _ haddr)
  exact ⟨by rw [← hnx, Node.entry_call], n, hn, hnx⟩

/-- At most one call is made on a timer. -/
theorem callsOf_eq (h : Tracks brk L g) {x : Entry} {f : Int × Call}
    (hf : f ∈ g.callsOf x.addr) : g.callsOf x.addr = [f] := by
  have hall : ∀ f' ∈ g.callsOf x.addr, f'.2.timer = some x.addr := by
    intro f' hf'
    simpa using (List.mem_filter.mp hf').2
  have hnd : ((g.callsOf x.addr).map fun f => f.2.timer).Nodup :=
    h.once.sublist (List.filter_sublist.map _)
  cases hc : g.callsOf x.addr with
  | nil =>
      rw [hc] at hf
      cases hf
  | cons f₁ rest =>
      rw [hc] at hf hall hnd
      cases rest with
      | nil => rw [List.mem_singleton.mp hf]
      | cons f₂ rest =>
          have h1 := hall f₁ (by simp)
          have h2 := hall f₂ (by simp)
          simp [h1, h2] at hnd

end Tracks

end Monitor
