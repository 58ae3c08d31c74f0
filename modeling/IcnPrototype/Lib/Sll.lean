import Mathlib.Tactic

set_option autoImplicit false

/-! # Singly linked lists in a heap

A heap is a partial map from addresses to cells; an access through `NULL` or to a cell that is
not allocated is undefined (`none`). `IsList h head L` says that the nodes `L` are linked in this
order from `head` on.

A program that adds a node walks to the end of the list with a pointer that stops at the last node
(`scan`), and links the new node behind it (`IsList.concat`). If it stops early where a node has
the key of the new one, the list is a set in the order of first appearance: `addLast` is what it
does to the nodes, and `map_addLast` what this does to their keys.
-/

namespace Sll

/-- The address of a cell. -/
abbrev Addr := Nat

/-- A pointer; `none` is `NULL`. -/
abbrev Ptr := Option Addr

/-- A list cell: what it holds and its link. -/
structure Cell (α : Type*) where
  val : α
  next : Ptr
deriving DecidableEq, Repr

/-- The cells that are allocated. -/
abbrev Heap (α : Type*) := Addr → Option (Cell α)

variable {α : Type}

/-! ## Access through a pointer -/

/-- `*p`. -/
def load (h : Heap α) (p : Ptr) : Option (Cell α) := p.bind h

/-- Change the cell `p` points to. -/
def modify (h : Heap α) (p : Ptr) (f : Cell α → Cell α) : Option (Heap α) :=
  p.bind fun a => (h a).map fun c => Function.update h a (some (f c))

/-- `p->next = q`. -/
def setNext (h : Heap α) (p q : Ptr) : Option (Heap α) := modify h p fun c => { c with next := q }

/-- Change what the cell `p` points to holds, and not its link. -/
def setVal (h : Heap α) (p : Ptr) (f : α → α) : Option (Heap α) :=
  modify h p fun c => { c with val := f c.val }

@[simp] theorem load_some (h : Heap α) (a : Addr) : load h (some a) = h a := rfl

theorem setNext_some {h : Heap α} {a : Addr} {c : Cell α} (hc : h a = some c) (q : Ptr) :
    setNext h (some a) q = some (Function.update h a (some { c with next := q })) := by
  simp [setNext, modify, hc]

theorem setVal_some {h : Heap α} {a : Addr} {c : Cell α} (hc : h a = some c) (f : α → α) :
    setVal h (some a) f = some (Function.update h a (some { c with val := f c.val })) := by
  simp [setVal, modify, hc]

/-! ## Lists -/

/-- The address of the first node, `NULL` if there is none. -/
def first : List (Addr × α) → Ptr
  | [] => none
  | n :: _ => some n.1

/-- The nodes are linked in the heap, the last one to `NULL`. -/
def Linked (h : Heap α) : List (Addr × α) → Prop
  | [] => True
  | n :: L => h n.1 = some ⟨n.2, first L⟩ ∧ Linked h L

/-- The addresses of the nodes. -/
def addrs (L : List (Addr × α)) : List Addr := L.map Prod.fst

/-- `head` points to the first of the nodes `L`, which are linked in the heap. -/
structure IsList (h : Heap α) (head : Ptr) (L : List (Addr × α)) : Prop where
  linked : Linked h L
  head_eq : head = first L
  nodup : (addrs L).Nodup

theorem mem_addrs {L : List (Addr × α)} {n : Addr × α} (hn : n ∈ L) : n.1 ∈ addrs L :=
  List.mem_map_of_mem hn

@[simp] theorem addrs_append (A B : List (Addr × α)) : addrs (A ++ B) = addrs A ++ addrs B :=
  List.map_append

theorem first_append_cons (A : List (Addr × α)) (n m : Addr × α) (B : List (Addr × α)) :
    first (A ++ n :: B) = first (A ++ n :: m :: B) := by
  cases A <;> rfl

theorem first_concat_ne_none (A : List (Addr × α)) (e : Addr × α) : first (A ++ [e]) ≠ none := by
  cases A <;> exact Option.some_ne_none _

theorem Linked.congr {h h' : Heap α} {L : List (Addr × α)} (hs : Linked h L)
    (hh : ∀ a ∈ addrs L, h' a = h a) : Linked h' L := by
  induction L with
  | nil => trivial
  | cons n L ih =>
      have hn : h' n.1 = h n.1 := hh n.1 List.mem_cons_self
      exact ⟨hn.trans hs.1, ih hs.2 fun a ha => hh a (List.mem_cons_of_mem _ ha)⟩

theorem IsList.nil (h : Heap α) : IsList h none [] := ⟨trivial, rfl, List.nodup_nil⟩

/-- A write to a cell off the list leaves the list. -/
theorem IsList.update {h : Heap α} {head : Ptr} {L : List (Addr × α)} (hl : IsList h head L)
    {a : Addr} (ha : a ∉ addrs L) (c : Option (Cell α)) :
    IsList (Function.update h a c) head L := by
  refine ⟨hl.linked.congr ?_, hl.head_eq, hl.nodup⟩
  intro b hb
  have hne : b ≠ a := by
    rintro rfl
    exact ha hb
  exact Function.update_of_ne hne _ _

/-- The last node of a list. -/
theorem Linked.cell_last {h : Heap α} {A : List (Addr × α)} {e : Addr × α}
    (hs : Linked h (A ++ [e])) : h e.1 = some ⟨e.2, none⟩ := by
  induction A with
  | nil => exact hs.1
  | cons n A ih => exact ih hs.2

theorem Linked.concat {h h' : Heap α} {A : List (Addr × α)} {e new : Addr × α}
    (hs : Linked h (A ++ [e])) (hnd : (addrs (A ++ [e])).Nodup)
    (he : h' e.1 = some ⟨e.2, some new.1⟩) (hnew : h' new.1 = some ⟨new.2, none⟩)
    (hoff : ∀ a ∈ addrs A, h' a = h a) : Linked h' (A ++ [e, new]) := by
  induction A with
  | nil => exact ⟨he, hnew, trivial⟩
  | cons n A ih =>
      have hn : h' n.1 = h n.1 := hoff n.1 List.mem_cons_self
      have hcell : h n.1 = some ⟨n.2, first (A ++ [e])⟩ := hs.1
      rw [first_append_cons A e new] at hcell
      exact ⟨hn.trans hcell, ih hs.2 (List.nodup_cons.mp hnd).2
        fun a ha => hoff a (List.mem_cons_of_mem _ ha)⟩

/-- **A node is linked behind the last one.** The cells of the other nodes are left alone. -/
theorem IsList.concat {h h' : Heap α} {head : Ptr} {A : List (Addr × α)} {e new : Addr × α}
    (hl : IsList h head (A ++ [e])) (hfresh : new.1 ∉ addrs (A ++ [e]))
    (he : h' e.1 = some ⟨e.2, some new.1⟩) (hnew : h' new.1 = some ⟨new.2, none⟩)
    (hoff : ∀ a ∈ addrs A, h' a = h a) : IsList h' head (A ++ [e] ++ [new]) := by
  rw [List.append_assoc]
  refine ⟨hl.linked.concat hl.nodup he hnew hoff, ?_, ?_⟩
  · exact hl.head_eq.trans (first_append_cons A e new [])
  · have hnd := hl.nodup.concat hfresh
    rwa [List.concat_eq_append, addrs, ← List.map_singleton, ← List.map_append,
      List.append_assoc] at hnd

/-- A list of distinct addresses below `brk` has at most `brk` nodes. -/
theorem length_le_of_nodup {L : List (Addr × α)} {brk : Nat} (hnd : (addrs L).Nodup)
    (hlt : ∀ a ∈ addrs L, a < brk) : L.length ≤ brk := by
  have hsub : addrs L ⊆ List.range brk := fun a ha => List.mem_range.mpr (hlt a ha)
  have hle := (hnd.subperm hsub).length_le
  rwa [addrs, List.length_map, List.length_range] at hle

/-! ## The walk to the last node -/

/-- `while (p->next != NULL)`, which stops early at a node that is wanted: where `p` is then, and
whether it stopped early. -/
def scan (want : α → Bool) : Nat → Heap α → Ptr → Option (Ptr × Bool)
  | 0, _, _ => none
  | fuel + 1, h, p => do
      let c ← load h p
      if c.next = none then some (p, false)
      else if want c.val then some (p, true)
      else scan want fuel h c.next

section Scan

variable {want : α → Bool} {h : Heap α} {e : Addr × α}

/-- A node before the last one is wanted. -/
theorem scan_early {A : List (Addr × α)} (hs : Linked h (A ++ [e])) {fuel : Nat}
    (hfuel : A.length < fuel) (hany : ∃ n ∈ A, want n.2 = true) :
    ∃ p, scan want fuel h (first (A ++ [e])) = some (p, true) := by
  induction A generalizing fuel with
  | nil =>
      obtain ⟨n, hn, -⟩ := hany
      cases hn
  | cons m A ih =>
      obtain ⟨fuel, rfl⟩ : ∃ k, fuel = k + 1 := ⟨fuel - 1, by omega⟩
      rw [List.length_cons] at hfuel
      have hcell : h m.1 = some ⟨m.2, first (A ++ [e])⟩ := hs.1
      rw [List.cons_append, first, scan, load_some, hcell]
      simp only [Option.bind_eq_bind, Option.bind_some, if_neg (first_concat_ne_none A e)]
      split
      · exact ⟨_, rfl⟩
      · rename_i hm
        refine ih hs.2 (by omega) ?_
        obtain ⟨n, hn, hwant⟩ := hany
        rcases List.mem_cons.mp hn with rfl | hn
        · exact absurd hwant hm
        · exact ⟨n, hn, hwant⟩

/-- No node before the last one is wanted. -/
theorem scan_last {A : List (Addr × α)} (hs : Linked h (A ++ [e])) {fuel : Nat}
    (hfuel : A.length < fuel) (hnone : ∀ n ∈ A, want n.2 = false) :
    scan want fuel h (first (A ++ [e])) = some (some e.1, false) := by
  induction A generalizing fuel with
  | nil =>
      obtain ⟨fuel, rfl⟩ : ∃ k, fuel = k + 1 := ⟨fuel - 1, by omega⟩
      have hcell : h e.1 = some ⟨e.2, none⟩ := hs.1
      simp [first, scan, hcell]
  | cons m A ih =>
      obtain ⟨fuel, rfl⟩ : ∃ k, fuel = k + 1 := ⟨fuel - 1, by omega⟩
      rw [List.length_cons] at hfuel
      have hcell : h m.1 = some ⟨m.2, first (A ++ [e])⟩ := hs.1
      have hm : want m.2 = false := hnone m List.mem_cons_self
      rw [List.cons_append, first, scan, load_some, hcell]
      simp only [Option.bind_eq_bind, Option.bind_some, if_neg (first_concat_ne_none A e), hm,
        Bool.false_eq_true, if_false]
      exact ih hs.2 (by omega) fun n hn => hnone n (List.mem_cons_of_mem _ hn)

end Scan

/-! ## Sets in the order of first appearance -/

/-- Add a node unless one of the nodes is the same. -/
def addLast (same : α → α → Bool) (L : List (Addr × α)) (new : Addr × α) : List (Addr × α) :=
  if L.any fun n => same n.2 new.2 then L else L ++ [new]

theorem prefix_addLast (same : α → α → Bool) (L : List (Addr × α)) (new : Addr × α) :
    L <+: addLast same L new := by
  rw [addLast]
  split
  · exact List.prefix_refl L
  · exact List.prefix_append L [new]

section Keys

variable {β : Type*} [BEq β] [LawfulBEq β]

/-- An element that was there already. -/
theorem eraseDups_concat_of_mem {l : List β} {b : β} (hb : b ∈ l) :
    (l ++ [b]).eraseDups = l.eraseDups := by
  rw [List.eraseDups_append]
  simp [List.removeAll, hb]

/-- One more element, behind those that were there first. -/
theorem eraseDups_concat_of_not_mem {l : List β} {b : β} (hb : b ∉ l) :
    (l ++ [b]).eraseDups = l.eraseDups ++ [b] := by
  rw [List.eraseDups_append]
  simp [List.removeAll, hb, List.eraseDups_cons]

theorem nodup_eraseDups (l : List β) : l.eraseDups.Nodup := by
  induction l using List.reverseRecOn with
  | nil => exact List.nodup_nil
  | append_singleton l b ih =>
      by_cases hb : b ∈ l
      · rwa [eraseDups_concat_of_mem hb]
      · rw [eraseDups_concat_of_not_mem hb, ← List.concat_eq_append]
        exact ih.concat (mt List.mem_eraseDups.mp hb)

/-- **Adding by a key.** The keys of the nodes are those that were added, without repetitions. -/
theorem map_addLast {key : α → β} {L : List (Addr × α)} {keys : List β}
    (hL : L.map (fun n => key n.2) = keys.eraseDups) (new : Addr × α) :
    (addLast (fun v w => key v == key w) L new).map (fun n => key n.2)
      = (keys ++ [key new.2]).eraseDups := by
  have hiff : (L.any fun n => key n.2 == key new.2) = true ↔ key new.2 ∈ keys := by
    rw [← List.mem_eraseDups, ← hL, List.any_eq_true, List.mem_map]
    constructor
    · rintro ⟨n, hn, hkey⟩
      exact ⟨n, hn, eq_of_beq hkey⟩
    · rintro ⟨n, hn, hkey⟩
      exact ⟨n, hn, beq_iff_eq.mpr hkey⟩
  rw [addLast]
  by_cases hmem : key new.2 ∈ keys
  · rw [if_pos (hiff.mpr hmem), eraseDups_concat_of_mem hmem, hL]
  · rw [if_neg (mt hiff.mp hmem), eraseDups_concat_of_not_mem hmem, List.map_append, hL,
      List.map_singleton]

end Keys

end Sll
