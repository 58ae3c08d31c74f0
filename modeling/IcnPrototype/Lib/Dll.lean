import Mathlib.Tactic

set_option autoImplicit false

/-! # Doubly linked lists in a heap

A heap is a partial map from addresses to cells; an access through `NULL` or to a cell that is
not allocated is undefined (`none`).

`Seg h pre L stop` says that the nodes `L` are linked in the heap, in this order and both ways,
from the predecessor `pre` to the successor `stop`. Both ends are open, so that an operation on
a list is proved in three moves: take the list apart with `seg_append`, let each write change the
open end of one part and leave the others alone (`Seg.update`), and put the parts together again
(`IsList.splice`).
-/

namespace Dll

/-- The address of a cell. -/
abbrev Addr := Nat

/-- A pointer; `none` is `NULL`. -/
abbrev Ptr := Option Addr

/-- A list cell: what it holds and its two links. -/
structure Cell (α : Type*) where
  val : α
  pre : Ptr
  next : Ptr
deriving DecidableEq, Repr

/-- The cells that are allocated. -/
abbrev Heap (α : Type*) := Addr → Option (Cell α)

variable {α : Type*}

/-! ## Access through a pointer -/

/-- `*p`. -/
def load (h : Heap α) (p : Ptr) : Option (Cell α) := p.bind h

/-- Change the cell `p` points to. -/
def modify (h : Heap α) (p : Ptr) (f : Cell α → Cell α) : Option (Heap α) :=
  p.bind fun a => (h a).map fun c => Function.update h a (some (f c))

/-- `p->pre = q`. -/
def setPre (h : Heap α) (p q : Ptr) : Option (Heap α) := modify h p fun c => { c with pre := q }

/-- `p->next = q`. -/
def setNext (h : Heap α) (p q : Ptr) : Option (Heap α) := modify h p fun c => { c with next := q }

/-- Change what the cell `p` points to holds, and not its links. -/
def setVal (h : Heap α) (p : Ptr) (f : α → α) : Option (Heap α) :=
  modify h p fun c => { c with val := f c.val }

/-- `free(p)`. -/
def free (h : Heap α) (p : Ptr) : Option (Heap α) :=
  p.bind fun a => (h a).map fun _ => Function.update h a none

@[simp] theorem load_some (h : Heap α) (a : Addr) : load h (some a) = h a := rfl

theorem setPre_some {h : Heap α} {a : Addr} {c : Cell α} (hc : h a = some c) (q : Ptr) :
    setPre h (some a) q = some (Function.update h a (some { c with pre := q })) := by
  simp [setPre, modify, hc]

theorem setVal_some {h : Heap α} {a : Addr} {c : Cell α} (hc : h a = some c) (f : α → α) :
    setVal h (some a) f = some (Function.update h a (some { c with val := f c.val })) := by
  simp [setVal, modify, hc]

theorem free_some {h : Heap α} {a : Addr} {c : Cell α} (hc : h a = some c) :
    free h (some a) = some (Function.update h a none) := by
  simp [free, hc]

/-! ## Segments -/

/-- The address of the first node, `stop` if there is none. -/
def first : List (Addr × α) → Ptr → Ptr
  | [], stop => stop
  | n :: _, _ => some n.1

/-- The address of the last node, `pre` if there is none. -/
def last : Ptr → List (Addr × α) → Ptr
  | pre, [] => pre
  | _, n :: L => last (some n.1) L

/-- The nodes `L` are linked in the heap between `pre` and `stop`. -/
def Seg (h : Heap α) : Ptr → List (Addr × α) → Ptr → Prop
  | _, [], _ => True
  | pre, n :: L, stop => h n.1 = some ⟨n.2, pre, first L stop⟩ ∧ Seg h (some n.1) L stop

/-- The addresses of the nodes. -/
def addrs (L : List (Addr × α)) : List Addr := L.map Prod.fst

@[simp] theorem addrs_nil : addrs ([] : List (Addr × α)) = [] := rfl

@[simp] theorem addrs_cons (n : Addr × α) (L : List (Addr × α)) :
    addrs (n :: L) = n.1 :: addrs L := rfl

@[simp] theorem addrs_append (A B : List (Addr × α)) :
    addrs (A ++ B) = addrs A ++ addrs B := List.map_append

theorem mem_addrs {L : List (Addr × α)} {n : Addr × α} (hn : n ∈ L) : n.1 ∈ addrs L :=
  List.mem_map_of_mem hn

@[simp] theorem first_nil (stop : Ptr) : first ([] : List (Addr × α)) stop = stop := rfl

@[simp] theorem first_cons (n : Addr × α) (L : List (Addr × α)) (stop : Ptr) :
    first (n :: L) stop = some n.1 := rfl

theorem first_append (A B : List (Addr × α)) (stop : Ptr) :
    first (A ++ B) stop = first A (first B stop) := by
  cases A <;> rfl

@[simp] theorem last_nil (pre : Ptr) : last pre ([] : List (Addr × α)) = pre := rfl

@[simp] theorem last_cons (pre : Ptr) (n : Addr × α) (L : List (Addr × α)) :
    last pre (n :: L) = last (some n.1) L := rfl

@[simp] theorem last_concat (pre : Ptr) (A : List (Addr × α)) (n : Addr × α) :
    last pre (A ++ [n]) = some n.1 := by
  induction A generalizing pre with
  | nil => rfl
  | cons m A ih => exact ih (some m.1)

theorem seg_append {h : Heap α} {stop : Ptr} (B A : List (Addr × α)) (pre : Ptr) :
    Seg h pre (A ++ B) stop ↔ Seg h pre A (first B stop) ∧ Seg h (last pre A) B stop := by
  induction A generalizing pre with
  | nil => simp [Seg, last]
  | cons n A ih =>
      rw [List.cons_append, Seg, Seg, first_append, ih (some n.1), and_assoc]
      rfl

theorem Seg.congr {h h' : Heap α} {stop pre : Ptr} {L : List (Addr × α)}
    (hh : ∀ a ∈ addrs L, h' a = h a) (hs : Seg h pre L stop) : Seg h' pre L stop := by
  induction L generalizing pre with
  | nil => trivial
  | cons n L ih =>
      rw [addrs_cons, List.forall_mem_cons] at hh
      exact ⟨hh.1.trans hs.1, ih hh.2 hs.2⟩

/-- A write to a cell outside the segment leaves the segment. -/
theorem Seg.update {h : Heap α} {pre stop : Ptr} {L : List (Addr × α)} {a : Addr}
    (hs : Seg h pre L stop) (ha : a ∉ addrs L) (c : Option (Cell α)) :
    Seg (Function.update h a c) pre L stop := by
  apply hs.congr
  intro b hb
  have hba : b ≠ a := by
    rintro rfl
    exact ha hb
  rw [Function.update_of_ne hba]

/-- The cell of a node of the segment. -/
theorem Seg.cell {h : Heap α} {stop pre : Ptr} {n : Addr × α} {L : List (Addr × α)}
    (hs : Seg h pre L stop) (hn : n ∈ L) : ∃ p q, h n.1 = some ⟨n.2, p, q⟩ := by
  induction L generalizing pre with
  | nil => cases hn
  | cons m L ih =>
      rcases List.mem_cons.mp hn with rfl | hn
      · exact ⟨_, _, hs.1⟩
      · exact ih hs.2 hn

/-- A node in the middle of a segment. -/
theorem Seg.cell_mid {h : Heap α} {pre stop : Ptr} {A B : List (Addr × α)} {n : Addr × α}
    (hs : Seg h pre (A ++ n :: B) stop) : h n.1 = some ⟨n.2, last pre A, first B stop⟩ :=
  ((seg_append (n :: B) A pre).mp hs).2.1

/-- The node behind one in the middle of a segment. -/
theorem Seg.cell_next {h : Heap α} {pre stop : Ptr} {A B : List (Addr × α)} {e n : Addr × α}
    (hs : Seg h pre (A ++ e :: n :: B) stop) : h n.1 = some ⟨n.2, some e.1, first B stop⟩ :=
  ((seg_append (e :: n :: B) A pre).mp hs).2.2.1

/-! ## Lists -/

/-- `head` points to the first of the nodes `L`, which are linked in the heap. -/
structure IsList (h : Heap α) (head : Ptr) (L : List (Addr × α)) : Prop where
  seg : Seg h none L none
  head_eq : head = first L none
  nodup : (addrs L).Nodup

namespace IsList

variable {h h' : Heap α} {head : Ptr} {L : List (Addr × α)}

theorem nil (h : Heap α) : IsList h none [] := ⟨trivial, rfl, List.nodup_nil⟩

theorem update (hl : IsList h head L) {a : Addr} (ha : a ∉ addrs L) (c : Option (Cell α)) :
    IsList (Function.update h a c) head L :=
  ⟨hl.seg.update ha c, hl.head_eq, hl.nodup⟩

/-- **The rule of the operations on a list.** The nodes `M` in the middle of a list give way to
the nodes `M'`, whose links are in order. The cells of the other nodes are left alone, which is
why the two ends of the middle must stay: the first node if something is before it, the last
one if something is behind it. -/
theorem splice {A M B : List (Addr × α)} (M' : List (Addr × α))
    (hl : IsList h head (A ++ (M ++ B)))
    (hoff : ∀ a, a ∈ addrs A ∨ a ∈ addrs B → h' a = h a)
    (hM : Seg h' (last none A) M' (first B none))
    (hfirst : A ≠ [] → first M' (first B none) = first M (first B none))
    (hlast : B ≠ [] → last (last none A) M' = last (last none A) M)
    (hnd : (addrs (A ++ (M' ++ B))).Nodup) :
    IsList h' (first (A ++ (M' ++ B)) none) (A ++ (M' ++ B)) := by
  obtain ⟨hA, hMB⟩ := (seg_append (M ++ B) A none).mp hl.seg
  have hB := ((seg_append B M _).mp hMB).2
  refine ⟨(seg_append _ A none).mpr ⟨?_, (seg_append B M' _).mpr ⟨hM, ?_⟩⟩, rfl, hnd⟩
  · have hA' := hA.congr fun a ha => hoff a (Or.inl ha)
    cases A with
    | nil => trivial
    | cons n A =>
        rw [first_append] at hA' ⊢
        rwa [hfirst (List.cons_ne_nil n A)]
  · have hB' := hB.congr fun a ha => hoff a (Or.inr ha)
    cases B with
    | nil => trivial
    | cons n B => rwa [hlast (List.cons_ne_nil n B)]

/-- `splice` behind a node that stays: the head of the list stays, too. -/
theorem splice_after {A M B : List (Addr × α)} {e : Addr × α} (M' : List (Addr × α))
    (hl : IsList h head (A ++ e :: (M ++ B)))
    (hoff : ∀ a, a ∈ addrs A ∨ a ∈ addrs B → h' a = h a)
    (hM : Seg h' (last none A) (e :: M') (first B none))
    (hlast : B ≠ [] → last (some e.1) M' = last (some e.1) M)
    (hnd : (addrs (A ++ e :: (M' ++ B))).Nodup) : IsList h' head (A ++ e :: (M' ++ B)) := by
  have hl' := hl.splice (M := e :: M) (e :: M') hoff hM (fun _ => rfl) hlast hnd
  refine ⟨hl'.seg, ?_, hnd⟩
  rw [hl.head_eq, first_append, first_append]
  rfl

/-- Changing what a node holds. -/
theorem setVal {A B : List (Addr × α)} {n : Addr × α} (hl : IsList h head (A ++ n :: B)) (v : α) :
    IsList (Function.update h n.1 (some ⟨v, last none A, first B none⟩)) head
      (A ++ (n.1, v) :: B) := by
  have hnd := hl.nodup
  simp only [addrs_append, addrs_cons, List.nodup_append, List.nodup_cons, List.mem_cons] at hnd
  have hoff : ∀ a, a ∈ addrs A ∨ a ∈ addrs B →
      Function.update h n.1 (some ⟨v, last none A, first B none⟩) a = h a := by
    intro a ha
    have hne : a ≠ n.1 := by
      rintro rfl
      rcases ha with ha | ha
      · exact hnd.2.2 _ ha _ (Or.inl rfl) rfl
      · exact hnd.2.1.1 ha
    exact Function.update_of_ne hne _ _
  have hl' := hl.splice (M := [n]) [(n.1, v)] hoff ⟨Function.update_self .., trivial⟩
    (fun _ => rfl) (fun _ => rfl) (by simpa using hl.nodup)
  refine ⟨hl'.seg, ?_, hl'.nodup⟩
  rw [hl.head_eq, first_append, first_append]
  rfl

end IsList

/-! ## Reading a list -/

/-- The nodes read by following `next` from `p` over at most `fuel` allocated cells. -/
def nodes (h : Heap α) : Nat → Ptr → List (Addr × α)
  | 0, _ => []
  | _ + 1, none => []
  | fuel + 1, some a =>
      match h a with
      | none => []
      | some c => (a, c.val) :: nodes h fuel c.next

/-- Reading from a node of a list gives what is behind it. -/
theorem nodes_seg {h : Heap α} {L : List (Addr × α)} {pre : Ptr} {fuel : Nat}
    (hs : Seg h pre L none) (hf : L.length ≤ fuel) : nodes h fuel (first L none) = L := by
  induction L generalizing pre fuel with
  | nil => cases fuel <;> rfl
  | cons n L ih =>
      cases fuel with
      | zero => simp at hf
      | succ fuel =>
          rw [List.length_cons] at hf
          simp only [first_cons, nodes, hs.1]
          rw [ih hs.2 (by omega)]

/-- A list of distinct addresses below `brk` has at most `brk` nodes. -/
theorem length_le_of_nodup {L : List (Addr × α)} {brk : Nat} (hnd : (addrs L).Nodup)
    (hlt : ∀ a ∈ addrs L, a < brk) : L.length ≤ brk := by
  have hsub : addrs L ⊆ List.range brk := fun a ha => List.mem_range.mpr (hlt a ha)
  have hle := (hnd.subperm hsub).length_le
  rwa [addrs, List.length_map, List.length_range] at hle

end Dll
