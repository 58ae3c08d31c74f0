import IcnPrototype.Lib.Sll
import IcnPrototype.Monitor.Discovery

set_option autoImplicit false

/-! # The lists of ports and destinations

`add_state_node` and `add_dest_node` put a new node behind the last one unless a node has its
name already. Both walk to the last node, which the walk itself does not compare, and compare that
one afterwards. The list is then the set of the names in the order in which they first came
(`HoldsList.addNodes`, with `Sll.map_addLast`).

`display_state_list` copies the names into `struct PORT_INDEX`, where `search_port_index` finds
them by position.
-/

namespace Monitor

open Bytes Sll

/-! ## Nodes -/

/-- A `char [16]` that holds a string. -/
structure Name where
  bytes : List UInt8
  size_eq : bytes.length = 16
  terminated : 0 ∈ bytes

/-- The string. -/
def Name.text (n : Name) : List UInt8 := cstr n.bytes

/-- A `struct PORT_STATE_INDEX`. -/
structure PortStateIndex where
  devName : Name
  trapLevel : Int
  trapState : UInt32

/-- A `struct DEST_INFO`. `linkStats` is the bytes of its `struct LINK_STATS`. -/
structure DestInfo where
  linklossTrapFlag : Int
  linkdelayTrapFlag : Int
  destIp : Name
  linkStats : List UInt8

/-! ## Adding a node -/

section AddNode

variable {α : Type} (same : α → α → Bool) (clear : α → α)

/-- `p->next = pnew`, what is cleared in `pnew`, and `pnew->next = NULL`. -/
def linkNode (h : Heap α) (p pnew : Ptr) : Option (Heap α) := do
  let h ← setNext h p pnew
  let h ← setVal h pnew clear
  setNext h pnew none

/-- Add `pnew` to the list at `head`: as the head if the list is empty, else behind the last node
if neither the walk there nor the last node itself is the same. -/
def addNode (fuel : Nat) (h : Heap α) (head pnew : Ptr) : Option (Heap α × Ptr) :=
  if head = none then do
    let h ← setVal h pnew clear
    let h ← setNext h pnew none
    some (h, pnew)
  else do
    let new ← load h pnew
    let (p, repeated) ← scan (fun v => same v new.val) fuel h head
    if repeated then some (h, head)
    else do
      let c ← load h p
      if same c.val new.val then some (h, head)
      else do
        let h ← linkNode clear h p pnew
        some (h, head)

end AddNode

/-- `strcmp(p->dest_ip, pnew->dest_ip) == 0`. -/
def sameIp (p pnew : DestInfo) : Bool := p.destIp.text == pnew.destIp.text

/-- The flags that `add_dest_node` clears. -/
def clearDest (pnew : DestInfo) : DestInfo :=
  { pnew with linklossTrapFlag := 0, linkdelayTrapFlag := 0 }

/-- `add_dest_node`. -/
def addDestNode (fuel : Nat) (h : Heap DestInfo) (head pnew : Ptr) :
    Option (Heap DestInfo × Ptr) :=
  addNode sameIp clearDest fuel h head pnew

/-- `strcmp(p->dev_name, pnew->dev_name) == 0`. -/
def sameDev (p pnew : PortStateIndex) : Bool := p.devName.text == pnew.devName.text

/-- The fields that `add_state_node` clears. -/
def clearState (pnew : PortStateIndex) : PortStateIndex :=
  { pnew with trapLevel := 0, trapState := 0 }

/-- `while(repetition == 0)` in `add_state_node`. A turn either breaks or sets `repetition`, so the
loop tests its condition at most twice (`addStateNode_eq`). -/
def insertState : Nat → Heap PortStateIndex → Ptr → Ptr → Bool → Option (Heap PortStateIndex)
  | 0, _, _, _, _ => none
  | _ + 1, h, _, _, true => some h
  | fuel + 1, h, p, pnew, false => do
      let c ← load h p
      let new ← load h pnew
      if sameDev c.val new.val then some h
      else do
        let h ← linkNode clearState h p pnew
        insertState fuel h p pnew true

/-- `add_state_node`. -/
def addStateNode (fuel : Nat) (h : Heap PortStateIndex) (head pnew : Ptr) :
    Option (Heap PortStateIndex × Ptr) :=
  if head = none then do
    let h ← setVal h pnew clearState
    let h ← setNext h pnew none
    some (h, pnew)
  else do
    let new ← load h pnew
    let (p, repetition) ← scan (fun v => sameDev v new.val) fuel h head
    let h ← insertState 2 h p pnew repetition
    some (h, head)

/-- The second loop of `add_state_node` is the test of the last node. -/
theorem addStateNode_eq (fuel : Nat) (h : Heap PortStateIndex) (head pnew : Ptr) :
    addStateNode fuel h head pnew = addNode sameDev clearState fuel h head pnew := by
  unfold addStateNode addNode
  split
  · rfl
  · cases hnew : load h pnew with
    | none => rfl
    | some new =>
        simp only [Option.bind_eq_bind, Option.bind_some]
        cases scan (fun v => sameDev v new.val) fuel h head with
        | none => rfl
        | some r =>
            obtain ⟨p, repetition⟩ := r
            cases repetition with
            | true => rfl
            | false =>
                cases hc : load h p with
                | none => simp [insertState, hc]
                | some c =>
                    by_cases hsame : sameDev c.val new.val = true
                    · simp [insertState, hc, hnew, hsame]
                    · simp [insertState, hc, hnew, hsame]

section AddNode

variable {α : Type} {same : α → α → Bool} {clear : α → α}

/-- The three writes of `linkNode`. -/
theorem linkNode_eq (clear : α → α) {h : Heap α} {a e : Addr} {c ce : Cell α} (hne : a ≠ e)
    (he : h e = some ce) (hc : h a = some c) :
    ∃ h', linkNode clear h (some e) (some a) = some h' ∧ h' e = some ⟨ce.val, some a⟩ ∧
      h' a = some ⟨clear c.val, none⟩ ∧ ∀ b, b ≠ e → b ≠ a → h' b = h b := by
  let h₁ : Heap α := Function.update h e (some ⟨ce.val, some a⟩)
  have ha₁ : h₁ a = some c := by rw [← hc]; exact Function.update_of_ne hne _ _
  let h₂ : Heap α := Function.update h₁ a (some ⟨clear c.val, c.next⟩)
  have ha₂ : h₂ a = some ⟨clear c.val, c.next⟩ := Function.update_self _ _ _
  refine ⟨Function.update h₂ a (some ⟨clear c.val, none⟩), ?_, ?_, Function.update_self _ _ _, ?_⟩
  · unfold linkNode
    rw [setNext_some he]
    change (setVal h₁ (some a) clear).bind _ = _
    rw [setVal_some ha₁]
    exact setNext_some ha₂ none
  · calc Function.update h₂ a (some ⟨clear c.val, none⟩) e
        = h₂ e := Function.update_of_ne hne.symm _ _
      _ = h₁ e := Function.update_of_ne hne.symm _ _
      _ = some ⟨ce.val, some a⟩ := Function.update_self _ _ _
  · intro b hbe hba
    calc Function.update h₂ a (some ⟨clear c.val, none⟩) b
        = h₂ b := Function.update_of_ne hba _ _
      _ = h₁ b := Function.update_of_ne hba _ _
      _ = h b := Function.update_of_ne hbe _ _

/-- The first node of a list. -/
theorem addNode_nil (same : α → α → Bool) (clear : α → α) {h : Heap α} {a : Addr} {c : Cell α}
    (hc : h a = some c) (fuel : Nat) :
    ∃ h', addNode same clear fuel h none (some a) = some (h', some a) ∧
      IsList h' (some a) [(a, clear c.val)] := by
  let h₁ : Heap α := Function.update h a (some ⟨clear c.val, c.next⟩)
  have ha₁ : h₁ a = some ⟨clear c.val, c.next⟩ := Function.update_self _ _ _
  refine ⟨Function.update h₁ a (some ⟨clear c.val, none⟩), ?_, ?_⟩
  · unfold addNode
    rw [if_pos rfl, setVal_some hc]
    change (setNext h₁ (some a) none).bind _ = _
    rw [setNext_some ha₁]
    rfl
  · exact ⟨⟨Function.update_self _ _ _, trivial⟩, rfl, List.nodup_singleton a⟩

/-- A node before the last one, or the last one, is the same: nothing changes. -/
theorem addNode_of_mem {h : Heap α} {head : Ptr} {L : List (Addr × α)} (hl : IsList h head L)
    {a : Addr} {c : Cell α} (hc : h a = some c) {fuel : Nat} (hfuel : L.length ≤ fuel)
    (hany : ∃ n ∈ L, same n.2 c.val = true) :
    addNode same clear fuel h head (some a) = some (h, head) := by
  rcases List.eq_nil_or_concat L with rfl | ⟨A, e, rfl⟩
  · obtain ⟨n, hn, -⟩ := hany
    cases hn
  · rw [List.concat_eq_append] at *
    have hlen : A.length < fuel := by
      rw [List.length_append, List.length_singleton] at hfuel
      omega
    unfold addNode
    rw [if_neg (by rw [hl.head_eq]; exact first_concat_ne_none A e), load_some, hc]
    simp only [Option.bind_eq_bind, Option.bind_some]
    by_cases hA : ∃ n ∈ A, same n.2 c.val = true
    · obtain ⟨p, hp⟩ : ∃ p, scan (fun v => same v c.val) fuel h (first (A ++ [e]))
          = some (p, true) := scan_early hl.linked hlen hA
      rw [hl.head_eq, hp]
      rfl
    · have hnone : ∀ n ∈ A, same n.2 c.val = false := by
        intro n hn
        exact Bool.eq_false_iff.mpr fun ht => hA ⟨n, hn, ht⟩
      have hsame : same e.2 c.val = true := by
        obtain ⟨n, hn, ht⟩ := hany
        rcases List.mem_append.mp hn with hn | hn
        · exact absurd ⟨n, hn, ht⟩ hA
        · rwa [List.mem_singleton.mp hn] at ht
      have hscan : scan (fun v => same v c.val) fuel h (first (A ++ [e]))
          = some (some e.1, false) := scan_last hl.linked hlen hnone
      rw [hl.head_eq, hscan]
      simp only [Option.bind_some, Bool.false_eq_true, if_false, load_some, hl.linked.cell_last,
        if_pos hsame]

/-- No node is the same: the new one is the last one. -/
theorem addNode_of_not_mem (clear : α → α) {h : Heap α} {head : Ptr} {A : List (Addr × α)}
    {e : Addr × α} (hl : IsList h head (A ++ [e])) {a : Addr} (hfresh : a ∉ addrs (A ++ [e]))
    {c : Cell α} (hc : h a = some c) {fuel : Nat} (hfuel : A.length < fuel)
    (hnone : ∀ n ∈ A ++ [e], same n.2 c.val = false) :
    ∃ h', addNode same clear fuel h head (some a) = some (h', head) ∧
      IsList h' head (A ++ [e] ++ [(a, clear c.val)]) := by
  have hnd := hl.nodup
  have hne : a ≠ e.1 := by
    rintro rfl
    exact hfresh (mem_addrs (List.mem_append_right A List.mem_cons_self))
  have hlast : h e.1 = some ⟨e.2, none⟩ := hl.linked.cell_last
  obtain ⟨h', hlink, he', ha', hoff⟩ := linkNode_eq clear hne hlast hc
  have hA : ∀ n ∈ A, same n.2 c.val = false := fun n hn => hnone n (List.mem_append_left _ hn)
  have hlastSame : ¬ same e.2 c.val = true := by
    rw [hnone e (List.mem_append_right A List.mem_cons_self)]
    exact Bool.false_ne_true
  refine ⟨h', ?_, hl.concat hfresh he' ha' ?_⟩
  · unfold addNode
    rw [if_neg (by rw [hl.head_eq]; exact first_concat_ne_none A e), load_some, hc]
    simp only [Option.bind_eq_bind, Option.bind_some]
    have hscan : scan (fun v => same v c.val) fuel h (first (A ++ [e])) = some (some e.1, false) :=
      scan_last hl.linked hfuel hA
    rw [hl.head_eq, hscan]
    simp only [Option.bind_some, Bool.false_eq_true, if_false, load_some, hlast,
      if_neg hlastSame, hlink]
  · intro b hb
    refine hoff b ?_ ?_
    · rintro rfl
      rw [addrs_append] at hnd
      exact (List.nodup_append.mp hnd).2.2 _ hb _ List.mem_cons_self rfl
    · rintro rfl
      rw [addrs_append] at hfresh
      exact hfresh (List.mem_append_left _ hb)

/-- **What `addNode` does to the nodes.** -/
theorem addNode_eq (hclear : ∀ v w, same v (clear w) = same v w) {h : Heap α} {head : Ptr}
    {L : List (Addr × α)} (hl : IsList h head L) {a : Addr} (hfresh : a ∉ addrs L) {c : Cell α}
    (hc : h a = some c) {fuel : Nat} (hfuel : L.length ≤ fuel) :
    ∃ h' head', addNode same clear fuel h head (some a) = some (h', head') ∧
      IsList h' head' (addLast same L (a, clear c.val)) := by
  unfold addLast
  simp only [hclear]
  by_cases hany : (L.any fun n => same n.2 c.val) = true
  · rw [if_pos hany]
    exact ⟨h, head, addNode_of_mem hl hc hfuel (List.any_eq_true.mp hany), hl⟩
  · rw [if_neg hany]
    rcases List.eq_nil_or_concat L with rfl | ⟨A, e, rfl⟩
    · obtain rfl : head = none := hl.head_eq
      obtain ⟨h', hadd, hl'⟩ := addNode_nil same clear hc fuel
      exact ⟨h', _, hadd, hl'⟩
    · rw [List.concat_eq_append] at *
      rw [List.length_append, List.length_singleton] at hfuel
      have hnone : ∀ n ∈ A ++ [e], same n.2 c.val = false := by
        intro n hn
        exact Bool.eq_false_iff.mpr fun ht => hany (List.any_eq_true.mpr ⟨n, hn, ht⟩)
      obtain ⟨h', hadd, hl'⟩ := addNode_of_not_mem clear hl hfresh hc hfuel hnone
      exact ⟨h', head, hadd, hl'⟩

end AddNode

/-! ## One node after another -/

section AddNodes

variable {α : Type}

/-- The heap, the first address that is not handed out yet, and the head of the list. -/
structure ListMemory (α : Type) where
  heap : Heap α
  brk : Addr
  head : Ptr

/-- Nothing is allocated, and `create_dest_list` and `create_state_list` return `NULL`. -/
def ListMemory.empty : ListMemory α := ⟨fun _ => none, 0, none⟩

variable (add : Nat → Heap α → Ptr → Ptr → Option (Heap α × Ptr))

/-- `malloc` a node, fill it, and add it. Whatever is not filled is what `malloc` left there. -/
def ListMemory.addFresh (m : ListMemory α) (c : Cell α) : Option (ListMemory α) := do
  let (heap, head) ← add (m.brk + 1) (Function.update m.heap m.brk (some c)) m.head (some m.brk)
  some ⟨heap, m.brk + 1, head⟩

/-- Add fresh nodes one after another. -/
def ListMemory.addNodes (m : ListMemory α) (cells : List (Cell α)) : Option (ListMemory α) :=
  cells.foldlM (ListMemory.addFresh add) m

/-- The nodes after a sequence of cells. -/
def addedNodes (same : α → α → Bool) (clear : α → α) (L : List (Addr × α)) (brk : Addr) :
    List (Cell α) → List (Addr × α)
  | [] => L
  | c :: cs => addedNodes same clear (addLast same L (brk, clear c.val)) (brk + 1) cs

/-- The store holds the nodes. -/
structure HoldsList (m : ListMemory α) (L : List (Addr × α)) : Prop where
  isList : IsList m.heap m.head L
  allocated : ∀ a ∈ addrs L, a < m.brk

variable {same : α → α → Bool} {clear : α → α}

theorem HoldsList.length_le {m : ListMemory α} {L : List (Addr × α)} (hm : HoldsList m L) :
    L.length ≤ m.brk :=
  length_le_of_nodup hm.isList.nodup hm.allocated

theorem HoldsList.addFresh (hclear : ∀ v w, same v (clear w) = same v w) {m : ListMemory α}
    {L : List (Addr × α)} (hm : HoldsList m L) (c : Cell α) :
    ∃ m', m.addFresh (addNode same clear) c = some m' ∧ m'.brk = m.brk + 1 ∧
      HoldsList m' (addLast same L (m.brk, clear c.val)) := by
  have hfresh : m.brk ∉ addrs L := fun hmem => lt_irrefl _ (hm.allocated _ hmem)
  have hcell : Function.update m.heap m.brk (some c) m.brk = some c := Function.update_self _ _ _
  have hlen : L.length ≤ m.brk + 1 := Nat.le_succ_of_le hm.length_le
  obtain ⟨h', head', hadd, hl'⟩ :=
    addNode_eq hclear (hm.isList.update hfresh (some c)) hfresh hcell hlen
  refine ⟨⟨h', m.brk + 1, head'⟩, ?_, rfl, hl', ?_⟩
  · rw [ListMemory.addFresh, hadd]
    rfl
  · intro a ha
    unfold addLast at ha
    split at ha
    · exact Nat.lt_succ_of_lt (hm.allocated a ha)
    · rw [addrs_append, List.mem_append] at ha
      rcases ha with ha | ha
      · exact Nat.lt_succ_of_lt (hm.allocated a ha)
      · rw [List.mem_singleton.mp ha]
        exact Nat.lt_succ_self m.brk

/-- **The list after any sequence of fresh nodes.** -/
theorem HoldsList.addNodes (hclear : ∀ v w, same v (clear w) = same v w) {m : ListMemory α}
    {L : List (Addr × α)} (hm : HoldsList m L) (cells : List (Cell α)) :
    ∃ m', m.addNodes (addNode same clear) cells = some m' ∧
      HoldsList m' (addedNodes same clear L m.brk cells) := by
  induction cells generalizing m L with
  | nil => exact ⟨m, rfl, hm⟩
  | cons c cs ih =>
      obtain ⟨m₁, hadd, hbrk, hm₁⟩ := hm.addFresh hclear c
      obtain ⟨m', hrun, hm'⟩ := ih hm₁
      rw [hbrk] at hm'
      refine ⟨m', ?_, hm'⟩
      rw [ListMemory.addNodes, List.foldlM_cons, hadd]
      exact hrun

theorem addedNodes_append (L : List (Addr × α)) (brk : Addr) (cs ds : List (Cell α)) :
    addedNodes same clear L brk (cs ++ ds) =
      addedNodes same clear (addedNodes same clear L brk cs) (brk + cs.length) ds := by
  induction cs generalizing L brk with
  | nil => rfl
  | cons c cs ih =>
      rw [List.cons_append, addedNodes, ih, addedNodes, List.length_cons, Nat.add_right_comm,
        Nat.add_assoc]

/-- Nodes that are there stay there, with their contents. -/
theorem prefix_addedNodes (L : List (Addr × α)) (brk : Addr) (cs : List (Cell α)) :
    L <+: addedNodes same clear L brk cs := by
  induction cs generalizing L brk with
  | nil => exact List.prefix_refl L
  | cons c cs ih => exact (prefix_addLast same L _).trans (ih _ _)

/-- Every node that was added is cleared. -/
theorem forall_mem_addedNodes (P : α → Prop) (hP : ∀ v, P (clear v)) {L : List (Addr × α)}
    (hL : ∀ n ∈ L, P n.2) (brk : Addr) (cs : List (Cell α)) :
    ∀ n ∈ addedNodes same clear L brk cs, P n.2 := by
  induction cs generalizing L brk with
  | nil => exact hL
  | cons c cs ih =>
      refine ih ?_ _
      unfold addLast
      split
      · exact hL
      · intro n hn
        rcases List.mem_append.mp hn with hn | hn
        · exact hL n hn
        · rw [List.mem_singleton.mp hn]
          exact hP c.val

/-- The keys in the order of first appearance. -/
theorem map_addedNodes {β : Type} [BEq β] [LawfulBEq β] (key : α → β)
    (hkey : ∀ v, key (clear v) = key v) {L : List (Addr × α)} {keys : List β}
    (hL : L.map (fun n => key n.2) = keys.eraseDups) (brk : Addr) (cs : List (Cell α)) :
    (addedNodes (fun v w => key v == key w) clear L brk cs).map (fun n => key n.2)
      = (keys ++ cs.map fun c => key c.val).eraseDups := by
  induction cs generalizing L keys brk with
  | nil => rw [List.map_nil, List.append_nil, addedNodes, hL]
  | cons c cs ih =>
      have hstep := map_addLast hL (brk, clear c.val)
      rw [hkey] at hstep
      rw [addedNodes, ih hstep, List.map_cons, List.append_assoc, List.singleton_append]

end AddNodes

/-- `add_dest_node` over fresh nodes, from the empty list. -/
def addDestNodes (cells : List (Cell DestInfo)) : Option (ListMemory DestInfo) :=
  ListMemory.empty.addNodes addDestNode cells

/-- `add_state_node` over fresh nodes, from the empty list. -/
def addStateNodes (cells : List (Cell PortStateIndex)) : Option (ListMemory PortStateIndex) :=
  ListMemory.empty.addNodes addStateNode cells

/-- The nodes that `addDestNodes` links. -/
def destNodes (cells : List (Cell DestInfo)) : List (Addr × DestInfo) :=
  addedNodes sameIp clearDest [] 0 cells

/-- The nodes that `addStateNodes` links. -/
def stateNodes (cells : List (Cell PortStateIndex)) : List (Addr × PortStateIndex) :=
  addedNodes sameDev clearState [] 0 cells

/-- The addresses in a list of destinations. -/
def destIps (L : List (Addr × DestInfo)) : List (List UInt8) := L.map fun n => n.2.destIp.text

/-- The names in a list of ports. -/
def devNames (L : List (Addr × PortStateIndex)) : List (List UInt8) :=
  L.map fun n => n.2.devName.text

theorem holdsList_empty {α : Type} : HoldsList (ListMemory.empty : ListMemory α) [] :=
  ⟨IsList.nil _, fun _ ha => absurd ha List.not_mem_nil⟩

theorem addDestNodes_eq (cells : List (Cell DestInfo)) :
    ∃ m, addDestNodes cells = some m ∧ IsList m.heap m.head (destNodes cells) := by
  have hclear : ∀ v w, sameIp v (clearDest w) = sameIp v w := fun _ _ => rfl
  obtain ⟨m, hrun, hm⟩ := holdsList_empty.addNodes hclear cells
  exact ⟨m, hrun, hm.isList⟩

theorem addStateNodes_eq (cells : List (Cell PortStateIndex)) :
    ∃ m, addStateNodes cells = some m ∧ HoldsList m (stateNodes cells) := by
  have hclear : ∀ v w, sameDev v (clearState w) = sameDev v w := fun _ _ => rfl
  have hadd : addStateNode = addNode sameDev clearState := by
    funext fuel h head pnew
    exact addStateNode_eq fuel h head pnew
  obtain ⟨m, hrun, hm⟩ := holdsList_empty.addNodes hclear cells
  refine ⟨m, ?_, hm⟩
  rw [addStateNodes, hadd]
  exact hrun

/-! ## `struct PORT_INDEX` -/

/-- A `struct PORT_INDEX_INFO`. -/
structure PortIndexInfo where
  devName : List UInt8
  trapLevel : Int
  trapState : UInt32

/-- A `struct PORT_INDEX`, as far as the names go. -/
structure PortIndex where
  portCount : Nat
  port : List PortIndexInfo

/-- After `memset(&share_struct, 0, sizeof(share_struct))`. -/
def PortIndex.zero : PortIndex := ⟨0, List.replicate 64 ⟨List.replicate 16 0, 0, 0⟩⟩

/-- The loop of `display_state_list`. There are 64 entries. -/
def displayLoop : Nat → Heap PortStateIndex → Ptr → Nat → PortIndex → Option PortIndex
  | _, _, none, _, shareStruct => some shareStruct
  | 0, _, some _, _, _ => none
  | fuel + 1, h, some p, i, shareStruct => do
      let c ← h p
      if i < 64 then
        displayLoop fuel h c.next (i + 1)
          { portCount := shareStruct.portCount + 1
            port := shareStruct.port.modify i fun e =>
              { e with devName := strcpy e.devName c.val.devName.bytes } }
      else none

/-- `display_state_list`. -/
def displayStateList (m : ListMemory PortStateIndex) (shareStruct : PortIndex) :
    Option PortIndex :=
  displayLoop m.brk m.heap m.head 0 shareStruct

/-- `search_port_index`: which entry the pointer is to, if it is not `NULL`. -/
def searchPortIndex (port : PortIndex) (devName : List UInt8) : Option Nat :=
  (port.port.take port.portCount).findIdx? fun e => cstr e.devName == cstr devName

/-- The entries that are counted, which have the names. -/
structure Displays (x : PortIndex) (names : List (List UInt8)) : Prop where
  size : x.port.length = 64
  count_eq : x.portCount = names.length
  names_eq : (x.port.take x.portCount).map (fun e => cstr e.devName) = names

@[simp] theorem cstr_strcpy (dest src : List UInt8) : cstr (strcpy dest src) = cstr src := by
  have h0 : (0 : UInt8) ∉ cstr src := fun hmem => by simpa using List.mem_takeWhile_imp hmem
  rw [strcpy, cstr_append_zero, cstr_eq_self h0]

theorem displays_zero : Displays PortIndex.zero [] := ⟨List.length_replicate, rfl, rfl⟩

theorem Displays.concat {x : PortIndex} {names : List (List UInt8)} (hx : Displays x names)
    (hlt : names.length < 64) (bytes : List UInt8) :
    Displays ⟨x.portCount + 1, x.port.modify names.length fun e =>
      { e with devName := strcpy e.devName bytes }⟩ (names ++ [cstr bytes]) := by
  have hi : names.length < x.port.length := by
    rw [hx.size]
    exact hlt
  refine ⟨by rw [List.length_modify, hx.size], ?_, ?_⟩
  · rw [List.length_append, hx.count_eq, List.length_singleton]
  · have hnames := hx.names_eq
    have hlen : (x.port.take names.length).length = names.length :=
      List.length_take_of_le hi.le
    rw [hx.count_eq] at hnames ⊢
    rw [List.modify_eq_take_cons_drop hi, ← List.singleton_append, ← List.append_assoc,
      List.take_append_of_le_length (by rw [List.length_append, hlen, List.length_singleton]),
      List.take_of_length_le (by rw [List.length_append, hlen, List.length_singleton]),
      List.map_append, hnames, List.map_singleton, cstr_strcpy]

/-- Every node goes into the next entry. -/
theorem displayLoop_eq {h : Heap PortStateIndex} {L : List (Addr × PortStateIndex)}
    (hs : Linked h L) {fuel : Nat} (hfuel : L.length ≤ fuel) {x : PortIndex}
    {names : List (List UInt8)} (hx : Displays x names) (hlen : names.length + L.length ≤ 64) :
    ∃ x', displayLoop fuel h (first L) names.length x = some x' ∧
      Displays x' (names ++ devNames L) := by
  induction L generalizing fuel x names with
  | nil =>
      rw [devNames, List.map_nil, List.append_nil]
      exact ⟨x, by cases fuel <;> rfl, hx⟩
  | cons n L ih =>
      rw [List.length_cons] at hfuel hlen
      obtain ⟨fuel, rfl⟩ : ∃ k, fuel = k + 1 := ⟨fuel - 1, by omega⟩
      have hlt : names.length < 64 := by omega
      have hx₁ := hx.concat hlt n.2.devName.bytes
      have hlen₁ : (names ++ [cstr n.2.devName.bytes]).length = names.length + 1 := by
        rw [List.length_append, List.length_singleton]
      obtain ⟨x', hrun, hx'⟩ := ih hs.2 (Nat.le_of_succ_le_succ hfuel) hx₁ (by rw [hlen₁]; omega)
      refine ⟨x', ?_, ?_⟩
      · rw [hlen₁] at hrun
        rw [first, displayLoop, hs.1]
        simp only [Option.bind_eq_bind, Option.bind_some, if_pos hlt]
        exact hrun
      · rwa [List.append_assoc, List.singleton_append] at hx'

theorem displayStateList_eq {m : ListMemory PortStateIndex} {L : List (Addr × PortStateIndex)}
    (hm : HoldsList m L) (hlen : L.length ≤ 64) :
    ∃ x, displayStateList m PortIndex.zero = some x ∧ Displays x (devNames L) := by
  rw [displayStateList, hm.isList.head_eq]
  refine displayLoop_eq hm.isList.linked hm.length_le displays_zero ?_
  rwa [List.length_nil, Nat.zero_add]

/-- The search goes by position. -/
theorem Displays.search {x : PortIndex} {names : List (List UInt8)} (hx : Displays x names)
    (devName : List UInt8) :
    searchPortIndex x devName = names.findIdx? fun t => t == cstr devName := by
  rw [searchPortIndex, ← hx.names_eq, List.findIdx?_map]
  rfl

/-- In a list without repetitions the search finds an element where it is. -/
theorem findIdx?_of_nodup {β : Type} [BEq β] [LawfulBEq β] {l : List β} (hnd : l.Nodup) {i : Nat}
    {b : β} (hi : l[i]? = some b) : l.findIdx? (fun t => t == b) = some i := by
  obtain ⟨hlt, rfl⟩ := List.getElem?_eq_some_iff.mp hi
  rw [List.findIdx?_eq_some_iff_getElem]
  refine ⟨hlt, BEq.rfl, ?_⟩
  intro j hj hbeq
  exact absurd (hnd.getElem_inj_iff.mp (eq_of_beq hbeq)) (by omega)

/-! ## The lists as sets -/

/-- What a list of ports is after a sequence of fresh nodes. -/
structure StateListOk (cells : List (Cell PortStateIndex)) : Prop where
  names_eq : devNames (stateNodes cells) = (cells.map fun c => c.val.devName.text).eraseDups
  cleared : ∀ n ∈ stateNodes cells, n.2.trapLevel = 0 ∧ n.2.trapState = 0
  kept : ∀ more, stateNodes cells <+: stateNodes (cells ++ more)

/-- What a list of destinations is after a sequence of fresh nodes. -/
structure DestListOk (cells : List (Cell DestInfo)) : Prop where
  ips_eq : destIps (destNodes cells) = (cells.map fun c => c.val.destIp.text).eraseDups
  cleared : ∀ n ∈ destNodes cells, n.2.linklossTrapFlag = 0 ∧ n.2.linkdelayTrapFlag = 0
  kept : ∀ more, destNodes cells <+: destNodes (cells ++ more)

theorem stateListOk (cells : List (Cell PortStateIndex)) : StateListOk cells where
  names_eq := by
    have hempty : devNames [] = ([] : List (List UInt8)).eraseDups := rfl
    have hkey : ∀ v, (clearState v).devName.text = v.devName.text := fun _ => rfl
    exact map_addedNodes (fun v : PortStateIndex => v.devName.text) hkey hempty 0 cells
  cleared := by
    apply forall_mem_addedNodes fun v : PortStateIndex => v.trapLevel = 0 ∧ v.trapState = 0
    · intro v
      exact ⟨rfl, rfl⟩
    · intro n hn
      cases hn
  kept := by
    intro more
    unfold stateNodes
    rw [addedNodes_append]
    exact prefix_addedNodes _ _ more

theorem destListOk (cells : List (Cell DestInfo)) : DestListOk cells where
  ips_eq := by
    have hempty : destIps [] = ([] : List (List UInt8)).eraseDups := rfl
    have hkey : ∀ v, (clearDest v).destIp.text = v.destIp.text := fun _ => rfl
    exact map_addedNodes (fun v : DestInfo => v.destIp.text) hkey hempty 0 cells
  cleared := by
    apply forall_mem_addedNodes fun v : DestInfo =>
      v.linklossTrapFlag = 0 ∧ v.linkdelayTrapFlag = 0
    · intro v
      exact ⟨rfl, rfl⟩
    · intro n hn
      cases hn
  kept := by
    intro more
    unfold destNodes
    rw [addedNodes_append]
    exact prefix_addedNodes _ _ more

/-- **The lists are sets in the order of first appearance, and the index is the list.** -/
theorem lists_duplicate_free_and_complete :
    (∀ cells : List (Cell PortStateIndex),
      (∃ m, addStateNodes cells = some m ∧ IsList m.heap m.head (stateNodes cells)) ∧
        StateListOk cells) ∧
    (∀ cells : List (Cell DestInfo),
      (∃ m, addDestNodes cells = some m ∧ IsList m.heap m.head (destNodes cells)) ∧
        DestListOk cells) ∧
    ∀ cells : List (Cell PortStateIndex), (stateNodes cells).length ≤ 64 →
      ∃ m x, addStateNodes cells = some m ∧ displayStateList m PortIndex.zero = some x ∧
        (x.port.take x.portCount).map (fun e => cstr e.devName) = devNames (stateNodes cells) ∧
        (∀ i devName, (devNames (stateNodes cells))[i]? = some (cstr devName) →
          searchPortIndex x devName = some i) ∧
        ∀ devName, cstr devName ∉ devNames (stateNodes cells) →
          searchPortIndex x devName = none := by
  refine ⟨?_, ?_, ?_⟩
  · intro cells
    obtain ⟨m, hrun, hm⟩ := addStateNodes_eq cells
    exact ⟨⟨m, hrun, hm.isList⟩, stateListOk cells⟩
  · intro cells
    exact ⟨addDestNodes_eq cells, destListOk cells⟩
  · intro cells hlen
    obtain ⟨m, hrun, hm⟩ := addStateNodes_eq cells
    obtain ⟨x, hdisplay, hx⟩ := displayStateList_eq hm hlen
    have hnd : (devNames (stateNodes cells)).Nodup := by
      rw [(stateListOk cells).names_eq]
      exact nodup_eraseDups _
    refine ⟨m, x, hrun, hdisplay, hx.names_eq, ?_, ?_⟩
    · intro i devName hi
      rw [hx.search]
      exact findIdx?_of_nodup hnd hi
    · intro devName hmem
      rw [hx.search, List.findIdx?_eq_none_iff]
      intro t ht
      exact beq_eq_false_iff_ne.mpr fun heq => hmem (heq ▸ ht)

/-- A node for `eth` and a digit, with what `malloc` left in it. -/
def ethCell (digit : UInt8) : Cell PortStateIndex where
  val := ⟨⟨[101, 116, 104, digit] ++ List.replicate 12 0, rfl, by simp⟩, 7, 9⟩
  next := some 40

/-- `eth0` twice with `eth1` between. -/
theorem lists_duplicate_free_and_complete_eth :
    (stateNodes [ethCell 48, ethCell 49, ethCell 48]).length ≤ 64 ∧
    ∃ m x, addStateNodes [ethCell 48, ethCell 49, ethCell 48] = some m ∧
      displayStateList m PortIndex.zero = some x ∧
      searchPortIndex x [101, 116, 104, 49, 0] = some 1 ∧
      searchPortIndex x [101, 116, 104, 50, 0] = none := by
  have hlen : (stateNodes [ethCell 48, ethCell 49, ethCell 48]).length ≤ 64 := by decide
  obtain ⟨m, x, hrun, hdisplay, -, hfound, hnone⟩ :=
    lists_duplicate_free_and_complete.2.2 [ethCell 48, ethCell 49, ethCell 48] hlen
  exact ⟨hlen, m, x, hrun, hdisplay, hfound 1 _ (by decide), hnone _ (by decide)⟩

end Monitor
