import IcnPrototype.Lib.Bytes

set_option autoImplicit false

/-! # The routers of the test network

`RouterOne` to `RouterFour` and `BasicRouter` (`border_router/local`) are Click elements without
tables. Each has a trunk port and branch ports. Packets of one type go down, from the trunk to the
branch that the number in the packet names; packets of the other type go up, from any branch to the
trunk. A packet whose type does not fit its port is killed, and one that fits no case is forgotten.

So a packet finds its way down by its number and its way up without it, and an answer, which is of
the other type, has it the other way round. `carries_back_iff` says when the answer comes back on the
way of the request, in a network of any size: when its number names, at each router where the
request went up, the branch the request came from.

`APcache` is a `BasicRouter` with a cache that nobody fills: `apcache_fates`.
-/

namespace BorderRouter

open Bytes

/-! ## The elements -/

/-- What becomes of a packet: `kill`, an output, or neither; `APcache` may answer with a packet of
its own. -/
inductive Fate where
  | killed
  | output (port : Nat)
  | answered (port : Nat) (pkg : Mem)
  | forgotten

/-- What is different between the elements: the trunk, the branches, the type that goes down, and the
branch that a number names. -/
structure Bridge where
  trunk : Nat
  branches : List Nat
  down : UInt8
  branchOf : UInt8 → Option Nat
  trunk_not_mem : trunk ∉ branches
  down_cases : down = 0 ∨ down = 1
  mem_of_branchOf : ∀ {num k}, branchOf num = some k → k ∈ branches

/-- The type that goes up. -/
def Bridge.up (b : Bridge) : UInt8 := 1 - b.down

/-- `push`. The first byte of a packet is its type, the fourth its number. -/
def Bridge.push (b : Bridge) (port : Nat) (data : Mem) : Fate :=
  let type := data 0
  let num := data 3
  if port = b.trunk ∧ type = b.up then .killed
  else if port ∈ b.branches ∧ type = b.down then .killed
  else if port ∈ b.branches ∧ type = b.up then .output b.trunk
  else if port = b.trunk ∧ type = b.down then
    match b.branchOf num with
    | some k => .output k
    | none => .forgotten
  else .forgotten

/-- The values of an element whose branches are numbered: `if(num==..) output(..)`, one after the
other. -/
structure Numbers where
  trunk : Nat
  branches : List Nat
  down : UInt8
  ports : List (UInt8 × Nat)

/-- The values fit together. -/
def Numbers.Fit (x : Numbers) : Prop :=
  x.trunk ∉ x.branches ∧ (x.down = 0 ∨ x.down = 1) ∧ ∀ y ∈ x.ports, y.2 ∈ x.branches

instance (x : Numbers) : Decidable x.Fit := instDecidableAnd

theorem Numbers.Fit.mem {x : Numbers} (h : x.Fit) {num : UInt8} {k : Nat}
    (hk : x.ports.lookup num = some k) : k ∈ x.branches := by
  obtain ⟨front, behind, hsplit, -⟩ := List.lookup_eq_some_iff.mp hk
  apply h.2.2 (num, k)
  rw [hsplit]
  exact List.mem_append_right _ List.mem_cons_self

def Numbers.bridge (x : Numbers) (h : x.Fit) : Bridge where
  trunk := x.trunk
  branches := x.branches
  down := x.down
  branchOf num := x.ports.lookup num
  trunk_not_mem := h.1
  down_cases := h.2.1
  mem_of_branchOf := h.mem

/-- The ports and numbers of `RouterOne`. -/
def numbersOne : Numbers := ⟨0, [1, 2], 1, [(1, 1), (2, 2)]⟩

/-- The ports and numbers of `RouterTwo`, which sends two numbers to one branch. -/
def numbersTwo : Numbers := ⟨0, [1, 2, 3], 1, [(1, 1), (2, 1), (3, 2), (4, 3)]⟩

/-- The ports and numbers of `RouterThree`. -/
def numbersThree : Numbers := ⟨1, [0, 2, 3], 0, [(1, 2), (2, 0), (3, 3), (4, 0)]⟩

/-- The ports and numbers of `RouterFour`, which does nothing on its port 0. -/
def numbersFour : Numbers := ⟨1, [2, 3], 0, [(2, 2), (4, 3)]⟩

theorem numbersOne_fit : numbersOne.Fit := by decide

theorem numbersTwo_fit : numbersTwo.Fit := by decide

theorem numbersThree_fit : numbersThree.Fit := by decide

theorem numbersFour_fit : numbersFour.Fit := by decide

/-- `RouterOne` -/
def routerOne : Bridge := numbersOne.bridge numbersOne_fit

/-- `RouterTwo` -/
def routerTwo : Bridge := numbersTwo.bridge numbersTwo_fit

/-- `RouterThree` -/
def routerThree : Bridge := numbersThree.bridge numbersThree_fit

/-- `RouterFour` -/
def routerFour : Bridge := numbersFour.bridge numbersFour_fit

theorem basicTrunk_not_mem : 0 ∉ [1] := by decide

theorem basicDown_cases : (0 : UInt8) = 0 ∨ (0 : UInt8) = 1 := Or.inl rfl

theorem basicBranch_mem {k : Nat} (h : some 1 = some k) : k ∈ [1] := by
  rw [← Option.some.inj h]
  exact List.mem_cons_self

/-- `BasicRouter`: one branch, for every number. -/
def basicRouter : Bridge where
  trunk := 0
  branches := [1]
  down := 0
  branchOf _ := some 1
  trunk_not_mem := basicTrunk_not_mem
  down_cases := basicDown_cases
  mem_of_branchOf := basicBranch_mem

/-! ## The way back -/

section Push

variable {b : Bridge} {port k : Nat} {data reply : Mem}

theorem Bridge.down_ne_up (b : Bridge) : b.down ≠ b.up := by
  unfold Bridge.up
  rcases b.down_cases with h | h
  · rw [h]
    decide
  · rw [h]
    decide

theorem Bridge.other_up (b : Bridge) : 1 - b.up = b.down := by
  unfold Bridge.up
  rcases b.down_cases with h | h
  · rw [h]
    decide
  · rw [h]
    decide

/-- A packet is passed on to the trunk, or from the trunk. -/
theorem Bridge.push_eq_output : b.push port data = .output k
    ↔ (port ∈ b.branches ∧ data 0 = b.up ∧ k = b.trunk)
      ∨ (port = b.trunk ∧ data 0 = b.down ∧ b.branchOf (data 3) = some k) := by
  have hdown := b.down_ne_up
  have htrunk := b.trunk_not_mem
  unfold Bridge.push
  dsimp only
  split
  · next h =>
      refine iff_of_false (fun h' => by cases h') ?_
      rintro (⟨hmem, -, -⟩ | ⟨-, htype, -⟩)
      · exact htrunk (h.1 ▸ hmem)
      · exact hdown (htype.symm.trans h.2)
  · split
    · next h =>
        refine iff_of_false (fun h' => by cases h') ?_
        rintro (⟨-, htype, -⟩ | ⟨hport, -, -⟩)
        · exact hdown (h.2.symm.trans htype)
        · exact htrunk (hport ▸ h.1)
    · split
      · next h =>
          rw [Fate.output.injEq, and_iff_right h.1, and_iff_right h.2, or_iff_left]
          · exact eq_comm
          · rintro ⟨hport, -, -⟩
            exact htrunk (hport ▸ h.1)
      · next hnot =>
          rw [or_iff_right fun h => hnot ⟨h.1, h.2.1⟩]
          split
          · next h =>
              rw [and_iff_right h.1, and_iff_right h.2]
              split
              · next j hj => rw [hj, Fate.output.injEq, Option.some.injEq]
              · next hj =>
                  rw [hj]
                  exact iff_of_false (fun h' => by cases h') (fun h' => by cases h')
          · next hnone => exact iff_of_false (fun h' => by cases h') fun h' => hnone ⟨h'.1, h'.2.1⟩

/-- **One router.** A packet of the other type is passed back, if need be by its number. -/
theorem Bridge.push_back (h : b.push port data = .output k) (htype : reply 0 = 1 - data 0) :
    b.push k reply = .output port ↔ (k = b.trunk → b.branchOf (reply 3) = some port) := by
  rw [Bridge.push_eq_output]
  rcases Bridge.push_eq_output.mp h with ⟨hport, hup, rfl⟩ | ⟨rfl, hdown, hbranch⟩
  · -- the request went up, so the reply comes down
    have hreply : reply 0 = b.down := by
      rw [htype, hup, b.other_up]
    rw [imp_iff_right rfl, or_iff_right fun h' => b.trunk_not_mem h'.1, and_iff_right rfl,
      and_iff_right hreply]
  · have hreply : reply 0 = b.up := by
      rw [htype, hdown]
      rfl
    have hmem : k ∈ b.branches := b.mem_of_branchOf hbranch
    have hne : k ≠ b.trunk := fun heq => b.trunk_not_mem (heq ▸ hmem)
    exact iff_of_true (Or.inl ⟨hmem, hreply, rfl⟩) fun heq => absurd heq hne

end Push

/-! ## Networks -/

/-- Routers, and cables between their ports. -/
structure Network (ι : Type*) where
  router : ι → Bridge
  cable : ι × Nat → Option (ι × Nat)
  cable_symm : ∀ {x y}, cable x = some y → cable y = some x

/-- What a packet does at a router: the port it comes in by, and the one it leaves by. -/
structure Hop (ι : Type*) where
  node : ι
  entry : Nat
  exit : Nat

variable {ι : Type*} {N : Network ι} {data reply : Mem} {way : List (Hop ι)}

/-- The hop back. -/
def Hop.turn (h : Hop ι) : Hop ι := ⟨h.node, h.exit, h.entry⟩

/-- Two hops, one after the other. -/
def Network.Joined (N : Network ι) (h h' : Hop ι) : Prop :=
  N.cable (h.node, h.exit) = some (h'.node, h'.entry)

/-- The network carries a packet along a way. -/
def Network.Carries (N : Network ι) (data : Mem) (way : List (Hop ι)) : Prop :=
  (∀ h ∈ way, (N.router h.node).push h.entry data = .output h.exit) ∧ way.IsChain N.Joined

/-- The way back. -/
def wayBack (way : List (Hop ι)) : List (Hop ι) := (way.map Hop.turn).reverse

theorem Network.Joined.back {h h' : Hop ι} (hjoined : N.Joined h h') : N.Joined h'.turn h.turn :=
  N.cable_symm hjoined

/-- The cables lead back. -/
theorem isChain_wayBack (h : way.IsChain N.Joined) : (wayBack way).IsChain N.Joined := by
  unfold wayBack
  rw [List.isChain_reverse, List.isChain_map]
  exact h.imp fun _ _ hjoined => hjoined.back

/-- **The way of an answer.** On the way of a request, an answer of the other type comes back if and
only if its number names, at each router where the request left by the trunk, the branch by which the
request came. -/
theorem carries_back_iff (h : N.Carries data way) (htype : reply 0 = 1 - data 0) :
    N.Carries reply (wayBack way)
      ↔ ∀ hop ∈ way, hop.exit = (N.router hop.node).trunk →
        (N.router hop.node).branchOf (reply 3) = some hop.entry := by
  unfold Network.Carries
  rw [and_iff_left (isChain_wayBack h.2)]
  constructor
  · intro hback hop hmem
    have hturn : hop.turn ∈ wayBack way :=
      List.mem_reverse.mpr (List.mem_map_of_mem hmem)
    exact (Bridge.push_back (h.1 hop hmem) htype).mp (hback hop.turn hturn)
  · intro hnames hop hmem
    obtain ⟨hop', hmem', rfl⟩ := List.mem_map.mp (List.mem_reverse.mp hmem)
    exact (Bridge.push_back (h.1 hop' hmem') htype).mpr (hnames hop' hmem')

/-- `RouterTwo` and `RouterThree`, with a cable between their branches 1 and 2. -/
def twoRouters : Bool → Bridge
  | true => routerTwo
  | false => routerThree

def twoCable (x : Bool × Nat) : Option (Bool × Nat) :=
  if x = (true, 1) then some (false, 2) else if x = (false, 2) then some (true, 1) else none

theorem twoCable_symm {x y : Bool × Nat} (h : twoCable x = some y) : twoCable y = some x := by
  unfold twoCable at h
  split at h
  · next hx =>
      rw [← Option.some.inj h, hx]
      rfl
  · split at h
    · next hx =>
        rw [← Option.some.inj h, hx]
        rfl
    · cases h

def twoNetwork : Network Bool := ⟨twoRouters, twoCable, twoCable_symm⟩

/-- A packet of a type, with a number. -/
def numbered (type num : UInt8) : Mem := fun i => if i = 0 then type else if i = 3 then num else 0

def twoWay : List (Hop Bool) := [⟨true, 0, 1⟩, ⟨false, 2, 1⟩]

/-- The request 1 goes down at the first router and up at the second one; its answer comes back with
the number 1 and not with the number 2. -/
theorem carries_back_iff_two : twoNetwork.Carries (numbered 1 1) twoWay
    ∧ twoNetwork.Carries (numbered 0 1) (wayBack twoWay)
    ∧ ¬ twoNetwork.Carries (numbered 0 2) (wayBack twoWay) := by
  have hthere : twoNetwork.Carries (numbered 1 1) twoWay := by
    refine ⟨List.forall_mem_cons.mpr ⟨rfl, List.forall_mem_singleton.mpr rfl⟩, ?_⟩
    exact List.isChain_pair.mpr rfl
  refine ⟨hthere, (carries_back_iff hthere rfl).mpr ?_, mt (carries_back_iff hthere rfl).mp ?_⟩
  · exact List.forall_mem_cons.mpr
      ⟨fun h => absurd h (by decide), List.forall_mem_singleton.mpr fun _ => rfl⟩
  · intro h
    cases h ⟨false, 2, 1⟩ (List.mem_cons_of_mem _ List.mem_cons_self) rfl

/-! ## `APcache` -/

/-- The members of `APcache`: whether the answer is in the cache, and the answer. `type`, `seq`,
`interest` and `data` are set by every call before they are read. -/
structure APcache where
  incache : Nat
  pkg : Mem

/-- The constructor leaves `pkg` as it is. -/
def APcache.new (pkg : Mem) : APcache := ⟨0, pkg⟩

/-- `push` -/
def APcache.push (s : APcache) (port : Nat) (p : Mem) : APcache × Fate :=
  let type := p 0
  let seq := p 1
  let interest := type = 0
  let data := type = 1
  if port = 0 ∧ data then (s, .killed)
  else if port = 1 ∧ data then (s, .output 0)
  else if port = 0 ∧ interest then
    if s.incache = 0 then (s, .output 1)
    else if s.incache = 1 then ({ s with pkg := poke s.pkg 0 [type, seq] }, .answered 0 s.pkg)
    else (s, .forgotten)
  else if port = 1 ∧ interest then (s, .killed)
  else (s, .forgotten)

/-- What becomes of the packets of a run. -/
def APcache.fates (s : APcache) : List (Nat × Mem) → List Fate
  | [] => []
  | (port, data) :: rest => (s.push port data).2 :: ((s.push port data).1.fates rest)

/-- Nothing fills the cache, and an empty one is a bridge. -/
theorem APcache.push_empty {s : APcache} (h : s.incache = 0) (port : Nat) (p : Mem) :
    s.push port p = (s, basicRouter.push port p) := by
  have hup : basicRouter.up = 1 := rfl
  have hdown : basicRouter.down = 0 := rfl
  have htrunk : basicRouter.trunk = 0 := rfl
  have hbranches : port ∈ basicRouter.branches ↔ port = 1 := List.mem_singleton
  have hbranch : basicRouter.branchOf (p 3) = some 1 := rfl
  unfold APcache.push Bridge.push
  simp only [hup, hdown, htrunk, hbranches, hbranch, h, if_true]
  by_cases h0 : port = 0 ∧ p 0 = 1
  · rw [if_pos h0, if_pos h0]
  · rw [if_neg h0, if_neg h0]
    by_cases h1 : port = 1 ∧ p 0 = 1
    · rw [if_pos h1, if_neg, if_pos h1]
      rw [h1.2]
      simp
    · rw [if_neg h1]
      by_cases h2 : port = 0 ∧ p 0 = 0
      · rw [if_pos h2, if_neg, if_neg h1, if_pos h2]
        rw [h2.1]
        simp
      · rw [if_neg h2]
        by_cases h3 : port = 1 ∧ p 0 = 0
        · rw [if_pos h3, if_pos h3]
        · rw [if_neg h3, if_neg h3, if_neg h1, if_neg h2]

/-- **The cache is a bridge.** In every run `APcache` does with every packet what a `BasicRouter`
does; it never answers one. -/
theorem apcache_fates (pkg : Mem) (packets : List (Nat × Mem)) :
    (APcache.new pkg).fates packets = packets.map fun x => basicRouter.push x.1 x.2 := by
  induction packets with
  | nil => rfl
  | cons x rest ih =>
      have hpush : (APcache.new pkg).push x.1 x.2 = (APcache.new pkg, basicRouter.push x.1 x.2) :=
        APcache.push_empty rfl x.1 x.2
      rw [APcache.fates, hpush, ih]
      rfl

end BorderRouter
