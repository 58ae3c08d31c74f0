import IcnPrototype.Rm.Network

set_option autoImplicit false

/-! # Alignment of the link table

The table may name the two ends of a link in either order. Before an RM uses it,
`aligment_configure` swaps the ends of its own links where necessary, so that `eid1` is the RM
itself. The ends are swapped in place, the addresses through a temporary and the NIDs byte by byte.

Two RMs that begin with the same table then see each link between them from their own end, and
exactly one of them is the sponsor of it (`aligmentConfigure_agree`).
-/

namespace Rm

/-! ## The bytes of a NID -/

def Nid.byte (eid : Nid) (j : Nat) : UInt8 := eid.nid.getD j 0

def Nid.setByte (eid : Nid) (j : Nat) (b : UInt8) : Nid :=
  ⟨eid.nid.set j b, by rw [List.length_set, eid.size_eq]⟩

theorem Nid.byte_setByte (eid : Nid) {j : Nat} (hj : j < 16) (b : UInt8) (i : Nat) :
    (eid.setByte j b).byte i = if j = i then b else eid.byte i := by
  unfold byte setByte
  rw [List.getD_eq_getElem?_getD, List.getD_eq_getElem?_getD, List.getElem?_set, eid.size_eq,
    if_pos hj]
  split <;> rfl

theorem Nid.ext_byte {eid1 eid2 : Nid} (h : ∀ j < 16, eid1.byte j = eid2.byte j) : eid1 = eid2 := by
  have hbytes : eid1.nid = eid2.nid := by
    apply List.ext_getElem (eid1.size_eq.trans eid2.size_eq.symm)
    intro j h1 h2
    have hj := h j (by rw [eid1.size_eq] at h1; exact h1)
    unfold byte at hj
    rwa [List.getD_eq_getElem?_getD, List.getD_eq_getElem?_getD, List.getElem?_eq_getElem h1,
      List.getElem?_eq_getElem h2] at hj
  cases eid1
  cases eid2
  cases hbytes
  rfl

/-! ## `aligment_configure` -/

/-- One round of the loop over the bytes. -/
def NidIpNidIpNid.moveByte (hostNID : Nid) (item : NidIpNidIpNid) (j : Nat) : NidIpNidIpNid :=
  let item := { item with eid2 := item.eid2.setByte j (item.eid1.byte j) }
  { item with eid1 := item.eid1.setByte j (hostNID.byte j) }

/-- One row. `hostNID` is the array `HOST_NID`, `hostNid` the variable `host_nid`. -/
def NidIpNidIpNid.align (hostNID hostNid : Nid) (item : NidIpNidIpNid) : NidIpNidIpNid :=
  if compareNid hostNid item.eid1 = 0 ∨ compareNid hostNid item.eid2 = 0 then
    if compareNid hostNid item.eid1 ≠ 0 then
      (List.range 16).foldl (moveByte hostNID) { item with ip1 := item.ip2, ip2 := item.ip1 }
    else item
  else item

/-- `aligment_configure` -/
def aligmentConfigure (hostNID hostNid : Nid) (table : List NidIpNidIpNid) : List NidIpNidIpNid :=
  table.map (NidIpNidIpNid.align hostNID hostNid)

/-- The test of `timer0_cb` that a link has this host as its sponsor, without the NIDs of the two
ends: they are those of the host and of the neighbour. -/
def NidIpNidIpNid.sponsors (item : NidIpNidIpNid) : Bool := compareNid item.eid1 item.eid2 ≤ 0

/-- The loop of `timer0_cb` over the rows: whether the host is the sponsor of a link to the
neighbour. It ends at the first one. -/
def isSponsor (hostNid eid : Nid) (table : List NidIpNidIpNid) : Bool :=
  table.any fun item => item.isLink hostNid eid && item.sponsors

/-! ## One row -/

namespace NidIpNidIpNid

/-- The bytes below `k` are moved. -/
structure Moved (hostNID : Nid) (k : Nat) (old new : NidIpNidIpNid) : Prop where
  eid1 : ∀ j, new.eid1.byte j = if j < k then hostNID.byte j else old.eid1.byte j
  eid2 : ∀ j, new.eid2.byte j = if j < k then old.eid1.byte j else old.eid2.byte j
  ip1 : new.ip1 = old.ip1
  pid : new.pid = old.pid
  ip2 : new.ip2 = old.ip2

/-- One more byte is moved. -/
theorem ite_succ {α : Type} (f g : Nat → α) (j k : Nat) :
    (if k = j then f k else if j < k then f j else g j) = if j < k + 1 then f j else g j := by
  rcases Nat.lt_trichotomy j k with hlt | rfl | hgt
  · rw [if_neg (by omega), if_pos hlt, if_pos (by omega)]
  · rw [if_pos rfl, if_pos (by omega)]
  · rw [if_neg (by omega), if_neg (by omega), if_neg (by omega)]

theorem moved_moveByte {hostNID : Nid} {k : Nat} {old new : NidIpNidIpNid}
    (h : Moved hostNID k old new) (hk : k < 16) :
    Moved hostNID (k + 1) old (new.moveByte hostNID k) where
  eid1 j := by
    show (new.eid1.setByte k (hostNID.byte k)).byte j = _
    rw [Nid.byte_setByte _ hk, h.eid1, ite_succ hostNID.byte old.eid1.byte]
  eid2 j := by
    show (new.eid2.setByte k (new.eid1.byte k)).byte j = _
    rw [Nid.byte_setByte _ hk, h.eid1, h.eid2, if_neg (Nat.lt_irrefl k),
      ite_succ old.eid1.byte old.eid2.byte]
  ip1 := h.ip1
  pid := h.pid
  ip2 := h.ip2

theorem moved_loop (hostNID : Nid) (item : NidIpNidIpNid) {k : Nat} (hk : k ≤ 16) :
    Moved hostNID k item ((List.range k).foldl (moveByte hostNID) item) := by
  induction k with
  | zero =>
      exact ⟨fun j => (if_neg (Nat.not_lt_zero j)).symm, fun j => (if_neg (Nat.not_lt_zero j)).symm,
        rfl, rfl, rfl⟩
  | succ k ih =>
      rw [List.range_succ, List.foldl_append]
      exact moved_moveByte (ih (by omega)) (by omega)

/-- **The loop over the bytes** moves `eid1` to `eid2` and the host to `eid1`. -/
theorem foldl_moveByte (hostNID : Nid) (item : NidIpNidIpNid) :
    (List.range 16).foldl (moveByte hostNID) item
      = { item with eid1 := hostNID, eid2 := item.eid1 } := by
  have h := moved_loop hostNID item (le_refl 16)
  have heid1 : ((List.range 16).foldl (moveByte hostNID) item).eid1 = hostNID :=
    Nid.ext_byte fun j hj => by rw [h.eid1, if_pos hj]
  have heid2 : ((List.range 16).foldl (moveByte hostNID) item).eid2 = item.eid1 :=
    Nid.ext_byte fun j hj => by rw [h.eid2, if_pos hj]
  calc (List.range 16).foldl (moveByte hostNID) item
      = ⟨((List.range 16).foldl (moveByte hostNID) item).eid1, item.ip1, item.pid, item.ip2,
          ((List.range 16).foldl (moveByte hostNID) item).eid2⟩ := by
        rw [← h.ip1, ← h.pid, ← h.ip2]
    _ = _ := by rw [heid1, heid2]

/-- The row with its ends swapped. -/
def swapped (item : NidIpNidIpNid) : NidIpNidIpNid :=
  ⟨item.eid2, item.ip2, item.pid, item.ip1, item.eid1⟩

/-- The host is one of the two ends. -/
def Mentions (h : Nid) (item : NidIpNidIpNid) : Prop := item.eid1 = h ∨ item.eid2 = h

variable {h : Nid} {item : NidIpNidIpNid}

/-- A row that begins with the host stays. -/
theorem align_of_eid1 (heid1 : item.eid1 = h) : item.align h h = item := by
  have hzero : compareNid h item.eid1 = 0 := (compareNid_eq_zero _ _).mpr heid1.symm
  unfold align
  rw [if_pos (Or.inl hzero), if_neg (not_not_intro hzero)]

/-- A row that ends with the host is turned round. -/
theorem align_of_eid2 (heid1 : item.eid1 ≠ h) (heid2 : item.eid2 = h) :
    item.align h h = item.swapped := by
  have hne : compareNid h item.eid1 ≠ 0 := fun e => heid1 ((compareNid_eq_zero _ _).mp e).symm
  have hzero : compareNid h item.eid2 = 0 := (compareNid_eq_zero _ _).mpr heid2.symm
  unfold align
  rw [if_pos (Or.inr hzero), if_pos hne, foldl_moveByte, ← heid2]
  rfl

theorem align_of_not_mentions (hno : ¬ item.Mentions h) : item.align h h = item := by
  have hnone : ¬ (compareNid h item.eid1 = 0 ∨ compareNid h item.eid2 = 0) := by
    rw [compareNid_eq_zero, compareNid_eq_zero]
    exact fun e => hno (e.imp Eq.symm Eq.symm)
  unfold align
  rw [if_neg hnone]

/-- What the alignment leaves of a row. -/
structure Aligned (h : Nid) (old new : NidIpNidIpNid) : Prop where
  eid1 : old.Mentions h → new.eid1 = h
  pid : new.pid = old.pid
  ends : (new.eid1, new.ip1) = (old.eid1, old.ip1) ∧ (new.eid2, new.ip2) = (old.eid2, old.ip2)
    ∨ (new.eid1, new.ip1) = (old.eid2, old.ip2) ∧ (new.eid2, new.ip2) = (old.eid1, old.ip1)
  untouched : ¬ old.Mentions h → new = old

theorem align_aligned (h : Nid) (item : NidIpNidIpNid) : Aligned h item (item.align h h) := by
  by_cases heid1 : item.eid1 = h
  · rw [align_of_eid1 heid1]
    exact ⟨fun _ => heid1, rfl, Or.inl ⟨rfl, rfl⟩, fun _ => rfl⟩
  · by_cases heid2 : item.eid2 = h
    · rw [align_of_eid2 heid1 heid2]
      exact ⟨fun _ => heid2, rfl, Or.inr ⟨rfl, rfl⟩, fun hno => absurd (Or.inr heid2) hno⟩
    · have hno : ¬ item.Mentions h := fun hm => hm.elim heid1 heid2
      rw [align_of_not_mentions hno]
      exact ⟨fun hm => absurd hm hno, rfl, Or.inl ⟨rfl, rfl⟩, fun _ => rfl⟩

theorem align_align (h : Nid) (item : NidIpNidIpNid) :
    (item.align h h).align h h = item.align h h := by
  by_cases hm : item.Mentions h
  · exact align_of_eid1 ((align_aligned h item).eid1 hm)
  · rw [align_of_not_mentions hm, align_of_not_mentions hm]

end NidIpNidIpNid

/-! ## The table -/

/-- Of two different NIDs exactly one is not greater than the other. -/
theorem compareNid_xor {eid1 eid2 : Nid} (hne : eid1 ≠ eid2) :
    Xor (compareNid eid1 eid2 ≤ 0) (compareNid eid2 eid1 ≤ 0) := by
  have hswap := compareNid_neg_swap eid1 eid2
  by_cases hle : compareNid eid1 eid2 ≤ 0
  · exact Or.inl ⟨hle, compareNid_pos_of_neg hne hle⟩
  · exact Or.inr ⟨by omega, hle⟩

theorem isSponsor_iff {host eid : Nid} {table : List NidIpNidIpNid} :
    isSponsor host eid table = true
      ↔ (∃ item ∈ table, item.eid1 = host ∧ item.eid2 = eid) ∧ compareNid host eid ≤ 0 := by
  rw [isSponsor, List.any_eq_true]
  constructor
  · rintro ⟨item, hitem, htest⟩
    rw [Bool.and_eq_true, NidIpNidIpNid.isLink_iff] at htest
    obtain ⟨⟨rfl, rfl⟩, hle⟩ := htest
    exact ⟨⟨item, hitem, rfl, rfl⟩, of_decide_eq_true hle⟩
  · rintro ⟨⟨item, hitem, rfl, rfl⟩, hle⟩
    refine ⟨item, hitem, ?_⟩
    rw [Bool.and_eq_true, NidIpNidIpNid.isLink_iff]
    exact ⟨⟨rfl, rfl⟩, decide_eq_true hle⟩

theorem getElem?_aligmentConfigure {h : Nid} {table : List NidIpNidIpNid} {i : Nat}
    {item : NidIpNidIpNid} (hi : table[i]? = some item) :
    (aligmentConfigure h h table)[i]? = some (item.align h h) := by
  rw [aligmentConfigure, List.getElem?_map, hi, Option.map_some]

theorem forall₂_aligmentConfigure (h : Nid) (table : List NidIpNidIpNid) :
    List.Forall₂ (NidIpNidIpNid.Aligned h) table (aligmentConfigure h h table) := by
  induction table with
  | nil => exact List.Forall₂.nil
  | cons item table ih => exact List.Forall₂.cons (NidIpNidIpNid.align_aligned h item) ih

theorem aligmentConfigure_idempotent (h : Nid) (table : List NidIpNidIpNid) :
    aligmentConfigure h h (aligmentConfigure h h table) = aligmentConfigure h h table := by
  unfold aligmentConfigure
  rw [List.map_map]
  exact List.map_congr_left fun item _ => NidIpNidIpNid.align_align h item

/-- A link between two RMs, as each of them sees it. -/
theorem link_aligned {a b : Nid} (hne : a ≠ b) {table : List NidIpNidIpNid} {i : Nat}
    {ipA pid ipB : UInt32}
    (hi : table[i]? = some ⟨a, ipA, pid, ipB, b⟩ ∨ table[i]? = some ⟨b, ipB, pid, ipA, a⟩) :
    (aligmentConfigure a a table)[i]? = some ⟨a, ipA, pid, ipB, b⟩ := by
  rcases hi with hi | hi
  · rw [getElem?_aligmentConfigure hi, NidIpNidIpNid.align_of_eid1 (h := a) rfl]
  · rw [getElem?_aligmentConfigure hi, NidIpNidIpNid.align_of_eid2 (h := a) hne.symm rfl]
    rfl

/-- **The alignment, and what two RMs make of one table.** Every row of the host begins with the
host afterwards, with its PID and its two pairs of NID and address; the other rows are untouched;
and to align again changes nothing. Two different RMs see a link between them each from its own end,
and one of them is its sponsor. -/
theorem aligmentConfigure_agree (table : List NidIpNidIpNid) :
    (∀ h, List.Forall₂ (NidIpNidIpNid.Aligned h) table (aligmentConfigure h h table)
        ∧ aligmentConfigure h h (aligmentConfigure h h table) = aligmentConfigure h h table)
      ∧ ∀ (a b : Nid), a ≠ b → ∀ (i : Nat) (ipA pid ipB : UInt32),
        (table[i]? = some ⟨a, ipA, pid, ipB, b⟩ ∨ table[i]? = some ⟨b, ipB, pid, ipA, a⟩) →
        ∃ atA atB : NidIpNidIpNid, (aligmentConfigure a a table)[i]? = some atA
          ∧ (aligmentConfigure b b table)[i]? = some atB
          ∧ atA = ⟨a, ipA, pid, ipB, b⟩ ∧ atB = ⟨b, ipB, pid, ipA, a⟩
          ∧ Xor (atA.sponsors = true) (atB.sponsors = true)
          ∧ Xor (isSponsor a b (aligmentConfigure a a table) = true)
            (isSponsor b a (aligmentConfigure b b table) = true) := by
  refine ⟨fun h => ⟨forall₂_aligmentConfigure h table, aligmentConfigure_idempotent h table⟩, ?_⟩
  intro a b hne i ipA pid ipB hi
  have hA := link_aligned hne hi
  have hB := link_aligned hne.symm hi.symm
  have hxor := compareNid_xor hne
  refine ⟨_, _, hA, hB, rfl, rfl, ?_, ?_⟩
  · unfold NidIpNidIpNid.sponsors
    rw [decide_eq_true_iff, decide_eq_true_iff]
    exact hxor
  · -- the link itself is a row of either table
    have hrowA : ∃ item ∈ aligmentConfigure a a table, item.eid1 = a ∧ item.eid2 = b :=
      ⟨_, List.mem_of_getElem? hA, rfl, rfl⟩
    have hrowB : ∃ item ∈ aligmentConfigure b b table, item.eid1 = b ∧ item.eid2 = a :=
      ⟨_, List.mem_of_getElem? hB, rfl, rfl⟩
    rw [isSponsor_iff, isSponsor_iff, and_iff_right hrowA, and_iff_right hrowB]
    exact hxor

/-- A link that the table names from the other end. -/
theorem aligmentConfigure_agree_two :
    ∃ atA atB, (aligmentConfigure (.ofByte 1) (.ofByte 1) [link 2 1 10])[0]? = some atA
      ∧ (aligmentConfigure (.ofByte 2) (.ofByte 2) [link 2 1 10])[0]? = some atB
      ∧ Xor (atA.sponsors = true) (atB.sponsors = true) := by
  obtain ⟨atA, atB, hA, hB, -, -, hxor, -⟩ := (aligmentConfigure_agree [link 2 1 10]).2
    (.ofByte 1) (.ofByte 2) (by decide) 0 _ _ _ (Or.inr rfl)
  exact ⟨atA, atB, hA, hB, hxor⟩

end Rm
