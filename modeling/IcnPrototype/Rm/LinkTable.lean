import Mathlib.Tactic

set_option autoImplicit false

/-! # NIDs and the link table of an RM

The static data of a resource manager (`RM/wenxingbeng.c`): its 16-byte NID and the table
`nid_ip_nid_ip_nid_array`, one row per inter-domain link. A row names the NIDs of the two ends,
the addresses of their border routers and the PID of the link.

The table is compiled into the program, so here it is a parameter: a list of rows. Rows are
compared with NIDs by `compare_nid`, which is 0 exactly on equal NIDs (`compareNid_eq_zero`)
and is antisymmetric (`compareNid_neg_swap`).
-/

namespace Rm

/-- `nid_t`: sixteen bytes. -/
structure Nid where
  nid : List UInt8
  size_eq : nid.length = 16
  deriving DecidableEq

/-- The NID `0:…:0:b`, as the configuration writes them. -/
def Nid.ofByte (b : UInt8) : Nid := ⟨List.replicate 15 0 ++ [b], rfl⟩

/-- The loop of `compare_nid`: the first differing byte decides. -/
def compareBytes : List UInt8 → List UInt8 → Int
  | a :: as, b :: bs => if a < b then -1 else if a > b then 1 else compareBytes as bs
  | _, _ => 0

/-- `compare_nid`: negative, zero or positive as `eid1` is smaller than, equal to or greater
than `eid2`. -/
def compareNid (eid1 eid2 : Nid) : Int := compareBytes eid1.nid eid2.nid

theorem compareBytes_eq_zero : ∀ {as bs : List UInt8}, as.length = bs.length →
    (compareBytes as bs = 0 ↔ as = bs)
  | [], [], _ => by simp [compareBytes]
  | a :: as, b :: bs, h => by
      have hlen : as.length = bs.length := by simpa using h
      have ih := compareBytes_eq_zero hlen
      rw [compareBytes, List.cons.injEq]
      by_cases hlt : a < b
      · have hne : a ≠ b := fun e => by subst e; exact UInt8.lt_irrefl a hlt
        simp [hlt, hne]
      · by_cases hgt : a > b
        · have hne : a ≠ b := fun e => by subst e; exact UInt8.lt_irrefl a hgt
          simp [hlt, hgt, hne]
        · have heq : a = b := UInt8.le_antisymm (UInt8.not_lt.mp hgt) (UInt8.not_lt.mp hlt)
          simp [heq, ih]

@[simp] theorem compareNid_eq_zero (eid1 eid2 : Nid) : compareNid eid1 eid2 = 0 ↔ eid1 = eid2 := by
  rw [compareNid, compareBytes_eq_zero (eid1.size_eq.trans eid2.size_eq.symm)]
  constructor
  · intro h
    cases eid1; cases eid2
    simpa using h
  · rintro rfl
    rfl

theorem compareBytes_neg_swap : ∀ as bs : List UInt8, compareBytes bs as = - compareBytes as bs
  | [], bs => by cases bs <;> simp [compareBytes]
  | a :: as, [] => by simp [compareBytes]
  | a :: as, b :: bs => by
      rw [compareBytes, compareBytes, compareBytes_neg_swap as bs]
      by_cases hlt : a < b
      · have hgt : ¬ b < a := fun h => UInt8.lt_irrefl a (UInt8.lt_trans hlt h)
        simp [hlt, hgt]
      · by_cases hgt : b < a
        · simp [hlt, hgt]
        · simp [hlt, hgt]

theorem compareNid_neg_swap (eid1 eid2 : Nid) : compareNid eid2 eid1 = - compareNid eid1 eid2 :=
  compareBytes_neg_swap _ _

/-- Of two different NIDs exactly one is the smaller. -/
theorem compareNid_pos_of_neg {eid1 eid2 : Nid} (hne : eid1 ≠ eid2) (h : compareNid eid1 eid2 ≤ 0) :
    ¬ compareNid eid2 eid1 ≤ 0 := by
  have h0 : compareNid eid1 eid2 ≠ 0 := fun e => hne ((compareNid_eq_zero _ _).mp e)
  have hswap := compareNid_neg_swap eid1 eid2
  omega

/-! ## Rows -/

/-- `struct nid_ip_nid_ip_nid`: one link, its PID, and the address and NID at either end. -/
structure NidIpNidIpNid where
  eid1 : Nid
  ip1 : UInt32
  pid : UInt32
  ip2 : UInt32
  eid2 : Nid
  deriving DecidableEq

/-- The test that selects the links from the host to a neighbour: `eid1` is the host and `eid2`
the neighbour. -/
def NidIpNidIpNid.isLink (host eid : Nid) (item : NidIpNidIpNid) : Bool :=
  compareNid host item.eid1 == 0 && compareNid eid item.eid2 == 0

@[simp] theorem NidIpNidIpNid.isLink_iff (host eid : Nid) (item : NidIpNidIpNid) :
    item.isLink host eid = true ↔ item.eid1 = host ∧ item.eid2 = eid := by
  simp only [NidIpNidIpNid.isLink, Bool.and_eq_true, beq_iff_eq, compareNid_eq_zero]
  exact ⟨fun h => ⟨h.1.symm, h.2.symm⟩, fun h => ⟨h.1.symm, h.2.symm⟩⟩

/-- The PIDs of the links from the host to a neighbour, in the order of the table. -/
def linkPids (host eid : Nid) (table : List NidIpNidIpNid) : List UInt32 :=
  (table.filter (NidIpNidIpNid.isLink host eid)).map NidIpNidIpNid.pid

/-- The rows a loop visits whose bound is kept in a `uint8_t`. -/
def rows8 (table : List NidIpNidIpNid) : List NidIpNidIpNid := table.take (table.length % 256)

theorem rows8_eq_self {table : List NidIpNidIpNid} (h : table.length ≤ 255) :
    rows8 table = table := by
  rw [rows8, Nat.mod_eq_of_lt (by omega), List.take_length]

theorem rows8_length_le (table : List NidIpNidIpNid) : (rows8 table).length ≤ 255 := by
  have h : table.length % 256 < 256 := Nat.mod_lt _ (by decide)
  rw [rows8, List.length_take]
  omega

theorem linkPids_length_le (host eid : Nid) (table : List NidIpNidIpNid) :
    (linkPids host eid table).length ≤ table.length := by
  rw [linkPids, List.length_map]
  exact List.length_filter_le _ _

/-! ## A small configuration -/

/-- A link between the RMs `0:…:0:a` and `0:…:0:b`, as the table of `a` has it. -/
def link (a b : UInt8) (pid : UInt32) : NidIpNidIpNid where
  eid1 := .ofByte a
  ip1 := 0xC0A80100 + a.toUInt32
  pid := pid
  ip2 := 0xC0A80100 + b.toUInt32
  eid2 := .ofByte b

/-- A sponsor, the RM 1, with two neighbours. -/
def threeRms (host : Nid) : List NidIpNidIpNid :=
  if host = .ofByte 1 then [link 1 2 10, link 1 3 20]
  else if host = .ofByte 2 then [link 2 1 10]
  else [link 3 1 20]

end Rm
