import IcnPrototype.Lib.Writes
import IcnPrototype.BorderRouter.PidRouting

set_option autoImplicit false

/-! # The items of an announcement

The header of an announcement counts its items, and the records follow it. `push` decodes the
count, tests it and computes the offset of the last record from it. But the test is
`if(items=!0)`, which sets `items` to 1: it is always true, and the offset is always that of the
first record. So every announcement for the router installs its first record, also one that has
none, and skips the others.

What the announcement should do is `announceAll`: the three tables after it are sequences of
writes. `allInstalled_iff` says when the router gets there all the same: when there is a first
record and the tables hold already what the others would write.
-/

namespace BorderRouter

open Bytes Host Table

/-! ## The records -/

/-- `struct pid_item`, without `pre_pid`, which nothing reads. -/
structure PidItem where
  curPid : List UInt8
  sourceIp : UInt32
  destIp : UInt32
  time : UInt32

/-- `head.item` -/
def Packet.items (p : Packet) : Nat := (ntohs (load16 p.mem 46)).toNat

/-- The record with an index. -/
def Packet.item (p : Packet) (i : Nat) : PidItem where
  curPid := peek p.mem (178 + 20 * i) 4
  sourceIp := load32 p.mem (182 + 20 * i)
  destIp := load32 p.mem (186 + 20 * i)
  time := load32 p.mem (190 + 20 * i)

/-- The records that an announcement carries. -/
def Packet.pidItems (p : Packet) : List PidItem := (List.range p.items).map p.item

/-- The string under which a record is stored. -/
def PidItem.key (x : PidItem) : List UInt8 := IPBorderRouter.key x.curPid

/-- The time until which a record counts. -/
def PidItem.deadline (now : UInt32) (x : PidItem) : UInt32 := htonl x.time + now

namespace IPBorderRouter

/-- The next hop that a record announces. -/
def nextHop (r : IPBorderRouter) (x : PidItem) : UInt32 :=
  if x.sourceIp = r.sIp 1 then x.destIp else x.sourceIp

/-- Install one record. -/
def install (now : UInt32) (r : IPBorderRouter) (x : PidItem) : IPBorderRouter :=
  { r with
    pidpid := Function.update r.pidpid r.pidCNum x.curPid
    pidCNum := if r.pidCNum = 99 then 0 else r.pidCNum + 1
    pidIp := Function.update r.pidIp x.key (r.nextHop x)
    pidTime := Function.update r.pidTime x.key (x.deadline now) }

/-- Install the records of an announcement, one after the other. -/
def announceAll (now : UInt32) (r : IPBorderRouter) (items : List PidItem) : IPBorderRouter :=
  items.foldl (install now) r

/-- What `push` does with an announcement is to install the first record. -/
theorem announce_eq_install (r : IPBorderRouter) (now : UInt32) (p : Packet) :
    r.announce now p = r.install now (p.item 0) := rfl

/-! ## The tables after an announcement -/

section Tables

variable {r : IPBorderRouter} (now : UInt32) (items : List PidItem)

/-- The writes of the records to `pid_ip`. -/
def hopWrites (r : IPBorderRouter) (items : List PidItem) : List (List UInt8 × UInt32) :=
  items.map fun x => (x.key, r.nextHop x)

/-- The writes of the records to `pid_time`. -/
def timeWrites (now : UInt32) (items : List PidItem) : List (List UInt8 × UInt32) :=
  items.map fun x => (x.key, x.deadline now)

theorem install_pidCNum {x : PidItem} (hr : r.pidCNum < 100) :
    (r.install now x).pidCNum = (r.pidCNum + 1) % 100 := by
  show (if r.pidCNum = 99 then 0 else r.pidCNum + 1) = _
  split <;> omega

/-- **The tables after the records**, the later ones winning. -/
theorem announceAll_eq (hr : r.pidCNum < 100) :
    r.announceAll now items
      = { r with
          pidpid := writes r.pidpid (ringWrites 100 r.pidCNum (items.map PidItem.curPid))
          pidCNum := ringNext 100 r.pidCNum items.length
          pidIp := writes r.pidIp (r.hopWrites items)
          pidTime := writes r.pidTime (timeWrites now items) } := by
  induction items generalizing r with
  | nil => rw [List.length_nil, ringNext_zero hr]; rfl
  | cons x items ih =>
      have hnum := install_pidCNum now (x := x) hr
      have hlt : (r.install now x).pidCNum < 100 := by omega
      have hnext := ringNext_succ 100 r.pidCNum items.length
      calc r.announceAll now (x :: items) = (r.install now x).announceAll now items := rfl
        _ = _ := by
            rw [ih hlt, hnum, hnext]
            rfl

/-- The records repeat what the tables hold, and they go round the ring. -/
structure Repeats (r : IPBorderRouter) (now : UInt32) (items : List PidItem) : Prop where
  turns : items.length % 100 = 0
  ring : ∀ slot q, LastWrite (ringWrites 100 r.pidCNum (items.map PidItem.curPid)) slot q →
    r.pidpid slot = q
  hop : ∀ k ip, LastWrite (r.hopWrites items) k ip → r.pidIp k = ip
  time : ∀ k t, LastWrite (timeWrites now items) k t → r.pidTime k = t

/-- Records leave no trace exactly when they repeat what is there. -/
theorem announceAll_eq_self_iff (hr : r.pidCNum < 100) :
    r.announceAll now items = r ↔ r.Repeats now items := by
  rw [announceAll_eq now items hr]
  constructor
  · intro h
    obtain ⟨ipNic, sIp, pidIp, nidIp, pidTime, pidpid, pidCNum⟩ := r
    simp only [IPBorderRouter.mk.injEq, true_and] at h
    obtain ⟨hhop, htime, hring, hnum⟩ := h
    exact ⟨(ringNext_eq_iff hr).mp hnum, writes_eq_self_iff.mp hring, writes_eq_self_iff.mp hhop,
      writes_eq_self_iff.mp htime⟩
  · intro h
    rw [writes_eq_self_iff.mpr h.ring, writes_eq_self_iff.mpr h.hop, writes_eq_self_iff.mpr h.time,
      (ringNext_eq_iff hr).mpr h.turns]

end Tables

end IPBorderRouter

/-! ## When all records are installed -/

/-- The packet is an announcement. -/
def Input.IsAnnouncement (i : Input) : Prop := i.packet.mem 34 = 163 ∧ i.packet.mem 35 = 129

/-- The tables after `push` are those after all records of the announcement. -/
def AllInstalled (t : Traced) (i : Input) : Prop :=
  (t.router.push i.now i.stack i.port i.packet).1
    = t.router.announceAll i.now i.packet.pidItems

/-- The records that `push` skips repeat what the tables hold without them. For this router these
are all but the first, which must be there; for another one they are all. -/
def SkipsRepeatedOnly (t : Traced) (i : Input) : Prop :=
  if i.isMine then
    i.packet.items ≠ 0
      ∧ (t.router.install i.now (i.packet.item 0)).Repeats i.now i.packet.pidItems.tail
  else t.router.Repeats i.now i.packet.pidItems

theorem Packet.pidItems_eq_cons {p : Packet} (h : p.items ≠ 0) :
    p.pidItems = p.item 0 :: p.pidItems.tail := by
  obtain ⟨k, hk⟩ := Nat.exists_eq_succ_of_ne_zero h
  rw [Packet.pidItems, hk, List.range_succ_eq_map]
  rfl

/-- The invariant of the runs: the tables of the constructor, and a slot of `pidpid`. -/
def RingInv (t : Traced) : Prop := t.Inv ∧ t.router.pidCNum < 100

theorem ringInv_start : RingInv Traced.start := ⟨Traced.inv_start, by decide⟩

theorem RingInv.step {t t' : Traced} {i : Input} (hi : RingInv t) (h : t.step i = some t') :
    RingInv t' := by
  refine ⟨hi.1.step h, ?_⟩
  obtain rfl := Option.some.inj h
  show (t.router.push i.now i.stack i.port i.packet).1.pidCNum < 100
  cases ha : i.announcement with
  | none =>
      rw [push_of_announcement_none hi.1.sIp ha]
      exact hi.2
  | some a =>
      rw [(push_of_announcement hi.1.sIp ha).1, IPBorderRouter.announce_eq_install,
        IPBorderRouter.install_pidCNum i.now hi.2]
      exact Nat.mod_lt _ (by decide)

/-- What `push` does with an announcement: the first record, or nothing. -/
theorem push_of_isAnnouncement {t : Traced} {i : Input} (hi : t.Inv) (ha : i.IsAnnouncement) :
    (t.router.push i.now i.stack i.port i.packet).1
      = if i.isMine then t.router.install i.now (i.packet.item 0) else t.router := by
  obtain ⟨h34, h35⟩ := ha
  cases hm : i.isMine with
  | true =>
      have hann : i.announcement = some (.at i.packet 178,
          if load32 i.packet.mem 182 = IPBorderRouter.new.sIp 1 then load32 i.packet.mem 186
          else load32 i.packet.mem 182) := by
        simp only [Input.announcement, hm, h34, h35, and_self, if_true]
      rw [(push_of_announcement hi.sIp hann).1, IPBorderRouter.announce_eq_install, if_pos rfl]
  | false =>
      have hann : i.announcement = none := by
        simp only [Input.announcement, hm, Bool.false_eq_true, false_and, if_false]
      rw [push_of_announcement_none hi.sIp hann, if_neg Bool.false_ne_true]

/-- One record more moves the ring on. -/
theorem install_ne_self {r : IPBorderRouter} (hr : r.pidCNum < 100) (now : UInt32) (x : PidItem) :
    r.install now x ≠ r := by
  intro h
  have hnum := congrArg IPBorderRouter.pidCNum h
  rw [IPBorderRouter.install_pidCNum now hr] at hnum
  omega

/-- **The exact condition.** In every state reached, all records of an announcement are installed
if and only if `push` skips repeated records only. -/
theorem allInstalled_iff (inputs : List Input) (t : Traced)
    (hrun : Lts.exec Traced.step Traced.start inputs = some t) (i : Input)
    (ha : i.IsAnnouncement) : AllInstalled t i ↔ SkipsRepeatedOnly t i := by
  obtain ⟨hi, hr⟩ : RingInv t :=
    Lts.exec_invariant (fun s a s' hs h => RingInv.step hs h) ringInv_start hrun
  unfold AllInstalled SkipsRepeatedOnly
  rw [push_of_isAnnouncement hi ha]
  cases hm : i.isMine with
  | false =>
      rw [if_neg Bool.false_ne_true, if_neg Bool.false_ne_true,
        ← IPBorderRouter.announceAll_eq_self_iff i.now i.packet.pidItems hr]
      exact eq_comm
  | true =>
      rw [if_pos rfl, if_pos rfl]
      by_cases hitems : i.packet.items = 0
      · -- no record, but the first one is installed
        have hnil : i.packet.pidItems = [] := by rw [Packet.pidItems, hitems]; rfl
        rw [hnil]
        exact iff_of_false (install_ne_self hr i.now _) fun h => h.1 hitems
      · have hlt : (t.router.install i.now (i.packet.item 0)).pidCNum < 100 := by
          rw [IPBorderRouter.install_pidCNum i.now hr]
          exact Nat.mod_lt _ (by decide)
        have hcons : t.router.announceAll i.now i.packet.pidItems
            = (t.router.install i.now (i.packet.item 0)).announceAll i.now
              i.packet.pidItems.tail := by
          rw [Packet.pidItems_eq_cons hitems]
          rfl
        rw [hcons, eq_comm, IPBorderRouter.announceAll_eq_self_iff i.now _ hlt]
        exact (and_iff_right hitems).symm

/-- The announcement of one record for the PID 5. -/
def announcementOfOne : Input where
  now := 0
  stack := []
  port := 0
  packet := packetWith [163, 129, 0, 0, 0, 0, 0, 0, 0, 0, 0, 0, 0, 1] 178
    ((Pid.ofUInt32 5).bytes ++ (le32 0x10b0a0a ++ le32 0x20b0a0a ++ le32 0))

theorem allInstalled_one :
    AllInstalled Traced.start announcementOfOne ↔ SkipsRepeatedOnly Traced.start announcementOfOne :=
  allInstalled_iff [] Traced.start rfl announcementOfOne ⟨by decide, by decide⟩

/-- The announcement of two records, for the PIDs 5 and 7. -/
def announcementOfTwo : Input where
  now := 0
  stack := []
  port := 0
  packet := packetWith [163, 129, 0, 0, 0, 0, 0, 0, 0, 0, 0, 0, 0, 2] 178
    ((Pid.ofUInt32 5).bytes ++ (le32 0x10b0a0a ++ le32 0x20b0a0a ++ le32 0 ++ [0, 0, 0, 0])
      ++ (Pid.ofUInt32 7).bytes ++ (le32 0x10b0a0a ++ le32 0x103a8c0 ++ le32 0))

/-- The second record is skipped. -/
theorem not_allInstalled :
    announcementOfTwo.IsAnnouncement ∧ announcementOfTwo.isMine = true
      ∧ announcementOfTwo.packet.items = 2 ∧ 174 + 20 * 2 ≤ announcementOfTwo.packet.length
      ∧ ¬ AllInstalled Traced.start announcementOfTwo := by
  refine ⟨⟨by decide, by decide⟩, by decide, by decide, by decide, ?_⟩
  intro h
  have hnum := congrArg IPBorderRouter.pidCNum h
  have hone : ((Traced.start.router.push announcementOfTwo.now announcementOfTwo.stack
      announcementOfTwo.port announcementOfTwo.packet).1).pidCNum = 1 := by decide
  have htwo : (Traced.start.router.announceAll announcementOfTwo.now
      announcementOfTwo.packet.pidItems).pidCNum = 2 := by decide
  omega

end BorderRouter
