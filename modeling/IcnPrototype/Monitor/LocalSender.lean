import IcnPrototype.Lib.Layout
import IcnPrototype.Monitor.LocalComm

set_option autoImplicit false

/-! # Timer commands from `local_sender`

`local_sender` fills `send_buf`, a type, a count and up to 64 records of 80 bytes, and sends
`sizeof(int) + count * sizeof(struct TIMER_MESSAGE)` of its bytes: the type is counted and the
count is not, so the last four bytes of the last record stay behind. `local_listen` receives into
1024 bytes, which is room for 12 records.

`passed` is what `set_child_timer` gets pointers to. `passed_iff` says when these are the records
that were in `send_buf`, and `localListen_received` what the listener makes of 12 or fewer.
-/

namespace Monitor

open Bytes

/-! ## Records -/

/-- The size of the field `ip` -/
def ipSize : Nat := 16

/-- A `struct TIMER_MESSAGE`. -/
structure TimerRecord where
  ip : List UInt8
  flag : Int32
  t : Tm
  ip_length : ip.length = ipSize
  deriving DecidableEq

/-- A `struct tm` up to its last field. -/
def Tm.front (t : Tm) : List UInt8 :=
  le32 t.tmSec.toUInt32 ++ le32 t.tmMin.toUInt32 ++ le32 t.tmHour.toUInt32
    ++ le32 t.tmMday.toUInt32 ++ le32 t.tmMon.toUInt32 ++ le32 t.tmYear.toUInt32
    ++ le32 t.tmWday.toUInt32 ++ le32 t.tmYday.toUInt32 ++ le32 t.tmIsdst.toUInt32
    ++ List.replicate 4 0 ++ le64 t.tmGmtoff.toUInt64

namespace TimerRecord

/-- A record up to its last field. -/
def front (r : TimerRecord) : List UInt8 :=
  r.ip ++ le32 r.flag.toUInt32 ++ List.replicate 4 0 ++ r.t.front

/-- The 80 bytes of a record. -/
def bytes (r : TimerRecord) : List UInt8 := r.front ++ le64 r.t.tmZone

/-- The record at an offset. -/
def load (m : Mem) (o : Nat) : TimerRecord where
  ip := peek m o ipSize
  flag := loadInt m (o + 16)
  t := Tm.load m (o + 24)
  ip_length := peek_length _ _ _

/-- What `set_child_timer` reads of a record. -/
def message (r : TimerRecord) : TimerMessage Tm := ⟨cstr r.ip, r.flag.toInt, r.t⟩

/-- The record with another `tm_zone`. -/
def withZone (r : TimerRecord) (zone : UInt64) : TimerRecord :=
  { r with t := { r.t with tmZone := zone } }

@[simp] theorem withZone_ip (r : TimerRecord) (zone : UInt64) : (r.withZone zone).ip = r.ip := rfl

@[simp] theorem withZone_withZone (r : TimerRecord) (z zone : UInt64) :
    (r.withZone z).withZone zone = r.withZone zone := rfl

end TimerRecord

/-! ## `local_sender` -/

/-- `struct SEND_BUF` as `local_sender` fills it: its type is 1 and its count is the number of
records. -/
structure SendBuf where
  records : List TimerRecord
  pos : 0 < records.length
  le : records.length ≤ 64

namespace SendBuf

/-- The bytes of `send_buf`, which is zero behind the records. -/
def bytes (s : SendBuf) : List UInt8 :=
  le32 1 ++ le32 (Int32.ofNat s.records.length).toUInt32 ++ s.records.flatMap TimerRecord.bytes
    ++ List.replicate (timerMessageSize * (64 - s.records.length)) 0

/-- `send_len` -/
def sendLen (s : SendBuf) : Nat := 4 + s.records.length * timerMessageSize

/-- The datagram. -/
def datagram (s : SendBuf) : List UInt8 := s.bytes.take s.sendLen

/-- `recv_buf` after the datagram was received over what was on the stack. -/
def received (s : SendBuf) (stale : Mem) : Window := ⟨poke stale 0 (s.datagram.take 1024), 1024⟩

end SendBuf

/-! ## What is passed on -/

/-- The record at a pointer, if all of it is in the buffer. -/
def passedAt (w : Window) (o : Nat) : Option TimerRecord :=
  if o + timerMessageSize ≤ w.limit then some (TimerRecord.load w.mem o) else none

/-- The records of the loop of `parse_timer_message` from the pointer on. -/
def passedFrom (w : Window) : Nat → Nat → List (Option TimerRecord)
  | 0, _ => []
  | n + 1, o => passedAt w o :: passedFrom w n (o + timerMessageSize)

/-- The records that `parse_timer_message` passes to `set_child_timer`. -/
def passed (w : Window) : List (Option TimerRecord) :=
  passedFrom w (loadInt w.mem 4).toInt.toNat 8

/-! ## One record -/

theorem Tm.front_length (t : Tm) : t.front.length = 48 := by
  simp [Tm.front]

theorem TimerRecord.front_length (r : TimerRecord) : r.front.length = 72 := by
  simp [TimerRecord.front, r.ip_length, ipSize, Tm.front_length]

theorem TimerRecord.bytes_length (r : TimerRecord) : r.bytes.length = timerMessageSize := by
  simp [TimerRecord.bytes, TimerRecord.front_length, timerMessageSize]

theorem loadInt_of_stored {m : Mem} {off : Nat} {x : Int32} (h : Stored m off (le32 x.toUInt32)) :
    loadInt m off = x := by
  rw [loadInt, h.load32_eq]
  rfl

/-- Only the last field of a `struct tm` can differ from what was stored. -/
theorem Tm.load_of_front {m : Mem} {o : Nat} {t : Tm} (h : Stored m o t.front) :
    Tm.load m o = { t with tmZone := load64 m (o + 48) } := by
  simp only [Tm.front, stored_append, List.length_append, le32_length, List.length_replicate,
    and_assoc] at h
  obtain ⟨hsec, hmin, hhour, hmday, hmon, hyear, hwday, hyday, hisdst, -, hgmtoff⟩ := h
  rw [Tm.load, loadInt_of_stored hsec, loadInt_of_stored hmin, loadInt_of_stored hhour,
    loadInt_of_stored hmday, loadInt_of_stored hmon, loadInt_of_stored hyear,
    loadInt_of_stored hwday, loadInt_of_stored hyday, loadInt_of_stored hisdst, hgmtoff.load64_eq]
  rfl

theorem TimerRecord.load_of_front {m : Mem} {o : Nat} {r : TimerRecord} (h : Stored m o r.front) :
    TimerRecord.load m o = r.withZone (load64 m (o + 72)) := by
  obtain ⟨ip, flag, t, hip⟩ := r
  simp only [TimerRecord.front, stored_append, List.length_append, le32_length,
    List.length_replicate, hip, ipSize, and_assoc] at h
  obtain ⟨hstored, hflag, -, ht⟩ := h
  simp only [TimerRecord.load, TimerRecord.withZone, hstored.peek_eq hip,
    loadInt_of_stored hflag, Tm.load_of_front ht]

theorem TimerRecord.load_of_stored {m : Mem} {o : Nat} {r : TimerRecord} (h : Stored m o r.bytes) :
    TimerRecord.load m o = r := by
  obtain ⟨hfront, hzone⟩ := stored_append.mp h
  rw [front_length] at hzone
  rw [load_of_front hfront, hzone.load64_eq]
  rfl

theorem passedAt_of_stored {w : Window} {o : Nat} {r : TimerRecord} (h : Stored w.mem o r.bytes)
    (hle : o + timerMessageSize ≤ w.limit) : passedAt w o = some r := by
  rw [passedAt, if_pos hle, TimerRecord.load_of_stored h]

/-! ## The loop -/

/-- The records that are stored one behind the other are passed one after the other. -/
theorem passedFrom_append {w : Window} {k : Nat} {rs : List TimerRecord} {o : Nat}
    (h : Stored w.mem o (rs.flatMap TimerRecord.bytes))
    (hle : o + timerMessageSize * rs.length ≤ w.limit) :
    passedFrom w (rs.length + k) o
      = rs.map some ++ passedFrom w k (o + timerMessageSize * rs.length) := by
  induction rs generalizing o with
  | nil => simp
  | cons r rs ih =>
      rw [List.flatMap_cons, stored_append, r.bytes_length] at h
      rw [List.length_cons, Nat.mul_succ] at hle
      have hrest : o + timerMessageSize + timerMessageSize * rs.length
          = o + timerMessageSize * (r :: rs).length := by
        rw [List.length_cons, Nat.mul_succ]
        omega
      rw [List.length_cons, Nat.add_right_comm, passedFrom, passedAt_of_stored h.1 (by omega),
        ih h.2 (by omega), hrest]
      rfl

/-- If every record is passed, the buffer has room for all of them. -/
theorem room_of_passedFrom {w : Window} {n o : Nat} (h : none ∉ passedFrom w n o) (hn : 0 < n) :
    o + timerMessageSize * n ≤ w.limit := by
  induction n generalizing o with
  | zero => cases hn
  | succ n ih =>
      rw [passedFrom, List.mem_cons, not_or] at h
      have hfirst : o + timerMessageSize ≤ w.limit := by
        by_contra hgt
        exact h.1 (if_neg hgt).symm
      cases n with
      | zero => omega
      | succ n =>
          have hrest := ih h.2 (Nat.succ_pos n)
          rw [Nat.mul_succ]
          omega

/-! ## The datagram -/

namespace SendBuf

/-- The type and the count. -/
def head (s : SendBuf) : List UInt8 := le32 1 ++ le32 (Int32.ofNat s.records.length).toUInt32

/-- The last record. -/
def last (s : SendBuf) : TimerRecord :=
  s.records.getLast (List.ne_nil_of_length_pos s.pos)

/-- The records that are sent, but for the last four bytes of the last one. -/
def sentRecords (s : SendBuf) : List UInt8 :=
  s.records.dropLast.flatMap TimerRecord.bytes
    ++ (s.last.front ++ (le64 s.last.t.tmZone).take 4)

theorem dropLast_append_last (s : SendBuf) : s.records.dropLast ++ [s.last] = s.records :=
  List.dropLast_append_getLast _

theorem dropLast_length (s : SendBuf) : s.records.dropLast.length + 1 = s.records.length := by
  have hpos := s.pos
  rw [List.length_dropLast]
  omega

theorem flatMap_bytes_length (rs : List TimerRecord) :
    (rs.flatMap TimerRecord.bytes).length = timerMessageSize * rs.length := by
  induction rs with
  | nil => rfl
  | cons r rs ih =>
      rw [List.flatMap_cons, List.length_append, ih, r.bytes_length, List.length_cons,
        Nat.mul_succ, Nat.add_comm]

theorem sentRecords_length (s : SendBuf) :
    (s.head ++ s.sentRecords).length = s.sendLen := by
  have hlen := s.dropLast_length
  simp only [head, sentRecords, sendLen, List.length_append, le32_length, flatMap_bytes_length,
    TimerRecord.front_length, List.length_take, le64_length, timerMessageSize, ← hlen]
  omega

theorem datagram_eq (s : SendBuf) : s.datagram = s.head ++ s.sentRecords := by
  have hzone : s.last.bytes = s.last.front ++ (le64 s.last.t.tmZone).take 4
      ++ (le64 s.last.t.tmZone).drop 4 := by
    rw [List.append_assoc, List.take_append_drop]
    rfl
  have hbytes : s.bytes = s.head ++ s.sentRecords ++ ((le64 s.last.t.tmZone).drop 4
      ++ List.replicate (timerMessageSize * (64 - s.records.length)) 0) := by
    have hflat : s.records.flatMap TimerRecord.bytes
        = s.records.dropLast.flatMap TimerRecord.bytes ++ s.last.bytes := by
      conv_lhs => rw [← s.dropLast_append_last]
      rw [List.flatMap_append, List.flatMap_singleton]
    rw [bytes, hflat, hzone, sentRecords, head]
    simp only [List.append_assoc]
  rw [datagram, hbytes, List.take_left' s.sentRecords_length]

/-- What arrives at least is the type and the count. -/
theorem received_head (s : SendBuf) (stale : Mem) : Stored (s.received stale).mem 0 s.head := by
  have htake : s.datagram.take 1024 = s.head ++ s.sentRecords.take 1016 := by
    have hlen : s.head.length = 8 := rfl
    rw [datagram_eq, List.take_append, hlen, List.take_of_length_le (by omega)]
  rw [received, htake]
  dsimp only
  exact (stored_append.mp (stored_poke _ _ _)).1

theorem received_count (s : SendBuf) (stale : Mem) :
    (loadInt (s.received stale).mem 4).toInt.toNat = s.records.length := by
  have hle := s.le
  have hcount := (stored_append.mp (s.received_head stale)).2
  rw [le32_length] at hcount
  rw [loadInt_of_stored hcount, Int32.toInt_ofNat_of_lt (by omega), Int.toNat_natCast]

/-- With 12 records or fewer, the whole datagram arrives. -/
theorem received_mem (s : SendBuf) (stale : Mem) (h : s.records.length ≤ 12) :
    (s.received stale).mem = poke stale 0 (s.head ++ s.sentRecords) := by
  have hlen := s.sentRecords_length
  have hle : s.sendLen ≤ 1024 := by
    rw [sendLen, timerMessageSize]
    omega
  rw [received, datagram_eq, List.take_of_length_le (by omega)]

/-- Where the last four bytes of the last record would be. -/
def zoneEnd (s : SendBuf) : List UInt8 := (le64 s.last.t.tmZone).drop 4

/-- The zone of the last record: half of it was sent, half of it was in `recv_buf` before. -/
def arrivedZone (s : SendBuf) (stale : Mem) : UInt64 :=
  ofLe64 ((le64 s.last.t.tmZone).take 4 ++ peek stale s.sendLen 4)

/-- The records that arrive if there are 12 of them or fewer. -/
def arrived (s : SendBuf) (stale : Mem) : List TimerRecord :=
  s.records.dropLast ++ [s.last.withZone (s.arrivedZone stale)]

/-- **12 records or fewer arrive but for the zone of the last one.** -/
theorem passed_received (s : SendBuf) (stale : Mem) (h : s.records.length ≤ 12) :
    passed (s.received stale) = (s.arrived stale).map some := by
  have hlen := s.dropLast_length
  have hsent := s.sentRecords_length
  have hhead : s.head.length = 8 := rfl
  have hmem := s.received_mem stale h
  have hstored : Stored (s.received stale).mem 0 (s.head ++ s.sentRecords) := by
    rw [hmem]
    exact stored_poke _ _ _
  -- The records but the last, the last one up to its zone, and the half of the zone.
  obtain ⟨-, hrecords⟩ := stored_append.mp hstored
  obtain ⟨hinit, hlast⟩ := stored_append.mp hrecords
  obtain ⟨hfront, hzone⟩ := stored_append.mp hlast
  simp only [hhead, flatMap_bytes_length, TimerRecord.front_length, Nat.zero_add] at hinit hfront hzone
  have hlimit : 8 + timerMessageSize * s.records.dropLast.length + timerMessageSize
      ≤ (s.received stale).limit := by
    show _ ≤ 1024
    rw [timerMessageSize]
    omega
  have hend : 8 + timerMessageSize * s.records.dropLast.length + 72 + 4 = s.sendLen := by
    rw [sendLen, timerMessageSize]
    omega
  -- Behind the datagram `recv_buf` is as it was.
  have hold : peek (s.received stale).mem s.sendLen 4 = peek stale s.sendLen 4 := by
    rw [hmem]
    exact peek_poke_of_disjoint (Or.inr (by omega))
  have harrived : load64 (s.received stale).mem
      (8 + timerMessageSize * s.records.dropLast.length + 72) = s.arrivedZone stale := by
    rw [load64, peek_append _ _ 4 4, hend, hold, hzone.peek_eq (by simp), arrivedZone]
  have hat : passedAt (s.received stale) (8 + timerMessageSize * s.records.dropLast.length)
      = some (s.last.withZone (s.arrivedZone stale)) := by
    rw [passedAt, if_pos hlimit, TimerRecord.load_of_front hfront, harrived]
  rw [passed, s.received_count, ← hlen, passedFrom_append hinit (by omega), passedFrom, hat,
    arrived, List.map_append]
  rfl

/-- With more than 12 records, not all of them are in `recv_buf`. -/
theorem none_mem_passed (s : SendBuf) (stale : Mem) (h : 12 < s.records.length) :
    none ∈ passed (s.received stale) := by
  by_contra hall
  rw [passed, s.received_count] at hall
  have hroom := room_of_passedFrom hall s.pos
  have hlimit : (s.received stale).limit = 1024 := rfl
  rw [hlimit, timerMessageSize] at hroom
  omega

/-- The zone arrives if what was in `recv_buf` before happens to be its end. -/
theorem arrivedZone_eq_iff (s : SendBuf) (stale : Mem) :
    s.arrivedZone stale = s.last.t.tmZone ↔ peek stale s.sendLen 4 = s.zoneEnd := by
  have hlen : ((le64 s.last.t.tmZone).take 4 ++ peek stale s.sendLen 4).length = 8 := by simp
  rw [arrivedZone, ofLe64_eq_iff hlen, zoneEnd]
  have hsplit := List.take_append_drop 4 (le64 s.last.t.tmZone)
  constructor
  · intro h
    exact List.append_cancel_left (h.trans hsplit.symm)
  · intro h
    rw [h, hsplit]

/-- Only the zone of the last record can differ from what was sent. -/
theorem arrived_eq_iff (s : SendBuf) (stale : Mem) :
    s.arrived stale = s.records ↔ peek stale s.sendLen 4 = s.zoneEnd := by
  rw [← arrivedZone_eq_iff, arrived]
  conv_lhs => rhs; rw [← s.dropLast_append_last]
  constructor
  · intro h
    have hlast := List.append_cancel_left h
    exact congrArg (fun r => r.t.tmZone) (List.head_eq_of_cons_eq hlast)
  · intro h
    rw [h]
    rfl

theorem arrived_map_withZone (s : SendBuf) (stale : Mem) (zone : UInt64) :
    (s.arrived stale).map (fun r => r.withZone zone) = s.records.map fun r => r.withZone zone := by
  conv_rhs => rw [← s.dropLast_append_last]
  rw [arrived, List.map_append, List.map_append, List.map_singleton, List.map_singleton,
    TimerRecord.withZone_withZone]

/-- **The records are passed on as they were in `send_buf` exactly if there are 12 of them or fewer
and what was in `recv_buf` before is the end of the last zone.** But for the zones, they are passed
on as they were exactly if there are 12 of them or fewer. -/
theorem passed_iff (s : SendBuf) (stale : Mem) :
    (passed (s.received stale) = s.records.map some
        ↔ s.records.length ≤ 12 ∧ peek stale s.sendLen 4 = s.zoneEnd)
      ∧ ((passed (s.received stale)).map (Option.map fun r => r.withZone 0)
          = (s.records.map fun r => r.withZone 0).map some
        ↔ s.records.length ≤ 12) := by
  by_cases h : s.records.length ≤ 12
  · rw [s.passed_received stale h]
    constructor
    · rw [(List.map_injective_iff.mpr (Option.some_injective _)).eq_iff, s.arrived_eq_iff stale]
      exact (and_iff_right h).symm
    · refine iff_of_true ?_ h
      rw [← s.arrived_map_withZone stale, List.map_map, List.map_map]
      rfl
  · have hnone := s.none_mem_passed stale (Nat.lt_of_not_le h)
    constructor
    · refine iff_of_false (fun heq => ?_) fun hc => h hc.1
      rw [heq] at hnone
      simp at hnone
    · refine iff_of_false (fun heq => ?_) h
      have hmem := List.mem_map_of_mem (f := Option.map fun r => r.withZone 0) hnone
      rw [heq] at hmem
      simp at hmem

/-- A record without an address, at the beginning of 1900. -/
def blank : TimerRecord where
  ip := List.replicate 16 0
  flag := 0
  t := ⟨0, 0, 0, 1, 0, 0, 1, 0, 0, 0, 0⟩
  ip_length := by rfl

/-- 13 records. -/
def thirteen : SendBuf where
  records := List.replicate 13 blank
  pos := by decide
  le := by decide

/-- One record. -/
def single : SendBuf where
  records := [blank]
  pos := by decide
  le := by decide

/-- The 13th record is not in `recv_buf`, and the zone of a single one ends with what was there. -/
theorem records_lost :
    passed (thirteen.received fun _ => 0) ≠ thirteen.records.map some
      ∧ passed (single.received fun _ => 1) ≠ single.records.map some := by
  constructor
  · intro h
    have hnone := none_mem_passed thirteen (fun _ => 0) (by decide)
    rw [h] at hnone
    simp at hnone
  · decide

end SendBuf

/-! ## What the listener makes of it -/

/-- A record that is passed with a terminated address is read as what it is. -/
theorem timerRecord_of_passedAt {site : Site Tm} {w : Window} {o : Nat} {r : TimerRecord}
    (h : passedAt w o = some r) (h0 : 0 ∈ r.ip) : timerRecord site w o = .ok r.message := by
  rw [passedAt] at h
  split at h
  · next hle =>
      cases h
      rw [timerMessageSize] at hle
      have hip : Stored w.mem o (peek w.mem o 16) := by
        rw [Stored, peek_length]
      have hcstr : cstr (peek w.mem o (w.limit - o)) = cstr (peek w.mem o 16) := by
        refine hip.cstr_eq h0 ?_
        rw [peek_length]
        omega
      have hterm : w.Terminated o := by
        rw [Window.Terminated, show w.limit - o = 16 + (w.limit - o - 16) by omega, peek_append]
        exact List.mem_append_left _ h0
      have hflag : readInt w (o + 16) = .ok (loadInt w.mem (o + 16)) :=
        readInt_eq_ok.mpr ⟨by omega, rfl⟩
      have htime : w.read (o + 24) 24 = .ok (peek w.mem (o + 24) 24) :=
        Window.read_eq_ok.mpr ⟨by omega, rfl⟩
      have hcopy : w.read (o + 24) 56 = .ok (peek w.mem (o + 24) 56) :=
        Window.read_eq_ok.mpr ⟨by omega, rfl⟩
      -- the port decides only whether the time is copied
      rw [timerRecord, Window.str_eq_ok.mpr ⟨hterm, hcstr⟩, hflag, htime, hcopy]
      show (if _ then _ else _) = _
      split
      · rfl
      · rfl
  · cases h

theorem timerRecords_of_passedFrom {site : Site Tm} {w : Window} {rs : List TimerRecord} {o : Nat}
    (h : passedFrom w rs.length o = rs.map some) (h0 : ∀ r ∈ rs, 0 ∈ r.ip) :
    timerRecords site w rs.length o = .ok (rs.map TimerRecord.message) := by
  induction rs generalizing o with
  | nil => rfl
  | cons r rs ih =>
      obtain ⟨hfirst, hrest⟩ := List.cons_eq_cons.mp h
      obtain ⟨hr, hrs⟩ := List.forall_mem_cons.mp h0
      rw [List.length_cons, timerRecords, timerRecord_of_passedAt hfirst hr]
      show (timerRecords site w rs.length (o + timerMessageSize) >>= _) = _
      rw [ih hrest hrs]
      rfl

/-- **The listener hands what arrived to `set_child_timer`**, if there are 12 records or fewer and
their addresses end. -/
theorem localListen_received (site : Site Tm) (s : SendBuf) (stale : Mem)
    (h : s.records.length ≤ 12) (h0 : ∀ r ∈ s.records, 0 ∈ r.ip) :
    localListen site (s.received stale)
      = .ok (.timers ((s.arrived stale).map TimerRecord.message)) := by
  have htype : readInt (s.received stale) 0 = .ok 1 := by
    have hstored := (stored_append.mp (s.received_head stale)).1
    refine readInt_eq_ok.mpr ⟨?_, loadInt_of_stored (x := 1) hstored⟩
    show 4 ≤ 1024
    decide
  have hcount : readInt (s.received stale) 4 = .ok (loadInt (s.received stale).mem 4) := by
    refine readInt_eq_ok.mpr ⟨?_, rfl⟩
    show 8 ≤ 1024
    decide
  have hlen : (s.arrived stale).length = s.records.length := by
    rw [SendBuf.arrived, List.length_append, List.length_singleton, s.dropLast_length]
  have hpassed := s.passed_received stale h
  rw [passed, s.received_count, ← hlen] at hpassed
  -- only the zone of the last record may have changed, so the addresses still end
  have harrived : ∀ r ∈ s.arrived stale, 0 ∈ r.ip := by
    intro r hr
    rw [SendBuf.arrived, List.mem_append, List.mem_singleton] at hr
    rcases hr with hr | rfl
    · exact h0 r (List.mem_of_mem_dropLast hr)
    · rw [TimerRecord.withZone_ip]
      exact h0 s.last (List.getLast_mem _)
  have hrecords : readTimerMessage site (s.received stale)
      = .ok ((s.arrived stale).map TimerRecord.message) := by
    refine bind_eq_ok.mpr ⟨_, hcount, ?_⟩
    rw [s.received_count, ← hlen]
    exact timerRecords_of_passedFrom hpassed harrived
  refine bind_eq_ok.mpr ⟨1, htype, ?_⟩
  rw [if_pos rfl]
  exact bind_eq_ok.mpr ⟨_, hrecords, rfl⟩

end Monitor
