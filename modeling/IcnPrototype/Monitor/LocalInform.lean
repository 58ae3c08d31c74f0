import IcnPrototype.Monitor.InformElements
import IcnPrototype.Monitor.TimerFile

set_option autoImplicit false

/-! # Queries of `local_inform`

`local_inform` asks for the same elements of a number of ports. It writes a type, a head with the
host name and a count, and one block for each port, and when a block does not fit into the 1024
bytes any more it patches the count in the head, sends what it has, and goes on with the block in a
new buffer. `localInform_sends` says that nothing gets lost on the way.

The strings that were once typed in are global variables now; the names of the elements are a
parameter here.
-/

namespace Monitor

open Bytes

/-! ## `insert_time` -/

/-- A `struct _TM`. -/
structure InformTm where
  tmSec : Int32
  tmMin : Int32
  tmHour : Int32
  tmMday : Int32
  tmMon : Int32
  tmYear : Int32
  deriving DecidableEq

/-- An `int` in memory. -/
def intBytes (n : Int32) : List UInt8 := le32 n.toUInt32

/-- The 24 bytes of a `struct _TM`. -/
def InformTm.bytes (t : InformTm) : List UInt8 :=
  intBytes t.tmSec ++ intBytes t.tmMin ++ intBytes t.tmHour ++ intBytes t.tmMday ++
    intBytes t.tmMon ++ intBytes t.tmYear

/-- `insert_time`, on the string and its NUL. -/
def insertTime (str : List UInt8) : Option InformTm := do
  let s := cstr str ++ [0]
  let (year, s) ← scanTo nextNum 47 0 s
  let (mon, s) ← scanTo nextNum 47 0 s
  let (mday, s) ← scanTo nextNum 44 0 s
  let (hour, s) ← scanTo nextNum 58 0 s
  let (min, s) ← scanTo nextNum 58 0 s
  let (sec, _) ← scanTo nextNum 0 0 s
  some ⟨sec, min, hour, mday, mon, year⟩

/-- A string with the separators that `insert_time` waits for. -/
def TimeString (str : List UInt8) : Prop :=
  ∃ year mon mday hour min sec, cstr str = year ++ 47 :: (mon ++ 47 :: (mday ++ 44 ::
    (hour ++ 58 :: (min ++ 58 :: sec)))) ∧
    47 ∉ year ∧ 47 ∉ mon ∧ 44 ∉ mday ∧ 58 ∉ hour ∧ 58 ∉ min

theorem zero_not_mem_cstr (str : List UInt8) : 0 ∉ cstr str := by
  intro hmem
  simpa using List.mem_takeWhile_imp hmem

/-- **`insert_time` is defined** exactly on the strings with all the separators. -/
theorem isSome_insertTime_iff (str : List UInt8) :
    (insertTime str).isSome = true ↔ TimeString str := by
  have hslash : (47 : UInt8) ≠ 0 := by decide
  have hcomma : (44 : UInt8) ≠ 0 := by decide
  have hcolon : (58 : UInt8) ≠ 0 := by decide
  have hzero := zero_not_mem_cstr str
  unfold insertTime TimeString
  simp only [Option.bind_eq_bind, Option.isSome_iff_exists, Option.bind_eq_some_iff, Prod.exists]
  constructor
  · rintro ⟨_, _, _, h₁, _, _, h₂, _, _, h₃, _, _, h₄, _, _, h₅, -⟩
    obtain ⟨year, t₁, hyear, hstr, rfl, rfl⟩ := (scanTo_terminated_iff hslash).mp h₁
    obtain ⟨mon, t₂, hmon, rfl, rfl, rfl⟩ := (scanTo_terminated_iff hslash).mp h₂
    obtain ⟨mday, t₃, hmday, rfl, rfl, rfl⟩ := (scanTo_terminated_iff hcomma).mp h₃
    obtain ⟨hour, t₄, hhour, rfl, rfl, rfl⟩ := (scanTo_terminated_iff hcolon).mp h₄
    obtain ⟨min, t₅, hmin, rfl, rfl, rfl⟩ := (scanTo_terminated_iff hcolon).mp h₅
    exact ⟨year, mon, mday, hour, min, t₅, hstr, hyear, hmon, hmday, hhour, hmin⟩
  · rintro ⟨year, mon, mday, hour, min, sec, hstr, hyear, hmon, hmday, hhour, hmin⟩
    rw [hstr] at hzero ⊢
    simp only [List.mem_append, List.mem_cons, not_or] at hzero
    have hsec : 0 ∉ sec := by tauto
    exact ⟨_, _, _, (scanTo_terminated_iff hslash).mpr ⟨year, _, hyear, rfl, rfl, rfl⟩, _, _,
      (scanTo_terminated_iff hslash).mpr ⟨mon, _, hmon, rfl, rfl, rfl⟩, _, _,
      (scanTo_terminated_iff hcomma).mpr ⟨mday, _, hmday, rfl, rfl, rfl⟩, _, _,
      (scanTo_terminated_iff hcolon).mpr ⟨hour, _, hhour, rfl, rfl, rfl⟩, _, _,
      (scanTo_terminated_iff hcolon).mpr ⟨min, _, hmin, rfl, rfl, rfl⟩, _, _,
      scanTo_field hsec 0 [], rfl⟩

/-! ## `insert_inform_get_tail` -/

/-- `_type`: `peak` -/
def typeText : List UInt8 := [112, 101, 97, 107]

/-- `_start_time`: `2015/6/10,21:15:15` -/
def startTime : List UInt8 :=
  [50, 48, 49, 53, 47, 54, 47, 49, 48, 44, 50, 49, 58, 49, 53, 58, 49, 53]

/-- `_end_time`: `2015/6/10,21:16:15` -/
def endTime : List UInt8 :=
  [50, 48, 49, 53, 47, 54, 47, 49, 48, 44, 50, 49, 58, 49, 54, 58, 49, 53]

/-- `_ip`: `172.168.6.1` -/
def ipText : List UInt8 := [49, 55, 50, 46, 49, 54, 56, 46, 54, 46, 49]

/-- A `struct INFORM_GET_TAIL`. -/
structure InformGetTail where
  contentType : Int32
  start : InformTm
  stop : InformTm
  deriving DecidableEq

/-- The 52 bytes of the record. -/
def InformGetTail.bytes (t : InformGetTail) : List UInt8 :=
  intBytes t.contentType ++ t.start.bytes ++ t.stop.bytes

/-- After `memset(inform_get_tail, 0, sizeof(struct INFORM_GET_TAIL))`. -/
def InformGetTail.zero : InformGetTail := ⟨0, ⟨0, 0, 0, 0, 0, 0⟩, ⟨0, 0, 0, 0, 0, 0⟩⟩

/-- The `content_type` for `point`, `average`, `peak` and `nadir`. -/
def contentType (tstr : List UInt8) : Option Int32 :=
  if tstr = [112, 111, 105, 110, 116] then some 0
  else if tstr = [97, 118, 101, 114, 97, 103, 101] then some 1
  else if tstr = [112, 101, 97, 107] then some 2
  else if tstr = [110, 97, 100, 105, 114] then some 3
  else none

/-- `send_buf` and `ptr`. -/
structure SendArea where
  buf : Mem
  ptr : Nat

/-- The size of `send_buf` -/
def informBufSize : Nat := 1024

/-- `memcpy(send_buf + off, bs, bs.length)`; what is outside of the buffer is undefined. -/
def putBytes (buf : Mem) (off : Nat) (bs : List UInt8) : Option Mem :=
  if off + bs.length ≤ informBufSize then some (poke buf off bs) else none

/-- `memcpy(ptr, bs, bs.length)` and `ptr += bs.length`. -/
def SendArea.append (a : SendArea) (bs : List UInt8) : Option SendArea :=
  (putBytes a.buf a.ptr bs).map fun buf => ⟨buf, a.ptr + bs.length⟩

/-- `insert_inform_get_tail`, with what is left in `*inform_get_tail`. A type that is not known
leaves out the record. -/
def insertInformGetTail : Nat → InformGetTail → SendArea → Option (InformGetTail × SendArea)
  | 0, t, a => some (t, a)
  | count + 1, t, a =>
      match contentType typeText with
      | none => insertInformGetTail count t a
      | some c => do
          let start ← insertTime startTime
          let stop ← if c = 0 then some t.stop else insertTime endTime
          let a ← a.append (InformGetTail.bytes ⟨c, start, stop⟩)
          insertInformGetTail count InformGetTail.zero a

/-! ## `main` -/

/-- `host_name` in the head: a string, and what `malloc` left behind it. -/
structure HostName where
  bytes : List UInt8
  size_eq : bytes.length = 32
  terminated : 0 ∈ bytes

/-- What `main` works on. `headCount` is `inform_get_head->count`, and `sent` what was sent. -/
structure InformState where
  area : SendArea
  spaceRemain : Int
  portCount : Int
  headCount : Int
  tail : InformGetTail
  sent : List (List UInt8)

/-- The type and the head at the beginning of a buffer. -/
def informFront (host : HostName) (headCount : Int) (buf : Mem) : Option SendArea := do
  let a ← SendArea.append ⟨buf, 0⟩ (intBytes 3)
  a.append (host.bytes ++ intBytes (Int32.ofInt headCount))

/-- `send_message` -/
def sendMessage (buf : Mem) (spaceRemain : Int) : List UInt8 :=
  peek buf 0 (informBufSize - spaceRemain).toNat

/-- A `struct INFORM_GET_MIDDLE` after `memset` and `strcpy`. -/
def informMiddle (request : UInt32) : List UInt8 := strncpy 16 ipText ++ le32 request

/-- The `INFORM_GET_MIDDLE` of a port and its records, at `ptr`. -/
def insertPort (request : UInt32) (count : Nat) (t : InformGetTail) (a : SendArea) :
    Option (InformGetTail × SendArea) := do
  let a ← a.append (informMiddle request)
  insertInformGetTail count t a

/-- A turn of `while(n--)`. -/
def informTurn (host : HostName) (information : List UInt8) (s : InformState) :
    Option InformState := do
  let portCount := s.portCount + 1
  let e ← portElements information
  let size : Int := informGetMiddleSize + e.count * informGetTailSize
  let spaceRemain := s.spaceRemain - size
  if spaceRemain < 0 then
    let modified := portCount - 1
    let buf ← putBytes s.area.buf 36 (intBytes (Int32.ofInt modified))
    let headCount := s.headCount - modified
    let spaceRemain := spaceRemain + size
    let datagram := sendMessage buf spaceRemain
    -- `sizeof(send_buf)` is the size of a pointer
    let buf ← putBytes buf 0 (List.replicate 8 0)
    let a ← informFront host headCount buf
    let (t, a) ← insertPort e.request e.count s.tail a
    some
      { area := a
        spaceRemain := informBufSize - (informGetHeadSize + size + 4)
        portCount := 1
        headCount := headCount
        tail := t
        sent := s.sent ++ [datagram] }
  else
    let (t, a) ← insertPort e.request e.count s.tail s.area
    some { s with area := a, spaceRemain := spaceRemain, portCount := portCount, tail := t }

/-- `while(n--)` -/
def informLoop (host : HostName) (information : List UInt8) :
    Nat → InformState → Option InformState
  | 0, s => some s
  | n + 1, s => (informTurn host information s).bind (informLoop host information n)

/-- `main` after the input: the datagrams it sends. `tail` is what `malloc` left there. -/
def localInform (host : HostName) (information : List UInt8) (tail : InformGetTail) (n : Nat) :
    Option (List (List UInt8)) := do
  let a ← informFront host n fun _ => 0
  let s ← informLoop host information n
    { area := a
      spaceRemain := informBufSize - (informGetHeadSize + 4)
      portCount := 0
      headCount := n
      tail := tail
      sent := [] }
  some (s.sent ++ [sendMessage s.area.buf s.spaceRemain])

/-! ## What is in the buffer -/

/-- The bytes up to `ptr`. -/
structure SendArea.Contains (a : SendArea) (bs : List UInt8) : Prop where
  ptr_eq : a.ptr = bs.length
  peek_eq : peek a.buf 0 a.ptr = bs

theorem SendArea.Contains.append {a : SendArea} {bs : List UInt8} (ha : a.Contains bs)
    {xs : List UInt8} (hsize : bs.length + xs.length ≤ informBufSize) :
    ∃ a', a.append xs = some a' ∧ a'.Contains (bs ++ xs) := by
  rw [← ha.ptr_eq] at hsize
  refine ⟨⟨poke a.buf a.ptr xs, a.ptr + xs.length⟩, ?_, ?_, ?_⟩
  · rw [SendArea.append, putBytes, if_pos hsize]
    rfl
  · rw [List.length_append, ha.ptr_eq]
  · show peek _ 0 (a.ptr + xs.length) = _
    rw [peek_append, peek_poke_of_disjoint (Or.inl (by omega)), ha.peek_eq, Nat.zero_add,
      peek_poke_self]

/-- The record for the peak between `_start_time` and `_end_time`. -/
def peakTail : InformGetTail := ⟨2, ⟨15, 15, 21, 10, 6, 2015⟩, ⟨15, 16, 21, 10, 6, 2015⟩⟩

theorem peakTail_length : peakTail.bytes.length = informGetTailSize := rfl

theorem insertTime_startTime : insertTime startTime = some peakTail.start := by decide

theorem insertTime_endTime : insertTime endTime = some peakTail.stop := by decide

/-- The records of a port. -/
def informTails (count : Nat) : List UInt8 := (List.replicate count peakTail.bytes).flatten

theorem informTails_length (count : Nat) :
    (informTails count).length = count * informGetTailSize := by
  rw [informTails, List.length_flatten, List.map_replicate, peakTail_length, List.sum_replicate,
    smul_eq_mul]

theorem insertInformGetTail_contains (count : Nat) (t : InformGetTail) {a : SendArea}
    {bs : List UInt8} (ha : a.Contains bs)
    (hsize : bs.length + count * informGetTailSize ≤ informBufSize) :
    ∃ t' a', insertInformGetTail count t a = some (t', a') ∧
      a'.Contains (bs ++ informTails count) := by
  induction count generalizing t a bs with
  | zero =>
      refine ⟨t, a, rfl, ?_⟩
      rwa [informTails, List.replicate_zero, List.flatten_nil, List.append_nil]
  | succ count ih =>
      rw [Nat.succ_mul] at hsize
      have hrecord : bs.length + peakTail.bytes.length ≤ informBufSize := by
        rw [peakTail_length]
        omega
      obtain ⟨a₁, happend, ha₁⟩ := ha.append hrecord
      obtain ⟨t', a', hrun, ha'⟩ := ih InformGetTail.zero ha₁ (by
        rw [List.length_append, peakTail_length]
        omega)
      refine ⟨t', a', ?_, ?_⟩
      · have htype : contentType typeText = some 2 := rfl
        have hne : ¬ (2 : Int32) = 0 := by decide
        rw [insertInformGetTail, htype]
        simp only [if_neg hne, insertTime_startTime, insertTime_endTime, Option.bind_eq_bind,
          Option.bind_some]
        show (a.append peakTail.bytes).bind _ = _
        rw [happend, Option.bind_some, hrun]
      · rwa [List.append_assoc] at ha'

/-- The block of a port. -/
def portBlock (e : ElementState) : List UInt8 := informMiddle e.request ++ informTails e.count

theorem informMiddle_length (request : UInt32) :
    (informMiddle request).length = informGetMiddleSize := by
  rw [informMiddle, List.length_append, strncpy_length, le32_length]
  rfl

theorem portBlock_length (e : ElementState) :
    (portBlock e).length = informGetMiddleSize + e.count * informGetTailSize := by
  rw [portBlock, List.length_append, informMiddle_length, informTails_length]

theorem insertPort_contains (e : ElementState) (t : InformGetTail) {a : SendArea}
    {bs : List UInt8} (ha : a.Contains bs)
    (hsize : bs.length + (portBlock e).length ≤ informBufSize) :
    ∃ t' a', insertPort e.request e.count t a = some (t', a') ∧
      a'.Contains (bs ++ portBlock e) := by
  rw [portBlock_length] at hsize
  have hmiddle := informMiddle_length e.request
  have hfits : bs.length + (informMiddle e.request).length ≤ informBufSize := by omega
  obtain ⟨a₁, happend, ha₁⟩ := ha.append hfits
  obtain ⟨t', a', hrun, ha'⟩ := insertInformGetTail_contains e.count t ha₁ (by
    rw [List.length_append, hmiddle]
    omega)
  refine ⟨t', a', ?_, ?_⟩
  · rw [insertPort, happend]
    exact hrun
  · rwa [List.append_assoc] at ha'

/-- The type and the head. -/
def frontBytes (host : HostName) (count : Int) : List UInt8 :=
  intBytes 3 ++ host.bytes ++ intBytes (Int32.ofInt count)

@[simp] theorem intBytes_length (n : Int32) : (intBytes n).length = 4 := le32_length _

theorem frontBytes_length (host : HostName) (count : Int) :
    (frontBytes host count).length = informGetHeadSize + 4 := by
  rw [frontBytes, List.length_append, List.length_append, intBytes_length, intBytes_length,
    host.size_eq]
  rfl

theorem informFront_contains (host : HostName) (count : Int) (buf : Mem) :
    ∃ a, informFront host count buf = some a ∧ a.Contains (frontBytes host count) := by
  have hempty : SendArea.Contains ⟨buf, 0⟩ [] := ⟨rfl, rfl⟩
  have htypeSize : ([] : List UInt8).length + (intBytes 3).length ≤ informBufSize := by
    rw [intBytes_length]
    decide
  have hheadSize : ([] ++ intBytes 3).length +
      (host.bytes ++ intBytes (Int32.ofInt count)).length ≤ informBufSize := by
    rw [List.nil_append, List.length_append, intBytes_length, intBytes_length, host.size_eq]
    decide
  obtain ⟨a₁, htype, ha₁⟩ := hempty.append htypeSize
  obtain ⟨a, hhead, ha⟩ := ha₁.append hheadSize
  refine ⟨a, ?_, ?_⟩
  · rw [informFront, htype]
    exact hhead
  · rwa [List.nil_append, ← List.append_assoc] at ha

/-! ## The datagrams -/

section Datagrams

variable (host : HostName) (e : ElementState) (n : Nat)

/-- A number of blocks. -/
def portBlocks (count : Nat) : List UInt8 := (List.replicate count (portBlock e)).flatten

/-- The datagram with a number of blocks. -/
def informDatagram (count : Nat) : List UInt8 := frontBytes host count ++ portBlocks e count

/-- **Between two ports.** The buffer has the type, a head with the count of everything that was
not sent, and `count` blocks; `counts` are the numbers of blocks in what was sent. -/
structure InformInv (done : Nat) (counts : List Nat) (count : Nat) (s : InformState) : Prop where
  contains : s.area.Contains (frontBytes host s.headCount ++ portBlocks e count)
  space_eq : s.spaceRemain = informBufSize - s.area.ptr
  fits : s.area.ptr ≤ informBufSize
  portCount_eq : s.portCount = count
  headCount_eq : s.headCount = n - counts.sum
  sent_eq : s.sent = counts.map (informDatagram host e)
  sent_fits : ∀ c ∈ counts, (informDatagram host e c).length ≤ informBufSize
  sum_eq : counts.sum + count = done

variable {host e n}

theorem portBlocks_length (count : Nat) :
    (portBlocks e count).length = count * (portBlock e).length := by
  rw [portBlocks, List.length_flatten, List.map_replicate, List.sum_replicate, smul_eq_mul]

theorem portBlocks_succ (count : Nat) :
    portBlocks e (count + 1) = portBlocks e count ++ portBlock e := by
  rw [portBlocks, portBlocks, List.replicate_succ', List.flatten_append, List.flatten_singleton]

/-- The blocks of one datagram after another. -/
theorem flatMap_portBlocks (counts : List Nat) :
    counts.flatMap (portBlocks e) = portBlocks e counts.sum := by
  induction counts with
  | nil => rfl
  | cons c counts ih =>
      rw [List.flatMap_cons, ih, List.sum_cons, portBlocks, portBlocks, portBlocks,
        List.replicate_add, List.flatten_append]

theorem portBlocks_one : portBlocks e 1 = portBlock e := List.flatten_singleton

/-- The count in the head is patched. -/
theorem SendArea.Contains.patch {a : SendArea} {c : Int} {bs : List UInt8}
    (ha : a.Contains (frontBytes host c ++ bs)) (m : Int) :
    peek (poke a.buf 36 (intBytes (Int32.ofInt m))) 0 a.ptr = frontBytes host m ++ bs := by
  have hpeek := ha.peek_eq
  have hoff : 36 = 0 + (intBytes 3 ++ host.bytes).length := by
    rw [List.length_append, intBytes_length, host.size_eq]
  rw [frontBytes] at hpeek ⊢
  rw [hoff]
  exact peek_poke_replace hpeek (by rw [intBytes_length, intBytes_length])

theorem InformInv.ptr_eq {done : Nat} {counts : List Nat} {count : Nat} {s : InformState}
    (hs : InformInv host e n done counts count s) :
    s.area.ptr = informGetHeadSize + 4 + count * (portBlock e).length := by
  rw [hs.contains.ptr_eq, List.length_append, frontBytes_length, portBlocks_length]

theorem informDatagram_length (count : Nat) :
    (informDatagram host e count).length =
      informGetHeadSize + 4 + count * (portBlock e).length := by
  rw [informDatagram, List.length_append, frontBytes_length, portBlocks_length]

/-- What is sent when there are `count` blocks in the buffer. -/
theorem InformInv.datagram {done : Nat} {counts : List Nat} {count : Nat} {s : InformState}
    (hs : InformInv host e n done counts count s) :
    sendMessage (poke s.area.buf 36 (intBytes (Int32.ofInt count))) s.spaceRemain =
      informDatagram host e count := by
  have hlen : ((informBufSize : Int) - s.spaceRemain).toNat = s.area.ptr := by
    rw [hs.space_eq]
    omega
  rw [sendMessage, hlen, hs.contains.patch]
  rfl

theorem portBlock_length_cast (e : ElementState) : ((portBlock e).length : Int) =
    (informGetMiddleSize : Int) + e.count * informGetTailSize := by
  rw [portBlock_length]
  push_cast
  rfl

/-- A turn that puts the block behind the others. -/
theorem informTurn_of_fits {information : List UInt8} (he : portElements information = some e)
    {s : InformState} (hroom : ¬ s.spaceRemain - (portBlock e).length < 0) {t : InformGetTail}
    {a : SendArea} (hrun : insertPort e.request e.count s.tail s.area = some (t, a)) :
    informTurn host information s = some { s with
      area := a
      spaceRemain := s.spaceRemain - (portBlock e).length
      portCount := s.portCount + 1
      tail := t } := by
  rw [portBlock_length_cast] at hroom ⊢
  unfold informTurn
  rw [he]
  simp only [Option.bind_eq_bind, Option.bind_some, if_neg hroom, hrun]

/-- A turn that sends what is in the buffer, and begins the next datagram with the block. -/
theorem informTurn_of_full {information : List UInt8} (he : portElements information = some e)
    {s : InformState} (hroom : s.spaceRemain - (portBlock e).length < 0) {count : Nat}
    (hcount : s.portCount = count) {buf : Mem}
    (hbuf : poke s.area.buf 36 (intBytes (Int32.ofInt count)) = buf) {a a' : SendArea}
    (hfront : informFront host (s.headCount - count) (poke buf 0 (List.replicate 8 0)) = some a)
    {t : InformGetTail} (hrun : insertPort e.request e.count s.tail a = some (t, a')) :
    informTurn host information s = some
      { area := a'
        spaceRemain := informBufSize - (informGetHeadSize + (portBlock e).length + 4)
        portCount := 1
        headCount := s.headCount - count
        tail := t
        sent := s.sent ++ [sendMessage buf s.spaceRemain] } := by
  rw [portBlock_length_cast] at hroom ⊢
  have hmodified : s.portCount + 1 - 1 = count := by omega
  have hback (x : Int) : s.spaceRemain - x + x = s.spaceRemain := Int.sub_add_cancel _ _
  have hpatch : putBytes s.area.buf 36 (intBytes (Int32.ofInt count)) = some buf := by
    rw [← hbuf]
    apply if_pos
    rw [intBytes_length]
    decide
  have hclear : putBytes buf 0 (List.replicate 8 0) = some (poke buf 0 (List.replicate 8 0)) :=
    if_pos (by decide)
  unfold informTurn
  rw [he]
  simp only [Option.bind_eq_bind, Option.bind_some, if_pos hroom, hmodified, hback, hpatch, hclear,
    hfront, hrun]

/-- The block fits. -/
theorem InformInv.turn_fits {information : List UInt8} (he : portElements information = some e)
    {done : Nat} {counts : List Nat} {count : Nat} {s : InformState}
    (hs : InformInv host e n done counts count s)
    (hfits : s.area.ptr + (portBlock e).length ≤ informBufSize) :
    ∃ s', informTurn host information s = some s' ∧
      InformInv host e n (done + 1) counts (count + 1) s' := by
  have hspace := hs.space_eq
  obtain ⟨t', a', hrun, ha'⟩ := insertPort_contains e s.tail hs.contains (by
    rw [← hs.contains.ptr_eq]
    exact hfits)
  have hptr : a'.ptr = s.area.ptr + (portBlock e).length := by
    rw [ha'.ptr_eq, List.length_append, ← hs.contains.ptr_eq]
  refine ⟨_, informTurn_of_fits he (by omega) hrun, ?_⟩
  refine
    { contains := ?_
      space_eq := ?_
      fits := by rwa [hptr]
      portCount_eq := ?_
      headCount_eq := hs.headCount_eq
      sent_eq := hs.sent_eq
      sent_fits := hs.sent_fits
      sum_eq := ?_ }
  · show a'.Contains _
    rwa [portBlocks_succ, ← List.append_assoc]
  · show s.spaceRemain - _ = (informBufSize : Int) - a'.ptr
    rw [hptr]
    omega
  · show s.portCount + 1 = _
    rw [hs.portCount_eq]
    rfl
  · rw [← hs.sum_eq, Nat.add_assoc]

/-- What is in the buffer can be sent. -/
theorem InformInv.datagram_fits {done : Nat} {counts : List Nat} {count : Nat} {s : InformState}
    (hs : InformInv host e n done counts count s) :
    ∀ c ∈ counts ++ [count], (informDatagram host e c).length ≤ informBufSize := by
  intro c hc
  rcases List.mem_append.mp hc with hc | hc
  · exact hs.sent_fits c hc
  · rw [List.mem_singleton.mp hc, informDatagram_length, ← hs.ptr_eq]
    exact hs.fits

/-- The block does not fit: what is in the buffer is sent, and the block begins the next one. -/
theorem InformInv.turn_split {information : List UInt8} (he : portElements information = some e)
    (hsmall : informGetHeadSize + 4 + (portBlock e).length ≤ informBufSize)
    {done : Nat} {counts : List Nat} {count : Nat} {s : InformState}
    (hs : InformInv host e n done counts count s)
    (hfull : informBufSize < s.area.ptr + (portBlock e).length) :
    ∃ s', informTurn host information s = some s' ∧
      InformInv host e n (done + 1) (counts ++ [count]) 1 s' := by
  have hspace := hs.space_eq
  obtain ⟨a, hfront, ha⟩ := informFront_contains host (s.headCount - count)
    (poke (poke s.area.buf 36 (intBytes (Int32.ofInt count))) 0 (List.replicate 8 0))
  obtain ⟨t', a', hrun, ha'⟩ := insertPort_contains e s.tail ha (by
    rw [frontBytes_length]
    exact hsmall)
  have hptr : a'.ptr = informGetHeadSize + 4 + (portBlock e).length := by
    rw [ha'.ptr_eq, List.length_append, frontBytes_length]
  refine ⟨_, informTurn_of_full he (by omega) hs.portCount_eq rfl hfront hrun, ?_⟩
  refine
    { contains := ?_
      space_eq := ?_
      fits := by rw [hptr]; exact hsmall
      portCount_eq := rfl
      headCount_eq := ?_
      sent_eq := ?_
      sent_fits := hs.datagram_fits
      sum_eq := ?_ }
  · rwa [portBlocks_one]
  · show (informBufSize : Int) - _ = informBufSize - a'.ptr
    rw [hptr]
    push_cast
    omega
  · -- the head of the next datagram counts what was not sent
    show s.headCount - count = _
    rw [hs.headCount_eq, List.sum_append, List.sum_singleton]
    push_cast
    omega
  · show s.sent ++ [sendMessage _ s.spaceRemain] = _
    rw [hs.datagram, List.map_append, List.map_singleton, hs.sent_eq]
  · rw [List.sum_append, List.sum_singleton, hs.sum_eq]

/-- **A turn of the loop.** -/
theorem InformInv.turn {information : List UInt8} (he : portElements information = some e)
    (hsmall : informGetHeadSize + 4 + (portBlock e).length ≤ informBufSize)
    {done : Nat} {counts : List Nat} {count : Nat} {s : InformState}
    (hs : InformInv host e n done counts count s) :
    ∃ s' counts' count', informTurn host information s = some s' ∧
      InformInv host e n (done + 1) counts' count' s' := by
  -- the test of `space_remain` is the test whether the block fits
  by_cases hfits : s.area.ptr + (portBlock e).length ≤ informBufSize
  · obtain ⟨s', hturn, hs'⟩ := hs.turn_fits he hfits
    exact ⟨s', counts, count + 1, hturn, hs'⟩
  · obtain ⟨s', hturn, hs'⟩ := hs.turn_split he hsmall (Nat.lt_of_not_le hfits)
    exact ⟨s', counts ++ [count], 1, hturn, hs'⟩

/-- **The loop**, with any number of splits. -/
theorem InformInv.loop {information : List UInt8} (he : portElements information = some e)
    (hsmall : informGetHeadSize + 4 + (portBlock e).length ≤ informBufSize) (m : Nat)
    {done : Nat} {counts : List Nat} {count : Nat} {s : InformState}
    (hs : InformInv host e n done counts count s) :
    ∃ s' counts' count', informLoop host information m s = some s' ∧
      InformInv host e n (done + m) counts' count' s' := by
  induction m generalizing done counts count s with
  | zero => exact ⟨s, counts, count, rfl, hs⟩
  | succ m ih =>
      obtain ⟨s₁, counts₁, count₁, hturn, hs₁⟩ := hs.turn he hsmall
      obtain ⟨s', counts', count', hloop, hs'⟩ := ih hs₁
      refine ⟨s', counts', count', ?_, ?_⟩
      · rw [informLoop, hturn]
        exact hloop
      · rwa [Nat.add_assoc, Nat.add_comm 1 m] at hs'

/-- The last datagram needs no patch: what was not sent is in the buffer. -/
theorem InformInv.last {counts : List Nat} {count : Nat} {s : InformState}
    (hs : InformInv host e n n counts count s) :
    sendMessage s.area.buf s.spaceRemain = informDatagram host e count := by
  have hlen : ((informBufSize : Int) - s.spaceRemain).toNat = s.area.ptr := by
    rw [hs.space_eq]
    omega
  have hhead : s.headCount = count := by
    have hsum := hs.sum_eq
    rw [hs.headCount_eq]
    omega
  rw [sendMessage, hlen, hs.contains.peek_eq, hhead]
  rfl

end Datagrams

/-- The count in the head of a datagram. -/
def headCount (d : List UInt8) : Int := (ofLe32 ((d.drop 36).take 4)).toInt32.toInt

/-- A datagram as the listener takes it: the type 3, a head with the host name and the number of
the blocks behind it, and these blocks. -/
structure IsDatagram (host : HostName) (e : ElementState) (d : List UInt8) (count : Nat) :
    Prop where
  type_eq : d.take 4 = intBytes 3
  host_eq : (d.drop 4).take 32 = host.bytes
  headCount_eq : headCount d = count
  blocks_eq : d.drop 40 = portBlocks e count
  length_le : d.length ≤ 1024

/-- The pieces of a datagram. -/
theorem isDatagram_informDatagram (host : HostName) (e : ElementState) {count : Nat}
    (hcount : count < 2 ^ 31) (hlen : (informDatagram host e count).length ≤ informBufSize) :
    IsDatagram host e (informDatagram host e count) count := by
  have hsize := host.size_eq
  have hdrop4 : (informDatagram host e count).drop 4 =
      host.bytes ++ (intBytes (Int32.ofInt count) ++ portBlocks e count) := by
    rw [informDatagram, frontBytes, List.append_assoc, List.append_assoc]
    exact List.drop_left' (intBytes_length 3)
  have hdrop36 : (informDatagram host e count).drop 36 =
      intBytes (Int32.ofInt count) ++ portBlocks e count := by
    rw [show 36 = 4 + 32 from rfl, ← List.drop_drop, hdrop4]
    exact List.drop_left' hsize
  refine
    { type_eq := ?_
      host_eq := ?_
      headCount_eq := ?_
      blocks_eq := ?_
      length_le := hlen }
  · rw [informDatagram, frontBytes, List.append_assoc, List.append_assoc]
    exact List.take_left' (intBytes_length 3)
  · rw [hdrop4]
    exact List.take_left' hsize
  · rw [headCount, hdrop36, List.take_left' (intBytes_length _), intBytes, ofLe32_le32,
      Int32.toInt32_toUInt32, Int32.toInt_ofInt_of_le (by omega) (by omega)]
  · rw [show 40 = 36 + 4 from rfl, ← List.drop_drop, hdrop36]
    exact List.drop_left' (intBytes_length _)

/-- Before the first port. -/
theorem informInv_start (host : HostName) (e : ElementState) (n : Nat) (tail : InformGetTail)
    {a : SendArea} (ha : a.Contains (frontBytes host n)) :
    InformInv host e n 0 [] 0
      { area := a
        spaceRemain := informBufSize - (informGetHeadSize + 4)
        portCount := 0
        headCount := n
        tail := tail
        sent := [] } := by
  have hptr : a.ptr = informGetHeadSize + 4 := by rw [ha.ptr_eq, frontBytes_length]
  refine
    { contains := ?_
      space_eq := ?_
      fits := ?_
      portCount_eq := rfl
      headCount_eq := (Int.sub_zero _).symm
      sent_eq := rfl
      sent_fits := ?_
      sum_eq := rfl }
  · rwa [portBlocks, List.replicate_zero, List.flatten_nil, List.append_nil]
  · rw [hptr]
    push_cast
    rfl
  · rw [hptr]
    decide
  · intro c hc
    cases hc

/-- **Splitting a query over datagrams loses nothing.** Every datagram is well formed and has the
number of blocks that its head says, the blocks of all of them are the `n` blocks of the ports, and
the counts add up to `n`, a number of ports that an `int` holds. -/
theorem localInform_sends (host : HostName) (tail : InformGetTail) (n : Fin (2 ^ 31))
    {names : List (List UInt8)} (hlen : names.length ≤ 8)
    (hknown : ∀ name ∈ names, (bitOf name).isSome = true) :
    ∃ e ds counts, portElements (elementString names) = some e ∧ e.count = names.length ∧
      localInform host (elementString names) tail n = some ds ∧
      List.Forall₂ (IsDatagram host e) ds counts ∧
      ds.flatMap (fun d => d.drop 40) = portBlocks e n ∧ counts.sum = n := by
  obtain ⟨e, he, hcount⟩ := portElements_elementString hlen hknown
  have hsmall : informGetHeadSize + 4 + (portBlock e).length ≤ informBufSize := by
    rw [portBlock_length, hcount]
    simp only [informGetHeadSize, informGetMiddleSize, informGetTailSize, informBufSize]
    omega
  obtain ⟨a, hfront, ha⟩ := informFront_contains host (n : Nat) fun _ => 0
  obtain ⟨s, counts, count, hloop, hs⟩ := (informInv_start host e n tail ha).loop he hsmall n
  rw [Nat.zero_add] at hs
  have hsum : (counts ++ [count]).sum = n := by
    rw [List.sum_append, List.sum_singleton, hs.sum_eq]
  have hdatagram : ∀ c ∈ counts ++ [count], IsDatagram host e (informDatagram host e c) c := by
    intro c hc
    have hle : c ≤ n := hsum ▸ List.le_sum_of_mem hc
    have hlt : c < 2 ^ 31 := Nat.lt_of_le_of_lt hle n.isLt
    exact isDatagram_informDatagram host e hlt (hs.datagram_fits c hc)
  refine ⟨e, (counts ++ [count]).map (informDatagram host e), counts ++ [count], he, hcount, ?_, ?_,
    ?_, hsum⟩
  · rw [localInform, hfront]
    simp only [Option.bind_eq_bind, Option.bind_some, hloop, hs.last, hs.sent_eq, List.map_append,
      List.map_singleton]
  · rw [List.forall₂_map_left_iff, List.forall₂_same]
    exact hdatagram
  · rw [List.flatMap_map, ← hsum, ← flatMap_portBlocks]
    apply List.flatMap_congr
    intro c hc
    exact (hdatagram c hc).blocks_eq

/-- A host without a name. -/
def noHost : HostName := ⟨List.replicate 32 0, List.length_replicate, by decide⟩

/-- Thirty ports and `RTT_AVG`: two full datagrams with 13 blocks, and one with the rest. -/
theorem localInform_sends_thirty :
    ∃ e ds counts, e.count = 1
      ∧ localInform noHost (elementString [[82, 84, 84, 95, 65, 86, 71]]) InformGetTail.zero 30 = some ds
      ∧ ds.map (fun d => (d.length, headCount d)) = [(976, 13), (976, 13), (328, 4)]
      ∧ List.Forall₂ (IsDatagram noHost e) ds counts
      ∧ ds.flatMap (fun d => d.drop 40) = portBlocks e 30 ∧ counts.sum = 30 := by
  have hlen : ([[82, 84, 84, 95, 65, 86, 71]] : List (List UInt8)).length ≤ 8 := by decide
  obtain ⟨e, ds, counts, -, hcount, hrun, hall, hblocks, hsum⟩ :=
    localInform_sends noHost InformGetTail.zero 30 hlen (by decide)
  have hsizes : (localInform noHost (elementString [[82, 84, 84, 95, 65, 86, 71]]) InformGetTail.zero
      30).map (fun ds => ds.map fun d => (d.length, headCount d))
        = some [(976, 13), (976, 13), (328, 4)] := by
    decide +kernel
  have hrun' : localInform noHost (elementString [[82, 84, 84, 95, 65, 86, 71]]) InformGetTail.zero 30
      = some ds := hrun
  rw [hrun', Option.map_some, Option.some.injEq] at hsizes
  exact ⟨e, ds, counts, hcount, hrun, hsizes, hall, hblocks, hsum⟩

end Monitor
