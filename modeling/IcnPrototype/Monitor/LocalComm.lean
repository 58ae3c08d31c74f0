import IcnPrototype.Lib.Checked
import IcnPrototype.Monitor.Timer

set_option autoImplicit false

/-! # The local listener

`local_listen` (`local_comm.c`) receives a datagram into `recv_buf` and walks over it: a timer
command is a count and that many records of 80 bytes, an inform request has a head of 36 bytes and
per port 20 bytes and a tail of 52 bytes for every bit that is set in its mask, and is answered
from `send_buf`. Nothing is compared with `recv_len`.

Every access goes through a `Window` on `recv_buf`, so the model ends with a fault at the first
byte that may not be read; which bytes may is for the window to say. `localListen_isOk_iff` takes
the received bytes and says exactly for which datagrams there is no fault.
-/

namespace Monitor

open Bytes

/-! ## Layout -/

/-- `struct tm` of glibc, 56 bytes. -/
structure Tm where
  tmSec : Int32
  tmMin : Int32
  tmHour : Int32
  tmMday : Int32
  tmMon : Int32
  tmYear : Int32
  tmWday : Int32
  tmYday : Int32
  tmIsdst : Int32
  tmGmtoff : Int64
  tmZone : UInt64
  deriving DecidableEq

/-- An `int` in memory. -/
def loadInt (m : Mem) (off : Nat) : Int32 := (load32 m off).toInt32

/-- The `struct tm` at an offset. -/
def Tm.load (m : Mem) (off : Nat) : Tm where
  tmSec := loadInt m off
  tmMin := loadInt m (off + 4)
  tmHour := loadInt m (off + 8)
  tmMday := loadInt m (off + 12)
  tmMon := loadInt m (off + 16)
  tmYear := loadInt m (off + 20)
  tmWday := loadInt m (off + 24)
  tmYday := loadInt m (off + 28)
  tmIsdst := loadInt m (off + 32)
  tmGmtoff := (load64 m (off + 40)).toInt64
  tmZone := load64 m (off + 48)

/-- `sizeof(struct TIMER_MESSAGE)` -/
def timerMessageSize : Nat := 80

/-- `sizeof(struct INFORM_GET_HEAD)` -/
def informGetHeadSize : Nat := 36

/-- `sizeof(struct INFORM_GET_MIDDLE)` -/
def informGetMiddleSize : Nat := 20

/-- `sizeof(struct INFORM_GET_TAIL)` -/
def informGetTailSize : Nat := 52

/-- An `int` that is read. -/
def readInt (w : Window) (off : Nat) : Except Fault Int32 := do
  let bs ← w.read off 4
  return (ofLe32 bs).toInt32

/-! ## `parse_timer_message` -/

/-- One pass of the loop over the records: the record is printed and handed to `set_child_timer`,
which looks its port up and copies its time only if there is such a port. -/
def timerRecord (site : Site Tm) (w : Window) (o : Nat) : Except Fault (TimerMessage Tm) := do
  let ip ← w.str o
  let flag ← readInt w (o + 16)
  -- year, month, day, hour, minute and second are printed
  let _ ← w.read (o + 24) 24
  let t := Tm.load w.mem (o + 24)
  if setTimerId ip site.portInfo 0 = -1 then return ⟨ip, flag.toInt, t⟩
  let _ ← w.read (o + 24) 56
  return ⟨ip, flag.toInt, t⟩

/-- The loop of `parse_timer_message` from the record at `o` on. -/
def timerRecords (site : Site Tm) (w : Window) : Nat → Nat → Except Fault (List (TimerMessage Tm))
  | 0, _ => return []
  | n + 1, o => do
      let r ← timerRecord site w o
      let rs ← timerRecords site w n (o + timerMessageSize)
      return r :: rs

/-- `parse_timer_message`: the records that `set_child_timer` gets. -/
def readTimerMessage (site : Site Tm) (w : Window) : Except Fault (List (TimerMessage Tm)) := do
  let count ← readInt w 4
  timerRecords site w count.toInt.toNat 8

/-! ## `parse_inform_message` -/

/-- The size of `send_buf` -/
def sendBufSize : Nat := 1280

/-- The number of entries of `inform_element` -/
def informElements : Nat := 8

/-- What `fetch_inform_data` returns: the queries are commented out, so it is always -1. -/
def fetchInformData : List UInt8 := le64 (UInt64.ofNat (2 ^ 64 - 1))

/-- The loop `while(request)`, with the place of the next tail. A request has at most 32 bits. -/
def informRequest (w : Window) : Nat → Nat → Nat → Nat → Sink → Except Fault (Nat × Sink)
  | 0, _, _, tail, reply => return (tail, reply)
  | bits + 1, request, j, tail, reply =>
      if request = 0 then return (tail, reply)
      else if request % 2 = 1 then do
        let bs ← w.read tail informGetTailSize
        let reply ← reply.write bs
        if j < informElements then
          let reply ← reply.write fetchInformData
          informRequest w bits (request / 2) (j + 1) (tail + informGetTailSize) reply
        else throw .index
      else informRequest w bits (request / 2) (j + 1) tail reply

/-- One pass of the loop over the ports, with the place of the next
`struct INFORM_GET_MIDDLE`. -/
def informPort (w : Window) (middle : Nat) (reply : Sink) : Except Fault (Nat × Sink) := do
  let _ ← w.str middle
  let request ← w.read (middle + 16) 4
  let (tail, reply) ← informRequest w 32 (ofLe32 request).toNat 0
    (middle + informGetMiddleSize) reply
  let bs ← w.read tail informGetMiddleSize
  let reply ← reply.write bs
  return (tail, reply)

/-- The loop over the ports. -/
def informPorts (w : Window) : Nat → Nat → Sink → Except Fault Sink
  | 0, _, reply => return reply
  | n + 1, middle, reply => do
      let (middle, reply) ← informPort w middle reply
      informPorts w n middle reply

/-- `parse_inform_message`: the reply in `send_buf`. -/
def parseInformMessage (w : Window) : Except Fault Sink := do
  let head ← w.read 4 informGetHeadSize
  let reply ← Sink.write ⟨fun _ => 0, 0, sendBufSize⟩ head
  let middle ← w.read (4 + informGetHeadSize) informGetMiddleSize
  let reply ← reply.write middle
  let count ← readInt w 36
  informPorts w count.toInt.toNat (4 + informGetHeadSize) reply

/-! ## `local_listen` -/

/-- What `local_listen` returns. -/
inductive Heard where
  /-- Type 1: the list after `set_child_timer` for these records. -/
  | timers (records : List (TimerMessage Tm))
  /-- Type 2: a pointer into `recv_buf`. -/
  | ack
  /-- Type 3: the reply. -/
  | inform (reply : Sink)
  /-- Another type: `NULL`. -/
  | unknown

/-- `local_listen` after `recvfrom`. -/
def localListen (site : Site Tm) (w : Window) : Except Fault Heard := do
  let recvType ← readInt w 0
  if recvType = 1 then return .timers (← readTimerMessage site w)
  else if recvType = 2 then return .ack
  else if recvType = 3 then return .inform (← parseInformMessage w)
  else return .unknown

/-! ## The datagrams without a fault -/

/-- A received datagram: `recv_buf` has 1024 bytes, and the first `recv_len` were received. -/
structure Datagram where
  recvBuf : Mem
  recvLen : Nat
  recvLen_le : recvLen ≤ 1024

/-- Only what was received may be read. -/
def Datagram.window (d : Datagram) : Window := ⟨d.recvBuf, d.recvLen⟩

/-- The type of a datagram. -/
def Datagram.type (d : Datagram) : Int32 := loadInt d.recvBuf 0

/-- The port of the record at `o` is one of the host. -/
def knownPort (site : Site Tm) (w : Window) (o : Nat) : Prop :=
  setTimerId (cstr (peek w.mem o (w.limit - o))) site.portInfo 0 ≠ -1

/-- The address of a record ends before the received bytes do, and these reach to the seconds of
its year at least, or to the end of the record if its port is known. -/
def RecordFits (site : Site Tm) (w : Window) (o : Nat) : Prop :=
  w.Terminated o ∧ o + 48 ≤ w.limit ∧ (knownPort site w o → o + timerMessageSize ≤ w.limit)

/-- How many of the `bits` low bits are set. -/
def bitCount : Nat → Nat → Nat
  | 0, _ => 0
  | bits + 1, n => n % 2 + bitCount bits (n / 2)

/-- The mask of the port at an offset. -/
def requestAt (m : Mem) (middle : Nat) : Nat := (load32 m (middle + 16)).toNat

/-- Where the port behind the one at `middle` is. -/
def nextMiddle (m : Mem) (middle : Nat) : Nat :=
  middle + informGetMiddleSize + informGetTailSize * bitCount 32 (requestAt m middle)

/-- Where the `i`-th port behind the one at `middle` is. -/
def middleAt (m : Mem) : Nat → Nat → Nat
  | middle, 0 => middle
  | middle, i + 1 => middleAt m (nextMiddle m middle) i

/-- The address of a port ends before the received bytes do, its mask has no bit behind the eighth,
and its tails and the 20 bytes behind them were received. -/
def PortFits (w : Window) (middle : Nat) : Prop :=
  w.Terminated middle ∧ requestAt w.mem middle < 2 ^ informElements
    ∧ nextMiddle w.mem middle + informGetMiddleSize ≤ w.limit

/-- **The datagrams without a fault.** -/
structure Fits (site : Site Tm) (d : Datagram) : Prop where
  type : 4 ≤ d.recvLen
  timers : d.type = 1 → 8 ≤ d.recvLen
    ∧ ∀ i < (loadInt d.recvBuf 4).toInt.toNat, RecordFits site d.window (8 + timerMessageSize * i)
  inform : d.type = 3 → 60 ≤ d.recvLen
    ∧ ∀ i < (loadInt d.recvBuf 36).toInt.toNat, PortFits d.window (middleAt d.recvBuf 40 i)

/-! ## Timer commands -/

theorem readInt_eq_ok {w : Window} {off : Nat} {x : Int32} :
    readInt w off = .ok x ↔ off + 4 ≤ w.limit ∧ loadInt w.mem off = x := by
  rw [readInt, bind_eq_ok]
  constructor
  · rintro ⟨bs, hbs, hx⟩
    obtain ⟨hle, rfl⟩ := Window.read_eq_ok.mp hbs
    exact ⟨hle, Except.ok.inj hx⟩
  · rintro ⟨hle, hx⟩
    exact ⟨_, Window.read_eq_ok.mpr ⟨hle, rfl⟩, congrArg Except.ok hx⟩

theorem readInt_bind_isOk {β : Type} {w : Window} {off : Nat} {f : Int32 → Except Fault β} :
    (readInt w off >>= f).isOk = true
      ↔ off + 4 ≤ w.limit ∧ (f (loadInt w.mem off)).isOk = true := by
  simp only [bind_isOk, readInt_eq_ok, and_assoc, exists_eq_left', exists_and_left]

theorem timerRecord_isOk_iff {site : Site Tm} {w : Window} {o : Nat} :
    (timerRecord site w o).isOk = true ↔ RecordFits site w o := by
  rw [timerRecord, Window.str_bind_isOk, readInt_bind_isOk, Window.read_bind_isOk, RecordFits]
  apply and_congr_right
  intro _
  by_cases hknown : knownPort site w o
  · rw [if_neg hknown, Window.read_bind_isOk]
    simp only [hknown, pure_isOk, timerMessageSize, forall_const, and_true]
    omega
  · rw [if_pos (not_not.mp hknown)]
    simp only [hknown, pure_isOk, false_implies, and_true]
    omega

theorem timerRecords_isOk_iff {site : Site Tm} {w : Window} {n o : Nat} :
    (timerRecords site w n o).isOk = true
      ↔ ∀ i < n, RecordFits site w (o + timerMessageSize * i) := by
  induction n generalizing o with
  | zero => simp [timerRecords]
  | succ n ih =>
      have hrest : (∀ i < n, RecordFits site w (o + timerMessageSize * (i + 1)))
          ↔ (timerRecords site w n (o + timerMessageSize)).isOk = true := by
        rw [ih]
        refine forall_congr' fun i => imp_congr_right fun _ => ?_
        rw [Nat.mul_succ, Nat.add_assoc, Nat.add_comm timerMessageSize]
      rw [timerRecords, Nat.forall_lt_succ_left, Nat.mul_zero, Nat.add_zero, hrest,
        ← timerRecord_isOk_iff]
      apply bind_isOk_and
      intro r
      rw [bind_isOk_and (p := True) fun rs => by simp, and_true]

theorem readTimerMessage_isOk_iff {site : Site Tm} {w : Window} :
    (readTimerMessage site w).isOk = true ↔ 8 ≤ w.limit
      ∧ ∀ i < (loadInt w.mem 4).toInt.toNat, RecordFits site w (8 + timerMessageSize * i) := by
  rw [readTimerMessage, readInt_bind_isOk, timerRecords_isOk_iff]

/-! ## Inform requests -/

theorem bitCount_zero (bits : Nat) : bitCount bits 0 = 0 := by
  induction bits with
  | zero => rfl
  | succ bits ih => rw [bitCount, Nat.zero_div, ih]

theorem two_pow_informElements {j : Nat} (hj : j < informElements) :
    2 ^ (informElements - j) = 2 ^ (informElements - (j + 1)) * 2 := by
  rw [← Nat.pow_succ]
  congr 1
  omega

/-- The bits of a mask that has no bit from `informElements - j` on. -/
theorem lt_two_pow_of_half {request j : Nat} (h : request / 2 < 2 ^ (informElements - (j + 1)))
    (hj : j < informElements ∨ request % 2 = 0) : request < 2 ^ (informElements - j) := by
  by_cases hlt : j < informElements
  · have hpow := two_pow_informElements hlt
    omega
  · have hzero : informElements - (j + 1) = 0 := by omega
    have heven := hj.resolve_left hlt
    rw [hzero] at h
    have hpos : 0 < 2 ^ (informElements - j) := Nat.two_pow_pos _
    omega

/-- A pass over a mask that ends without a fault has copied a tail for every bit, and no bit is
behind the last element. -/
theorem informRequest_eq_ok {w : Window} {bits request j tail : Nat} {reply : Sink} {tail' : Nat}
    {reply' : Sink} (hlt : request < 2 ^ bits)
    (h : informRequest w bits request j tail reply = .ok (tail', reply')) :
    request < 2 ^ (informElements - j)
      ∧ tail' = tail + informGetTailSize * bitCount bits request
      ∧ reply'.ptr = reply.ptr + (informGetTailSize + 8) * bitCount bits request
      ∧ reply'.capacity = reply.capacity := by
  induction bits generalizing request j tail reply with
  | zero =>
      obtain rfl : request = 0 := by simpa using hlt
      cases h
      exact ⟨Nat.two_pow_pos _, rfl, rfl, rfl⟩
  | succ bits ih =>
      rw [informRequest] at h
      split at h
      · next h0 =>
          subst h0
          cases h
          rw [bitCount_zero]
          exact ⟨Nat.two_pow_pos _, rfl, rfl, rfl⟩
      · next h0 =>
          split at h
          · next hodd =>
              -- The bit is set: a tail is read, and the tail and its value are written.
              obtain ⟨bs, hbs, h⟩ := bind_eq_ok.mp h
              obtain ⟨reply₁, hreply₁, h⟩ := bind_eq_ok.mp h
              split at h
              · next hj =>
                  obtain ⟨reply₂, hreply₂, h⟩ := bind_eq_ok.mp h
                  obtain ⟨-, rfl⟩ := Window.read_eq_ok.mp hbs
                  obtain ⟨-, rfl⟩ := Sink.write_eq_ok.mp hreply₁
                  obtain ⟨-, rfl⟩ := Sink.write_eq_ok.mp hreply₂
                  obtain ⟨hlt', rfl, hptr, hcap⟩ := ih (by omega) h
                  have hlen : (peek w.mem tail informGetTailSize).length = 52 := peek_length _ _ _
                  have hvalue : fetchInformData.length = 8 := le64_length _
                  refine ⟨lt_two_pow_of_half hlt' (Or.inl hj), ?_, ?_, hcap⟩
                  · rw [bitCount, hodd]
                    simp only [informGetTailSize]
                    omega
                  · rw [bitCount, hodd, hptr]
                    simp only [informGetTailSize] at hlen ⊢
                    omega
              · cases h
          · next heven =>
              obtain ⟨hlt', rfl, hptr, hcap⟩ := ih (by omega) h
              have hzero : request % 2 = 0 := by omega
              refine ⟨lt_two_pow_of_half hlt' (Or.inr hzero), ?_, ?_, hcap⟩
              · rw [bitCount, hzero, Nat.zero_add]
              · rw [bitCount, hzero, Nat.zero_add, hptr]

/-- The converse: with no bit behind the last element, and room for the tails in both buffers, a
pass has no fault. -/
theorem informRequest_isOk {w : Window} {bits request j tail : Nat} {reply : Sink}
    (hbits : request < 2 ^ bits) (hlt : request < 2 ^ (informElements - j))
    (htail : tail + informGetTailSize * bitCount bits request ≤ w.limit)
    (hreply : reply.ptr + (informGetTailSize + 8) * bitCount bits request ≤ reply.capacity) :
    (informRequest w bits request j tail reply).isOk = true := by
  induction bits generalizing request j tail reply with
  | zero => rfl
  | succ bits ih =>
      rw [informRequest]
      rw [bitCount] at htail hreply
      split
      · rfl
      · next h0 =>
          -- A bit is left, so the names are not used up.
          have hj : j < informElements := by
            by_contra hge
            rw [show informElements - j = 0 by omega] at hlt
            omega
          have hhalf : request / 2 < 2 ^ (informElements - (j + 1)) := by
            have hpow := two_pow_informElements hj
            omega
          split
          · next hodd =>
              rw [hodd] at htail hreply
              have hlen : (peek w.mem tail informGetTailSize).length = 52 := peek_length _ _ _
              have hvalue : fetchInformData.length = 8 := le64_length _
              simp only [informGetTailSize] at htail hreply hlen
              rw [Window.read_bind_isOk, Sink.write_bind_isOk, Sink.write_bind_isOk]
              simp only [informGetTailSize]
              refine ⟨by omega, by omega, by omega, ih (by omega) hhalf ?_ ?_⟩
              · simp only [informGetTailSize]
                omega
              · simp only [informGetTailSize]
                omega
          · next heven =>
              have hzero : request % 2 = 0 := by omega
              rw [hzero, Nat.zero_add] at htail hreply
              exact ih (by omega) hhalf htail hreply

/-- A port without a fault fits into what may be read, and the reply grows by 60 bytes where the
request has 52. -/
theorem informPort_eq_ok {w : Window} {middle next : Nat} {reply reply' : Sink}
    (h : informPort w middle reply = .ok (next, reply')) :
    PortFits w middle ∧ next = nextMiddle w.mem middle
      ∧ reply'.ptr = reply.ptr + 60 * bitCount 32 (requestAt w.mem middle) + 20
      ∧ reply'.capacity = reply.capacity := by
  rw [informPort] at h
  obtain ⟨ip, hip, h⟩ := bind_eq_ok.mp h
  obtain ⟨request, hrequest, h⟩ := bind_eq_ok.mp h
  obtain ⟨⟨tail, reply₁⟩, hpass, h⟩ := bind_eq_ok.mp h
  obtain ⟨bs, hbs, h⟩ := bind_eq_ok.mp h
  obtain ⟨reply₂, hreply₂, h⟩ := bind_eq_ok.mp h
  obtain ⟨-, hbytes⟩ := Window.read_eq_ok.mp hrequest
  have hvalue : (ofLe32 request).toNat = requestAt w.mem middle := by
    rw [← hbytes]
    rfl
  rw [hvalue] at hpass
  have hbound : requestAt w.mem middle < 2 ^ 32 := UInt32.toNat_lt _
  obtain ⟨hlt, htail, hptr, hcap⟩ := informRequest_eq_ok hbound hpass
  obtain ⟨hend, hcopied⟩ := Window.read_eq_ok.mp hbs
  obtain ⟨-, rfl⟩ := Sink.write_eq_ok.mp hreply₂
  have hlen : bs.length = 20 := by
    rw [← hcopied]
    exact peek_length _ _ _
  obtain ⟨rfl, rfl⟩ := Prod.mk.inj (Except.ok.inj h)
  refine ⟨⟨(Window.str_eq_ok.mp hip).1, hlt, ?_⟩, htail, ?_, hcap⟩
  · rw [nextMiddle, ← htail]
    exact hend
  · dsimp only
    rw [hlen, hptr, informGetTailSize]

theorem informPort_isOk {w : Window} {middle : Nat} {reply : Sink} (hfits : PortFits w middle)
    (hreply : reply.ptr + 60 * bitCount 32 (requestAt w.mem middle) + 20 ≤ reply.capacity) :
    (informPort w middle reply).isOk = true := by
  obtain ⟨hterm, hlt, hend⟩ := hfits
  have hnext : nextMiddle w.mem middle
      = middle + 20 + 52 * bitCount 32 (requestAt w.mem middle) := rfl
  have hbound : requestAt w.mem middle < 2 ^ 32 := UInt32.toNat_lt _
  have hpass : (informRequest w 32 (requestAt w.mem middle) 0 (middle + informGetMiddleSize)
      reply).isOk = true := by
    refine informRequest_isOk hbound hlt ?_ ?_
    · simp only [informGetMiddleSize, informGetTailSize] at hend ⊢
      omega
    · simp only [informGetTailSize]
      omega
  obtain ⟨⟨tail, reply₁⟩, hpass⟩ := isOk_iff.mp hpass
  obtain ⟨-, htail, hptr, hcap⟩ := informRequest_eq_ok hbound hpass
  have hvalue : (ofLe32 (peek w.mem (middle + 16) 4)).toNat = requestAt w.mem middle := rfl
  rw [informPort, Window.str_bind_isOk, Window.read_bind_isOk, hvalue, hpass]
  simp only [informGetMiddleSize, informGetTailSize] at hend htail hptr
  have hmiddle : middle + 16 + 4 ≤ w.limit := by omega
  refine ⟨hterm, hmiddle, ?_⟩
  have hlen : (peek w.mem tail informGetMiddleSize).length = 20 := peek_length _ _ _
  show (w.read tail informGetMiddleSize >>= fun bs =>
    reply₁.write bs >>= fun reply => pure (tail, reply)).isOk = true
  rw [Window.read_bind_isOk, Sink.write_bind_isOk, hlen, htail, hptr, hcap]
  refine ⟨?_, ?_, rfl⟩
  · simp only [informGetMiddleSize]
    omega
  · omega

theorem middleAt_zero (m : Mem) (middle : Nat) : middleAt m middle 0 = middle := by
  rw [middleAt]

theorem middleAt_succ (m : Mem) (middle i : Nat) :
    middleAt m middle (i + 1) = middleAt m (nextMiddle m middle) i := by
  rw [middleAt]

/-- **The ports.** The reply never has more than a bit over the size of what was read, so its
bound is met wherever the one for the received bytes is. -/
theorem informPorts_isOk_iff {w : Window} (hlimit : w.limit ≤ 1024) {n middle : Nat}
    {reply : Sink} (hcap : reply.capacity = sendBufSize)
    (hptr : 13 * reply.ptr ≤ 15 * middle + 128) :
    (informPorts w n middle reply).isOk = true
      ↔ ∀ i < n, PortFits w (middleAt w.mem middle i) := by
  induction n generalizing middle reply with
  | zero => simp [informPorts]
  | succ n ih =>
      rw [informPorts, Nat.forall_lt_succ_left, middleAt_zero, bind_isOk]
      constructor
      · rintro ⟨⟨next, reply'⟩, hport, hrest⟩
        obtain ⟨hfits, hnext, hptr', hcap'⟩ := informPort_eq_ok hport
        -- The reply grows by 60 bytes per tail, the walk by 52, and 13 * 60 = 15 * 52.
        refine ⟨hfits, ?_⟩
        simp only [middleAt_succ, ← hnext]
        refine (ih (hcap'.trans hcap) ?_).mp hrest
        rw [nextMiddle] at hnext
        simp only [informGetMiddleSize, informGetTailSize] at hnext
        omega
      · rintro ⟨hfits, hrest⟩
        obtain ⟨hterm, hlt, hend⟩ := hfits
        have hend' := hend
        rw [nextMiddle] at hend'
        simp only [informGetMiddleSize, informGetTailSize] at hend'
        -- The port ends before 1024, so the reply ends before 1170.
        have hroom : reply.ptr + 60 * bitCount 32 (requestAt w.mem middle) + 20
            ≤ reply.capacity := by
          rw [hcap, sendBufSize]
          omega
        obtain ⟨⟨next, reply'⟩, hport⟩ := isOk_iff.mp (informPort_isOk ⟨hterm, hlt, hend⟩ hroom)
        obtain ⟨-, hnext, hptr', hcap'⟩ := informPort_eq_ok hport
        refine ⟨_, hport, (ih (hcap'.trans hcap) ?_).mpr ?_⟩
        · rw [nextMiddle] at hnext
          simp only [informGetMiddleSize, informGetTailSize] at hnext
          omega
        · intro i hi
          rw [hnext, ← middleAt_succ]
          exact hrest i hi

theorem parseInformMessage_isOk_iff {w : Window} (hlimit : w.limit ≤ 1024) :
    (parseInformMessage w).isOk = true ↔ 60 ≤ w.limit
      ∧ ∀ i < (loadInt w.mem 36).toInt.toNat, PortFits w (middleAt w.mem 40 i) := by
  have hhead : (peek w.mem 4 informGetHeadSize).length = 36 := peek_length _ _ _
  have hmiddle : (peek w.mem (4 + informGetHeadSize) informGetMiddleSize).length = 20 :=
    peek_length _ _ _
  rw [parseInformMessage, Window.read_bind_isOk, Sink.write_bind_isOk, Window.read_bind_isOk,
    Sink.write_bind_isOk, readInt_bind_isOk, hhead, hmiddle]
  dsimp only
  rw [informPorts_isOk_iff hlimit rfl (by simp only [informGetHeadSize]; omega)]
  simp only [informGetHeadSize, informGetMiddleSize, sendBufSize]
  constructor
  · rintro ⟨-, -, hle, -, -, hports⟩
    exact ⟨hle, hports⟩
  · rintro ⟨hle, hports⟩
    exact ⟨by omega, by omega, hle, by omega, by omega, hports⟩

/-! ## Every datagram -/

/-- What a datagram without a fault is heard as, by its type. -/
theorem localListen_cases {site : Site Tm} {w : Window} {heard : Heard}
    (h : localListen site w = .ok heard) :
    (loadInt w.mem 0 = 1 ∧ ∃ records, heard = .timers records)
      ∨ (loadInt w.mem 0 = 2 ∧ heard = .ack)
      ∨ (loadInt w.mem 0 = 3 ∧ ∃ reply, heard = .inform reply)
      ∨ ((loadInt w.mem 0 ≠ 1 ∧ loadInt w.mem 0 ≠ 2 ∧ loadInt w.mem 0 ≠ 3) ∧ heard = .unknown) := by
  rw [localListen] at h
  obtain ⟨recvType, hread, h⟩ := bind_eq_ok.mp h
  obtain ⟨-, rfl⟩ := readInt_eq_ok.mp hread
  split at h
  · next h1 =>
      obtain ⟨records, -, hok⟩ := bind_eq_ok.mp h
      cases hok
      exact Or.inl ⟨h1, records, rfl⟩
  · next h1 =>
      split at h
      · next h2 =>
          cases h
          exact Or.inr (Or.inl ⟨h2, rfl⟩)
      · next h2 =>
          split at h
          · next h3 =>
              obtain ⟨reply, -, hok⟩ := bind_eq_ok.mp h
              cases hok
              exact Or.inr (Or.inr (Or.inl ⟨h3, reply, rfl⟩))
          · next h3 =>
              cases h
              exact Or.inr (Or.inr (Or.inr ⟨⟨h1, h2, h3⟩, rfl⟩))

/-- **The local listener has no fault on exactly the datagrams that fit.** -/
theorem localListen_isOk_iff (site : Site Tm) (d : Datagram) :
    (localListen site d.window).isOk = true ↔ Fits site d := by
  have hfits : Fits site d ↔ 4 ≤ d.recvLen
      ∧ (d.type = 1 → (readTimerMessage site d.window).isOk = true)
      ∧ (d.type = 3 → (parseInformMessage d.window).isOk = true) := by
    rw [readTimerMessage_isOk_iff, parseInformMessage_isOk_iff d.recvLen_le]
    constructor
    · intro h
      exact ⟨h.type, h.timers, h.inform⟩
    · rintro ⟨htype, htimers, hinform⟩
      exact ⟨htype, htimers, hinform⟩
  have htype : loadInt d.window.mem 0 = d.type := rfl
  rw [hfits, localListen, readInt_bind_isOk, htype]
  apply and_congr_right
  intro _
  by_cases h1 : d.type = 1
  · rw [if_pos h1, bind_isOk_and (p := True) fun rs => by simp, and_true]
    simp only [h1, show (1 : Int32) ≠ 3 by decide, forall_const, false_implies, and_true]
  · rw [if_neg h1]
    by_cases h2 : d.type = 2
    · rw [if_pos h2, h2]
      simp only [pure_isOk, show (2 : Int32) ≠ 1 by decide, show (2 : Int32) ≠ 3 by decide,
        false_implies, and_self]
    · rw [if_neg h2]
      by_cases h3 : d.type = 3
      · rw [if_pos h3, bind_isOk_and (p := True) fun rs => by simp, and_true]
        simp only [h3, show (3 : Int32) ≠ 1 by decide, forall_const, false_implies, true_and]
      · rw [if_neg h3]
        simp only [h1, h3, pure_isOk, false_implies, and_self]

/-- A host without ports. -/
def noPorts : Site Tm where
  portInfo := []
  mktime := fun _ => 0

/-- A buffer that begins with these bytes, with zeros behind them. -/
def recvBufOf (bs : List UInt8) : Mem := poke (fun _ => 0) 0 bs

/-- A request for one port whose mask has only the bit of the band width, `1 << 8`. -/
def bandWidthRequest : Datagram where
  recvBuf := recvBufOf (le32 3 ++ List.replicate 32 0 ++ le32 1 ++ List.replicate 16 0 ++ le32 256)
  recvLen := 132
  recvLen_le := by decide

/-- A timer command that counts a record and ends before it. -/
def shortCommand : Datagram where
  recvBuf := recvBufOf (le32 1 ++ le32 1)
  recvLen := 8
  recvLen_le := by decide

/-- The band width has no entry in `inform_element`, the record was not received, and neither was
the type of an empty datagram. -/
theorem localListen_faults :
    localListen noPorts bandWidthRequest.window = .error .index
      ∧ localListen noPorts shortCommand.window = .error .read
      ∧ localListen noPorts (Datagram.window ⟨fun _ => 0, 0, by decide⟩) = .error .read := by
  refine ⟨?_, ?_, ?_⟩
  · rfl
  · rfl
  · rfl

end Monitor
