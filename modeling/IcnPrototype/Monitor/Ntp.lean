import Mathlib.Data.Rat.Floor
import Mathlib.Tactic
import IcnPrototype.Host

set_option autoImplicit false

/-! # The clock of a monitor

`ntp_sync` sets the clock of a monitor; its call in `main` is commented out. It asks the time server
of the RM and gets the seconds at which the server received the question and sent the answer. From
these and from its own clock it computes the difference of the clocks and the delay of the way, and
sets its clock ahead by both.

Of the sum, half of the way back cancels and half of the way there is counted twice: the clock is
ahead by the time the question was on its way, and the time the answer took does not matter
(`clock_ahead`). The seconds since 1900 are unsigned words in the packet, so this ends in 2036,
when the clock falls behind by 2^32 seconds.
-/

namespace Monitor

open Host

/-! ## `ntp_sync` -/

/-- `From00to70` -/
def from00to70 : Int := 0x83aa7e80

/-- What `ntp_sync` reads of `NTP_PACKET`, in network byte order. -/
structure NtpPacket where
  recvTimeStampHigh : UInt32
  tranTimeStampHigh : UInt32

/-- `ntp_sync`: the seconds the clock is set to, if there is an answer within ten seconds. The
arguments are what `time(NULL)` returns before the question is sent, when the answer is there, and
when the clock is set. -/
def ntpSync (asked arrived now : Int) (newPack : Option NtpPacket) : Option Int :=
  newPack.map fun p =>
    let firstTimeStamp := from00to70 + asked
    let finalTimeStamp := arrived + from00to70
    let recvTimeStamp : Int := (ntohl p.recvTimeStampHigh).toNat
    let tranTimeStamp : Int := (ntohl p.tranTimeStampHigh).toNat
    let difTime := ((recvTimeStamp - firstTimeStamp) + (tranTimeStamp - finalTimeStamp)) >>> (1 : Nat)
    let delayTime :=
      ((recvTimeStamp - firstTimeStamp) - (tranTimeStamp - finalTimeStamp)) >>> (1 : Nat)
    now + difTime + delayTime

/-! ## An exchange -/

/-- A question and its answer: when they are sent and received, and when the clock is set, in seconds
since 1970 by the clock of the server; and by how much the clock of the monitor is behind. -/
structure Exchange where
  asked : ℚ
  received : ℚ
  answered : ℚ
  arrived : ℚ
  set : ℚ
  behind : ℚ

/-- A time stamp of the server: the seconds since 1900, modulo 2^32. -/
def timeStamp (x : ℚ) : UInt32 := htonl (UInt32.ofNat ((⌊x⌋ + from00to70) % 2 ^ 32).toNat)

namespace Exchange

variable (e : Exchange)

/-- `time(NULL)` on the monitor. -/
def time (x : ℚ) : Int := ⌊x - e.behind⌋

/-- The answer. -/
def answer : NtpPacket := ⟨timeStamp e.received, timeStamp e.answered⟩

/-- What the monitor sets its clock to. -/
def clock : Option Int :=
  ntpSync (e.time e.asked) (e.time e.arrived) (e.time e.set) (some e.answer)

/-- The number of times the seconds since 1900 had passed 2^32. -/
def era : Int := (⌊e.received⌋ + from00to70) / 2 ^ 32

end Exchange

/-- The two halves, each rounded down. -/
theorem halves_sum (a b : Int) :
    (a + b) >>> (1 : Nat) + (a - b) >>> (1 : Nat) = a - (a + b) % 2 := by
  rw [Int.shiftRight_eq_div_pow, Int.shiftRight_eq_div_pow]
  omega

theorem toNat_timeStamp (x : ℚ) :
    ((ntohl (timeStamp x)).toNat : Int) = (⌊x⌋ + from00to70) % 2 ^ 32 := by
  have hpos : 0 ≤ (⌊x⌋ + from00to70) % 2 ^ 32 := Int.emod_nonneg _ (by decide)
  have hlt : (⌊x⌋ + from00to70) % 2 ^ 32 < 2 ^ 32 := Int.emod_lt_of_pos _ (by decide)
  unfold timeStamp
  rw [ntohl_htonl, UInt32.toNat_ofNat']
  omega

/-- What the clock is set to. What comes from the answer's way back is only the rounding. -/
theorem clock_eq (e : Exchange) : ∃ r, (r = 0 ∨ r = 1)
    ∧ e.clock = some (e.time e.set + ⌊e.received⌋ - e.time e.asked - 2 ^ 32 * e.era - r) := by
  let there := (⌊e.received⌋ + from00to70) % 2 ^ 32 - (from00to70 + e.time e.asked)
  let back := (⌊e.answered⌋ + from00to70) % 2 ^ 32 - (e.time e.arrived + from00to70)
  refine ⟨(there + back) % 2, by omega, ?_⟩
  have hclock : e.clock
      = some (e.time e.set + (there + back) >>> (1 : Nat) + (there - back) >>> (1 : Nat)) := by
    unfold Exchange.clock ntpSync Exchange.answer
    rw [Option.map_some, toNat_timeStamp, toNat_timeStamp]
  have hsum := halves_sum there back
  have hera : 2 ^ 32 * e.era + (⌊e.received⌋ + from00to70) % 2 ^ 32 = ⌊e.received⌋ + from00to70 :=
    Int.mul_ediv_add_emod _ _
  rw [hclock, Option.some.injEq]
  calc e.time e.set + (there + back) >>> (1 : Nat) + (there - back) >>> (1 : Nat)
      = e.time e.set + (there - (there + back) % 2) := by rw [add_assoc, hsum]
    _ = _ := by
      simp only [there] at *
      omega

/-- **The clock is ahead by the way of the question**, up to the rounding to seconds, whatever the
server and the answer take; and it is behind by 2^32 seconds for each time the time stamps have
wrapped around. -/
theorem clock_ahead (e : Exchange) : ∃ t : Int, e.clock = some t
    ∧ e.received - e.asked - 3 < t + 2 ^ 32 * e.era - e.set
    ∧ t + 2 ^ 32 * e.era - e.set < e.received - e.asked + 1 := by
  obtain ⟨r, hr, hclock⟩ := clock_eq e
  have hbit : 0 ≤ (r : ℚ) ∧ (r : ℚ) ≤ 1 := by
    rcases hr with rfl | rfl
    · norm_num
    · norm_num
  have hset := Int.floor_le (e.set - e.behind)
  have hset' := Int.lt_floor_add_one (e.set - e.behind)
  have hasked := Int.floor_le (e.asked - e.behind)
  have hasked' := Int.lt_floor_add_one (e.asked - e.behind)
  have hreceived := Int.floor_le e.received
  have hreceived' := Int.lt_floor_add_one e.received
  refine ⟨_, hclock, ?_, ?_⟩
  · unfold Exchange.time
    push_cast
    linarith
  · unfold Exchange.time
    push_cast
    linarith

end Monitor
