import IcnPrototype.Lib.Bytes

set_option autoImplicit false

/-! # Round-trip times

`unpack` (`get_link_stats.c`) takes the time at which a probe was sent out of its reply and
subtracts it from the time of arrival with `tv_sub`. Where the microseconds have to borrow a
second, `tv_sub` negates their difference and does not add the second to it, so the result is
right only if the negation happens to be the complement (`roundTrip_exactOn_iff`).

Seconds are unbounded here: the clock of a host is far from the end of a `long`.
-/

namespace Monitor

open Bytes

/-! ## Times -/

/-- A `struct timeval`. -/
structure Timeval where
  tvSec : Int
  tvUsec : Int
deriving DecidableEq

/-- The value in microseconds. -/
def Timeval.micros (t : Timeval) : Int := t.tvSec * 1000000 + t.tvUsec

/-- What `gettimeofday` gives: the microseconds are less than a second. -/
structure Time extends Timeval where
  usec_nonneg : 0 ≤ tvUsec
  usec_lt : tvUsec < 1000000

/-- `tv_sub`: what it leaves in `recvtime`. -/
def tvSub (recvtime sendtime : Timeval) : Timeval :=
  let sec := recvtime.tvSec - sendtime.tvSec
  let usec := recvtime.tvUsec - sendtime.tvUsec
  if 0 ≤ usec then ⟨sec, usec⟩ else ⟨sec - 1, 0 - usec⟩

/-! ## `unpack` -/

/-- `rtt = tvrecv.tv_sec*1000.0 + tvrecv.tv_usec/1000.0`, in milliseconds. -/
def Timeval.rtt (t : Timeval) : ℚ := t.tvSec * 1000 + t.tvUsec / 1000

/-- `ip->ip_hl << 2` -/
def iphdrlen (buf : Mem) : Nat := (buf 0 &&& 15).toNat * 4

/-- The `struct timeval` in `icmp_data`. -/
def tvsend (buf : Mem) : Timeval where
  tvSec := (load64 buf (iphdrlen buf + 8)).toInt64.toInt
  tvUsec := (load64 buf (iphdrlen buf + 16)).toInt64.toInt

/-- Whether the message is the answer to the probe `nsend`: `icmp_type` is `ICMP_ECHOREPLY`, and
`icmp_id` and `icmp_seq` are those of the probe. -/
def isReply (pid nsend : Int) (buf : Mem) : Bool :=
  buf (iphdrlen buf) = 0
    ∧ ((load16 buf (iphdrlen buf + 4)).toNat : Int) = pid
    ∧ ((load16 buf (iphdrlen buf + 6)).toNat : Int) = nsend

/-- `unpack`: the rtt, if the packet of `len` bytes is the answer to the probe `nsend`. -/
def unpack (pid nsend : Int) (buf : Mem) (len : Int) (tvrecv : Timeval) : Option ℚ :=
  if len - iphdrlen buf < 8 then none
  else if isReply pid nsend buf then some (tvSub tvrecv (tvsend buf)).rtt
  else none

/-- A packet that answers the probe `nsend`, which was sent at `send`. -/
structure Reply (pid nsend : Int) (send : Timeval) where
  buf : Mem
  len : Int
  enough : 8 ≤ len - iphdrlen buf
  matched : isReply pid nsend buf = true
  carries : tvsend buf = send

theorem Reply.unpack_eq {pid nsend : Int} {send : Timeval} (reply : Reply pid nsend send)
    (tvrecv : Timeval) :
    unpack pid nsend reply.buf reply.len tvrecv = some (tvSub tvrecv send).rtt := by
  have hlen : ¬ reply.len - iphdrlen reply.buf < 8 := not_lt.mpr reply.enough
  rw [unpack, if_neg hlen, if_pos reply.matched, reply.carries]

/-! ## Where the difference is exact -/

theorem Timeval.rtt_eq (t : Timeval) : t.rtt = t.micros / 1000 := by
  rw [Timeval.rtt, Timeval.micros]
  push_cast
  ring

/-- The difference is normalised on both sides of the borrow. -/
theorem tvSub_normalised (recv send : Time) :
    0 ≤ (tvSub recv.toTimeval send.toTimeval).tvUsec
      ∧ (tvSub recv.toTimeval send.toTimeval).tvUsec < 1000000 := by
  have hr := recv.usec_nonneg
  have hr' := recv.usec_lt
  have hs := send.usec_nonneg
  have hs' := send.usec_lt
  rw [tvSub]
  split <;> constructor <;> simp only <;> omega

/-- **The value of the difference.** A borrow is exact for half a second only. -/
theorem micros_tvSub_iff (recv send : Timeval) :
    (tvSub recv send).micros = recv.micros - send.micros
      ↔ send.tvUsec ≤ recv.tvUsec ∨ send.tvUsec - recv.tvUsec = 500000 := by
  simp only [tvSub, Timeval.micros]
  split
  · constructor
    · intro
      omega
    · intro
      ring
  · constructor
    · intro h
      refine Or.inr ?_
      simp only at h
      linarith
    · intro h
      simp only
      omega

/-- The round-trip times of a probe sent at `send` are exact for the arrivals `T`: the difference
is normalised and has the right value, what `unpack` makes of an answer is the elapsed time in
milliseconds, and it is monotone in the arrival. -/
structure ExactOn (send : Time) (T : Set Time) : Prop where
  normalised : ∀ recv ∈ T, 0 ≤ (tvSub recv.toTimeval send.toTimeval).tvUsec
    ∧ (tvSub recv.toTimeval send.toTimeval).tvUsec < 1000000
  value : ∀ recv ∈ T,
    (tvSub recv.toTimeval send.toTimeval).micros = recv.micros - send.micros
  elapsed : ∀ recv ∈ T, ∀ pid nsend, ∀ reply : Reply pid nsend send.toTimeval,
    unpack pid nsend reply.buf reply.len recv.toTimeval
      = some (((recv.micros - send.micros : Int) : ℚ) / 1000)
  monotone : ∀ recv ∈ T, ∀ recv' ∈ T, recv.micros ≤ recv'.micros →
    (tvSub recv.toTimeval send.toTimeval).rtt ≤ (tvSub recv'.toTimeval send.toTimeval).rtt

/-- **Round-trip times are exact if and only if no arrival borrows**, other than by half a
second. -/
theorem roundTrip_exactOn_iff (send : Time) (T : Set Time) :
    ExactOn send T
      ↔ ∀ recv ∈ T, send.tvUsec ≤ recv.tvUsec ∨ send.tvUsec - recv.tvUsec = 500000 := by
  constructor
  · intro h recv hrecv
    exact (micros_tvSub_iff recv.toTimeval send.toTimeval).mp (h.value recv hrecv)
  · intro h
    have hvalue : ∀ recv ∈ T,
        (tvSub recv.toTimeval send.toTimeval).micros = recv.micros - send.micros :=
      fun recv hrecv => (micros_tvSub_iff recv.toTimeval send.toTimeval).mpr (h recv hrecv)
    have hrtt : ∀ recv ∈ T, (tvSub recv.toTimeval send.toTimeval).rtt
        = ((recv.micros - send.micros : Int) : ℚ) / 1000 :=
      fun recv hrecv => by rw [Timeval.rtt_eq, hvalue recv hrecv]
    refine
      { normalised := fun recv _ => tvSub_normalised recv send
        value := hvalue
        elapsed := fun recv hrecv pid nsend reply => ?_
        monotone := fun recv hrecv recv' hrecv' hle => ?_ }
    · rw [reply.unpack_eq, hrtt recv hrecv]
    · rw [hrtt recv hrecv, hrtt recv' hrecv']
      have hsub : recv.micros - send.micros ≤ recv'.micros - send.micros := by omega
      have hcast : ((recv.micros - send.micros : Int) : ℚ) ≤ (recv'.micros - send.micros : Int) :=
        Int.cast_le.mpr hsub
      linarith

/-- A probe sent at 0.9 s whose answer arrives at 1.1 s: 800 ms instead of 200 ms. -/
theorem not_exactOn_borrow :
    ¬ ExactOn ⟨⟨0, 900000⟩, by decide, by decide⟩ {⟨⟨1, 100000⟩, by decide, by decide⟩} := by
  intro h
  have hvalue := h.value _ rfl
  revert hvalue
  decide

end Monitor
