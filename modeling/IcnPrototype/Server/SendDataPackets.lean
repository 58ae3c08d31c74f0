import IcnPrototype.Server.FlowGenerator

set_option autoImplicit false

/-! # The frames of a flow

A thread of the flow generator divides the size of its flow by the number of packets, and sends
that many frames (`send_data_packets` of `flow_generator2.c`). The numbers are unsigned and come
from the network; the sizes computed from them are `int`s.

If there is a remainder, the last frame carries the remainder instead of a full share, not besides
it. A large share is cut to 1302 bytes, while the number of frames is computed for 1514. So the
flow has the size asked for only in the cases of `sendDataPackets_conserves_iff`. The number of
packets is not checked for 0, and no size is checked for its sign as an `int`
(`sendDataPackets_safe_iff`).

The pauses between the frames are left out, and so is the test `flow_time<0` of an unsigned
number. The counter `i` is compared as an unsigned number and wraps around as one.
-/

namespace FlowGenerator

open Lts

/-- `Send_Bufsize` -/
def sendBufsize : Nat := 8162000

/-- `14+sizeof(struct data_header)` -/
def headerSize : Nat := 14 + 84

/-- The conversion of a number to an `int`. -/
def toInt32 (n : Int) : Int := (n + 2 ^ 31) % 2 ^ 32 - 2 ^ 31

/-- The conversion of an `int` to a `size_t`. -/
def toSize (n : Int) : Nat := (n % 2 ^ 64).toNat

/-! ## `send_data_packets` -/

/-- The locals of `send_data_packets`, with `B.flow_packets`. -/
structure Sizes where
  flowPackets : UInt32
  psize : Int
  lastpsize : Int
  len : Int
  len2 : Int
deriving DecidableEq

/-- The initialisation, if it does not divide by 0. -/
def initialSizes (B : Argc) : Option Sizes :=
  if B.flowPackets = 0 then none
  else
    let lastpsize := toInt32 (B.flowSize % B.flowPackets).toNat
    let psize := toInt32 (B.flowSize / B.flowPackets).toNat
    some
      { flowPackets := B.flowPackets
        psize := psize
        lastpsize := lastpsize
        len := toInt32 (headerSize + psize)
        len2 := toInt32 (headerSize + lastpsize) }

/-- `if(psize>1514)` -/
def largeSizes (B : Argc) (s : Sizes) : Sizes :=
  if 1514 < s.psize then
    let lastpsize := toInt32 (B.flowSize % 1514).toNat
    { flowPackets := if lastpsize = 0 then B.flowSize / 1514 else B.flowSize / 1514 + 1
      psize := 1300
      lastpsize := lastpsize
      len := 1400
      len2 := toInt32 (headerSize + lastpsize) }
  else s

/-- The three tests behind it. -/
def clampSizes (s : Sizes) : Sizes :=
  { s with
    lastpsize := if 1514 < s.lastpsize then 1514 else s.lastpsize
    len2 := if 1400 < s.len2 then 1400 else s.len2
    len := if 1400 < s.len then 1400 else s.len }

/-- The lengths of the frames that are sent. -/
def frames (s : Sizes) : List Nat :=
  if s.lastpsize = 0 then List.replicate s.flowPackets.toNat (toSize s.len)
  else List.replicate (s.flowPackets - 1).toNat (toSize s.len) ++ [toSize s.len2]

/-- `send_data_packets`: the sizes before the first frame is sent. -/
def finalSizes (B : Argc) : Option Sizes :=
  (initialSizes B).map fun s => clampSizes (largeSizes B s)

/-- `send_data_packets`: the frames, if every `sendto` sends the whole frame. -/
def sendDataPackets (B : Argc) : Option (List Nat) := (finalSizes B).map frames

/-- The bytes behind the headers. -/
def payload (fs : List Nat) : Int := (fs.map fun f : Nat => (f : Int) - headerSize).sum

/-! ## Conversions -/

theorem toInt32_of_lt {n : Int} (h0 : 0 ≤ n) (h : n < 2 ^ 31) : toInt32 n = n := by
  unfold toInt32
  omega

theorem toSize_of_nonneg {n : Int} (h0 : 0 ≤ n) (h : n < 2 ^ 31) : (toSize n : Int) = n := by
  unfold toSize
  omega

@[simp] theorem payload_replicate (n f : Nat) :
    payload (List.replicate n f) = n * ((f : Int) - headerSize) := by
  simp [payload]

@[simp] theorem payload_append (fs gs : List Nat) : payload (fs ++ gs) = payload fs + payload gs := by
  simp [payload]

/-! ## The sizes of a request -/

/-- The share of a packet. -/
def Argc.share (B : Argc) : Nat := B.flowSize.toNat / B.flowPackets.toNat

/-- What is left of the flow after the shares. -/
def Argc.rest (B : Argc) : Nat := B.flowSize.toNat % B.flowPackets.toNat

theorem Argc.share_lt (B : Argc) : B.share < 2 ^ 32 :=
  lt_of_le_of_lt (Nat.div_le_self _ _) B.flowSize.toNat_lt

theorem Argc.rest_lt (B : Argc) : B.rest < 2 ^ 32 :=
  lt_of_le_of_lt (Nat.mod_le _ _) B.flowSize.toNat_lt

theorem initialSizes_eq {B : Argc} (h : B.flowPackets ≠ 0) :
    initialSizes B = some
      { flowPackets := B.flowPackets
        psize := toInt32 B.share
        lastpsize := toInt32 B.rest
        len := toInt32 (headerSize + toInt32 B.share)
        len2 := toInt32 (headerSize + toInt32 B.rest) } := by
  rw [initialSizes, if_neg h]
  simp only [UInt32.toNat_div, UInt32.toNat_mod, Argc.share, Argc.rest]

theorem flowPackets_ne_zero_iff {B : Argc} : B.flowPackets ≠ 0 ↔ 0 < B.flowPackets.toNat := by
  rw [Ne, ← UInt32.toNat_inj, UInt32.toNat_zero, Nat.pos_iff_ne_zero]

/-- The clamp at 1400, from a length that is no `int` overflow. -/
def clampLen (n : Nat) : Nat := min (headerSize + n) 1400

theorem clampLen_eq (n : Nat) :
    (if 1400 < (headerSize : Int) + n then 1400 else (headerSize : Int) + n) = clampLen n := by
  rw [clampLen, Nat.cast_min, Nat.cast_add, Nat.cast_ofNat]
  rcases lt_or_ge 1400 ((headerSize : Int) + n) with h | h
  · rw [if_pos h, min_eq_right h.le]
  · rw [if_neg h.not_gt, min_eq_left h]

/-- A share that is not large and a rest that fits an `int`: the sizes are clamped as they are. -/
theorem finalSizes_clamp {B : Argc} (h : B.flowPackets ≠ 0) (hshare : B.share ≤ 1514)
    (hrest : B.rest < 2 ^ 31) :
    finalSizes B = some (clampSizes
      { flowPackets := B.flowPackets
        psize := B.share
        lastpsize := B.rest
        len := (headerSize + B.share : Nat)
        len2 := toInt32 (headerSize + B.rest) }) := by
  have hpsize : toInt32 B.share = B.share := toInt32_of_lt (by omega) (by omega)
  have hlastpsize : toInt32 B.rest = B.rest := toInt32_of_lt (by omega) (by omega)
  have hlen : toInt32 (headerSize + (B.share : Int)) = (headerSize + B.share : Nat) := by
    rw [Nat.cast_add]
    exact toInt32_of_lt (by omega) (by simp only [headerSize]; omega)
  have hsmall : ¬ (1514 : Int) < B.share := by omega
  rw [finalSizes, initialSizes_eq h, hpsize, hlastpsize, hlen, Option.map_some, largeSizes,
    if_neg hsmall]

/-- A share and a rest that fit an `int` with the header, a share that is not large. -/
theorem finalSizes_small {B : Argc} (h : B.flowPackets ≠ 0) (hshare : B.share ≤ 1514)
    (hrest : B.rest < 2 ^ 31 - 98) :
    finalSizes B = some
      { flowPackets := B.flowPackets
        psize := B.share
        lastpsize := min B.rest 1514
        len := clampLen B.share
        len2 := clampLen B.rest } := by
  have hlen2 : toInt32 (headerSize + (B.rest : Int)) = headerSize + B.rest :=
    toInt32_of_lt (by omega) (by simp only [headerSize]; omega)
  have hmin : (if (1514 : Int) < B.rest then 1514 else (B.rest : Int)) = min (B.rest : Int) 1514 := by
    split <;> omega
  rw [finalSizes_clamp h hshare (by omega), hlen2, clampSizes]
  simp only [Nat.cast_add, clampLen_eq, hmin]

/-- What a large share is made of: frames of 1400 bytes, as many as there would be of 1514, and a
rest of its own. -/
theorem finalSizes_large {B : Argc} (h : B.flowPackets ≠ 0) (hshare : 1514 < B.share)
    (hlt : B.share < 2 ^ 31) :
    finalSizes B = some
      { flowPackets :=
          if B.flowSize.toNat % 1514 = 0 then B.flowSize / 1514 else B.flowSize / 1514 + 1
        psize := 1300
        lastpsize := (B.flowSize.toNat % 1514 : Nat)
        len := clampLen 1302
        len2 := clampLen (B.flowSize.toNat % 1514) } := by
  have hpsize : toInt32 B.share = B.share := toInt32_of_lt (by omega) (by omega)
  have hlarge : (1514 : Int) < B.share := by omega
  have hmod : B.flowSize.toNat % 1514 < 1514 := Nat.mod_lt _ (by decide)
  have hlast : toInt32 (B.flowSize % 1514).toNat = (B.flowSize.toNat % 1514 : Nat) := by
    rw [UInt32.toNat_mod]
    exact toInt32_of_lt (Int.natCast_nonneg _) (by simp only [UInt32.reduceToNat]; omega)
  have hlen2 : toInt32 (headerSize + ((B.flowSize.toNat % 1514 : Nat) : Int))
      = headerSize + (B.flowSize.toNat % 1514 : Nat) :=
    toInt32_of_lt (by simp only [headerSize]; omega) (by simp only [headerSize]; omega)
  have hcap : ¬ (1514 : Int) < (B.flowSize.toNat % 1514 : Nat) := by omega
  rw [finalSizes, initialSizes_eq h, hpsize, Option.map_some, largeSizes]
  simp only [hlarge, if_true, hlast, hlen2, clampSizes, clampLen_eq, if_neg hcap, Int.natCast_eq_zero,
    lt_irrefl, if_false]
  rfl

/-! ## What the frames carry -/

/-- The bytes of a share that a frame carries. -/
def carried (n : Nat) : Nat := min n 1302

theorem clampLen_eq_carried (n : Nat) : clampLen n = headerSize + carried n := by
  simp only [clampLen, carried, headerSize]
  omega

theorem toSize_clampLen (n : Nat) : toSize (clampLen n) = headerSize + carried n := by
  have hle : clampLen n ≤ 1400 := min_le_right _ _
  have hsize := toSize_of_nonneg (Int.natCast_nonneg (clampLen n)) (by omega)
  rw [← clampLen_eq_carried]
  exact Int.ofNat.inj hsize

/-- The frames for a share of `a` and a rest of `r`, and what they carry. -/
theorem frames_of_clampLen {s : Sizes} {a r : Nat} (hn : 0 < s.flowPackets.toNat)
    (hlen : s.len = clampLen a) (hlen2 : s.len2 = clampLen r) (hlast : s.lastpsize = 0 ↔ r = 0) :
    payload (frames s) = ((if r = 0 then s.flowPackets.toNat * carried a
        else (s.flowPackets.toNat - 1) * carried a + carried r : Nat) : Int)
      ∧ ∀ f ∈ frames s, headerSize ≤ f ∧ f ≤ 1400 := by
  have hframe : ∀ n, headerSize ≤ toSize (clampLen n) ∧ toSize (clampLen n) ≤ 1400 := by
    intro n
    have hle : clampLen n ≤ 1400 := min_le_right _ _
    rw [toSize_clampLen, ← clampLen_eq_carried]
    exact ⟨by rw [clampLen_eq_carried]; exact Nat.le_add_right _ _, hle⟩
  have hpred : (s.flowPackets - 1).toNat = s.flowPackets.toNat - 1 :=
    UInt32.toNat_sub_of_le _ _ (UInt32.le_iff_toNat_le.mpr hn)
  have hload : ∀ n, ((toSize (clampLen n) : Nat) : Int) - headerSize = carried n := by
    intro n
    rw [toSize_clampLen, Nat.cast_add]
    ring
  by_cases hr : r = 0
  · rw [frames, if_pos (hlast.mpr hr), if_pos hr, hlen, payload_replicate, hload, Nat.cast_mul]
    refine ⟨rfl, ?_⟩
    intro f hf
    rw [List.eq_of_mem_replicate hf]
    exact hframe a
  · rw [frames, if_neg (mt hlast.mp hr), if_neg hr, hlen, hlen2, payload_append,
      payload_replicate, hpred, hload, Nat.cast_add, Nat.cast_mul]
    refine ⟨by simp [payload, hload], ?_⟩
    intro f hf
    rcases List.mem_append.mp hf with hf | hf
    · rw [List.eq_of_mem_replicate hf]
      exact hframe a
    · rw [List.mem_singleton.mp hf]
      exact hframe r

/-! ## Conservation -/

/-- The frames carry the flow that was asked for, and none is shorter than the headers or longer
than 1400 bytes. -/
def Conserves (B : Argc) : Prop :=
  ∃ fs, sendDataPackets B = some fs ∧ payload fs = B.flowSize.toNat
    ∧ ∀ f ∈ fs, headerSize ≤ f ∧ f ≤ 1400

/-- When `n` shares of `a` and a rest of `r` are carried: nothing is cut off, and a rest takes the
place of no share. -/
theorem carried_eq_iff {n : Nat} (hn : 0 < n) (a r : Nat) :
    (if r = 0 then n * carried a else (n - 1) * carried a + carried r) = n * a + r
      ↔ (r = 0 ∧ a ≤ 1302) ∨ (a = 0 ∧ r ≤ 1302) := by
  have hle : carried a ≤ a := min_le_left _ _
  have hle' : carried r ≤ r := min_le_left _ _
  have heq : ∀ x, carried x = x ↔ x ≤ 1302 := fun x => min_eq_left_iff
  by_cases hr : r = 0
  · rw [if_pos hr, hr, Nat.add_zero, Nat.mul_right_inj (Nat.ne_of_gt hn), heq]
    constructor
    · intro h
      exact Or.inl ⟨rfl, h⟩
    · rintro (⟨-, h⟩ | ⟨rfl, -⟩)
      · exact h
      · exact Nat.zero_le _
  · obtain ⟨m, rfl⟩ := Nat.exists_eq_add_of_lt hn
    have hmul : m * carried a ≤ m * a := Nat.mul_le_mul_left m hle
    have hsplit : (0 + m + 1) * a = m * a + a := by ring
    have hpred : 0 + m + 1 - 1 = m := by omega
    rw [if_neg hr, hsplit, hpred]
    constructor
    · intro h
      exact Or.inr ⟨by omega, (heq r).mp (by omega)⟩
    · rintro (⟨h, -⟩ | ⟨rfl, h⟩)
      · exact absurd h hr
      · have hzero : carried 0 = 0 := rfl
        rw [hzero, (heq r).mpr h, Nat.mul_zero, Nat.zero_add]

/-- The frames of 1400 bytes carry less than the frames of 1514 that were counted. -/
theorem carried_lt {size : Nat} (h : 1514 < size) :
    (if size % 1514 = 0 then size / 1514 * carried 1302
      else (size / 1514 + 1 - 1) * carried 1302 + carried (size % 1514)) < size := by
  have hle : carried (size % 1514) ≤ size % 1514 := min_le_left _ _
  have hfull : carried 1302 = 1302 := rfl
  have hpos : 0 < size / 1514 := Nat.div_pos h.le (by decide)
  rw [hfull]
  split <;> omega

/-- A rest whose length is no `int`. -/
theorem sendDataPackets_overflow {B : Argc} (h : B.flowPackets ≠ 0) (hshare : B.share ≤ 1514)
    (hrest : 2 ^ 31 - 98 ≤ B.rest) (hlt : B.rest < 2 ^ 31) {fs : List Nat}
    (hfs : sendDataPackets B = some fs) : ∃ f ∈ fs, 1400 < f := by
  have hneg : toInt32 (headerSize + (B.rest : Int)) < 0 := by
    simp only [toInt32, headerSize]
    omega
  have hclamp : ¬ (1400 : Int) < toInt32 (headerSize + (B.rest : Int)) := by omega
  have hlast : ¬ (if (1514 : Int) < B.rest then 1514 else (B.rest : Int)) = 0 := by
    split <;> omega
  have hhuge : 1400 < toSize (toInt32 (headerSize + (B.rest : Int))) := by
    have hrange : -2 ^ 31 ≤ toInt32 (headerSize + (B.rest : Int)) := by
      unfold toInt32
      omega
    unfold toSize
    omega
  rw [sendDataPackets, finalSizes_clamp h hshare hlt, Option.map_some, Option.some.injEq] at hfs
  subst hfs
  refine ⟨_, ?_, hhuge⟩
  simp only [frames, clampSizes, if_neg hlast, if_neg hclamp]
  exact List.mem_append_right _ List.mem_cons_self

/-- What is left of the property once the frames are known. -/
theorem conserves_iff_of_frames {B : Argc} {s : Sizes} {total : Nat} (hfinal : finalSizes B = some s)
    (hload : payload (frames s) = (total : Int))
    (hframe : ∀ f ∈ frames s, headerSize ≤ f ∧ f ≤ 1400) :
    Conserves B ↔ total = B.flowSize.toNat := by
  have hsend : sendDataPackets B = some (frames s) := by rw [sendDataPackets, hfinal, Option.map_some]
  constructor
  · rintro ⟨fs, hfs, hpayload, -⟩
    obtain rfl := Option.some.inj (hsend.symm.trans hfs)
    exact Int.ofNat.inj (hload.symm.trans hpayload)
  · rintro rfl
    exact ⟨frames s, hsend, hload, hframe⟩

/-- Neither share nor rest is near the end of an `int`, and the share is not large. -/
theorem conserves_small {B : Argc} (hpackets : 0 < B.flowPackets.toNat) (hshare : B.share ≤ 1514)
    (hrest : B.rest < 2 ^ 31 - 98) :
    Conserves B ↔ (B.rest = 0 ∧ B.share ≤ 1302) ∨ (B.share = 0 ∧ B.rest ≤ 1302) := by
  have hfinal := finalSizes_small (flowPackets_ne_zero_iff.mpr hpackets) hshare hrest
  have hsplit : B.flowPackets.toNat * B.share + B.rest = B.flowSize.toNat := Nat.div_add_mod _ _
  have hlast : min (B.rest : Int) 1514 = 0 ↔ B.rest = 0 := by omega
  obtain ⟨hload, hframe⟩ := frames_of_clampLen
    (s := ⟨B.flowPackets, B.share, min (B.rest : Int) 1514, clampLen B.share, clampLen B.rest⟩)
    hpackets rfl rfl hlast
  rw [conserves_iff_of_frames hfinal hload hframe, ← hsplit]
  exact carried_eq_iff hpackets B.share B.rest

/-- A large share is always cut. -/
theorem not_conserves_large {B : Argc} (hpackets : 0 < B.flowPackets.toNat)
    (hshare : 1514 < B.share) (hlt : B.share < 2 ^ 31) : ¬ Conserves B := by
  have hfinal := finalSizes_large (flowPackets_ne_zero_iff.mpr hpackets) hshare hlt
  have hsize : 1514 < B.flowSize.toNat := lt_of_lt_of_le hshare (Nat.div_le_self _ _)
  have hdiv : (B.flowSize / 1514).toNat = B.flowSize.toNat / 1514 := UInt32.toNat_div _ _
  have hpos : 0 < B.flowSize.toNat / 1514 := Nat.div_pos hsize.le (by decide)
  have hcount : (if B.flowSize.toNat % 1514 = 0 then B.flowSize / 1514
        else B.flowSize / 1514 + 1).toNat
      = if B.flowSize.toNat % 1514 = 0 then B.flowSize.toNat / 1514
        else B.flowSize.toNat / 1514 + 1 := by
    have hroom := B.flowSize.toNat_lt
    split
    · exact hdiv
    · rw [UInt32.toNat_add, hdiv]
      exact Nat.mod_eq_of_lt (by simp only [UInt32.reduceToNat]; omega)
  have hcountpos : 0 < (if B.flowSize.toNat % 1514 = 0 then B.flowSize / 1514
        else B.flowSize / 1514 + 1).toNat := by
    rw [hcount]
    split <;> omega
  obtain ⟨hload, hframe⟩ := frames_of_clampLen
    (s := ⟨if B.flowSize.toNat % 1514 = 0 then B.flowSize / 1514 else B.flowSize / 1514 + 1, 1300,
      (B.flowSize.toNat % 1514 : Nat), clampLen 1302, clampLen (B.flowSize.toNat % 1514)⟩)
    hcountpos rfl rfl Int.natCast_eq_zero
  rw [conserves_iff_of_frames hfinal hload hframe]
  refine Nat.ne_of_lt (lt_of_eq_of_lt ?_ (carried_lt hsize))
  simp only [hcount]
  split
  · rfl
  · rfl

/-- All sizes below 2^31: a large share is cut, and so is a rest that is near the end of an
`int`. -/
theorem conserves_iff_share {B : Argc} (hpackets : 0 < B.flowPackets.toNat)
    (hsize : B.flowSize.toNat < 2 ^ 31) :
    Conserves B ↔ (B.rest = 0 ∧ B.share ≤ 1302) ∨ (B.share = 0 ∧ B.rest ≤ 1302) := by
  have hsharele : B.share ≤ B.flowSize.toNat := Nat.div_le_self _ _
  have hrestle : B.rest ≤ B.flowSize.toNat := Nat.mod_le _ _
  by_cases hshare : B.share ≤ 1514
  · by_cases hrest : B.rest < 2 ^ 31 - 98
    · exact conserves_small hpackets hshare hrest
    · -- the length of the last frame is negative
      refine iff_of_false ?_ (by omega)
      rintro ⟨fs, hfs, -, hframe⟩
      obtain ⟨f, hf, hlong⟩ := sendDataPackets_overflow (flowPackets_ne_zero_iff.mpr hpackets)
        hshare (not_lt.mp hrest) (lt_of_le_of_lt hrestle hsize) hfs
      exact absurd (hframe f hf).2 (not_le.mpr hlong)
  · refine iff_of_false ?_ (by omega)
    exact not_conserves_large hpackets (not_le.mp hshare) (lt_of_le_of_lt hsharele hsize)

/-- **The flow has the size that was asked for if and only if** the packets share it without a rest
and without a cut, or all of it is a rest that fits one packet. -/
theorem sendDataPackets_conserves_iff (B : Argc) (hpackets : 1 ≤ B.flowPackets.toNat)
    (hsize : B.flowSize.toNat < 2 ^ 31) :
    Conserves B ↔ (B.flowSize.toNat % B.flowPackets.toNat = 0
        ∧ B.flowSize.toNat / B.flowPackets.toNat ≤ 1302)
      ∨ (B.flowSize.toNat < B.flowPackets.toNat ∧ B.flowSize.toNat ≤ 1302) := by
  have hsplit : B.flowPackets.toNat * B.share + B.rest = B.flowSize.toNat := Nat.div_add_mod _ _
  have hzero : B.share = 0 ↔ B.flowSize.toNat < B.flowPackets.toNat :=
    Nat.div_eq_zero_iff_lt hpackets
  calc Conserves B
      ↔ (B.rest = 0 ∧ B.share ≤ 1302) ∨ (B.share = 0 ∧ B.rest ≤ 1302) :=
        conserves_iff_share hpackets hsize
    _ ↔ (B.rest = 0 ∧ B.share ≤ 1302) ∨ (B.share = 0 ∧ B.flowSize.toNat ≤ 1302) := by
        -- without a share, the rest is the flow
        refine or_congr_right (and_congr_right fun h0 => ?_)
        rw [h0, Nat.mul_zero, Nat.zero_add] at hsplit
        rw [hsplit]
    _ ↔ (B.rest = 0 ∧ B.share ≤ 1302)
          ∨ (B.flowSize.toNat < B.flowPackets.toNat ∧ B.flowSize.toNat ≤ 1302) := by
        rw [hzero]

/-- Three packets for 300 bytes. -/
theorem sendDataPackets_conserves_three :
    Conserves ⟨3, 300, 1⟩ ↔ (((300 : UInt32).toNat % (3 : UInt32).toNat = 0
        ∧ (300 : UInt32).toNat / (3 : UInt32).toNat ≤ 1302)
      ∨ ((300 : UInt32).toNat < (3 : UInt32).toNat ∧ (300 : UInt32).toNat ≤ 1302)) :=
  sendDataPackets_conserves_iff ⟨3, 300, 1⟩ (by decide) (by decide)

/-- Two packets for 3 bytes carry 2. -/
theorem not_conserves_two_three : ¬ Conserves ⟨2, 3, 1⟩ := by
  rintro ⟨fs, hfs, hpayload, -⟩
  obtain rfl : [99, 99] = fs := Option.some.inj ((by decide : some [99, 99]
    = sendDataPackets ⟨2, 3, 1⟩).trans hfs)
  revert hpayload
  decide

/-! ## Safety -/

/-- The `int`s that are used as sizes are no negative numbers. -/
structure Sizes.Nonneg (s : Sizes) : Prop where
  psize : 0 ≤ s.psize
  lastpsize : 0 ≤ s.lastpsize
  len : 0 ≤ s.len
  len2 : 0 ≤ s.len2

/-- The arithmetic of a request is safe: nothing is divided by 0, no size is ever negative, and
what `memset` fills and every frame are inside of `sbuf`. -/
def Safe (B : Argc) : Prop :=
  ∃ s, initialSizes B = some s ∧ s.Nonneg ∧ (largeSizes B s).Nonneg
    ∧ (clampSizes (largeSizes B s)).Nonneg
    ∧ headerSize + toSize (clampSizes (largeSizes B s)).psize ≤ sendBufsize
    ∧ ∀ f ∈ frames (clampSizes (largeSizes B s)), f ≤ sendBufsize

theorem Sizes.Nonneg.large {s : Sizes} (hs : s.Nonneg) (B : Argc) :
    (largeSizes B s).Nonneg ∧ (largeSizes B s).psize ≤ 1514 := by
  have hmod : (B.flowSize % 1514).toNat < 1514 := by
    rw [UInt32.toNat_mod]
    exact Nat.mod_lt _ (by decide)
  have hlast : toInt32 (B.flowSize % 1514).toNat = (B.flowSize % 1514).toNat :=
    toInt32_of_lt (by omega) (by omega)
  have hlen2 : toInt32 (headerSize + ((B.flowSize % 1514).toNat : Int))
      = headerSize + (B.flowSize % 1514).toNat :=
    toInt32_of_lt (by simp only [headerSize]; omega) (by simp only [headerSize]; omega)
  rw [largeSizes]
  split
  · simp only [hlast, hlen2]
    refine ⟨⟨?_, ?_, ?_, ?_⟩, ?_⟩
    · exact Int.natCast_nonneg 1300
    · exact Int.natCast_nonneg _
    · exact Int.natCast_nonneg 1400
    · exact add_nonneg (Int.natCast_nonneg _) (Int.natCast_nonneg _)
    · exact Int.ofNat_le.mpr (by decide : 1300 ≤ 1514)
  · rename_i hsmall
    exact ⟨hs, not_lt.mp hsmall⟩

theorem Sizes.Nonneg.clamp {s : Sizes} (hs : s.Nonneg) :
    (clampSizes s).Nonneg ∧ (clampSizes s).len ≤ 1400 ∧ (clampSizes s).len2 ≤ 1400 := by
  obtain ⟨hpsize, hlastpsize, hlen, hlen2⟩ := hs
  have hcap : ∀ n b : Int, 0 ≤ n → 0 ≤ b →
      0 ≤ (if b < n then b else n) ∧ (if b < n then b else n) ≤ b := by
    intro n b hn hb
    split <;> omega
  refine ⟨⟨hpsize, ?_, ?_, ?_⟩, ?_, ?_⟩
  · exact (hcap s.lastpsize 1514 hlastpsize (by decide)).1
  · exact (hcap s.len 1400 hlen (by decide)).1
  · exact (hcap s.len2 1400 hlen2 (by decide)).1
  · exact (hcap s.len 1400 hlen (by decide)).2
  · exact (hcap s.len2 1400 hlen2 (by decide)).2

theorem mem_frames_le {s : Sizes} (hs : s.Nonneg) (hlen : s.len ≤ 1400) (hlen2 : s.len2 ≤ 1400) :
    ∀ f ∈ frames s, f ≤ 1400 := by
  have hsize : ∀ n : Int, 0 ≤ n → n ≤ 1400 → toSize n ≤ 1400 := by
    intro n h0 hle
    have hn := toSize_of_nonneg h0 (by omega)
    omega
  have hfirst := hsize s.len hs.len hlen
  have hlast := hsize s.len2 hs.len2 hlen2
  intro f hf
  rw [frames] at hf
  split at hf
  · rwa [List.eq_of_mem_replicate hf]
  · rcases List.mem_append.mp hf with hf | hf
    · rwa [List.eq_of_mem_replicate hf]
    · rwa [List.mem_singleton.mp hf]

/-- A number below 2^32 and its length with the headers are both no negative `int`s. -/
theorem toInt32_header_nonneg_iff {n : Nat} (h : n < 2 ^ 32) :
    (0 ≤ toInt32 n ∧ 0 ≤ toInt32 (headerSize + toInt32 n)) ↔ n < 2 ^ 31 - 98 := by
  simp only [toInt32, headerSize]
  omega

/-- **The arithmetic of a request is safe if and only if** there is a packet to share the flow, and
share and rest fit an `int` together with the headers. -/
theorem sendDataPackets_safe_iff (B : Argc) :
    Safe B ↔ B.flowPackets ≠ 0 ∧ B.flowSize.toNat / B.flowPackets.toNat < 2 ^ 31 - 98
      ∧ B.flowSize.toNat % B.flowPackets.toNat < 2 ^ 31 - 98 := by
  have hshare := toInt32_header_nonneg_iff B.share_lt
  have hrest := toInt32_header_nonneg_iff B.rest_lt
  constructor
  · rintro ⟨s, hinit, hs, -⟩
    have hne : B.flowPackets ≠ 0 := by
      intro h0
      rw [initialSizes, if_pos h0] at hinit
      cases hinit
    rw [initialSizes_eq hne, Option.some.injEq] at hinit
    subst hinit
    exact ⟨hne, hshare.mp ⟨hs.psize, hs.len⟩, hrest.mp ⟨hs.lastpsize, hs.len2⟩⟩
  · rintro ⟨hne, hshare', hrest'⟩
    obtain ⟨hpsize, hlen⟩ := hshare.mpr hshare'
    obtain ⟨hlastpsize, hlen2⟩ := hrest.mpr hrest'
    obtain ⟨s, hinit, hs⟩ : ∃ s, initialSizes B = some s ∧ s.Nonneg :=
      ⟨_, initialSizes_eq hne, hpsize, hlastpsize, hlen, hlen2⟩
    obtain ⟨hlarge, hle⟩ := hs.large B
    obtain ⟨hclamp, hclen, hclen2⟩ := hlarge.clamp
    have hfill : toSize (clampSizes (largeSizes B s)).psize = (largeSizes B s).psize :=
      toSize_of_nonneg hclamp.psize (by show (largeSizes B s).psize < 2 ^ 31; omega)
    refine ⟨s, hinit, hs, hlarge, hclamp, ?_, fun f hf => ?_⟩
    · simp only [headerSize, sendBufsize]
      omega
    · have hframe := mem_frames_le hclamp hclen hclen2 f hf
      simp only [sendBufsize]
      omega

/-- A Get packet for 0 packets passes the tests of `main`, and its flow is divided by 0. -/
theorem accepted_not_safe :
    (∃ s, step (State.start ⟨0, 0, 0⟩) (.receive (getFrame ⟨0, 100, 0⟩)) = some s
      ∧ s.accepted = [⟨0, 100, 0⟩]) ∧ ¬ Safe ⟨0, 100, 0⟩ := by
  refine ⟨⟨_, rfl, by decide⟩, ?_⟩
  rintro ⟨s, hinit, -⟩
  cases hinit

end FlowGenerator
