import IcnPrototype.Lib.OnesComplement
import IcnPrototype.Monitor.RoundTrip

set_option autoImplicit false

/-! # The checksum of a probe

`cal_chksum` (`get_link_stats.c`) adds the half words of a buffer in an `int`, as the host reads
them, and folds the carries in twice. For buffers of up to 65535 bytes the `int` does not
overflow, two folds are enough, and the result is the Internet checksum (`calChksum_eq`). `pack`
writes it into a probe, whose own checksum is then 0 (`pack_verifies`).
-/

namespace Monitor

open Bytes OnesComplement

/-! ## `cal_chksum` -/

/-- Addition of two `int`s, if it does not overflow. -/
def addInt (a b : Int) : Option Int :=
  if -2 ^ 31 ≤ a + b ∧ a + b < 2 ^ 31 then some (a + b) else none

/-- A half word on a little-endian host. -/
def halfWord (b c : UInt8) : Nat := b.toNat + 256 * c.toNat

/-- The sum over the half words. Of an odd number of bytes the last one is the low byte of
`check_sum`, which is 0. -/
def sumWords : List UInt8 → Int → Option Int
  | b :: c :: bs, sum => do sumWords bs (← addInt sum (halfWord b c))
  | [b], sum => addInt sum (halfWord b 0)
  | [], sum => some sum

/-- `cal_chksum`. A right shift of an `int` by 16 is a division by 65536, and `& 0xFFFF` the
remainder. -/
def calChksum (addr : List UInt8) : Option UInt16 := do
  let sum ← sumWords addr 0
  let sum ← addInt (sum / 65536) (sum % 65536)
  let sum ← addInt sum (sum / 65536)
  -- `~sum`
  some (UInt16.ofInt (-sum - 1))

/-! ## The half words of a buffer -/

/-- The half words, an odd byte at the end padded with zero. -/
def padWords : List UInt8 → List Nat
  | b :: c :: bs => halfWord b c :: padWords bs
  | [b] => [halfWord b 0]
  | [] => []

theorem halfWord_le (b c : UInt8) : halfWord b c ≤ 65535 := by
  have hb := b.toNat_lt
  have hc := c.toNat_lt
  rw [halfWord]
  omega

theorem padWords_le (bs : List UInt8) : ∀ w ∈ padWords bs, w ≤ 65535 := by
  induction bs using padWords.induct with
  | case1 b c bs ih =>
      rw [padWords, List.forall_mem_cons]
      exact ⟨halfWord_le b c, ih⟩
  | case2 b =>
      rw [padWords, List.forall_mem_singleton]
      exact halfWord_le b 0
  | case3 => exact List.forall_mem_nil _

/-- The bound of the accumulator. -/
theorem padWords_sum_le (bs : List UInt8) : 2 * (padWords bs).sum ≤ 65535 * bs.length + 65535 := by
  induction bs using padWords.induct with
  | case1 b c bs ih =>
      have hw := halfWord_le b c
      rw [padWords, List.sum_cons, List.length_cons, List.length_cons]
      omega
  | case2 b =>
      have hw := halfWord_le b 0
      rw [padWords, List.sum_singleton, List.length_singleton]
      omega
  | case3 => exact Nat.zero_le _

/-- The half words after an even number of bytes. -/
theorem padWords_append {bs : List UInt8} (h : Even bs.length) (rest : List UInt8) :
    padWords (bs ++ rest) = padWords bs ++ padWords rest := by
  induction bs using padWords.induct with
  | case1 b c bs ih =>
      have hbs : Even bs.length := by
        rw [List.length_cons, List.length_cons, Nat.even_iff] at h
        rw [Nat.even_iff]
        omega
      rw [List.cons_append, List.cons_append, padWords, ih hbs, padWords, List.cons_append]
  | case2 b => exact absurd h Nat.not_even_one
  | case3 => rfl

/-! ## The accumulator -/

theorem addInt_natCast {a b : Nat} (h : a + b < 2 ^ 31) :
    addInt (a : Int) (b : Int) = some ((a + b : Nat) : Int) := by
  have hrange : -2 ^ 31 ≤ (a : Int) + b ∧ (a : Int) + b < 2 ^ 31 := by omega
  rw [addInt, if_pos hrange, Nat.cast_add]

/-- The loop does not overflow while the sum fits. -/
theorem sumWords_eq (bs : List UInt8) (sum : Nat) (h : sum + (padWords bs).sum < 2 ^ 31) :
    sumWords bs (sum : Int) = some ((sum + (padWords bs).sum : Nat) : Int) := by
  induction bs using padWords.induct generalizing sum with
  | case1 b c bs ih =>
      rw [padWords, List.sum_cons, ← Nat.add_assoc] at h
      have hadd : addInt (sum : Int) (halfWord b c : Int) = some ((sum + halfWord b c : Nat) : Int) :=
        addInt_natCast (by omega)
      rw [sumWords, hadd, Option.bind_eq_bind, Option.bind_some, ih _ h, padWords, List.sum_cons,
        Nat.add_assoc]
  | case2 b =>
      rw [padWords, List.sum_singleton] at h
      rw [sumWords, addInt_natCast h, padWords, List.sum_singleton]
  | case3 => rfl

/-- The carries of a sum, folded in once. -/
def foldCarry (n : Nat) : Nat := n / 65536 + n % 65536

theorem addInt_foldCarry {n : Nat} (h : n < 2 ^ 31) :
    addInt ((n : Int) / 65536) ((n : Int) % 65536) = some (foldCarry n : Int) := by
  have hrange : n / 65536 + n % 65536 < 2 ^ 31 := by omega
  have hadd := addInt_natCast hrange
  rwa [Int.natCast_ediv, Int.natCast_emod, Nat.cast_ofNat] at hadd

theorem addInt_lastCarry {n : Nat} (h : n + n / 65536 < 2 ^ 31) :
    addInt (n : Int) ((n : Int) / 65536) = some ((n + n / 65536 : Nat) : Int) := by
  have hadd := addInt_natCast h
  rwa [Int.natCast_ediv, Nat.cast_ofNat] at hadd

/-- What the second fold does: a sum of one carry only is left. -/
theorem foldCarry_twice {n : Nat} (h : n < 2 ^ 31) :
    (foldCarry n + foldCarry n / 65536) % 65536
      = if foldCarry n < 65536 then foldCarry n else foldCarry n - 65535 := by
  have hhigh : n / 65536 < 32768 := Nat.div_lt_of_lt_mul (by omega)
  have hlow : n % 65536 < 65536 := Nat.mod_lt _ (by decide)
  have hle : foldCarry n < 98304 := by
    unfold foldCarry
    omega
  split
  · rename_i hlt
    rw [Nat.div_eq_of_lt hlt, Nat.add_zero, Nat.mod_eq_of_lt hlt]
  · rename_i hge
    have hone : foldCarry n / 65536 = 1 := by omega
    rw [hone]
    omega

/-- **Two folds are enough**: the carries are added at the other end of the word. -/
theorem foldCarry_eq_onesSum {ws : List Nat} (hws : ∀ w ∈ ws, w ≤ 65535) (h : ws.sum < 2 ^ 31) :
    (foldCarry ws.sum + foldCarry ws.sum / 65536) % 65536 = onesSum 65535 ws := by
  have hle : (foldCarry ws.sum + foldCarry ws.sum / 65536) % 65536 ≤ 65535 :=
    Nat.le_of_lt_succ (Nat.mod_lt _ (by decide))
  -- the sum is its two parts, so each fold takes a multiple of 65535 away
  have hfold : foldCarry ws.sum + 65535 * (ws.sum / 65536) = ws.sum := by
    unfold foldCarry
    omega
  have hmod : foldCarry ws.sum % 65535 = ws.sum % 65535 :=
    calc foldCarry ws.sum % 65535
        = (foldCarry ws.sum + 65535 * (ws.sum / 65536)) % 65535 :=
          (Nat.add_mul_mod_self_left _ _ _).symm
      _ = ws.sum % 65535 := by rw [hfold]
  refine (eq_onesSum_iff hws hle).mpr ?_
  rw [foldCarry_twice h]
  split
  · constructor
    · exact hmod
    · omega
  · constructor
    · calc (foldCarry ws.sum - 65535) % 65535
          = (foldCarry ws.sum - 65535 + 65535) % 65535 := (Nat.add_mod_right _ _).symm
        _ = foldCarry ws.sum % 65535 := by rw [Nat.sub_add_cancel (by omega)]
        _ = ws.sum % 65535 := hmod
    · omega

theorem toNat_ofInt_compl (n : Nat) :
    (UInt16.ofInt (-(n : Int) - 1)).toNat = 65535 - n % 65536 := by
  have hmod : ((-(n : Int) - 1) % 2 ^ 16).toNat = 65535 - n % 65536 := by omega
  rw [UInt16.ofInt, UInt16.toNat_ofNat', hmod]
  exact Nat.mod_eq_of_lt (by omega)

/-- The sum and its two folds, when none of them overflows. -/
theorem calChksum_eq_some {bs : List UInt8} {sum fold fold' : Int}
    (hsum : sumWords bs 0 = some sum) (hfold : addInt (sum / 65536) (sum % 65536) = some fold)
    (hfold' : addInt fold (fold / 65536) = some fold') :
    calChksum bs = some (UInt16.ofInt (-fold' - 1)) := by
  simp only [calChksum, hsum, hfold, hfold', Option.bind_eq_bind, Option.bind_some]

/-- **`cal_chksum` is the Internet checksum.** -/
theorem calChksum_eq {bs : List UInt8} (hlen : bs.length ≤ 65535) :
    ∃ c, calChksum bs = some c ∧ c.toNat = checksum 65535 (padWords bs) := by
  have hle := padWords_sum_le bs
  have hsum : (padWords bs).sum < 2 ^ 31 := by omega
  have hloop := sumWords_eq bs 0 (by omega)
  rw [Nat.zero_add, Nat.cast_zero] at hloop
  have hrange : foldCarry (padWords bs).sum + foldCarry (padWords bs).sum / 65536 < 2 ^ 31 := by
    unfold foldCarry
    omega
  refine ⟨_, calChksum_eq_some hloop (addInt_foldCarry hsum) (addInt_lastCarry hrange), ?_⟩
  rw [toNat_ofInt_compl, foldCarry_eq_onesSum (padWords_le bs) hsum, checksum]

/-! ## Verification -/

/-- A half word that is 0, at an even offset, splits the buffer. -/
theorem split_at {bs : List UInt8} {off : Nat} (h0 : bs[off]? = some 0)
    (h1 : bs[off + 1]? = some 0) : bs = bs.take off ++ 0 :: 0 :: bs.drop (off + 2) := by
  obtain ⟨hlt0, h0⟩ := List.getElem?_eq_some_iff.mp h0
  obtain ⟨hlt1, h1⟩ := List.getElem?_eq_some_iff.mp h1
  conv_lhs => rw [← List.take_append_drop off bs, List.drop_eq_getElem_cons hlt0, h0,
    List.drop_eq_getElem_cons hlt1, h1]

/-- The buffer with a half word written into it. -/
def write16 (bs : List UInt8) (off : Nat) (x : UInt16) : List UInt8 :=
  bs.take off ++ le16 x ++ bs.drop (off + 2)

theorem padWords_le16 (x : UInt16) (bs : List UInt8) :
    padWords (le16 x ++ bs) = x.toNat :: padWords bs := by
  have hx := x.toNat_lt
  have hlow : (UInt8.ofNat x.toNat).toNat = x.toNat % 256 := UInt8.toNat_ofNat'
  have hhigh : (UInt8.ofNat (x.toNat / 256)).toNat = x.toNat / 256 % 256 := UInt8.toNat_ofNat'
  have hword : halfWord (UInt8.ofNat x.toNat) (UInt8.ofNat (x.toNat / 256)) = x.toNat := by
    rw [halfWord, hlow, hhigh]
    omega
  simp only [le16, leBytes, List.cons_append, List.nil_append, padWords, hword]

/-- **Verification.** The result, written in place of a half word that was 0, makes the checksum
of the whole packet 0. -/
theorem calChksum_write16 {bs : List UInt8} (hlen : bs.length ≤ 65535) {off : Nat}
    (heven : Even off) (h0 : bs[off]? = some 0) (h1 : bs[off + 1]? = some 0) {c : UInt16}
    (hc : c.toNat = checksum 65535 (padWords bs)) : calChksum (write16 bs off c) = some 0 := by
  have hsplit := split_at h0 h1
  have hlt : off + 1 < bs.length := (List.getElem?_eq_some_iff.mp h1).1
  have htake : (bs.take off).length = off := by
    rw [List.length_take]
    omega
  have hpre : Even (bs.take off).length := htake.symm ▸ heven
  have hwords : padWords bs = padWords (bs.take off) ++ 0 :: padWords (bs.drop (off + 2)) := by
    conv_lhs => rw [hsplit, padWords_append hpre, padWords]
    rfl
  have hwords' : padWords (write16 bs off c)
      = padWords (bs.take off) ++ c.toNat :: padWords (bs.drop (off + 2)) := by
    rw [write16, List.append_assoc, padWords_append hpre, padWords_le16]
  have hsum : (padWords (write16 bs off c)).sum
      = (padWords bs).sum + checksum 65535 (padWords bs) := by
    rw [← hc, hwords, hwords', List.sum_append, List.sum_append, List.sum_cons, List.sum_cons]
    omega
  have hlen' : (write16 bs off c).length ≤ 65535 := by
    rw [write16, List.length_append, List.length_append, htake, le16_length, List.length_drop]
    omega
  obtain ⟨d, hd, hdc⟩ := calChksum_eq hlen'
  rw [checksum_eq_zero (padWords_le bs) (padWords_le _) (by decide) hsum] at hdc
  rw [hd, UInt16.toNat_inj.mp (hdc.trans UInt16.toNat_zero.symm)]

/-- **`cal_chksum`**: for every buffer of up to 65535 bytes it returns the Internet checksum, and
in a packet with a zero checksum field the result makes the checksum 0. -/
theorem calChksum_internet (bs : List UInt8) (hlen : bs.length ≤ 65535) :
    ∃ c, calChksum bs = some c ∧ c.toNat = checksum 65535 (padWords bs)
      ∧ ∀ off, Even off → bs[off]? = some 0 → bs[off + 1]? = some 0 →
        calChksum (write16 bs off c) = some 0 := by
  obtain ⟨c, hrun, hc⟩ := calChksum_eq hlen
  exact ⟨c, hrun, hc, fun off heven h0 h1 => calChksum_write16 hlen heven h0 h1 hc⟩

/-- An odd number of bytes, with an empty checksum field. -/
theorem calChksum_internet_odd :
    ∃ c, calChksum [8, 0, 0, 0, 255] = some c
      ∧ c.toNat = checksum 65535 (padWords [8, 0, 0, 0, 255])
      ∧ ∀ off, Even off → [8, 0, 0, 0, 255][off]? = some (0 : UInt8) →
        [8, 0, 0, 0, 255][off + 1]? = some (0 : UInt8) →
        calChksum (write16 [8, 0, 0, 0, 255] off c) = some 0 :=
  calChksum_internet [8, 0, 0, 0, 255] (by decide)

/-! ## `pack` -/

/-- `ICMP_ECHO` -/
def icmpEcho : UInt8 := 8

/-- `packsize`, the eight bytes of the ICMP header and `datalen`. -/
def packsize : Nat := 8 + 56

/-- A `struct timeval` in memory. -/
def Timeval.bytes (t : Timeval) : List UInt8 :=
  le64 (Int64.ofInt t.tvSec).toUInt64 ++ le64 (Int64.ofInt t.tvUsec).toUInt64

/-- `pack`, up to the checksum: the fields of the probe `packNo`, sent at `now`. -/
def packFields (pid packNo : Int) (now : Timeval) (sendpacket : Mem) : Mem :=
  let icmp := poke sendpacket 0 [icmpEcho]
  let icmp := poke icmp 1 [0]
  let icmp := poke icmp 2 (le16 0)
  let icmp := poke icmp 6 (le16 (UInt16.ofInt packNo))
  let icmp := poke icmp 4 (le16 (UInt16.ofInt pid))
  poke icmp 8 now.bytes

/-- `pack` -/
def pack (pid packNo : Int) (now : Timeval) (sendpacket : Mem) : Option Mem := do
  let icmp := packFields pid packNo now sendpacket
  let icmpCksum ← calChksum (peek icmp 0 packsize)
  some (poke icmp 2 (le16 icmpCksum))

/-- Writing a half word in memory. -/
theorem peek_poke_le16 (m : Mem) (x : UInt16) {off n : Nat} (h : off + 2 ≤ n) :
    peek (poke m off (le16 x)) 0 n = write16 (peek m 0 n) off x := by
  obtain ⟨k, rfl⟩ := Nat.exists_eq_add_of_le h
  have hsplit : ∀ m : Mem,
      peek m 0 (off + 2 + k) = peek m 0 off ++ (peek m off 2 ++ peek m (off + 2) k) := by
    intro m
    rw [peek_append, peek_append, Nat.zero_add, Nat.zero_add, List.append_assoc]
  have hfront : peek (poke m off (le16 x)) 0 off = peek m 0 off :=
    peek_poke_of_disjoint (Or.inl (by omega))
  have hword : peek (poke m off (le16 x)) off 2 = le16 x := peek_poke_self m off (le16 x)
  have hback : peek (poke m off (le16 x)) (off + 2) k = peek m (off + 2) k :=
    peek_poke_of_disjoint (Or.inr (by rw [le16_length]))
  have htake : (peek m 0 (off + 2 + k)).take off = peek m 0 off := by
    rw [hsplit]
    exact List.take_left' (peek_length _ _ _)
  have hdrop : (peek m 0 (off + 2 + k)).drop (off + 2) = peek m (off + 2) k := by
    rw [hsplit, ← List.append_assoc]
    exact List.drop_left' (by rw [List.length_append, peek_length, peek_length])
  rw [hsplit, hfront, hword, hback, write16, htake, hdrop, List.append_assoc]

/-- The checksum field before the checksum is written. -/
theorem packFields_cksum (pid packNo : Int) (now : Timeval) (sendpacket : Mem) {i : Nat}
    (hi : i = 2 ∨ i = 3) : packFields pid packNo now sendpacket i = 0 := by
  have hfield : ∀ m : Mem, poke m 2 (le16 0) i = 0 := by
    intro m
    rcases hi with rfl | rfl <;> rfl
  have hlt : i < 4 := by omega
  simp only [packFields]
  rw [poke_of_outside (Or.inl (by omega)), poke_of_outside (Or.inl (by omega)),
    poke_of_outside (Or.inl (by omega)), hfield]

/-- **Every probe verifies.** -/
theorem pack_verifies (pid packNo : Int) (now : Timeval) (sendpacket : Mem) :
    ∃ icmp, pack pid packNo now sendpacket = some icmp
      ∧ calChksum (peek icmp 0 packsize) = some 0 := by
  have hlen : (peek (packFields pid packNo now sendpacket) 0 packsize).length ≤ 65535 := by
    rw [peek_length]
    decide
  have hfield : ∀ i, i = 2 ∨ i = 3 →
      (peek (packFields pid packNo now sendpacket) 0 packsize)[i]? = some 0 := by
    intro i hi
    have hlt : i < packsize := by
      rw [packsize]
      omega
    rw [peek, List.getElem?_map, List.getElem?_range hlt, Option.map_some, Nat.zero_add,
      packFields_cksum pid packNo now sendpacket hi]
  obtain ⟨c, hrun, hc⟩ := calChksum_eq hlen
  refine ⟨poke (packFields pid packNo now sendpacket) 2 (le16 c), ?_, ?_⟩
  · rw [pack, hrun]
    rfl
  · rw [peek_poke_le16 _ c (by decide)]
    exact calChksum_write16 hlen (by decide) (hfield 2 (Or.inl rfl)) (hfield 3 (Or.inr rfl)) hc

end Monitor
