import Mathlib.Data.List.TakeWhile
import Mathlib.Tactic

set_option autoImplicit false

/-! # Memory as a function from addresses to bytes

A buffer is read and written at offsets from its start: `peek m off n` is the `n` bytes from
`off` on, and `poke m off bs` is the buffer after `memcpy(m + off, bs, bs.length)`. What lies
outside a write is unchanged (`poke_of_outside`, `peek_poke_of_disjoint`), and what was written
is read back (`peek_poke_self`).

Words are stored least significant byte first: `leBytes w n` are the `w` bytes of `n` and
`ofLe` is the number that bytes spell. `bswap16` and `bswap32` reverse the bytes of a word, so
a swapped word in memory is the word in big-endian order (`le32_bswap32`).

`cstr` is the C string a byte array spells: the bytes before the first NUL.
-/

namespace Bytes

/-! ## Little-endian words -/

/-- The `w` bytes of `n`, least significant first. -/
def leBytes : Nat → Nat → List UInt8
  | 0, _ => []
  | w + 1, n => UInt8.ofNat n :: leBytes w (n / 256)

/-- The number spelled by bytes, least significant first. -/
def ofLe : List UInt8 → Nat
  | [] => 0
  | b :: bs => b.toNat + 256 * ofLe bs

@[simp] theorem leBytes_length (w n : Nat) : (leBytes w n).length = w := by
  induction w generalizing n with
  | zero => rfl
  | succ w ih => rw [leBytes, List.length_cons, ih]

theorem ofLe_leBytes (w n : Nat) : ofLe (leBytes w n) = n % 256 ^ w := by
  induction w generalizing n with
  | zero => simp [leBytes, ofLe, Nat.mod_one]
  | succ w ih =>
      have hb : (UInt8.ofNat n).toNat = n % 256 := UInt8.toNat_ofNat'
      rw [leBytes, ofLe, ih, hb, Nat.pow_succ', Nat.mod_mul]

theorem ofLe_lt (bs : List UInt8) : ofLe bs < 256 ^ bs.length := by
  induction bs with
  | nil => simp [ofLe]
  | cons b bs ih =>
      have hb : b.toNat < 256 := b.toNat_lt
      rw [ofLe, List.length_cons, Nat.pow_succ']
      omega

theorem leBytes_ofLe (bs : List UInt8) : leBytes bs.length (ofLe bs) = bs := by
  induction bs with
  | nil => rfl
  | cons b bs ih =>
      have hb : b.toNat < 256 := b.toNat_lt
      have hdiv : (b.toNat + 256 * ofLe bs) / 256 = ofLe bs := by omega
      rw [List.length_cons, ofLe, leBytes, hdiv, ih]
      congr 1
      refine UInt8.toNat_inj.mp ?_
      rw [UInt8.toNat_ofNat']
      omega

/-- The four bytes of a word in memory. -/
def le32 (x : UInt32) : List UInt8 := leBytes 4 x.toNat

/-- The word that four bytes in memory spell. -/
def ofLe32 (bs : List UInt8) : UInt32 := UInt32.ofNat (ofLe bs)

/-- The two bytes of a half word in memory. -/
def le16 (x : UInt16) : List UInt8 := leBytes 2 x.toNat

/-- The half word that two bytes in memory spell. -/
def ofLe16 (bs : List UInt8) : UInt16 := UInt16.ofNat (ofLe bs)

@[simp] theorem le32_length (x : UInt32) : (le32 x).length = 4 := leBytes_length _ _

@[simp] theorem le16_length (x : UInt16) : (le16 x).length = 2 := leBytes_length _ _

@[simp] theorem ofLe32_le32 (x : UInt32) : ofLe32 (le32 x) = x := by
  have hx : x.toNat < 2 ^ 32 := x.toNat_lt
  rw [ofLe32, le32, ofLe_leBytes, Nat.mod_eq_of_lt (by omega), UInt32.ofNat_toNat]

@[simp] theorem ofLe16_le16 (x : UInt16) : ofLe16 (le16 x) = x := by
  have hx : x.toNat < 2 ^ 16 := x.toNat_lt
  rw [ofLe16, le16, ofLe_leBytes, Nat.mod_eq_of_lt (by omega), UInt16.ofNat_toNat]

theorem le32_ofLe32 {bs : List UInt8} (h : bs.length = 4) : le32 (ofLe32 bs) = bs := by
  have hlt := ofLe_lt bs
  rw [h] at hlt
  have hmod : ofLe bs % 2 ^ 32 = ofLe bs := Nat.mod_eq_of_lt (by omega)
  rw [le32, ofLe32, UInt32.toNat_ofNat', hmod, ← h, leBytes_ofLe]

theorem le16_ofLe16 {bs : List UInt8} (h : bs.length = 2) : le16 (ofLe16 bs) = bs := by
  have hlt := ofLe_lt bs
  rw [h] at hlt
  have hmod : ofLe bs % 2 ^ 16 = ofLe bs := Nat.mod_eq_of_lt (by omega)
  rw [le16, ofLe16, UInt16.toNat_ofNat', hmod, ← h, leBytes_ofLe]

/-- The eight bytes of a double word in memory. -/
def le64 (x : UInt64) : List UInt8 := leBytes 8 x.toNat

/-- The double word that eight bytes in memory spell. -/
def ofLe64 (bs : List UInt8) : UInt64 := UInt64.ofNat (ofLe bs)

@[simp] theorem le64_length (x : UInt64) : (le64 x).length = 8 := leBytes_length _ _

@[simp] theorem ofLe64_le64 (x : UInt64) : ofLe64 (le64 x) = x := by
  have hx : x.toNat < 2 ^ 64 := x.toNat_lt
  rw [ofLe64, le64, ofLe_leBytes, Nat.mod_eq_of_lt (by omega), UInt64.ofNat_toNat]

theorem le64_ofLe64 {bs : List UInt8} (h : bs.length = 8) : le64 (ofLe64 bs) = bs := by
  have hlt := ofLe_lt bs
  rw [h] at hlt
  have hmod : ofLe bs % 2 ^ 64 = ofLe bs := Nat.mod_eq_of_lt (by omega)
  rw [le64, ofLe64, UInt64.toNat_ofNat', hmod, ← h, leBytes_ofLe]

theorem ofLe64_eq_iff {bs : List UInt8} {x : UInt64} (h : bs.length = 8) :
    ofLe64 bs = x ↔ bs = le64 x := by
  constructor
  · intro hx
    rw [← hx, le64_ofLe64 h]
  · intro hbs
    rw [hbs, ofLe64_le64]

/-! ## Byte order -/

/-- The word with its four bytes reversed. -/
def bswap32 (x : UInt32) : UInt32 := ofLe32 (le32 x).reverse

/-- The half word with its two bytes reversed. -/
def bswap16 (x : UInt16) : UInt16 := ofLe16 (le16 x).reverse

theorem le32_bswap32 (x : UInt32) : le32 (bswap32 x) = (le32 x).reverse :=
  le32_ofLe32 (by simp)

theorem le16_bswap16 (x : UInt16) : le16 (bswap16 x) = (le16 x).reverse :=
  le16_ofLe16 (by simp)

theorem bswap16_toNat (x : UInt16) : (bswap16 x).toNat = 256 * (x.toNat % 256) + x.toNat / 256 := by
  have hx : x.toNat < 2 ^ 16 := x.toNat_lt
  have hhigh : x.toNat / 256 < 256 := by omega
  rw [bswap16, ofLe16, le16, UInt16.toNat_ofNat']
  simp only [leBytes, List.reverse_cons, List.reverse_nil, List.nil_append, List.cons_append, ofLe,
    UInt8.toNat_ofNat', Nat.mod_eq_of_lt hhigh, Nat.reducePow]
  omega

@[simp] theorem bswap32_bswap32 (x : UInt32) : bswap32 (bswap32 x) = x := by
  rw [bswap32, le32_bswap32, List.reverse_reverse, ofLe32_le32]

@[simp] theorem bswap16_bswap16 (x : UInt16) : bswap16 (bswap16 x) = x := by
  rw [bswap16, le16_bswap16, List.reverse_reverse, ofLe16_le16]

/-! ## Reading and writing -/

/-- A buffer: the byte at every offset from its start. -/
abbrev Mem := Nat → UInt8

/-- The `n` bytes at `off`. -/
def peek (m : Mem) (off n : Nat) : List UInt8 := (List.range n).map fun i => m (off + i)

/-- `memcpy(m + off, bs, bs.length)` -/
def poke (m : Mem) (off : Nat) (bs : List UInt8) : Mem := fun i =>
  if off ≤ i then (bs[i - off]?).getD (m i) else m i

@[simp] theorem peek_length (m : Mem) (off n : Nat) : (peek m off n).length = n := by
  simp [peek]

theorem peek_congr {m m' : Mem} {off n : Nat} (h : ∀ i, off ≤ i → i < off + n → m i = m' i) :
    peek m off n = peek m' off n := by
  refine List.map_congr_left fun i hi => h _ (Nat.le_add_right _ _) ?_
  have := List.mem_range.mp hi
  omega

/-- Equal blocks have equal bytes. -/
theorem byte_of_peek_eq {m m' : Mem} {off n i : Nat} (h : peek m off n = peek m' off n) (hi : off ≤ i)
    (hlt : i < off + n) : m i = m' i := by
  have hmap := List.map_inj_left.mp h (i - off) (List.mem_range.mpr (by omega))
  rwa [Nat.add_sub_cancel' hi] at hmap

theorem peek_append (m : Mem) (off n k : Nat) :
    peek m off (n + k) = peek m off n ++ peek m (off + n) k := by
  simp [peek, List.range_add, Nat.add_assoc, Function.comp_def]

/-- A write leaves every byte outside of it unchanged. -/
theorem poke_of_outside {m : Mem} {off i : Nat} {bs : List UInt8}
    (h : i < off ∨ off + bs.length ≤ i) : poke m off bs i = m i := by
  rw [poke]
  split
  · rw [List.getElem?_eq_none (by omega)]
    rfl
  · rfl

theorem poke_of_inside {m : Mem} {off i : Nat} {bs : List UInt8} (hi : off ≤ i)
    (hlt : i - off < bs.length) : poke m off bs i = bs[i - off] := by
  rw [poke, if_pos hi, List.getElem?_eq_getElem hlt, Option.getD_some]

/-- What was written is read back. -/
theorem peek_poke_self (m : Mem) (off : Nat) (bs : List UInt8) :
    peek (poke m off bs) off bs.length = bs := by
  apply List.ext_getElem (peek_length _ _ _)
  intro i hi hi'
  simp only [peek, List.getElem_map, List.getElem_range]
  rw [poke_of_inside (Nat.le_add_right _ _) (by omega)]
  simp

theorem peek_poke_of_disjoint {m : Mem} {off n o : Nat} {bs : List UInt8}
    (h : off + n ≤ o ∨ o + bs.length ≤ off) : peek (poke m o bs) off n = peek m off n :=
  peek_congr fun _ _ _ => poke_of_outside (by omega)

/-- A part of what was written is read back. -/
theorem peek_poke_inside {m : Mem} {off i n : Nat} {bs : List UInt8} (h : i + n ≤ bs.length) :
    peek (poke m off bs) (off + i) n = (bs.drop i).take n := by
  apply List.ext_getElem (by simp; omega)
  intro j hj _
  rw [peek_length] at hj
  simp only [peek, List.getElem_map, List.getElem_range, List.getElem_take, List.getElem_drop]
  rw [poke_of_inside (by omega) (by omega)]
  congr 1
  omega

/-- Two copies one behind the other are one copy. -/
theorem poke_append (m : Mem) (off : Nat) (as bs : List UInt8) :
    poke m off (as ++ bs) = poke (poke m off as) (off + as.length) bs := by
  funext i
  by_cases h : off + as.length ≤ i
  · by_cases hb : i - (off + as.length) < bs.length
    · rw [poke_of_inside (by omega) (by rw [List.length_append]; omega), poke_of_inside h hb,
        List.getElem_append_right (by omega)]
      congr 1
      omega
    · rw [poke_of_outside (Or.inr (by rw [List.length_append]; omega)),
        poke_of_outside (Or.inr (by omega)), poke_of_outside (Or.inr (by omega))]
  · rw [@poke_of_outside _ _ i bs (Or.inl (by omega))]
    by_cases ha : off ≤ i
    · rw [poke_of_inside ha (by rw [List.length_append]; omega), poke_of_inside ha (by omega),
        List.getElem_append_left]
    · rw [poke_of_outside (Or.inl (by omega)), poke_of_outside (Or.inl (by omega))]

/-- A byte of a block that was copied from another buffer. -/
theorem poke_peek_of_lt (m src : Mem) (off : Nat) {i n : Nat} (hi : i < n) :
    poke m off (peek src 0 n) (off + i) = src i := by
  rw [poke_of_inside (Nat.le_add_right _ _) (by rw [peek_length]; omega)]
  simp [peek]

/-- A byte of a block that was copied to the same place of another buffer. -/
theorem poke_peek_of_mem (m src : Mem) {off n i : Nat} (hi : off ≤ i) (hlt : i < off + n) :
    poke m off (peek src off n) i = src i := by
  rw [poke_of_inside hi (by rw [peek_length]; omega)]
  simp only [peek, List.getElem_map, List.getElem_range]
  congr 1
  omega

/-- Copying bytes to where they came from changes nothing. -/
theorem poke_peek_self (m : Mem) (off n : Nat) : poke m off (peek m off n) = m := by
  funext i
  by_cases h : off ≤ i ∧ i < off + n
  · exact poke_peek_of_mem m m h.1 h.2
  · exact poke_of_outside (by rw [peek_length]; omega)

/-- The front of a block is a shorter block. -/
theorem peek_take (m : Mem) (off : Nat) {k n : Nat} (h : k ≤ n) :
    (peek m off n).take k = peek m off k := by
  obtain ⟨r, rfl⟩ := Nat.exists_eq_add_of_le h
  rw [peek_append, List.take_left' (peek_length _ _ _)]

/-- What is behind the front of a block is a block. -/
theorem peek_drop (m : Mem) (off : Nat) {k n : Nat} (h : k ≤ n) :
    (peek m off n).drop k = peek m (off + k) (n - k) := by
  obtain ⟨r, rfl⟩ := Nat.exists_eq_add_of_le h
  rw [peek_append, List.drop_left' (peek_length _ _ _), Nat.add_sub_cancel_left]

/-- Copying bytes that are there already changes nothing. -/
theorem poke_peek_of_eq {m src : Mem} {off n : Nat} (h : ∀ i, off ≤ i → i < off + n → m i = src i) :
    poke m off (peek src off n) = m := by
  rw [← peek_congr h, poke_peek_self]

/-- A second write to the same bytes hides the first. -/
theorem poke_poke_self {m : Mem} {off : Nat} {as bs : List UInt8} (h : as.length = bs.length) :
    poke (poke m off as) off bs = poke m off bs := by
  funext i
  by_cases hi : off ≤ i ∧ i < off + bs.length
  · rw [poke_of_inside hi.1 (by omega), poke_of_inside hi.1 (by omega)]
  · rw [poke_of_outside (by omega), poke_of_outside (by omega), poke_of_outside (by omega)]

/-- Writes to different bytes may change places. -/
theorem poke_comm {m : Mem} {off o : Nat} {as bs : List UInt8}
    (h : off + as.length ≤ o ∨ o + bs.length ≤ off) :
    poke (poke m off as) o bs = poke (poke m o bs) off as := by
  funext i
  by_cases hi : o ≤ i ∧ i < o + bs.length
  · rw [poke_of_inside hi.1 (by omega), poke_of_outside (by omega), poke_of_inside hi.1 (by omega)]
  · rw [poke_of_outside (m := poke m off as) (by omega)]
    by_cases ha : off ≤ i ∧ i < off + as.length
    · rw [poke_of_inside ha.1 (by omega), poke_of_inside ha.1 (by omega)]
    · rw [poke_of_outside (by omega), poke_of_outside (by omega), poke_of_outside (by omega)]

/-- Writing a block back with some of its bytes replaced writes only these bytes. -/
theorem poke_replace {m : Mem} {off k n : Nat} {bs : List UInt8} (hn : k + bs.length ≤ n) :
    poke m off ((peek m off n).take k ++ bs ++ (peek m off n).drop (k + bs.length))
      = poke m (off + k) bs := by
  rw [peek_take m off (by omega), peek_drop m off hn, poke_append, poke_append, poke_peek_self,
    List.length_append, peek_length]
  exact poke_peek_of_eq fun i hi _ => poke_of_outside (Or.inr (by omega))

/-- A part of a block that is written over. -/
theorem peek_poke_replace {m : Mem} {off n : Nat} {as xs ys bs : List UInt8}
    (h : peek m off n = as ++ xs ++ bs) (hlen : xs.length = ys.length) :
    peek (poke m (off + as.length) ys) off n = as ++ ys ++ bs := by
  have hn : n = as.length + ys.length + bs.length := by
    have hlength := congrArg List.length h
    rwa [peek_length, List.length_append, List.length_append, hlen] at hlength
  rw [hn, peek_append, peek_append] at h ⊢
  obtain ⟨hfront, hbs⟩ := List.append_inj' h (peek_length _ _ _)
  obtain ⟨has, -⟩ := List.append_inj hfront (peek_length _ _ _)
  rw [peek_poke_of_disjoint (Or.inl (Nat.le_refl _)), peek_poke_self,
    peek_poke_of_disjoint (Or.inr (by omega)), has, hbs]

/-- The word at an offset. -/
def load32 (m : Mem) (off : Nat) : UInt32 := ofLe32 (peek m off 4)

/-- The half word at an offset. -/
def load16 (m : Mem) (off : Nat) : UInt16 := ofLe16 (peek m off 2)

/-- The double word at an offset. -/
def load64 (m : Mem) (off : Nat) : UInt64 := ofLe64 (peek m off 8)

@[simp] theorem load32_poke_le32 (m : Mem) (off : Nat) (x : UInt32) :
    load32 (poke m off (le32 x)) off = x := by
  rw [load32, ← le32_length x, peek_poke_self, ofLe32_le32]

@[simp] theorem load16_poke_le16 (m : Mem) (off : Nat) (x : UInt16) :
    load16 (poke m off (le16 x)) off = x := by
  rw [load16, ← le16_length x, peek_poke_self, ofLe16_le16]

theorem peek_of_load32 (m : Mem) (off : Nat) : peek m off 4 = le32 (load32 m off) :=
  (le32_ofLe32 (peek_length _ _ _)).symm

theorem peek_of_load16 (m : Mem) (off : Nat) : peek m off 2 = le16 (load16 m off) :=
  (le16_ofLe16 (peek_length _ _ _)).symm

theorem load16_toNat (m : Mem) (off : Nat) :
    (load16 m off).toNat = (m off).toNat + 256 * (m (off + 1)).toNat := by
  have hlow := (m off).toNat_lt
  have hhigh := (m (off + 1)).toNat_lt
  show ofLe [m off, m (off + 1)] % 2 ^ 16 = _
  simp only [ofLe]
  omega

theorem load32_congr {m m' : Mem} {off : Nat} (h : ∀ i, off ≤ i → i < off + 4 → m i = m' i) :
    load32 m off = load32 m' off :=
  congrArg ofLe32 (peek_congr h)

theorem load16_congr {m m' : Mem} {off : Nat} (h : ∀ i, off ≤ i → i < off + 2 → m i = m' i) :
    load16 m off = load16 m' off :=
  congrArg ofLe16 (peek_congr h)

theorem load32_poke_of_disjoint {m : Mem} {off o : Nat} {bs : List UInt8}
    (h : off + 4 ≤ o ∨ o + bs.length ≤ off) : load32 (poke m o bs) off = load32 m off :=
  congrArg ofLe32 (peek_poke_of_disjoint h)

theorem load16_poke_of_disjoint {m : Mem} {off o : Nat} {bs : List UInt8}
    (h : off + 2 ≤ o ∨ o + bs.length ≤ off) : load16 (poke m o bs) off = load16 m off :=
  congrArg ofLe16 (peek_poke_of_disjoint h)

/-! ## Arrays of words -/

theorem flatMap_le32_length (ws : List UInt32) : (ws.flatMap le32).length = 4 * ws.length := by
  induction ws with
  | nil => rfl
  | cons w ws ih =>
      rw [List.flatMap_cons, List.length_append, ih, le32_length, List.length_cons]
      omega

theorem flatMap_le32_slice : ∀ (ws : List UInt32) (i : Nat) (hi : i < ws.length),
    ((ws.flatMap le32).drop (4 * i)).take 4 = le32 ws[i]
  | w :: ws, 0, _ => by simp
  | w :: ws, i + 1, hi => by
      have hdrop : (le32 w ++ ws.flatMap le32).drop (4 * (i + 1)) = (ws.flatMap le32).drop (4 * i) := by
        rw [List.drop_append, le32_length, List.drop_eq_nil_of_le (by rw [le32_length]; omega),
          List.nil_append]
        congr 1
      rw [List.flatMap_cons, hdrop, flatMap_le32_slice ws i (by simpa using hi)]
      rfl

/-- The words of an array that was copied are loaded back. -/
theorem load32_poke_words (m : Mem) (off : Nat) (ws : List UInt32) (i : Nat) (hi : i < ws.length) :
    load32 (poke m off (ws.flatMap le32)) (off + 4 * i) = ws[i] := by
  have hlen := flatMap_le32_length ws
  rw [load32, peek_poke_inside (by omega), flatMap_le32_slice ws i hi, ofLe32_le32]

/-! ## C strings -/

/-- The C string at the start of an array: the bytes before the first NUL. -/
def cstr (bs : List UInt8) : List UInt8 := bs.takeWhile (· ≠ 0)

/-- `strncpy(dest, s, n)`: what is in the `n` bytes of `dest`. -/
def strncpy (n : Nat) (s : List UInt8) : List UInt8 :=
  (cstr s).take n ++ List.replicate (n - (cstr s).length) 0

@[simp] theorem strncpy_length (n : Nat) (s : List UInt8) : (strncpy n s).length = n := by
  rw [strncpy, List.length_append, List.length_take, List.length_replicate]
  omega

theorem cstr_append_zero (bs rest : List UInt8) : cstr (bs ++ 0 :: rest) = cstr bs := by
  induction bs with
  | nil => simp [cstr]
  | cons b bs ih =>
      simp only [cstr] at ih ⊢
      rw [List.cons_append, List.takeWhile_cons, List.takeWhile_cons, ih]

theorem cstr_append_of_mem {bs : List UInt8} (h : 0 ∈ bs) (rest : List UInt8) :
    cstr (bs ++ rest) = cstr bs := by
  obtain ⟨a, b, rfl⟩ := List.append_of_mem h
  rw [List.append_assoc, List.cons_append, cstr_append_zero, cstr_append_zero]

theorem cstr_eq_self {bs : List UInt8} (h : 0 ∉ bs) : cstr bs = bs :=
  List.takeWhile_eq_self_iff.mpr fun b hb => by
    simpa using fun e : b = 0 => h (e ▸ hb)

/-- The string of an array without NUL goes on with what is behind the array. -/
theorem cstr_append_of_not_mem {bs : List UInt8} (h : 0 ∉ bs) (rest : List UInt8) :
    cstr (bs ++ rest) = bs ++ cstr rest :=
  List.takeWhile_append_of_pos fun b hb => by simpa using fun e : b = 0 => h (e ▸ hb)

/-- Arrays of one length spell the same string when they are equal, or agree up to a NUL in
both. -/
theorem cstr_eq_cstr_iff {a b : List UInt8} (hlen : a.length = b.length) :
    cstr a = cstr b ↔ a = b ∨ ∃ k, a[k]? = some 0 ∧ a.take (k + 1) = b.take (k + 1) := by
  induction a generalizing b with
  | nil =>
      obtain rfl := List.length_eq_zero_iff.mp hlen.symm
      simp
  | cons x a ih =>
      cases b with
      | nil => cases hlen
      | cons y b =>
          have ih := ih (Nat.succ.inj hlen)
          by_cases hx : x = 0
          · -- the string of the first array is empty
            subst hx
            by_cases hy : y = 0
            · subst hy
              refine iff_of_true (by simp [cstr]) (Or.inr ⟨0, rfl, rfl⟩)
            · refine iff_of_false (by simp [cstr, hy]) ?_
              rintro (h | ⟨k, -, h⟩)
              · exact hy (List.cons.inj h).1.symm
              · exact hy (List.cons.inj h).1.symm
          · by_cases hy : y = 0
            · subst hy
              refine iff_of_false (by simp [cstr, hx]) ?_
              rintro (h | ⟨k, -, h⟩)
              · exact hx (List.cons.inj h).1
              · exact hx (List.cons.inj h).1
            · have hcons : cstr (x :: a) = cstr (y :: b) ↔ x = y ∧ cstr a = cstr b := by
                simp [cstr, hx, hy]
              rw [hcons, ih]
              constructor
              · rintro ⟨rfl, rfl | ⟨k, hk, hag⟩⟩
                · exact Or.inl rfl
                · exact Or.inr ⟨k + 1, hk, by rw [List.take_succ_cons, List.take_succ_cons, hag]⟩
              · rintro (h | ⟨k, hk, hag⟩)
                · exact ⟨(List.cons.inj h).1, Or.inl (List.cons.inj h).2⟩
                · cases k with
                  | zero => exact absurd (Option.some.inj hk) hx
                  | succ k =>
                      rw [List.take_succ_cons, List.take_succ_cons] at hag
                      exact ⟨(List.cons.inj hag).1, Or.inr ⟨k, hk, (List.cons.inj hag).2⟩⟩

end Bytes
