import IcnPrototype.Lib.Decimal

set_option autoImplicit false

/-! # Numbers in any base

`strtoul` reads an unsigned number in a base, which the number may choose itself by its prefix where
the base is 0. A decimal number without leading zeros is read as what it is
(`strtoul_decimal`), and so is a number in the base that is asked for (`strtoul_hexadecimal`,
`strtoul_ten_decimal`).
-/

namespace Bytes

/-- The value of a digit or letter; 36, which is no digit in any base, for other characters. -/
def digitOf (b : UInt8) : Nat :=
  if isDigit b then b.toNat - 48
  else if 97 ≤ b ∧ b ≤ 122 then b.toNat - 87
  else if 65 ≤ b ∧ b ≤ 90 then b.toNat - 55
  else 36

/-- What `strtoul` returns: the number, how far `end` is behind the beginning of the string, and
whether `errno` is `ERANGE`. -/
structure Unsigned where
  value : Nat
  stop : Nat
  erange : Bool

/-- The value of digits in a base. -/
def valueIn (base : Nat) (digits : List UInt8) : Nat :=
  digits.foldl (fun a b => base * a + digitOf b) 0

/-- A number begins with `0x` and a digit. -/
def hasHexPrefix (s : List UInt8) : Bool :=
  match s with
  | 48 :: x :: d :: _ => (x == 120 || x == 88) && decide (digitOf d < 16)
  | _ => false

/-- The base of a number, and the number without its prefix. -/
def splitBase (base : Nat) (s : List UInt8) : Nat × List UInt8 :=
  if (base = 0 ∨ base = 16) ∧ hasHexPrefix s then (16, s.drop 2)
  else if base = 0 then (if s.head? = some 48 then 8 else 10, s)
  else (base, s)

/-- `strtoul(s, &end, base)` with 64 bits. -/
def strtoul (base : Nat) (s : List UInt8) : Unsigned :=
  let text := cstr s
  let s := text.dropWhile isSpace
  let negative := s.head? = some 45
  let s := if negative ∨ s.head? = some 43 then s.tail else s
  let (base, s) := splitBase base s
  let digits := s.takeWhile fun b => digitOf b < base
  if digits = [] then ⟨0, 0, false⟩
  else
    let value := valueIn base digits
    let stop := text.length - (s.length - digits.length)
    if 2 ^ 64 ≤ value then ⟨2 ^ 64 - 1, stop, true⟩
    else ⟨if negative then (2 ^ 64 - value) % 2 ^ 64 else value, stop, false⟩

/-! ## Decimal numbers -/

theorem digitOf_of_isDigit {b : UInt8} (h : isDigit b = true) : digitOf b = b.toNat - 48 := if_pos h

theorem digitOf_lt_ten {b : UInt8} (h : isDigit b = true) : digitOf b < 10 := by
  rw [digitOf_of_isDigit h]
  simp only [isDigit, Bool.and_eq_true, decide_eq_true_eq, UInt8.le_iff_toNat_le] at h
  have hhigh : b.toNat ≤ 57 := h.2
  omega

theorem valueIn_ten {digits : List UInt8} (h : ∀ b ∈ digits, isDigit b = true) :
    valueIn 10 digits = digitsValue digits := by
  unfold valueIn digitsValue
  apply List.foldl_ext
  intro a b hb
  rw [digitOf_of_isDigit (h b hb)]

/-- A decimal number begins with `0` only if it is 0. -/
theorem head?_decimal {n : Nat} (hn : n ≠ 0) : (decimal n).head? ≠ some 48 := by
  induction n using decimal.induct with
  | case1 n h =>
      rw [decimal, if_pos h, List.head?_cons]
      intro heq
      have hnat := congrArg UInt8.toNat (Option.some.inj heq)
      rw [toNat_digit h] at hnat
      exact hn (by simpa using hnat)
  | case2 n h ih =>
      obtain ⟨b, bs, hb, -⟩ := decimal_eq_cons (n / 10)
      have hdiv : n / 10 ≠ 0 := by omega
      have hhead := ih hdiv
      rw [decimal, if_neg h]
      rw [hb] at hhead ⊢
      exact hhead

theorem nul_not_mem_decimal (n : Nat) : 0 ∉ decimal n := fun h =>
  absurd (isDigit_of_mem_decimal h) (by decide)

/-- **A decimal number is read in base 0.** -/
theorem strtoul_decimal {n : Nat} (hn : n < 2 ^ 64) :
    strtoul 0 (decimal n) = ⟨n, (decimal n).length, false⟩ := by
  by_cases hzero : n = 0
  · -- the digit 0 is an octal number
    subst hzero
    have htext : decimal 0 = [48] := by rw [decimal]; rfl
    rw [htext]
    rfl
  · have hdigits : ∀ b ∈ decimal n, isDigit b = true := fun b hb => isDigit_of_mem_decimal hb
    obtain ⟨b, bs, hb, hdigit⟩ := decimal_eq_cons n
    have hhead : (decimal n).head? = some b := by rw [hb]; rfl
    have hspace : (decimal n).dropWhile isSpace = decimal n := by
      rw [hb, List.dropWhile_cons_of_neg (by rw [not_isSpace_of_isDigit hdigit]; decide)]
    have hminus : ¬ (decimal n).head? = some 45 := by
      rw [hhead]
      intro heq
      rw [Option.some.inj heq] at hdigit
      exact absurd hdigit (by decide)
    have hplus : ¬ (decimal n).head? = some 43 := by
      rw [hhead]
      intro heq
      rw [Option.some.inj heq] at hdigit
      exact absurd hdigit (by decide)
    have hne := head?_decimal hzero
    have hhex : hasHexPrefix (decimal n) = false := by
      unfold hasHexPrefix
      split
      · next heq =>
          rw [heq] at hne
          exact absurd rfl hne
      · rfl
    have hbase : splitBase 0 (decimal n) = (10, decimal n) := by
      rw [splitBase, hhex, if_neg (by simp), if_pos rfl, if_neg hne]
    have htake : ((decimal n).takeWhile fun b => digitOf b < 10) = decimal n :=
      List.takeWhile_eq_self_iff.mpr fun b hb => decide_eq_true (digitOf_lt_ten (hdigits b hb))
    have hnil : decimal n ≠ [] := by rw [hb]; exact List.cons_ne_nil _ _
    have hvalue : valueIn 10 (decimal n) = n := by rw [valueIn_ten hdigits, digitsValue_decimal]
    unfold strtoul
    dsimp only
    rw [cstr_eq_self (nul_not_mem_decimal n), hspace, if_neg (not_or.mpr ⟨hminus, hplus⟩), hbase]
    dsimp only
    rw [htake, if_neg hnil, hvalue, if_neg (by omega), if_neg hminus, Nat.sub_self, Nat.sub_zero]

/-! ## Numbers in a given base -/

/-- A space is no digit. -/
theorem digitOf_isSpace : ∀ b : UInt8, isSpace b = true → digitOf b = 36 := by
  intro b h
  rw [isSpace, Bool.or_eq_true, beq_iff_eq, Bool.and_eq_true, decide_eq_true_eq,
    decide_eq_true_eq, UInt8.le_iff_toNat_le, UInt8.le_iff_toNat_le] at h
  rcases h with rfl | ⟨hlow, hhigh⟩
  · rfl
  · -- the control characters from 9 to 13
    have hb : b = UInt8.ofNat b.toNat := UInt8.ofNat_toNat.symm
    change 9 ≤ b.toNat at hlow
    change b.toNat ≤ 13 at hhigh
    rw [hb]
    interval_cases b.toNat <;> rfl

/-- A digit is no space and no sign. -/
theorem digitOf_lt {b : UInt8} {base : Nat} (hbase : base ≤ 36) (h : digitOf b < base) :
    b ≠ 0 ∧ isSpace b = false ∧ b ≠ 45 ∧ b ≠ 43 := by
  have hne : ∀ c : UInt8, digitOf c = 36 → b ≠ c := by
    rintro c hc rfl
    omega
  refine ⟨hne 0 rfl, ?_, hne 45 rfl, hne 43 rfl⟩
  rw [← Bool.not_eq_true]
  intro hspace
  exact hne b (digitOf_isSpace b hspace) rfl

/-- **A number in a given base is read**, up to the first character that is no digit of the base. -/
theorem strtoul_of_digits {base : Nat} (h0 : 0 < base) (hbase : base ≤ 36) {digits : List UInt8}
    (hne : digits ≠ []) (hdigits : ∀ b ∈ digits, digitOf b < base)
    (hvalue : valueIn base digits < 2 ^ 64) :
    strtoul base digits = ⟨valueIn base digits, digits.length, false⟩ := by
  obtain ⟨d, ds, rfl⟩ := List.exists_cons_of_ne_nil hne
  obtain ⟨-, hspace, hminus, hplus⟩ := digitOf_lt hbase (hdigits d List.mem_cons_self)
  have hnul : 0 ∉ d :: ds := fun h => (digitOf_lt hbase (hdigits 0 h)).1 rfl
  have hprefix : ¬ ((base = 0 ∨ base = 16) ∧ hasHexPrefix (d :: ds) = true) := by
    rintro ⟨hb, hhex⟩
    have h16 : base = 16 := by omega
    unfold hasHexPrefix at hhex
    split at hhex
    · next x e rest heq =>
        -- the second character would be the letter x
        have hx := hdigits x (by rw [heq]; simp)
        rw [Bool.and_eq_true, Bool.or_eq_true, beq_iff_eq, beq_iff_eq] at hhex
        rcases hhex.1 with rfl | rfl
        · exact absurd (h16 ▸ hx) (by decide)
        · exact absurd (h16 ▸ hx) (by decide)
    · cases hhex
  have hsplit : splitBase base (d :: ds) = (base, d :: ds) := by
    rw [splitBase, if_neg hprefix, if_neg (by omega)]
  have htake : ((d :: ds).takeWhile fun b => digitOf b < base) = d :: ds :=
    List.takeWhile_eq_self_iff.mpr fun b hb => decide_eq_true (hdigits b hb)
  have hsign : ¬ ((d :: ds).head? = some 45 ∨ (d :: ds).head? = some 43) := by
    rintro (h | h)
    · exact hminus (Option.some.inj h)
    · exact hplus (Option.some.inj h)
  unfold strtoul
  dsimp only
  rw [cstr_eq_self hnul, List.dropWhile_cons_of_neg (by rw [hspace]; decide), if_neg hsign, hsplit]
  dsimp only
  rw [htake, if_neg hne, if_neg (by omega), if_neg (fun h => hsign (Or.inl h)), Nat.sub_self,
    Nat.sub_zero]

/-- A hexadecimal digit. -/
def hexDigit (d : Nat) : UInt8 := UInt8.ofNat (if d < 10 then 48 + d else 87 + d)

/-- The hexadecimal digits of a number, most significant first. -/
def hexadecimal (n : Nat) : List UInt8 :=
  if n < 16 then [hexDigit n] else hexadecimal (n / 16) ++ [hexDigit (n % 16)]

theorem digitOf_hexDigit {d : Nat} (h : d < 16) : digitOf (hexDigit d) = d := by
  interval_cases d <;> rfl

theorem valueIn_concat (base : Nat) (digits : List UInt8) (b : UInt8) :
    valueIn base (digits ++ [b]) = base * valueIn base digits + digitOf b := by
  rw [valueIn, List.foldl_append]
  rfl

theorem valueIn_hexadecimal (n : Nat) : valueIn 16 (hexadecimal n) = n := by
  induction n using hexadecimal.induct with
  | case1 n h =>
      rw [hexadecimal, if_pos h, ← List.nil_append [hexDigit n], valueIn_concat,
        digitOf_hexDigit h]
      exact Nat.zero_add n
  | case2 n h ih =>
      have hmod : n % 16 < 16 := Nat.mod_lt _ (by decide)
      calc valueIn 16 (hexadecimal n) = 16 * valueIn 16 (hexadecimal (n / 16)) + n % 16 := by
            rw [hexadecimal, if_neg h, valueIn_concat, digitOf_hexDigit hmod]
        _ = 16 * (n / 16) + n % 16 := by rw [ih]
        _ = n := Nat.div_add_mod n 16

theorem digitOf_of_mem_hexadecimal {n : Nat} {b : UInt8} (h : b ∈ hexadecimal n) :
    digitOf b < 16 := by
  induction n using hexadecimal.induct with
  | case1 n hn =>
      rw [hexadecimal, if_pos hn, List.mem_singleton] at h
      rw [h, digitOf_hexDigit hn]
      exact hn
  | case2 n hn ih =>
      rw [hexadecimal, if_neg hn, List.mem_append, List.mem_singleton] at h
      rcases h with h | rfl
      · exact ih h
      · have hmod : n % 16 < 16 := Nat.mod_lt _ (by decide)
        rw [digitOf_hexDigit hmod]
        exact hmod

theorem hexadecimal_ne_nil (n : Nat) : hexadecimal n ≠ [] := by
  rw [hexadecimal]
  split
  · exact List.cons_ne_nil _ _
  · exact List.append_ne_nil_of_right_ne_nil _ (List.cons_ne_nil _ _)

/-- **A hexadecimal number is read in base 16.** -/
theorem strtoul_hexadecimal {n : Nat} (hn : n < 2 ^ 64) :
    strtoul 16 (hexadecimal n) = ⟨n, (hexadecimal n).length, false⟩ := by
  have hvalue := valueIn_hexadecimal n
  rw [strtoul_of_digits (by decide) (by decide) (hexadecimal_ne_nil n)
    (fun b hb => digitOf_of_mem_hexadecimal hb) (by rw [hvalue]; exact hn), hvalue]

/-- A decimal number is read in base 10. -/
theorem strtoul_ten_decimal {n : Nat} (hn : n < 2 ^ 64) :
    strtoul 10 (decimal n) = ⟨n, (decimal n).length, false⟩ := by
  have hdigits : ∀ b ∈ decimal n, isDigit b = true := fun b hb => isDigit_of_mem_decimal hb
  have hvalue : valueIn 10 (decimal n) = n := by rw [valueIn_ten hdigits, digitsValue_decimal]
  have hnil : decimal n ≠ [] := by
    obtain ⟨b, bs, hb, -⟩ := decimal_eq_cons n
    rw [hb]
    exact List.cons_ne_nil _ _
  rw [strtoul_of_digits (by decide) (by decide) hnil (fun b hb => digitOf_lt_ten (hdigits b hb))
    (by rw [hvalue]; exact hn), hvalue]

end Bytes
