import IcnPrototype.Lib.Bytes

set_option autoImplicit false

/-! # Numbers in text files

A program prints a number with `fprintf(fp, "%lld\n", v)`, and another one reads it back with
`fgets` and `strtoll`. `strtoll_fgets_lld` says that it gets the same number.
-/

namespace Bytes

/-! ## Printing -/

/-- The decimal digits of a number, most significant first. -/
def decimal (n : Nat) : List UInt8 :=
  if n < 10 then [UInt8.ofNat (48 + n)] else decimal (n / 10) ++ [UInt8.ofNat (48 + n % 10)]

/-- What `%lld` prints. -/
def lld (v : Int64) : List UInt8 :=
  if v.toInt < 0 then 45 :: decimal v.toInt.natAbs else decimal v.toInt.natAbs

/-! ## Reading -/

/-- `isspace` -/
def isSpace (b : UInt8) : Bool := b == 32 || (9 ≤ b && b ≤ 13)

/-- `isdigit` -/
def isDigit (b : UInt8) : Bool := 48 ≤ b && b ≤ 57

/-- The value of decimal digits. -/
def digitsValue (bs : List UInt8) : Nat := bs.foldl (fun a b => 10 * a + (b.toNat - 48)) 0

/-- A number, with its sign, at the beginning of a string. -/
def signedValue (s : List UInt8) : Int :=
  if s.head? = some 45 then -(digitsValue (s.tail.takeWhile isDigit))
  else if s.head? = some 43 then digitsValue (s.tail.takeWhile isDigit)
  else digitsValue (s.takeWhile isDigit)

/-- `strtoll(s, NULL, 10)`, which stops at `LLONG_MIN` and `LLONG_MAX`. -/
def strtoll (s : List UInt8) : Int64 :=
  Int64.ofInt (max (-2 ^ 63) (min (2 ^ 63 - 1) (signedValue ((cstr s).dropWhile isSpace))))

/-- `fgets(s, n, fp)` at the beginning of a file: its first line with the end of the line, or
`n - 1` bytes of it. -/
def fgets (n : Nat) (file : List UInt8) : List UInt8 :=
  (file.takeWhile (· ≠ 10) ++ (file.dropWhile (· ≠ 10)).take 1).take (n - 1)

/-! ## The round trip -/

theorem digitsValue_concat (bs : List UInt8) (b : UInt8) :
    digitsValue (bs ++ [b]) = 10 * digitsValue bs + (b.toNat - 48) := by
  rw [digitsValue, List.foldl_append]
  rfl

theorem toNat_digit {d : Nat} (h : d < 10) : (UInt8.ofNat (48 + d)).toNat = 48 + d := by
  rw [UInt8.toNat_ofNat']
  omega

theorem digitsValue_decimal (n : Nat) : digitsValue (decimal n) = n := by
  induction n using decimal.induct with
  | case1 n h =>
      rw [decimal, if_pos h, digitsValue, List.foldl_cons, List.foldl_nil, toNat_digit h]
      omega
  | case2 n h ih =>
      have hmod : n % 10 < 10 := Nat.mod_lt _ (by decide)
      rw [decimal, if_neg h, digitsValue_concat, ih, toNat_digit hmod]
      omega

theorem isDigit_digit {d : Nat} (h : d < 10) : isDigit (UInt8.ofNat (48 + d)) = true := by
  have hnat := toNat_digit h
  rw [isDigit, Bool.and_eq_true, decide_eq_true_eq, decide_eq_true_eq, UInt8.le_iff_toNat_le,
    UInt8.le_iff_toNat_le, hnat]
  constructor
  · show 48 ≤ 48 + d
    omega
  · show 48 + d ≤ 57
    omega

theorem isDigit_of_mem_decimal {n : Nat} {b : UInt8} (h : b ∈ decimal n) : isDigit b = true := by
  induction n using decimal.induct with
  | case1 n hn =>
      rw [decimal, if_pos hn, List.mem_singleton] at h
      rw [h, isDigit_digit hn]
  | case2 n hn ih =>
      rw [decimal, if_neg hn, List.mem_append, List.mem_singleton] at h
      rcases h with h | rfl
      · exact ih h
      · exact isDigit_digit (Nat.mod_lt _ (by decide))

theorem not_isSpace_of_isDigit {b : UInt8} (h : isDigit b = true) : isSpace b = false := by
  simp only [isDigit, Bool.and_eq_true, decide_eq_true_eq, UInt8.le_iff_toNat_le] at h
  have hlow : 48 ≤ b.toNat := h.1
  rw [isSpace, Bool.or_eq_false_iff, Bool.and_eq_false_iff]
  refine ⟨beq_false_of_ne fun h32 => ?_, Or.inr (decide_eq_false fun h13 => ?_)⟩
  · subst h32
    exact absurd hlow (by decide)
  · rw [UInt8.le_iff_toNat_le] at h13
    have hhigh : b.toNat ≤ 13 := h13
    omega

/-- A number below `10 ^ (k + 1)` has at most `k + 1` digits. -/
theorem decimal_length_le {n k : Nat} (h : n < 10 ^ (k + 1)) : (decimal n).length ≤ k + 1 := by
  induction k generalizing n with
  | zero =>
      rw [decimal, if_pos (by simpa using h)]
      rfl
  | succ k ih =>
      rw [decimal]
      split
      · rw [List.length_singleton]
        omega
      · have hdiv : n / 10 < 10 ^ (k + 1) := by
          rw [Nat.div_lt_iff_lt_mul (by decide), ← Nat.pow_succ]
          exact h
        have hlen := ih hdiv
        rw [List.length_append, List.length_singleton]
        omega

theorem decimal_eq_cons (n : Nat) : ∃ b bs, decimal n = b :: bs ∧ isDigit b = true := by
  cases h : decimal n with
  | nil =>
      rw [decimal] at h
      split at h
      · cases h
      · exact absurd h (List.append_ne_nil_of_right_ne_nil _ (List.cons_ne_nil _ _))
  | cons b bs =>
      refine ⟨b, bs, rfl, isDigit_of_mem_decimal (n := n) ?_⟩
      rw [h]
      exact List.mem_cons_self

theorem lld_eq_cons (v : Int64) : ∃ b bs, lld v = b :: bs ∧ isSpace b = false := by
  rw [lld]
  split
  · exact ⟨45, _, rfl, rfl⟩
  · obtain ⟨b, bs, hb, hdigit⟩ := decimal_eq_cons v.toInt.natAbs
    exact ⟨b, bs, hb, not_isSpace_of_isDigit hdigit⟩

theorem mem_lld {v : Int64} {b : UInt8} (h : b ∈ lld v) : b = 45 ∨ isDigit b = true := by
  rw [lld] at h
  split at h
  · rcases List.mem_cons.mp h with rfl | h
    · exact Or.inl rfl
    · exact Or.inr (isDigit_of_mem_decimal h)
  · exact Or.inr (isDigit_of_mem_decimal h)

theorem lld_length_le (v : Int64) : (lld v).length ≤ 20 := by
  have hlow := Int64.le_toInt v
  have hhigh := Int64.toInt_lt v
  have hlen : (decimal v.toInt.natAbs).length ≤ 19 := decimal_length_le (by omega)
  rw [lld]
  split
  · rw [List.length_cons]
    omega
  · omega

theorem takeWhile_isDigit_decimal (n : Nat) :
    (decimal n ++ [10]).takeWhile isDigit = decimal n := by
  rw [List.takeWhile_append_of_pos fun b hb => isDigit_of_mem_decimal hb]
  exact List.append_nil _

theorem signedValue_lld (v : Int64) : signedValue (lld v ++ [10]) = v.toInt := by
  rw [lld]
  split
  · next hneg =>
      rw [List.cons_append, signedValue, if_pos List.head?_cons, List.tail_cons,
        takeWhile_isDigit_decimal, digitsValue_decimal]
      omega
  · next hpos =>
      obtain ⟨b, bs, hb, hdigit⟩ := decimal_eq_cons v.toInt.natAbs
      have hhead : ∀ x, isDigit x = false → (decimal v.toInt.natAbs ++ [10]).head? ≠ some x := by
        intro x hx h
        rw [hb, List.cons_append, List.head?_cons, Option.some.injEq] at h
        rw [h, hx] at hdigit
        cases hdigit
      rw [signedValue, if_neg (hhead 45 rfl), if_neg (hhead 43 rfl), takeWhile_isDigit_decimal,
        digitsValue_decimal]
      omega

/-- **A printed number is read back.** -/
theorem strtoll_fgets_lld (v : Int64) {n : Nat} (hn : 22 ≤ n) :
    strtoll (fgets n (lld v ++ [10])) = v := by
  have hlow := Int64.le_toInt v
  have hhigh := Int64.toInt_lt v
  -- the line is read to its end: the number has no newline of its own, and fits
  have hnewline : ∀ b ∈ lld v, (decide (b ≠ 10)) = true := by
    intro b hb
    apply decide_eq_true
    intro h10
    subst h10
    exact absurd (mem_lld hb) (by decide)
  have hline : fgets n (lld v ++ [10]) = lld v ++ [10] := by
    have hlen := lld_length_le v
    rw [fgets, List.takeWhile_append_of_pos hnewline, List.dropWhile_append_of_pos hnewline]
    show (lld v ++ [] ++ [10]).take (n - 1) = _
    rw [List.append_nil, List.take_of_length_le]
    rw [List.length_append, List.length_singleton]
    omega
  have hcstr : cstr (lld v ++ [10]) = lld v ++ [10] := by
    apply cstr_eq_self
    intro h0
    rcases List.mem_append.mp h0 with h0 | h0
    · exact absurd (mem_lld h0) (by decide)
    · exact absurd h0 (by decide)
  have hdrop : (lld v ++ [10]).dropWhile isSpace = lld v ++ [10] := by
    obtain ⟨b, bs, hb, hspace⟩ := lld_eq_cons v
    rw [hb]
    exact List.dropWhile_cons_of_neg (by rw [hspace]; decide)
  -- the value is in the range of `long long`, so nothing is clamped
  have hmin : min (2 ^ 63 - 1) v.toInt = v.toInt := min_eq_right (by omega)
  rw [hline, strtoll, hcstr, hdrop, signedValue_lld, hmin, max_eq_right (by omega),
    Int64.ofInt_toInt]

end Bytes
