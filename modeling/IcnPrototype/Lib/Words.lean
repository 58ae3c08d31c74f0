import IcnPrototype.Lib.Decimal

set_option autoImplicit false

/-! # Words and the numbers in them

`strtok` returns the words of a string one after another, and `strtol` the number at the beginning
of a word. Where a program copies a line into an array without a NUL behind it, the last word goes
on with what was in the array before: `words_append` says which word that is, and `strtoll_append`
which number.
-/

namespace Bytes

/-! ## Words -/

/-- The words of a string: what stands between separators, and is not empty. -/
def words (sep : UInt8) (s : List UInt8) : List (List UInt8) :=
  (s.splitOn sep).filter fun w => decide (w ≠ [])

/-- What `strtok(s, sep)` and then `strtok(NULL, sep)` return until it is `NULL`. Without a NUL in
the array they are undefined. -/
def strtok (sep : UInt8) (array : List UInt8) : Option (List (List UInt8)) :=
  if 0 ∈ array then some (words sep (cstr array)) else none

theorem words_sep (sep : UInt8) (s : List UInt8) : words sep (sep :: s) = words sep s := by
  have hsplit : (sep :: s).splitOn sep = [] :: s.splitOn sep := by
    rw [List.splitOn_cons_eq_if_modifyHead, if_pos (beq_self_eq_true sep)]
  unfold words
  rw [hsplit, List.filter_cons_of_neg (by simp)]

theorem words_last {sep : UInt8} {w : List UInt8} (hw : w ≠ []) (hsep : sep ∉ w) :
    words sep w = [w] := by
  unfold words
  rw [List.splitOn_eq_singleton hsep, List.filter_cons_of_pos (by simp [hw]), List.filter_nil]

theorem words_cons {sep : UInt8} {w : List UInt8} (hw : w ≠ []) (hsep : sep ∉ w)
    (s : List UInt8) : words sep (w ++ sep :: s) = w :: words sep s := by
  unfold words
  rw [List.splitOn_append_cons_self, List.splitOn_eq_singleton hsep, List.singleton_append,
    List.filter_cons_of_pos (by simp [hw])]

/-- **A word goes on** up to the next separator. -/
theorem words_append {sep : UInt8} {w : List UInt8} (hw : w ≠ []) (hsep : sep ∉ w)
    (s : List UInt8) : words sep (w ++ s) =
      (w ++ s.takeWhile (· ≠ sep)) :: words sep (s.dropWhile (· ≠ sep)) := by
  have hne : w ++ s.takeWhile (· ≠ sep) ≠ [] := List.append_ne_nil_of_left_ne_nil hw _
  have hmem : sep ∉ w ++ s.takeWhile (· ≠ sep) := by
    intro h
    rcases List.mem_append.mp h with h | h
    · exact hsep h
    · have hstop := List.mem_takeWhile_imp h
      simp at hstop
  have hs : w ++ s = (w ++ s.takeWhile (· ≠ sep)) ++ s.dropWhile (· ≠ sep) := by
    rw [List.append_assoc, List.takeWhile_append_dropWhile]
  cases hrest : s.dropWhile (· ≠ sep) with
  | nil =>
      rw [hs, hrest, List.append_nil, words_last hne hmem]
      rfl
  | cons b rest =>
      -- what is left begins with a separator, and that is not part of a word
      obtain rfl : b = sep := by
        have hhead := List.head?_dropWhile_not (fun x => decide (x ≠ sep)) s
        rw [hrest, List.head?_cons] at hhead
        simpa using hhead
      rw [hs, hrest, words_cons hne hmem, words_sep]

/-! ## Numbers -/

/-- The digits of a number. -/
structure Digits where
  text : List UInt8
  ne_nil : text ≠ []
  isDigit : ∀ b ∈ text, Bytes.isDigit b = true

/-- The number. -/
def Digits.value (n : Digits) : Nat := digitsValue n.text

/-- A number of one digit. -/
def Digits.single (d : UInt8) (h : Bytes.isDigit d = true) : Digits where
  text := [d]
  ne_nil := List.cons_ne_nil d []
  isDigit := List.forall_mem_singleton.mpr h

theorem Digits.not_mem (n : Digits) {b : UInt8} (hb : Bytes.isDigit b = false) : b ∉ n.text := by
  intro hmem
  rw [n.isDigit b hmem] at hb
  cases hb

theorem Digits.text_eq_cons (n : Digits) :
    ∃ b bs, n.text = b :: bs ∧ Bytes.isDigit b = true := by
  obtain ⟨b, bs, hb⟩ := List.exists_cons_of_ne_nil n.ne_nil
  exact ⟨b, bs, hb, n.isDigit b (hb ▸ List.mem_cons_self)⟩

theorem digitsValue_append (as bs : List UInt8) :
    digitsValue (as ++ bs) = digitsValue as * 10 ^ bs.length + digitsValue bs := by
  induction bs using List.reverseRecOn with
  | nil => simp [digitsValue]
  | append_singleton bs b ih =>
      rw [← List.append_assoc, digitsValue_concat, digitsValue_concat, ih, List.length_append,
        List.length_singleton, Nat.pow_succ]
      ring

/-- `strtol` of a number that other digits may follow. It stops at the largest one there is. -/
def readDigits (value : Nat) (digits : List UInt8) : Nat :=
  min (2 ^ 63 - 1) (value * 10 ^ digits.length + digitsValue digits)

theorem readDigits_nil (value : Nat) : readDigits value [] = min (2 ^ 63 - 1) value := by
  simp [readDigits, digitsValue]

theorem takeWhile_isDigit_cstr (s : List UInt8) :
    (cstr s).takeWhile isDigit = s.takeWhile isDigit := by
  rw [cstr, List.takeWhile_takeWhile]
  congr 1
  funext b
  by_cases hb : b = 0
  · subst hb
    rfl
  · simp [hb]

/-- **The number at the beginning of a word**: its digits, and those behind it. -/
theorem strtoll_append (n : Digits) (s : List UInt8) :
    strtoll (n.text ++ s) = Int64.ofNat (readDigits n.value (s.takeWhile isDigit)) := by
  obtain ⟨b, bs, hb, hdigit⟩ := n.text_eq_cons
  have hcstr : cstr (n.text ++ s) = n.text ++ cstr s := cstr_append_of_not_mem (n.not_mem rfl) s
  have hspace : (n.text ++ cstr s).dropWhile isSpace = n.text ++ cstr s := by
    rw [hb, List.cons_append]
    exact List.dropWhile_cons_of_neg (by rw [not_isSpace_of_isDigit hdigit]; decide)
  have hhead (x : UInt8) (hx : isDigit x = false) : (n.text ++ cstr s).head? ≠ some x := by
    intro h
    rw [hb, List.cons_append, List.head?_cons, Option.some.injEq] at h
    rw [h, hx] at hdigit
    cases hdigit
  have hvalue : signedValue (n.text ++ cstr s) =
      ((n.value * 10 ^ (s.takeWhile isDigit).length + digitsValue (s.takeWhile isDigit) : Nat) :
        Int) := by
    rw [signedValue, if_neg (hhead 45 rfl), if_neg (hhead 43 rfl),
      List.takeWhile_append_of_pos n.isDigit, takeWhile_isDigit_cstr, digitsValue_append]
    rfl
  rw [strtoll, hcstr, hspace, hvalue, readDigits, ← Int64.ofInt_eq_ofNat]
  congr 1
  omega

end Bytes
