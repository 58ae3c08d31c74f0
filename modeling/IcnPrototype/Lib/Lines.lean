import IcnPrototype.Lib.Decimal

set_option autoImplicit false

/-! # Text files line by line

A program reads a line with `fgets`, works on it, reads one character ahead to see whether the file
has ended, and seeks back if it has not. `eachLine_eq` says that it works on the pieces `fgetsAll`
of the file, one after another.

Within a line such a program looks for one separator after another, with a loop that does not stop
for anything else. `scanTo_eq_some_iff` says when it stops and what it went over.
-/

namespace Bytes

/-! ## The pieces of a file -/

/-- What repeated calls of `fgets` read. -/
def fgetsLines (n : Nat) : Nat → List UInt8 → List (List UInt8)
  | 0, _ => []
  | fuel + 1, file =>
      if file = [] then []
      else fgets n file :: fgetsLines n fuel (file.drop (fgets n file).length)

/-- What `fgets` reads until the end of the file. -/
def fgetsAll (n : Nat) (file : List UInt8) : List (List UInt8) := fgetsLines n file.length file

/-- `while(1)` around `fgets(str, n, fp)` and some work on the line, until `fgetc(fp)` meets the
end of the file; where it does not, the character is put back. At the end of the file `fgets` leaves
in `str` what was there before, and what the work then reads is undefined. -/
def eachLine {σ : Type} (n : Nat) (work : σ → List UInt8 → Option σ) :
    Nat → List UInt8 → σ → Option σ
  | 0, _, _ => none
  | fuel + 1, file, s =>
      let str := fgets n file
      if str = [] then none
      else do
        let s ← work s str
        let rest := file.drop str.length
        if rest = [] then some s else eachLine n work fuel rest s

theorem fgets_ne_nil {n : Nat} (hn : 2 ≤ n) {file : List UInt8} (hfile : file ≠ []) :
    fgets n file ≠ [] := by
  obtain ⟨m, rfl⟩ : ∃ m, n = m + 2 := ⟨n - 2, by omega⟩
  cases file with
  | nil => exact absurd rfl hfile
  | cons b bs =>
      by_cases hb : b = 10
      · simp [fgets, hb]
      · simp [fgets, hb]

theorem length_drop_lt {n : Nat} (hn : 2 ≤ n) {file : List UInt8} (hfile : file ≠ []) :
    (file.drop (fgets n file).length).length < file.length := by
  have hline := List.length_pos_of_ne_nil (fgets_ne_nil hn hfile)
  have hpos := List.length_pos_of_ne_nil hfile
  rw [List.length_drop]
  omega

/-- Enough fuel is enough. -/
theorem fgetsLines_eq {n : Nat} (hn : 2 ≤ n) {fuel : Nat} {file : List UInt8}
    (hfuel : file.length ≤ fuel) : fgetsLines n fuel file = fgetsAll n file := by
  induction hlen : file.length using Nat.strong_induction_on generalizing fuel file with
  | _ k ih =>
      by_cases hfile : file = []
      · subst hfile
        cases fuel <;> rfl
      · have hpos := List.length_pos_of_ne_nil hfile
        have hlt := length_drop_lt hn hfile
        obtain ⟨fuel, rfl⟩ : ∃ m, fuel = m + 1 := ⟨fuel - 1, by omega⟩
        obtain ⟨l, hl⟩ : ∃ m, file.length = m + 1 := ⟨file.length - 1, by omega⟩
        rw [fgetsAll, hl, fgetsLines, fgetsLines, if_neg hfile, if_neg hfile,
          ih _ (by omega) (by omega) rfl, ih _ (by omega) (by omega) rfl]

theorem fgetsAll_nil (n : Nat) : fgetsAll n [] = [] := rfl

theorem fgetsAll_of_ne_nil {n : Nat} (hn : 2 ≤ n) {file : List UInt8} (hfile : file ≠ []) :
    fgetsAll n file = fgets n file :: fgetsAll n (file.drop (fgets n file).length) := by
  have hlt := length_drop_lt hn hfile
  obtain ⟨l, hl⟩ : ∃ m, file.length = m + 1 :=
    ⟨file.length - 1, by have := List.length_pos_of_ne_nil hfile; omega⟩
  rw [fgetsAll, hl, fgetsLines, if_neg hfile, fgetsLines_eq hn (by omega)]

/-- **The loop over a file is the work on its pieces.** -/
theorem eachLine_eq {σ : Type} {n : Nat} (hn : 2 ≤ n) (work : σ → List UInt8 → Option σ)
    {fuel : Nat} {file : List UInt8} (hfile : file ≠ []) (hfuel : file.length ≤ fuel) (s : σ) :
    eachLine n work fuel file s = (fgetsAll n file).foldlM work s := by
  -- induction on the fuel: a turn of the loop takes something off the file
  induction fuel generalizing file s with
  | zero => exact absurd (List.length_eq_zero_iff.mp (Nat.le_zero.mp hfuel)) hfile
  | succ fuel ih =>
      have hlt := length_drop_lt hn hfile
      rw [eachLine, if_neg (fgets_ne_nil hn hfile), fgetsAll_of_ne_nil hn hfile, List.foldlM_cons]
      congr 1
      funext s'
      show (if file.drop (fgets n file).length = [] then some s'
        else eachLine n work fuel (file.drop (fgets n file).length) s') = _
      split
      · rename_i hrest
        rw [hrest, fgetsAll_nil]
        rfl
      · rename_i hrest
        exact ih hrest (by omega) s'

theorem eachLine_nil {σ : Type} (n : Nat) (work : σ → List UInt8 → Option σ) (fuel : Nat) (s : σ) :
    eachLine n work fuel [] s = none := by
  cases fuel with
  | zero => rfl
  | succ fuel => rw [eachLine, if_pos (by rw [fgets]; simp)]

/-- Work on one piece after another, where whether a turn is defined depends on the piece and on how
many there were before it, and not on what else they left behind. -/
theorem isSome_foldlM_iff {σ β : Type} {work : σ → β → Option σ} {Inv : Nat → σ → Prop}
    {Ok : Nat → β → Prop} (hok : ∀ k s b, Inv k s → ((work s b).isSome = true ↔ Ok k b))
    (hinv : ∀ k s b s', Inv k s → work s b = some s' → Inv (k + 1) s') {l : List β} {k : Nat}
    {s : σ} (hs : Inv k s) :
    (l.foldlM work s).isSome = true ↔ ∀ i b, l[i]? = some b → Ok (k + i) b := by
  induction l generalizing k s with
  | nil => simp
  | cons b l ih =>
      have hcons : (∀ i c, (b :: l)[i]? = some c → Ok (k + i) c) ↔
          Ok k b ∧ ∀ i c, l[i]? = some c → Ok (k + 1 + i) c := by
        constructor
        · intro h
          refine ⟨h 0 b rfl, fun i c hi => ?_⟩
          rw [Nat.add_assoc, Nat.add_comm 1 i]
          exact h (i + 1) c hi
        · rintro ⟨hb, hl⟩ i c hi
          cases i with
          | zero => rwa [← Option.some.inj hi]
          | succ i =>
              rw [← Nat.add_assoc, Nat.add_right_comm]
              exact hl i c hi
      rw [hcons, List.foldlM_cons, ← hok k s b hs]
      cases hwork : work s b with
      | none => simp
      | some s' =>
          rw [← ih (hinv k s b s' hs hwork)]
          simp

/-- **When the loop over a file is defined.** -/
theorem isSome_eachLine_iff {σ : Type} {n : Nat} (hn : 2 ≤ n) {work : σ → List UInt8 → Option σ}
    {Inv : Nat → σ → Prop} {Ok : Nat → List UInt8 → Prop}
    (hok : ∀ k s b, Inv k s → ((work s b).isSome = true ↔ Ok k b))
    (hinv : ∀ k s b s', Inv k s → work s b = some s' → Inv (k + 1) s') (file : List UInt8) {s : σ}
    (hs : Inv 0 s) : (eachLine n work (file.length + 1) file s).isSome = true ↔
      file ≠ [] ∧ ∀ i line, (fgetsAll n file)[i]? = some line → Ok i line := by
  by_cases hfile : file = []
  · subst hfile
    rw [eachLine_nil]
    simp
  · rw [eachLine_eq hn work hfile (Nat.le_succ _), isSome_foldlM_iff hok hinv hs]
    simp only [Nat.zero_add, ne_eq, hfile, not_false_eq_true, true_and]

/-! ## Files that are written line by line -/

/-- A line that has no newline of its own and fits is read whole. -/
theorem fgets_line {n : Nat} {line : List UInt8} (hline : 10 ∉ line) (hlen : line.length + 1 < n)
    (rest : List UInt8) : fgets n (line ++ 10 :: rest) = line ++ [10] := by
  have hall : ∀ b ∈ line, (decide (b ≠ 10)) = true := by
    intro b hb
    exact decide_eq_true fun h10 => hline (h10 ▸ hb)
  rw [fgets, List.takeWhile_append_of_pos hall, List.dropWhile_append_of_pos hall]
  simp only [List.takeWhile_cons, List.dropWhile_cons, ne_eq, not_true_eq_false, decide_false,
    Bool.false_eq_true, if_false, List.append_nil, List.take_succ_cons, List.take_zero]
  apply List.take_of_length_le
  rw [List.length_append, List.length_singleton]
  omega

/-- So is the last line without a newline. -/
theorem fgets_last {n : Nat} {line : List UInt8} (hline : 10 ∉ line) (hlen : line.length < n) :
    fgets n line = line := by
  have hall : ∀ b ∈ line, (decide (b ≠ 10)) = true := by
    intro b hb
    exact decide_eq_true fun h10 => hline (h10 ▸ hb)
  rw [fgets, List.takeWhile_eq_self_iff.mpr hall, List.dropWhile_eq_nil_iff.mpr hall,
    List.take_nil, List.append_nil]
  apply List.take_of_length_le
  omega

theorem fgetsAll_line {n : Nat} {line : List UInt8} (hline : 10 ∉ line)
    (hlen : line.length + 1 < n) (rest : List UInt8) :
    fgetsAll n (line ++ 10 :: rest) = (line ++ [10]) :: fgetsAll n rest := by
  have hne : line ++ 10 :: rest ≠ [] := by simp
  rw [fgetsAll_of_ne_nil (by omega) hne, fgets_line hline hlen]
  have hsplit : line ++ 10 :: rest = (line ++ [10]) ++ rest := by simp
  rw [hsplit, List.drop_left]

theorem fgetsAll_last {n : Nat} (hn : 2 ≤ n) {line : List UInt8} (hline : 10 ∉ line)
    (hlen : line.length < n) (hne : line ≠ []) : fgetsAll n line = [line] := by
  rw [fgetsAll_of_ne_nil hn hne, fgets_last hline hlen, List.drop_length, fgetsAll_nil]

/-- The lines of a file that ends with a newline. -/
theorem fgetsAll_flatMap {n : Nat} {lines : List (List UInt8)} (hline : ∀ l ∈ lines, 10 ∉ l)
    (hlen : ∀ l ∈ lines, l.length + 1 < n) :
    fgetsAll n (lines.flatMap (· ++ [10])) = lines.map (· ++ [10]) := by
  induction lines with
  | nil => rfl
  | cons l lines ih =>
      obtain ⟨hl, hline⟩ := List.forall_mem_cons.mp hline
      obtain ⟨hl', hlen⟩ := List.forall_mem_cons.mp hlen
      rw [List.flatMap_cons, List.append_assoc, List.singleton_append, fgetsAll_line hl hl',
        ih hline hlen, List.map_cons]

/-- The lines of a file without a newline at its end. -/
theorem fgetsAll_flatMap_last {n : Nat} {lines : List (List UInt8)} {last : List UInt8}
    (hline : ∀ l ∈ lines, 10 ∉ l) (hlen : ∀ l ∈ lines, l.length + 1 < n) (hlast : 10 ∉ last)
    (hlast' : last.length + 1 < n) (hne : last ≠ []) :
    fgetsAll n (lines.flatMap (· ++ [10]) ++ last) = lines.map (· ++ [10]) ++ [last] := by
  induction lines with
  | nil =>
      rw [List.flatMap_nil, List.nil_append]
      exact fgetsAll_last (by omega) hlast (by omega) hne
  | cons l lines ih =>
      obtain ⟨hl, hline⟩ := List.forall_mem_cons.mp hline
      obtain ⟨hl', hlen⟩ := List.forall_mem_cons.mp hlen
      rw [List.flatMap_cons, List.append_assoc, List.append_assoc, List.singleton_append,
        fgetsAll_line hl hl', ih hline hlen, List.map_cons, List.cons_append]

/-! ## Loops that wait for a separator -/

/-- `while(str[i] != sep)`, with some work on each byte, and `i++`: what the work came to, and the
bytes behind the separator. The bytes are those up to the NUL at the end of the string; what is
read behind them is undefined. -/
def scanTo {σ : Type} (work : σ → UInt8 → σ) (sep : UInt8) :
    σ → List UInt8 → Option (σ × List UInt8)
  | _, [] => none
  | s, b :: bs => if b = sep then some (s, bs) else scanTo work sep (work s b) bs

/-- The string begins with the separator: the field in front of it is empty. -/
theorem field_sep_iff {sep : UInt8} {field bs rest : List UInt8} :
    (sep ∉ field ∧ sep :: bs = field ++ sep :: rest) ↔ field = [] ∧ bs = rest := by
  constructor
  · rintro ⟨hsep, hstr⟩
    cases field with
    | nil => exact ⟨rfl, (List.cons.inj hstr).2⟩
    | cons c field =>
        obtain ⟨rfl, -⟩ := List.cons.inj hstr
        exact absurd List.mem_cons_self hsep
  · rintro ⟨rfl, rfl⟩
    exact ⟨List.not_mem_nil, rfl⟩

/-- The string begins with another byte: it is the first one of the field. -/
theorem field_cons_iff {sep b : UInt8} (hb : b ≠ sep) {field bs rest : List UInt8} :
    (sep ∉ field ∧ b :: bs = field ++ sep :: rest) ↔
      ∃ f, field = b :: f ∧ sep ∉ f ∧ bs = f ++ sep :: rest := by
  constructor
  · rintro ⟨hsep, hstr⟩
    cases field with
    | nil => exact absurd (List.cons.inj hstr).1 hb
    | cons c f =>
        obtain ⟨rfl, hbs⟩ := List.cons.inj hstr
        exact ⟨f, rfl, fun hmem => hsep (List.mem_cons_of_mem _ hmem), hbs⟩
  · rintro ⟨f, rfl, hsep, rfl⟩
    exact ⟨List.not_mem_cons_of_ne_of_not_mem (Ne.symm hb) hsep, rfl⟩

/-- **The loop stops exactly if there is a separator, and at the first one.** -/
theorem scanTo_eq_some_iff {σ : Type} {work : σ → UInt8 → σ} {sep : UInt8} {s t : σ}
    {str rest : List UInt8} : scanTo work sep s str = some (t, rest) ↔
      ∃ field, sep ∉ field ∧ str = field ++ sep :: rest ∧ field.foldl work s = t := by
  induction str generalizing s with
  | nil => simp [scanTo]
  | cons b bs ih =>
      rw [scanTo]
      by_cases hb : b = sep
      · subst hb
        rw [if_pos rfl]
        constructor
        · intro h
          obtain ⟨rfl, rfl⟩ := Prod.mk.inj (Option.some.inj h)
          exact ⟨[], List.not_mem_nil, rfl, rfl⟩
        · rintro ⟨field, hsep, hstr, rfl⟩
          obtain ⟨rfl, rfl⟩ := field_sep_iff.mp ⟨hsep, hstr⟩
          rfl
      · rw [if_neg hb, ih]
        constructor
        · rintro ⟨f, hsep, hstr, rfl⟩
          obtain ⟨hsep, hstr⟩ := (field_cons_iff hb).mpr ⟨f, rfl, hsep, hstr⟩
          exact ⟨b :: f, hsep, hstr, rfl⟩
        · rintro ⟨field, hsep, hstr, rfl⟩
          obtain ⟨f, rfl, hsep, hstr⟩ := (field_cons_iff hb).mp ⟨hsep, hstr⟩
          exact ⟨f, hsep, hstr, rfl⟩

theorem scanTo_field {σ : Type} {work : σ → UInt8 → σ} {sep : UInt8} {field : List UInt8}
    (hsep : sep ∉ field) (s : σ) (rest : List UInt8) :
    scanTo work sep s (field ++ sep :: rest) = some (field.foldl work s, rest) :=
  scanTo_eq_some_iff.mpr ⟨field, hsep, rfl, rfl⟩

/-- What stands in front of the NUL, if the separator is not that NUL. -/
theorem append_zero_eq_iff {sep : UInt8} (hsep : sep ≠ 0) {line field rest : List UInt8} :
    line ++ [0] = field ++ sep :: rest ↔
      ∃ tail, line = field ++ sep :: tail ∧ rest = tail ++ [0] := by
  constructor
  · intro h
    rcases List.eq_nil_or_concat rest with rfl | ⟨tail, b, rfl⟩
    · have hlast := (List.append_inj' h rfl).2
      exact absurd (List.cons.inj hlast).1.symm hsep
    · rw [List.concat_eq_append] at h ⊢
      rw [← List.cons_append, ← List.append_assoc] at h
      obtain ⟨hline, hb⟩ := List.append_inj' h rfl
      exact ⟨tail, hline, by rw [(List.cons.inj hb).1]⟩
  · rintro ⟨tail, rfl, rfl⟩
    rw [List.append_assoc, List.cons_append]

/-- A loop over a string and its NUL. -/
theorem scanTo_terminated_iff {σ : Type} {work : σ → UInt8 → σ} {sep : UInt8} (hsep : sep ≠ 0)
    {s t : σ} {line rest : List UInt8} : scanTo work sep s (line ++ [0]) = some (t, rest) ↔
      ∃ field tail, sep ∉ field ∧ line = field ++ sep :: tail ∧ rest = tail ++ [0] ∧
        field.foldl work s = t := by
  rw [scanTo_eq_some_iff]
  constructor
  · rintro ⟨field, hmem, hline, ht⟩
    obtain ⟨tail, hline, hrest⟩ := (append_zero_eq_iff hsep).mp hline
    exact ⟨field, tail, hmem, hline, hrest, ht⟩
  · rintro ⟨field, tail, hmem, hline, hrest, ht⟩
    exact ⟨field, hmem, (append_zero_eq_iff hsep).mpr ⟨tail, hline, hrest⟩, ht⟩

end Bytes
