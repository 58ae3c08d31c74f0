import IcnPrototype.Lib.Bytes

set_option autoImplicit false

/-! # `getopt_long`

`getopt_long` takes the next option from the words of a command line. A short option is a letter,
and several of them may share a word; a long one is a word of its own behind `--`, which may be cut
short as long as it is clear which one is meant. The argument of an option is the rest of its word
(for a long one behind `=`) or else the next word. Words that are no options are passed over, and
`--` ends the options.

Between the calls there is only what is left of the command line (`Args`), so a program may call the
function with different options in turn; it goes on where the last call stopped. The table of long
options ends with an entry without a name. Where this entry is missing, a name is found if the table
has it, and else the function reads behind the table.

Every call that finds something takes away from what is left (`getoptLong_size`), so a loop that
calls the function until the end comes to it.
-/

namespace Getopt

/-- An entry of a table of long options, without a flag and with the value 0. -/
structure LongOption where
  name : List UInt8
  hasArg : Bool

/-- What is left of the command line: the rest of the word of the last short option, and the words
behind it. -/
@[ext] structure Args where
  nextchar : List UInt8
  argv : List (List UInt8)

/-- What a call returns, with `optarg`: -1 at the end, a letter, the index of a long option, or `?`. -/
inductive Result where
  | eof
  | short (c : UInt8) (optarg : Option (List UInt8))
  | long (index : Nat) (optarg : Option (List UInt8))
  | error
  -- the call has read behind the table
  | undefined

/-- A word that begins with `-` and goes on. -/
def isOption : List UInt8 → Bool
  | 45 :: _ :: _ => true
  | _ => false

/-- A letter, with what follows it in its word. `optstring` has the letters, and whether they have an
argument. -/
def takeShort (optstring : List (UInt8 × Bool)) (c : UInt8) (rest : List UInt8)
    (argv : List (List UInt8)) : Result × Args :=
  match optstring.lookup c, rest, argv with
  | none, _, _ => (.error, ⟨rest, argv⟩)
  | some false, _, _ => (.short c none, ⟨rest, argv⟩)
  | some true, b :: bs, _ => (.short c (some (b :: bs)), ⟨[], argv⟩)
  | some true, [], [] => (.error, ⟨[], []⟩)
  | some true, [], text :: argv => (.short c (some text), ⟨[], argv⟩)

/-- The entry that a name is the beginning of, if it is clear which one is meant. -/
def abbreviated (table : List LongOption) (name : List UInt8) : Option Nat :=
  match (List.range table.length).filter fun i => (table[i]?.any fun o => name.isPrefixOf o.name) with
  | [] => none
  | i :: rest =>
      if rest.all fun j => (table[j]?.map LongOption.hasArg) = table[i]?.map LongOption.hasArg then
        some i
      else none

/-- The argument of the long option at an index. `value` is the `=` and what follows it. -/
def takeArgument (table : List LongOption) (index : Nat) (value : List UInt8)
    (argv : List (List UInt8)) : Result × Args :=
  match (table[index]?.map LongOption.hasArg).getD false, value, argv with
  | false, [], _ => (.long index none, ⟨[], argv⟩)
  | false, _ :: _, _ => (.error, ⟨[], argv⟩)
  | true, _ :: text, _ => (.long index (some text), ⟨[], argv⟩)
  | true, [], [] => (.error, ⟨[], []⟩)
  | true, [], text :: argv => (.long index (some text), ⟨[], argv⟩)

/-- A word behind its `--`. -/
def takeLong (table : List LongOption) (terminated : Bool) (word : List UInt8)
    (argv : List (List UInt8)) : Result × Args :=
  let name := word.takeWhile (· ≠ 61)
  let value := word.dropWhile (· ≠ 61)
  match table.findIdx? (·.name = name) with
  -- the search stops at the name itself and does not come to the end of the table
  | some index => takeArgument table index value argv
  | none =>
      if terminated then
        match abbreviated table name with
        | some index => takeArgument table index value argv
        | none => (.error, ⟨[], argv⟩)
      else (.undefined, ⟨[], []⟩)

/-- `getopt_long(argc, argv, optstring, table, &index)` -/
def getoptLong (optstring : List (UInt8 × Bool)) (table : List LongOption) (terminated : Bool)
    (a : Args) : Result × Args :=
  match a.nextchar with
  | c :: rest => takeShort optstring c rest a.argv
  | [] =>
      -- words that are no options are passed over
      match a.argv.dropWhile fun word => !isOption word with
      | (45 :: 45 :: b :: bs) :: argv => takeLong table terminated (b :: bs) argv
      | [45, 45] :: argv => (.eof, ⟨[], argv⟩)
      | (_ :: c :: rest) :: argv => takeShort optstring c rest argv
      | _ => (.eof, ⟨[], []⟩)

/-! ## What a call takes -/

/-- How much is left. -/
def Args.size (a : Args) : Nat := a.nextchar.length + (a.argv.map fun word => word.length + 1).sum

@[simp] theorem size_mk (nextchar : List UInt8) (argv : List (List UInt8)) :
    Args.size ⟨nextchar, argv⟩ = nextchar.length + (argv.map fun word => word.length + 1).sum := rfl

theorem takeShort_size (optstring : List (UInt8 × Bool)) (c : UInt8) (rest : List UInt8)
    (argv : List (List UInt8)) :
    (takeShort optstring c rest argv).2.size ≤ Args.size ⟨rest, argv⟩ := by
  unfold takeShort
  split <;> simp

theorem takeArgument_size (table : List LongOption) (index : Nat) (value : List UInt8)
    (argv : List (List UInt8)) :
    (takeArgument table index value argv).2.size ≤ Args.size ⟨[], argv⟩ := by
  unfold takeArgument
  split <;> simp

theorem takeLong_size (table : List LongOption) (terminated : Bool) (word : List UInt8)
    (argv : List (List UInt8)) :
    (takeLong table terminated word argv).2.size ≤ Args.size ⟨[], argv⟩ := by
  unfold takeLong
  dsimp only
  split
  · exact takeArgument_size _ _ _ _
  · split
    · split
      · exact takeArgument_size _ _ _ _
      · exact le_rfl
    · simp

theorem size_dropWhile (p : List UInt8 → Bool) (argv : List (List UInt8)) :
    Args.size ⟨[], argv.dropWhile p⟩ ≤ Args.size ⟨[], argv⟩ := by
  rw [size_mk, size_mk]
  exact Nat.add_le_add_left (((List.dropWhile_sublist p).map _).sum_le_sum fun _ _ => Nat.zero_le _) _

/-- **A call** leaves no more than there was, and less when it finds something. -/
theorem getoptLong_size (optstring : List (UInt8 × Bool)) (table : List LongOption)
    (terminated : Bool) (a : Args) :
    (getoptLong optstring table terminated a).2.size ≤ a.size
      ∧ ((getoptLong optstring table terminated a).1 ≠ .eof →
        (getoptLong optstring table terminated a).2.size < a.size) := by
  obtain ⟨nextchar, argv⟩ := a
  unfold getoptLong
  dsimp only
  split
  · next c rest =>
      have hshort := takeShort_size optstring c rest argv
      have hlt : Args.size ⟨rest, argv⟩ < Args.size ⟨c :: rest, argv⟩ := by
        simp only [size_mk, List.length_cons]
        omega
      exact ⟨by omega, fun _ => by omega⟩
  · have hdrop := size_dropWhile (fun word => !isOption word) argv
    have hrest : ∀ word rest, argv.dropWhile (fun word => !isOption word) = word :: rest →
        Args.size ⟨[], rest⟩ + word.length < Args.size ⟨[], argv⟩ := by
      intro word rest heq
      rw [heq] at hdrop
      simp only [size_mk, List.map_cons, List.sum_cons] at hdrop ⊢
      omega
    split
    · next b bs rest heq =>
        have hlong := takeLong_size table terminated (b :: bs) rest
        have hlt := hrest _ _ heq
        exact ⟨by omega, fun _ => by omega⟩
    · next rest heq =>
        exact ⟨(Nat.lt_of_add_right_lt (hrest _ _ heq)).le, fun h => absurd rfl h⟩
    · next b c bs rest _ _ heq =>
        have hshort := takeShort_size optstring c bs rest
        have hlt := hrest _ _ heq
        have hsame : Args.size ⟨bs, rest⟩ = Args.size ⟨[], rest⟩ + bs.length := by
          simp only [size_mk, List.length_nil]
          omega
        rw [List.length_cons, List.length_cons] at hlt
        exact ⟨by omega, fun _ => by omega⟩
    · exact ⟨Nat.zero_le _, fun h => absurd rfl h⟩

end Getopt
