import IcnPrototype.Lib.Getopt

set_option autoImplicit false

/-! # The command line

`parse_args` calls `getopt_long` in a loop. Behind `--enable-jumbo` it calls it a second time, to see
whether a `--max-pkt-len` follows. This call knows no other option: it takes a short one and does
nothing with it, and for a long one it reads behind its table, which has no end.

`options` is what the loop finds on a command line, and `options_words` says what is left there of a
list of options (`found`).
-/

namespace Rm

open Getopt

/-- What the loop of `parse_args` finds, with the arguments. `--enable-jumbo` comes with the argument
of a `--max-pkt-len` behind it. -/
inductive Opt where
  | portmask (text : List UInt8)
  | promiscuous
  | config (text : List UInt8)
  | noNuma
  | ipv6
  | enableJumbo (maxPktLen : Option (List UInt8))
  | hashEntryNum (text : List UInt8)
  | unknown
  -- the second call has read behind its table
  | undefined

/-! ## The calls -/

/-- `"p:P"` -/
def optstring : List (UInt8 × Bool) := [(112, true), (80, false)]

/-- `lgopts`: `config`, `no-numa`, `ipv6`, `enable-jumbo` and `hash-entry-num`. -/
def lgopts : List LongOption :=
  [⟨[99, 111, 110, 102, 105, 103], true⟩, ⟨[110, 111, 45, 110, 117, 109, 97], false⟩,
    ⟨[105, 112, 118, 54], false⟩,
    ⟨[101, 110, 97, 98, 108, 101, 45, 106, 117, 109, 98, 111], false⟩,
    ⟨[104, 97, 115, 104, 45, 101, 110, 116, 114, 121, 45, 110, 117, 109], true⟩]

/-- `lenopts`: `max-pkt-len`. -/
def lenopts : List LongOption := [⟨[109, 97, 120, 45, 112, 107, 116, 45, 108, 101, 110], true⟩]

/-- What follows `--enable-jumbo`, by the second call of `getopt_long`. -/
def nextMaxPktLen (a : Args) : Opt × Args :=
  match getoptLong [] lenopts false a with
  | (.long _ optarg, a) => (.enableJumbo optarg, a)
  | (.undefined, a) => (.undefined, a)
  | (_, a) => (.enableJumbo none, a)

/-- What the loop makes of a result; `a` is what is left behind it. `none` is `EOF`. -/
def optOf (a : Args) : Result → Option (Opt × Args)
  | .eof => none
  | .short c optarg => some (if c = 112 then .portmask (optarg.getD []) else .promiscuous, a)
  | .long 0 optarg => some (.config (optarg.getD []), a)
  | .long 1 _ => some (.noNuma, a)
  | .long 2 _ => some (.ipv6, a)
  | .long 3 _ => some (nextMaxPktLen a)
  | .long _ optarg => some (.hashEntryNum (optarg.getD []), a)
  | .error => some (.unknown, a)
  | .undefined => some (.undefined, a)

/-- The next option of the loop. -/
def nextOpt (a : Args) : Option (Opt × Args) :=
  optOf (getoptLong optstring lgopts true a).2 (getoptLong optstring lgopts true a).1

theorem nextMaxPktLen_size (a : Args) : (nextMaxPktLen a).2.size ≤ a.size := by
  have hsize := (getoptLong_size [] lenopts false a).1
  unfold nextMaxPktLen
  split <;> next heq => rw [heq] at hsize; exact hsize

theorem optOf_ne_eof {a : Args} {r : Result} {next : Opt × Args} (h : optOf a r = some next) :
    r ≠ .eof := by
  rintro rfl
  cases h

theorem optOf_size {a a' : Args} {r : Result} {o : Opt} (h : optOf a r = some (o, a')) :
    a'.size ≤ a.size := by
  have hsame : ∀ o₁, some (o₁, a) = some (o, a') → a'.size ≤ a.size := by
    intro o₁ heq
    rw [(Prod.mk.inj (Option.some.inj heq)).2]
  unfold optOf at h
  split at h
  · cases h
  · exact hsame _ h
  · exact hsame _ h
  · exact hsame _ h
  · exact hsame _ h
  · -- `--enable-jumbo`: the second call leaves no more, either
    have hnext : (nextMaxPktLen a).2 = a' := congrArg Prod.snd (Option.some.inj h)
    exact hnext ▸ nextMaxPktLen_size a
  · exact hsame _ h
  · exact hsame _ h
  · exact hsame _ h

theorem nextOpt_size {a a' : Args} {o : Opt} (h : nextOpt a = some (o, a')) : a'.size < a.size :=
  calc a'.size ≤ (getoptLong optstring lgopts true a).2.size := optOf_size h
    _ < a.size := (getoptLong_size optstring lgopts true a).2 (optOf_ne_eof h)

/-- The options that the loop finds on a command line. -/
def options (a : Args) : List Opt :=
  match _h : nextOpt a with
  | none => []
  | some (o, a') => o :: options a'
termination_by a.size
decreasing_by exact nextOpt_size _h

theorem options_of_none {a : Args} (h : nextOpt a = none) : options a = [] := by
  rw [options]
  split
  · rfl
  · next heq => rw [h] at heq; cases heq

theorem options_of_some {a a' : Args} {o : Opt} (h : nextOpt a = some (o, a')) :
    options a = o :: options a' := by
  rw [options]
  split
  · next heq => rw [h] at heq; cases heq
  · next heq =>
      rw [h, Option.some.injEq, Prod.mk.injEq] at heq
      rw [heq.1, heq.2]

/-! ## Options as they are written -/

/-- How an option is written. -/
def Opt.words : Opt → List (List UInt8)
  | .portmask text => [[45, 112], text]
  | .promiscuous => [[45, 80]]
  | .config text => [45 :: 45 :: [99, 111, 110, 102, 105, 103], text]
  | .noNuma => [45 :: 45 :: [110, 111, 45, 110, 117, 109, 97]]
  | .ipv6 => [45 :: 45 :: [105, 112, 118, 54]]
  | .enableJumbo none => [45 :: 45 :: [101, 110, 97, 98, 108, 101, 45, 106, 117, 109, 98, 111]]
  | .enableJumbo (some text) =>
      [45 :: 45 :: [101, 110, 97, 98, 108, 101, 45, 106, 117, 109, 98, 111],
        45 :: 45 :: [109, 97, 120, 45, 112, 107, 116, 45, 108, 101, 110], text]
  | .hashEntryNum text =>
      [45 :: 45 :: [104, 97, 115, 104, 45, 101, 110, 116, 114, 121, 45, 110, 117, 109], text]
  | .unknown => []
  | .undefined => []

/-- An option that is written as itself. The mask is not written like an option. -/
def Opt.Written : Opt → Prop
  | .portmask text => isOption text = false
  | .unknown => False
  | .undefined => False
  | _ => True

/-- What the loop finds of options: `--enable-jumbo` without a length takes a short option away. -/
def found : List Opt → List Opt
  | [] => []
  | [o] => [o]
  -- the mask is left, as a word that is no option
  | .enableJumbo none :: .portmask _ :: os => .enableJumbo none :: found os
  | .enableJumbo none :: .promiscuous :: os => .enableJumbo none :: found os
  | .enableJumbo none :: _ :: _ => [.undefined]
  | o :: o' :: os => o :: found (o' :: os)

theorem nextOpt_words {o : Opt} (h : o.Written) (hlen : o ≠ .enableJumbo none)
    (argv : List (List UInt8)) : nextOpt ⟨[], o.words ++ argv⟩ = some (o, ⟨[], argv⟩) := by
  cases o with
  | portmask text => rfl
  | promiscuous => rfl
  | config text => rfl
  | noNuma => rfl
  | ipv6 => rfl
  | enableJumbo maxPktLen =>
      cases maxPktLen with
      | none => exact absurd rfl hlen
      | some text => rfl
  | hashEntryNum text => rfl
  | unknown => exact h.elim
  | undefined => exact h.elim

theorem nextOpt_enableJumbo (argv : List (List UInt8)) :
    nextOpt ⟨[], (Opt.enableJumbo none).words ++ argv⟩ = some (nextMaxPktLen ⟨[], argv⟩) := rfl

/-- The second call reads behind its table for a long option. -/
theorem nextMaxPktLen_long {o : Opt} (h : o.Written) (hmask : ∀ text, o ≠ .portmask text)
    (hpromiscuous : o ≠ .promiscuous) (argv : List (List UInt8)) :
    nextMaxPktLen ⟨[], o.words ++ argv⟩ = (.undefined, ⟨[], []⟩) := by
  cases o with
  | portmask text => exact absurd rfl (hmask text)
  | promiscuous => exact absurd rfl hpromiscuous
  | config text => rfl
  | noNuma => rfl
  | ipv6 => rfl
  | enableJumbo maxPktLen =>
      cases maxPktLen with
      | none => rfl
      | some text => rfl
  | hashEntryNum text => rfl
  | unknown => exact h.elim
  | undefined => exact h.elim

/-- A word that is no option is passed over. -/
theorem options_of_not_option {word : List UInt8} (h : isOption word = false)
    (argv : List (List UInt8)) : options ⟨[], word :: argv⟩ = options ⟨[], argv⟩ := by
  have hdrop : (word :: argv).dropWhile (fun word => !isOption word)
      = argv.dropWhile fun word => !isOption word := by
    rw [List.dropWhile_cons, h]
    rfl
  have hnext : nextOpt ⟨[], word :: argv⟩ = nextOpt ⟨[], argv⟩ := by
    unfold nextOpt getoptLong
    dsimp only
    rw [hdrop]
  cases heq : nextOpt ⟨[], argv⟩ with
  | none => rw [options_of_none (hnext.trans heq), options_of_none heq]
  | some p => rw [options_of_some (hnext.trans heq), options_of_some heq]

theorem options_nil : options ⟨[], []⟩ = [] := options_of_none rfl

/-- **What is found on a command line.** -/
theorem options_words {opts : List Opt} (h : ∀ o ∈ opts, o.Written) :
    options ⟨[], opts.flatMap Opt.words⟩ = found opts := by
  induction opts using found.induct with
  | case1 => exact options_nil
  | case2 o =>
      have ho := List.forall_mem_singleton.mp h
      rw [List.flatMap_singleton, ← List.append_nil o.words, found]
      by_cases hlen : o = .enableJumbo none
      · subst hlen
        rw [options_of_some (nextOpt_enableJumbo [])]
        exact congrArg (_ :: ·) options_nil
      · rw [options_of_some (nextOpt_words ho hlen []), options_nil]
  | case3 text os ih =>
      obtain ⟨-, h⟩ := List.forall_mem_cons.mp h
      obtain ⟨htext, h⟩ := List.forall_mem_cons.mp h
      have hfirst : nextOpt ⟨[], (.enableJumbo none :: .portmask text :: os).flatMap Opt.words⟩
          = some (.enableJumbo none, ⟨[], text :: os.flatMap Opt.words⟩) := rfl
      rw [options_of_some hfirst, options_of_not_option htext, ih h, found]
  | case4 os ih =>
      obtain ⟨-, h⟩ := List.forall_mem_cons.mp h
      obtain ⟨-, h⟩ := List.forall_mem_cons.mp h
      have hfirst : nextOpt ⟨[], (.enableJumbo none :: .promiscuous :: os).flatMap Opt.words⟩
          = some (.enableJumbo none, ⟨[], os.flatMap Opt.words⟩) := rfl
      rw [options_of_some hfirst, ih h, found]
  | case5 o os hmask hpromiscuous =>
      obtain ⟨-, h⟩ := List.forall_mem_cons.mp h
      obtain ⟨ho, -⟩ := List.forall_mem_cons.mp h
      have hfirst : nextOpt ⟨[], (.enableJumbo none :: o :: os).flatMap Opt.words⟩
          = some (.undefined, ⟨[], []⟩) := by
        rw [List.flatMap_cons, nextOpt_enableJumbo, List.flatMap_cons,
          nextMaxPktLen_long ho hmask hpromiscuous]
      rw [options_of_some hfirst, options_nil, found]
      · exact hmask
      · exact hpromiscuous
  | case6 o o' os hmask hpromiscuous hjumbo ih =>
      obtain ⟨ho, h⟩ := List.forall_mem_cons.mp h
      rw [List.flatMap_cons, options_of_some (nextOpt_words ho hjumbo _), ih h, found]
      · exact hmask
      · exact hpromiscuous
      · exact hjumbo

/-- Options are found as they are written when every `--enable-jumbo` has its length. -/
theorem options_words_self {opts : List Opt} (h : ∀ o ∈ opts, o.Written ∧ o ≠ .enableJumbo none) :
    options ⟨[], opts.flatMap Opt.words⟩ = opts := by
  induction opts with
  | nil => exact options_nil
  | cons o os ih =>
      obtain ⟨⟨ho, hlen⟩, h⟩ := List.forall_mem_cons.mp h
      rw [List.flatMap_cons, options_of_some (nextOpt_words ho hlen _), ih h]

end Rm
