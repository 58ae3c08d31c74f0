import IcnPrototype.Lib.Run
import IcnPrototype.Rm.CommandLine
import IcnPrototype.Rm.StartUp

set_option autoImplicit false

/-! # The options

`parse_args` reads the options behind the `--`: the mask of the ports, the promiscuous mode, and the
long options. Each of them sets what it is about, and a wrong one ends the program.

`parseArgs_words_iff` says which lists of options are accepted and what they set; an `--enable-jumbo`
without a length takes a short option away.

`parseArgs_render` is the round trip. `start_malformed_mask` is about the mask of the ports:
`parse_portmask` reports a wrong mask by -1, which is the mask of all ports.
-/

namespace Rm

open Bytes Getopt

/-- What the options set. -/
@[ext]
structure Settings where
  enabledPortMask : UInt32 := 0
  promiscuousOn : Bool := true
  numaOn : Bool := true
  ipv6 : Bool := false
  lcoreParams : List LcoreParams := lcoreParamsArrayDefault
  jumboFrame : Bool := false
  -- `ETHER_MAX_LEN`
  maxRxPktLen : UInt32 := 1518
  -- the flags of a simple transmit path
  txqFlags : UInt32 := 0xf01
  -- `HASH_ENTRY_NUMBER_DEFAULT`
  hashEntryNumber : UInt32 := 4

/-- `MAX_JUMBO_PKT_LEN` -/
def maxJumboPktLen : Int := 9600

/-- `L3FWD_HASH_ENTRIES` -/
def l3fwdHashEntries : Int := 1024 * 1024 * 4

/-- A text is a number up to its end. -/
def isNumber (base : Nat) (text : List UInt8) : Bool :=
  cstr text ≠ [] && (strtoul base text).stop = (cstr text).length

/-- What `parse_max_pkt_len`, `parse_portmask` and `parse_hash_entry_number` have in common. The
`unsigned long` becomes an `int`. -/
def parseNumber (base : Nat) (text : List UInt8) : Int32 :=
  if isNumber base text then
    if (strtoul base text).value = 0 then -1 else Int32.ofNat (strtoul base text).value
  else -1

/-- `parse_max_pkt_len` -/
def parseMaxPktLen (pktlen : List UInt8) : Int32 := parseNumber 10 pktlen

/-- `parse_portmask` -/
def parsePortmask (portmask : List UInt8) : Int32 := parseNumber 16 portmask

/-- `parse_hash_entry_number` -/
def parseHashEntryNumber (hashEntryNum : List UInt8) : Int32 := parseNumber 16 hashEntryNum

section ParseArgs

-- `rte_strsplit` is a function of DPDK
variable (rteStrsplit : List UInt8 → Nat → UInt8 → List (List UInt8))

/-- The loop of `parse_args`. `none` is the way to `print_usage`, or a read behind a table. -/
def parseOpt (s : Settings) (o : Opt) : Option Settings :=
  match o with
  | .portmask text =>
      let mask := (parsePortmask text).toUInt32
      if mask = 0 then none else some { s with enabledPortMask := mask }
  | .promiscuous => some { s with promiscuousOn := true }
  | .config text => (parseConfig rteStrsplit text).map fun ps => { s with lcoreParams := ps }
  | .noNuma => some { s with numaOn := false }
  | .ipv6 => some { s with ipv6 := true }
  | .enableJumbo none => some { s with jumboFrame := true, txqFlags := 0 }
  | .enableJumbo (some text) =>
      let ret := parseMaxPktLen text
      if ret.toInt < 64 ∨ maxJumboPktLen < ret.toInt then none
      else some { s with jumboFrame := true, txqFlags := 0, maxRxPktLen := ret.toUInt32 }
  | .hashEntryNum text =>
      let ret := parseHashEntryNumber text
      if 0 < ret.toInt ∧ ret.toInt ≤ l3fwdHashEntries then
        some { s with hashEntryNumber := ret.toUInt32 }
      else none
  | .unknown => none
  | .undefined => none

/-- The loop of `parse_args`, for the options that it finds. -/
def parseOpts (s : Settings) (opts : List Opt) : Option Settings :=
  Lts.exec (parseOpt rteStrsplit) s opts

/-- `parse_args`. `argv` are the words behind the name of the program. -/
def parseArgs (s : Settings) (argv : List (List UInt8)) : Option Settings :=
  parseOpts rteStrsplit s (options ⟨[], argv⟩)

/-! ## What the options set -/

/-- An option is accepted. -/
def Opt.Valid : Opt → Prop
  | .portmask text => (parsePortmask text).toUInt32 ≠ 0
  | .promiscuous => True
  | .config text => (parseConfig rteStrsplit text).isSome = true
  | .noNuma => True
  | .ipv6 => True
  | .enableJumbo none => True
  | .enableJumbo (some text) =>
      64 ≤ (parseMaxPktLen text).toInt ∧ (parseMaxPktLen text).toInt ≤ maxJumboPktLen
  | .hashEntryNum text =>
      0 < (parseHashEntryNumber text).toInt ∧ (parseHashEntryNumber text).toInt ≤ l3fwdHashEntries
  | .unknown => False
  | .undefined => False

/-- What an option says about each setting. -/
structure Effect where
  enabledPortMask : Option UInt32 := none
  promiscuousOn : Option Bool := none
  numaOn : Option Bool := none
  ipv6 : Option Bool := none
  lcoreParams : Option (List LcoreParams) := none
  jumboFrame : Option Bool := none
  maxRxPktLen : Option UInt32 := none
  txqFlags : Option UInt32 := none
  hashEntryNumber : Option UInt32 := none

/-- The meaning of an option. -/
def Opt.effect : Opt → Effect
  | .portmask text => { enabledPortMask := some (parsePortmask text).toUInt32 }
  | .promiscuous => { promiscuousOn := some true }
  | .config text => { lcoreParams := parseConfig rteStrsplit text }
  | .noNuma => { numaOn := some false }
  | .ipv6 => { ipv6 := some true }
  | .enableJumbo maxPktLen =>
      { jumboFrame := some true
        txqFlags := some 0
        maxRxPktLen := maxPktLen.map fun text => (parseMaxPktLen text).toUInt32 }
  | .hashEntryNum text => { hashEntryNumber := some (parseHashEntryNumber text).toUInt32 }
  | .unknown => {}
  | .undefined => {}

/-- The last option that says anything about a setting. -/
def lastWritten {β : Type} (field : Effect → Option β) (opts : List Opt) : Option β :=
  (opts.filterMap fun o => field (o.effect rteStrsplit)).getLast?

/-- Each setting is what the last option says that is about it. -/
def Settings.overwrite (s : Settings) (opts : List Opt) : Settings where
  enabledPortMask := (lastWritten rteStrsplit Effect.enabledPortMask opts).getD s.enabledPortMask
  promiscuousOn := (lastWritten rteStrsplit Effect.promiscuousOn opts).getD s.promiscuousOn
  numaOn := (lastWritten rteStrsplit Effect.numaOn opts).getD s.numaOn
  ipv6 := (lastWritten rteStrsplit Effect.ipv6 opts).getD s.ipv6
  lcoreParams := (lastWritten rteStrsplit Effect.lcoreParams opts).getD s.lcoreParams
  jumboFrame := (lastWritten rteStrsplit Effect.jumboFrame opts).getD s.jumboFrame
  maxRxPktLen := (lastWritten rteStrsplit Effect.maxRxPktLen opts).getD s.maxRxPktLen
  txqFlags := (lastWritten rteStrsplit Effect.txqFlags opts).getD s.txqFlags
  hashEntryNumber := (lastWritten rteStrsplit Effect.hashEntryNumber opts).getD s.hashEntryNumber

/-- What one option sets. -/
def Settings.apply (s : Settings) (w : Effect) : Settings where
  enabledPortMask := w.enabledPortMask.getD s.enabledPortMask
  promiscuousOn := w.promiscuousOn.getD s.promiscuousOn
  numaOn := w.numaOn.getD s.numaOn
  ipv6 := w.ipv6.getD s.ipv6
  lcoreParams := w.lcoreParams.getD s.lcoreParams
  jumboFrame := w.jumboFrame.getD s.jumboFrame
  maxRxPktLen := w.maxRxPktLen.getD s.maxRxPktLen
  txqFlags := w.txqFlags.getD s.txqFlags
  hashEntryNumber := w.hashEntryNumber.getD s.hashEntryNumber

variable {rteStrsplit}

/-- What one option does. -/
theorem parseOpt_eq_some_iff {s s' : Settings} {o : Opt} :
    parseOpt rteStrsplit s o = some s'
      ↔ o.Valid rteStrsplit ∧ s' = s.apply (o.effect rteStrsplit) := by
  cases o with
  | portmask text =>
      dsimp only [parseOpt, Opt.Valid]
      split
      · next h => simp [h]
      · next h =>
          rw [Option.some.injEq, eq_comm, and_iff_right h]
          rfl
  | promiscuous =>
      dsimp only [parseOpt, Opt.Valid]
      rw [Option.some.injEq, eq_comm, true_and]
      rfl
  | config text =>
      dsimp only [parseOpt, Opt.Valid, Opt.effect]
      cases parseConfig rteStrsplit text with
      | none => simp
      | some ps =>
          rw [Option.map_some, Option.some.injEq, eq_comm, Option.isSome_some, eq_self, true_and]
          rfl
  | noNuma =>
      dsimp only [parseOpt, Opt.Valid]
      rw [Option.some.injEq, eq_comm, true_and]
      rfl
  | ipv6 =>
      dsimp only [parseOpt, Opt.Valid]
      rw [Option.some.injEq, eq_comm, true_and]
      rfl
  | enableJumbo maxPktLen =>
      cases maxPktLen with
      | none =>
          dsimp only [parseOpt, Opt.Valid]
          rw [Option.some.injEq, eq_comm, true_and]
          rfl
      | some text =>
          dsimp only [parseOpt, Opt.Valid]
          split
          · next h =>
              constructor
              · intro hnone
                cases hnone
              · rintro ⟨⟨hlow, hhigh⟩, -⟩
                omega
          · next h =>
              rw [not_or, not_lt, not_lt] at h
              rw [Option.some.injEq, eq_comm, and_iff_right h]
              rfl
  | hashEntryNum text =>
      dsimp only [parseOpt, Opt.Valid]
      split
      · next h =>
          rw [Option.some.injEq, eq_comm, and_iff_right h]
          rfl
      · next h => simp [h]
  | unknown => simp [parseOpt, Opt.Valid]
  | undefined => simp [parseOpt, Opt.Valid]

/-- A setting is what the last option says about it. -/
theorem lastWritten_of_parseOpts {β : Type} {f : Settings → β} {field : Effect → Option β}
    (happly : ∀ s w, f (s.apply w) = (field w).getD (f s)) {s s' : Settings} {opts : List Opt}
    (h : parseOpts rteStrsplit s opts = some s') :
    f s' = (lastWritten rteStrsplit field opts).getD (f s) := by
  refine Lts.exec_last ?_ h
  intro s o s' hstep
  rw [(parseOpt_eq_some_iff.mp hstep).2, happly]

theorem parseOpts_isSome_iff {s : Settings} {opts : List Opt} :
    (parseOpts rteStrsplit s opts).isSome = true ↔ ∀ o ∈ opts, o.Valid rteStrsplit := by
  refine Lts.exec_isSome_iff ?_
  intro s o
  rw [Option.isSome_iff_exists]
  constructor
  · rintro ⟨s', h⟩
    exact (parseOpt_eq_some_iff.mp h).1
  · intro h
    exact ⟨_, parseOpt_eq_some_iff.mpr ⟨h, rfl⟩⟩

/-- Options are accepted when each of them is, whatever stands around it, and then every setting is
what the last option says that is about it. -/
theorem parseOpts_eq_some_iff {s s' : Settings} {opts : List Opt} :
    parseOpts rteStrsplit s opts = some s'
      ↔ (∀ o ∈ opts, o.Valid rteStrsplit) ∧ s' = s.overwrite rteStrsplit opts := by
  have hlast : ∀ {s'}, parseOpts rteStrsplit s opts = some s' →
      s' = s.overwrite rteStrsplit opts := by
    intro s' h
    apply Settings.ext
    · exact lastWritten_of_parseOpts (fun _ _ => rfl) h
    · exact lastWritten_of_parseOpts (fun _ _ => rfl) h
    · exact lastWritten_of_parseOpts (fun _ _ => rfl) h
    · exact lastWritten_of_parseOpts (fun _ _ => rfl) h
    · exact lastWritten_of_parseOpts (fun _ _ => rfl) h
    · exact lastWritten_of_parseOpts (fun _ _ => rfl) h
    · exact lastWritten_of_parseOpts (fun _ _ => rfl) h
    · exact lastWritten_of_parseOpts (fun _ _ => rfl) h
    · exact lastWritten_of_parseOpts (fun _ _ => rfl) h
  rw [← parseOpts_isSome_iff (s := s)]
  constructor
  · intro h
    exact ⟨Option.isSome_of_eq_some h, hlast h⟩
  · rintro ⟨hsome, rfl⟩
    obtain ⟨s', h⟩ := Option.isSome_iff_exists.mp hsome
    rw [h, hlast h]

/-- **What the options set.** Of the options on a command line, `--enable-jumbo` without a length
takes away a short one behind it. The others are accepted when each of them is, whatever stands around
it, and then every setting is what the last of them says that is about it. -/
theorem parseArgs_words_iff (rteStrsplit : List UInt8 → Nat → UInt8 → List (List UInt8))
    (s s' : Settings) {opts : List Opt} (h : ∀ o ∈ opts, o.Written) :
    parseArgs rteStrsplit s (opts.flatMap Opt.words) = some s'
      ↔ (∀ o ∈ found opts, o.Valid rteStrsplit) ∧ s' = s.overwrite rteStrsplit (found opts) := by
  rw [parseArgs, options_words h, parseOpts_eq_some_iff]

/-- `--enable-jumbo`, `-p 3` and `--no-numa`: the mask is lost. -/
theorem parseArgs_words_iff_jumbo :
    parseArgs splitFields {}
        ([.enableJumbo none, .portmask [51], .noNuma].flatMap Opt.words)
      = some { numaOn := false, jumboFrame := true, txqFlags := 0 } := by
  refine (parseArgs_words_iff splitFields _ _ ?_).mpr ⟨?_, rfl⟩
  · exact List.forall_mem_cons.mpr ⟨trivial, List.forall_mem_cons.mpr
      ⟨rfl, List.forall_mem_singleton.mpr trivial⟩⟩
  · exact List.forall_mem_cons.mpr ⟨trivial, List.forall_mem_singleton.mpr trivial⟩

/-! ## The settings the program can start with -/

/-- The settings that can be asked for. -/
structure Settings.Askable (s : Settings) : Prop where
  promiscuousOn : s.promiscuousOn = true
  lcoreParams : s.lcoreParams.length ≤ maxLcoreParams
  hash_pos : 0 < s.hashEntryNumber.toNat
  hash_le : (s.hashEntryNumber.toNat : Int) ≤ l3fwdHashEntries
  le_len : 64 ≤ s.maxRxPktLen.toNat
  len_le : (s.maxRxPktLen.toNat : Int) ≤ maxJumboPktLen
  txqFlags : s.txqFlags = if s.jumboFrame then 0 else 0xf01
  plain : s.jumboFrame = false → s.maxRxPktLen = 1518

/-- Options that ask for settings. -/
def Settings.render (s : Settings) : List Opt :=
  (if s.enabledPortMask = 0 then [] else [.portmask (hexadecimal s.enabledPortMask.toNat)])
    ++ [.config (renderConfig (s.lcoreParams.map fun p => ([], p)) []),
      .hashEntryNum (hexadecimal s.hashEntryNumber.toNat)]
    ++ (if s.numaOn then [] else [.noNuma])
    ++ (if s.ipv6 then [.ipv6] else [])
    ++ (if s.jumboFrame then [.enableJumbo (some (decimal s.maxRxPktLen.toNat))] else [])

/-- A number that is not negative is the same without a sign. -/
theorem toNat_toUInt32 {x : Int32} (h : 0 ≤ x.toInt) : (x.toUInt32.toNat : Int) = x.toInt := by
  have htoInt : x.toInt = x.toBitVec.toInt := rfl
  have htoNat : x.toUInt32.toNat = x.toBitVec.toNat := rfl
  rw [htoInt, BitVec.toInt_eq_toNat_cond] at h ⊢
  rw [htoNat]
  split
  · rfl
  · next hneg =>
      rw [if_neg hneg] at h
      have hlt := x.toBitVec.isLt
      omega

theorem toUInt32_ofNat (x : UInt32) : (Int32.ofNat x.toNat).toUInt32 = x := by
  apply UInt32.toBitVec_inj.mp
  exact BitVec.ofNat_toNat 32 x.toBitVec

/-- The loop over the groups is done, or goes on behind a group that has room in the array. -/
theorem parseGroups_cases {p0 : List UInt8} {params ps : List LcoreParams}
    (h : parseGroups rteStrsplit p0 params = some ps) :
    ps = params ∨ ∃ param p, params.length < maxLcoreParams ∧ p.length < p0.length
      ∧ parseGroups rteStrsplit p (params ++ [param]) = some ps := by
  rw [parseGroups] at h
  split at h
  · exact Or.inl (Option.some.inj h).symm
  · next head p heq =>
      right
      dsimp only at h
      by_cases hclosing : p.dropWhile (· ≠ 41) = []
      · rw [if_pos hclosing] at h
        cases h
      by_cases hlong : groupSize ≤ (p.takeWhile (· ≠ 41)).length
      · rw [if_neg hclosing, if_pos hlong] at h
        cases h
      rw [if_neg hclosing, if_neg hlong] at h
      obtain ⟨param, -, h⟩ := Option.bind_eq_some_iff.mp h
      by_cases hroom : maxLcoreParams ≤ params.length
      · rw [if_pos hroom] at h
        cases h
      rw [if_neg hroom] at h
      have h1 : (p.dropWhile (· ≠ 41)).length ≤ p.length := List.length_dropWhile_le _ _
      have h2 : (p0.dropWhile (· ≠ 40)).length ≤ p0.length := List.length_dropWhile_le _ _
      rw [heq, List.length_cons] at h2
      exact ⟨param, _, by omega, by omega, h⟩

theorem length_parseGroups {n : Nat} {p0 : List UInt8} {params ps : List LcoreParams}
    (hn : p0.length ≤ n) (hparams : params.length ≤ maxLcoreParams)
    (h : parseGroups rteStrsplit p0 params = some ps) : ps.length ≤ maxLcoreParams := by
  -- induction on what is left of the option
  induction n generalizing p0 params with
  | zero =>
      rcases parseGroups_cases h with rfl | ⟨param, p, -, hlt, -⟩
      · exact hparams
      · omega
  | succ n ih =>
      rcases parseGroups_cases h with rfl | ⟨param, p, hroom, hlt, h⟩
      · exact hparams
      · exact ih (by omega) (by rw [List.length_append, List.length_singleton]; omega) h

/-- What an accepted option says keeps the settings in their bounds. -/
theorem Settings.Askable.parseOpt {s s' : Settings} (hs : s.Askable) {o : Opt}
    (h : Rm.parseOpt rteStrsplit s o = some s') : s'.Askable := by
  obtain ⟨hvalid, rfl⟩ := parseOpt_eq_some_iff.mp h
  cases o with
  | portmask text => exact { hs with }
  | promiscuous => exact { hs with promiscuousOn := rfl }
  | config text =>
      obtain ⟨ps, hps⟩ := Option.isSome_iff_exists.mp hvalid
      refine { hs with lcoreParams := ?_ }
      dsimp only [Settings.apply, Opt.effect]
      rw [hps]
      exact length_parseGroups le_rfl (Nat.zero_le _) hps
  | noNuma => exact { hs with }
  | ipv6 => exact { hs with }
  | enableJumbo maxPktLen =>
      cases maxPktLen with
      | none => exact { hs with txqFlags := rfl, plain := fun hno => (by cases hno) }
      | some text =>
          obtain ⟨hlow, hhigh⟩ := hvalid
          have hnat := toNat_toUInt32 (x := parseMaxPktLen text) (by omega)
          refine { hs with
            le_len := ?_, len_le := ?_, txqFlags := rfl, plain := fun hno => (by cases hno) }
          · change 64 ≤ (parseMaxPktLen text).toUInt32.toNat
            omega
          · change ((parseMaxPktLen text).toUInt32.toNat : Int) ≤ maxJumboPktLen
            omega
  | hashEntryNum text =>
      obtain ⟨hlow, hhigh⟩ := hvalid
      have hnat := toNat_toUInt32 (x := parseHashEntryNumber text) (by omega)
      refine { hs with hash_pos := ?_, hash_le := ?_ }
      · change 0 < (parseHashEntryNumber text).toUInt32.toNat
        omega
      · change ((parseHashEntryNumber text).toUInt32.toNat : Int) ≤ l3fwdHashEntries
        omega
  | unknown => exact hvalid.elim
  | undefined => exact hvalid.elim

theorem askable_default : Settings.Askable {} where
  promiscuousOn := rfl
  lcoreParams := by decide
  hash_pos := by decide
  hash_le := by decide
  le_len := by decide
  len_le := by decide
  txqFlags := rfl
  plain _ := rfl

theorem parseNumber_hexadecimal {n : Nat} (h0 : n ≠ 0) (hn : n < 2 ^ 64) :
    parseNumber 16 (hexadecimal n) = Int32.ofNat n := by
  have hnul : 0 ∉ hexadecimal n := fun h => absurd (digitOf_of_mem_hexadecimal h) (by decide)
  have hnumber : isNumber 16 (hexadecimal n) = true := by
    rw [isNumber, cstr_eq_self hnul, strtoul_hexadecimal hn, Bool.and_eq_true, decide_eq_true_eq,
      decide_eq_true_eq]
    exact ⟨hexadecimal_ne_nil n, rfl⟩
  rw [parseNumber, if_pos hnumber, strtoul_hexadecimal hn, if_neg h0]

theorem parseNumber_decimal {n : Nat} (h0 : n ≠ 0) (hn : n < 2 ^ 64) :
    parseNumber 10 (decimal n) = Int32.ofNat n := by
  have hnumber : isNumber 10 (decimal n) = true := by
    rw [isNumber, cstr_eq_self (nul_not_mem_decimal n), strtoul_ten_decimal hn, Bool.and_eq_true,
      decide_eq_true_eq, decide_eq_true_eq]
    obtain ⟨b, bs, hb, -⟩ := decimal_eq_cons n
    exact ⟨by rw [hb]; exact List.cons_ne_nil _ _, rfl⟩
  rw [parseNumber, if_pos hnumber, strtoul_ten_decimal hn, if_neg h0]

/-- A number does not begin with `-`. -/
theorem isOption_hexadecimal (n : Nat) : isOption (hexadecimal n) = false := by
  unfold isOption
  split
  · next heq =>
      have hmem : (45 : UInt8) ∈ hexadecimal n := heq ▸ List.mem_cons_self
      exact absurd (digitOf_of_mem_hexadecimal hmem) (by decide)
  · rfl

theorem parseOpt_portmask {s : Settings} {mask : UInt32} (hmask : mask ≠ 0) :
    parseOpt rteStrsplit s (.portmask (hexadecimal mask.toNat))
      = some { s with enabledPortMask := mask } := by
  have hnat : mask.toNat ≠ 0 := fun h => hmask (UInt32.toNat_inj.mp h)
  have hlt := mask.toNat_lt
  have hparse : (parsePortmask (hexadecimal mask.toNat)).toUInt32 = mask :=
    (congrArg Int32.toUInt32 (parseNumber_hexadecimal hnat (by omega))).trans (toUInt32_ofNat mask)
  apply parseOpt_eq_some_iff.mpr
  refine ⟨?_, congrArg (fun m => { s with enabledPortMask := m }) hparse.symm⟩
  intro hzero
  exact hmask (hparse.symm.trans hzero)

theorem parseOpt_config (hsplit : SplitsFields rteStrsplit) {s : Settings} {ps : List LcoreParams}
    (hps : ps.length ≤ maxLcoreParams) :
    parseOpt rteStrsplit s (.config (renderConfig (ps.map fun p => ([], p)) []))
      = some { s with lcoreParams := ps } := by
  rw [parseOpt, parseConfig, ← List.nil_append (renderConfig _ _),
    parseGroups_render hsplit _ List.not_mem_nil List.not_mem_nil (Nat.zero_le _)]
  · rw [if_pos (by rw [List.length_nil, List.length_map]; omega)]
    simp
  · simp

theorem parseOpt_hashEntryNum {s : Settings} {number : UInt32} (hpos : 0 < number.toNat)
    (hle : (number.toNat : Int) ≤ l3fwdHashEntries) :
    parseOpt rteStrsplit s (.hashEntryNum (hexadecimal number.toNat))
      = some { s with hashEntryNumber := number } := by
  have hlt := number.toNat_lt
  have hlimit : l3fwdHashEntries = 4194304 := rfl
  have hnumber : parseHashEntryNumber (hexadecimal number.toNat) = Int32.ofNat number.toNat :=
    parseNumber_hexadecimal (by omega) (by omega)
  have hparse : (parseHashEntryNumber (hexadecimal number.toNat)).toUInt32 = number :=
    (congrArg Int32.toUInt32 hnumber).trans (toUInt32_ofNat number)
  have hint : (parseHashEntryNumber (hexadecimal number.toNat)).toInt = number.toNat :=
    (congrArg Int32.toInt hnumber).trans (Int32.toInt_ofNat_of_lt (by omega))
  apply parseOpt_eq_some_iff.mpr
  refine ⟨?_, congrArg (fun n => { s with hashEntryNumber := n }) hparse.symm⟩
  dsimp only [Opt.Valid]
  omega

theorem parseOpt_enableJumbo {s : Settings} {len : UInt32} (hle : 64 ≤ len.toNat)
    (hlen : (len.toNat : Int) ≤ maxJumboPktLen) :
    parseOpt rteStrsplit s (.enableJumbo (some (decimal len.toNat)))
      = some { s with jumboFrame := true, txqFlags := 0, maxRxPktLen := len } := by
  have hlt := len.toNat_lt
  have hlimit : maxJumboPktLen = 9600 := rfl
  have hnumber : parseMaxPktLen (decimal len.toNat) = Int32.ofNat len.toNat :=
    parseNumber_decimal (by omega) (by omega)
  have hparse : (parseMaxPktLen (decimal len.toNat)).toUInt32 = len :=
    (congrArg Int32.toUInt32 hnumber).trans (toUInt32_ofNat len)
  have hint : (parseMaxPktLen (decimal len.toNat)).toInt = len.toNat :=
    (congrArg Int32.toInt hnumber).trans (Int32.toInt_ofNat_of_lt (by omega))
  apply parseOpt_eq_some_iff.mpr
  refine ⟨?_, congrArg
    (fun n => { s with jumboFrame := true, txqFlags := 0, maxRxPktLen := n }) hparse.symm⟩
  dsimp only [Opt.Valid]
  omega

/-- An option that is given unless a setting has its default. -/
theorem parseOpts_ite {c : Prop} [Decidable c] {s s' : Settings} {o : Opt}
    (hdefault : c → s' = s) (hopt : ¬ c → parseOpt rteStrsplit s o = some s') :
    parseOpts rteStrsplit s (if c then [] else [o]) = some s' := by
  by_cases hc : c
  · rw [if_pos hc, hdefault hc]
    rfl
  · rw [if_neg hc]
    exact Lts.exec_cons_eq_some.mpr ⟨s', hopt hc, rfl⟩

theorem parseOpts_append {s s₁ s₂ : Settings} {os₁ os₂ : List Opt}
    (h1 : parseOpts rteStrsplit s os₁ = some s₁) (h2 : parseOpts rteStrsplit s₁ os₂ = some s₂) :
    parseOpts rteStrsplit s (os₁ ++ os₂) = some s₂ :=
  Lts.exec_append_eq_some.mpr ⟨s₁, h1, h2⟩

theorem parseOpts_render (hsplit : SplitsFields rteStrsplit) {s : Settings} (hs : s.Askable) :
    parseOpts rteStrsplit {} s.render = some s := by
  -- what is set behind each of the five parts of the options
  let s₁ : Settings := { enabledPortMask := s.enabledPortMask }
  let s₂ : Settings := { s₁ with
    lcoreParams := s.lcoreParams, hashEntryNumber := s.hashEntryNumber }
  let s₃ : Settings := { s₂ with numaOn := s.numaOn }
  let s₄ : Settings := { s₃ with ipv6 := s.ipv6 }
  have hmask : parseOpts rteStrsplit {}
      (if s.enabledPortMask = 0 then [] else [.portmask (hexadecimal s.enabledPortMask.toNat)])
      = some s₁ :=
    parseOpts_ite
      (fun hzero => congrArg (fun m => ({ enabledPortMask := m } : Settings)) hzero)
      fun hne => parseOpt_portmask hne
  have hlists : parseOpts rteStrsplit s₁
      [.config (renderConfig (s.lcoreParams.map fun p => ([], p)) []),
        .hashEntryNum (hexadecimal s.hashEntryNumber.toNat)] = some s₂ :=
    Lts.exec_cons_eq_some.mpr ⟨_, parseOpt_config hsplit hs.lcoreParams,
      Lts.exec_cons_eq_some.mpr ⟨s₂, parseOpt_hashEntryNum hs.hash_pos hs.hash_le, rfl⟩⟩
  have hnuma : parseOpts rteStrsplit s₂ (if s.numaOn then [] else [.noNuma]) = some s₃ := by
    apply parseOpts_ite
    · intro hon
      exact congrArg (fun b => { s₂ with numaOn := b }) hon
    · intro hoff
      rw [Bool.not_eq_true] at hoff
      exact congrArg (fun b => some { s₂ with numaOn := b }) hoff.symm
  have hipv6 : parseOpts rteStrsplit s₃ (if s.ipv6 then [.ipv6] else []) = some s₄ := by
    rw [← ite_not]
    apply parseOpts_ite
    · intro hoff
      rw [Bool.not_eq_true] at hoff
      exact congrArg (fun b => { s₃ with ipv6 := b }) hoff
    · intro hon
      rw [not_not] at hon
      exact congrArg (fun b => some { s₃ with ipv6 := b }) hon.symm
  have hjumbo : parseOpts rteStrsplit s₄
      (if s.jumboFrame then [.enableJumbo (some (decimal s.maxRxPktLen.toNat))] else [])
      = some s := by
    have hflags := hs.txqFlags
    rw [← ite_not]
    apply parseOpts_ite
    · intro hoff
      rw [Bool.not_eq_true] at hoff
      rw [hoff] at hflags
      exact Settings.ext rfl hs.promiscuousOn rfl rfl rfl hoff (hs.plain hoff) hflags rfl
    · intro hon
      rw [not_not] at hon
      rw [hon] at hflags
      rw [parseOpt_enableJumbo hs.le_len hs.len_le]
      exact congrArg some
        (Settings.ext rfl hs.promiscuousOn.symm rfl rfl rfl hon.symm rfl hflags.symm rfl)
  exact parseOpts_append
    (parseOpts_append (parseOpts_append (parseOpts_append hmask hlists) hnuma) hipv6) hjumbo

/-- The options of settings are found as they are written. -/
theorem options_render (s : Settings) :
    options ⟨[], s.render.flatMap Opt.words⟩ = s.render := by
  apply options_words_self
  intro o ho
  have hmask : (Opt.portmask (hexadecimal s.enabledPortMask.toNat)).Written :=
    isOption_hexadecimal _
  unfold Settings.render at ho
  simp only [List.mem_append, List.mem_ite_nil_left, List.mem_ite_nil_right, List.mem_cons,
    List.not_mem_nil, or_false] at ho
  rcases ho with (((⟨-, rfl⟩ | rfl | rfl) | ⟨-, rfl⟩) | ⟨-, rfl⟩) | ⟨-, rfl⟩
  · exact ⟨hmask, fun e => by cases e⟩
  all_goals exact ⟨trivial, fun e => by cases e⟩

/-- **The round trip of the options.** -/
theorem parseArgs_render (hsplit : SplitsFields rteStrsplit) {s : Settings} (hs : s.Askable) :
    parseArgs rteStrsplit {} (s.render.flatMap Opt.words) = some s := by
  rw [parseArgs, options_render]
  exact parseOpts_render hsplit hs

/-- **The settings the program can start with.** Whatever the options, the promiscuous mode is on,
and the lengths and numbers are in their bounds; and whatever settings are so can be asked for. -/
theorem exists_parseArgs_iff (hsplit : SplitsFields rteStrsplit) (s : Settings) :
    (∃ argv, parseArgs rteStrsplit {} argv = some s) ↔ s.Askable := by
  constructor
  · rintro ⟨argv, h⟩
    exact Lts.exec_invariant (fun _ _ _ hs hstep => hs.parseOpt hstep) askable_default h
  · intro hs
    exact ⟨_, parseArgs_render hsplit hs⟩

/-- With a splitting of that kind. -/
theorem exists_parseArgs_iff_splitFields :
    (∃ argv, parseArgs splitFields {} argv = some { enabledPortMask := 5, numaOn := false })
      ↔ ({ enabledPortMask := 5, numaOn := false } : Settings).Askable :=
  exists_parseArgs_iff splitsFields_splitFields _

/-! ## The mask of the ports -/

/-- A text that is no number, or 0. -/
def Malformed (text : List UInt8) : Prop := isNumber 16 text = false ∨ (strtoul 16 text).value = 0

theorem parsePortmask_of_malformed {text : List UInt8} (h : Malformed text) :
    (parsePortmask text).toUInt32 = 0xffffffff := by
  unfold parsePortmask parseNumber
  split
  · next hnumber =>
      rcases h with h | h
      · exact absurd hnumber (by rw [h]; decide)
      · rw [if_pos h]
        rfl
  · rfl

/-- In the mask -1 every port is enabled. -/
theorem enabled_of_all {e : Machine} (h : e.enabledPortMask = 0xffffffff) (portid : UInt8) :
    e.enabled portid = true := by
  have hand : ((0xffffffff : UInt32) &&& (1 <<< portid.toUInt32)).toNat
      = 2 ^ (portid.toUInt32.toNat % 32) := by
    have hlt : 2 ^ (portid.toUInt32.toNat % 32) < 2 ^ 32 :=
      Nat.pow_lt_pow_right (by decide) (Nat.mod_lt _ (by decide))
    rw [UInt32.toNat_and, UInt32.toNat_shiftLeft]
    change (2 ^ 32 - 1) &&& ((1 <<< (portid.toUInt32.toNat % 32)) % 2 ^ 32) = _
    rw [Nat.and_comm, Nat.and_two_pow_sub_one_eq_mod, Nat.mod_mod, Nat.one_shiftLeft,
      Nat.mod_eq_of_lt hlt]
  rw [Machine.enabled, h, decide_eq_true_eq]
  intro hzero
  rw [hzero] at hand
  exact absurd hand.symm (Nat.two_pow_pos _).ne'

/-- When all ports are enabled, the mask is no condition. -/
theorem startUp_isSome_of_all {e : Machine} (he : e.enabledPortMask = 0xffffffff)
    (params : List LcoreParams) :
    (startUp e params).isSome = true
      ↔ (∀ p ∈ params, p.queueId.toNat < maxRxQueuePerPort ∧ p.lcoreId ∈ e.lcores
          ∧ p.portId.toNat < e.nbPorts)
        ∧ ∀ lcore, (params.filter fun p => p.lcoreId = lcore).length ≤ maxRxQueuePerLcore := by
  rw [startUp_checks, checkLcoreParams_iff, checkPortConfig_iff, initLcoreRxQueues_isSome_iff]
  constructor
  · rintro ⟨h1, h2, h3⟩
    exact ⟨fun p hp => ⟨(h1 p hp).1, (h1 p hp).2, (h2 p hp).2⟩, h3⟩
  · rintro ⟨h, h3⟩
    exact ⟨fun p hp => ⟨(h p hp).1, (h p hp).2.1⟩,
      fun p hp => ⟨enabled_of_all he p.portId, (h p hp).2.2⟩, h3⟩

/-- The ports that are set up are the enabled ones. -/
theorem ports_of_startUp {e : Machine} {params : List LcoreParams} {s : SetUp}
    (h : startUp e params = some s) :
    s.ports.map Prod.fst = ((List.range e.nbPorts).map UInt8.ofNat).filter e.enabled := by
  unfold startUp at h
  split at h
  · obtain ⟨conf, -, h⟩ := Option.bind_eq_some_iff.mp h
    split at h
    · obtain rfl := Option.some.inj h
      rw [List.map_map]
      exact List.map_id _
    · cases h
  · cases h

/-- The argument of `-p`. -/
def Opt.portmask? : Opt → Option (List UInt8)
  | .portmask text => some text
  | _ => none

theorem lastWritten_enabledPortMask (opts : List Opt) :
    lastWritten rteStrsplit Effect.enabledPortMask opts
      = (opts.filterMap Opt.portmask?).getLast?.map fun text => (parsePortmask text).toUInt32 := by
  rw [lastWritten, ← List.getLast?_map, List.map_filterMap]
  congr 2
  funext o
  cases o <;> rfl

variable (rteStrsplit)

/-- `MAIN` on a machine, from the options to the queues. The options give the mask of the ports. -/
def start (e : Machine) (argv : List (List UInt8)) : Option SetUp :=
  (parseArgs rteStrsplit {} argv).bind fun s =>
    startUp { e with enabledPortMask := s.enabledPortMask } s.lcoreParams

variable {rteStrsplit}

/-- **A wrong mask enables all ports.** With a mask that is no number, or 0, in the last `-p` that the
loop finds, the program starts on the conditions that do not ask for the mask, and sets up every port
there is. -/
theorem start_malformed_mask (e : Machine) {argv : List (List UInt8)} {text : List UInt8}
    (hlast : ((options ⟨[], argv⟩).filterMap Opt.portmask?).getLast? = some text)
    (hbad : Malformed text) :
    let opts := options ⟨[], argv⟩
    let ps := (lastWritten rteStrsplit Effect.lcoreParams opts).getD lcoreParamsArrayDefault
    ((start rteStrsplit e argv).isSome = true
        ↔ (∀ o ∈ opts, o.Valid rteStrsplit)
          ∧ (∀ p ∈ ps, p.queueId.toNat < maxRxQueuePerPort ∧ p.lcoreId ∈ e.lcores
              ∧ p.portId.toNat < e.nbPorts)
          ∧ ∀ lcore, (ps.filter fun p => p.lcoreId = lcore).length ≤ maxRxQueuePerLcore)
      ∧ ∀ s, start rteStrsplit e argv = some s →
          s.ports.map Prod.fst = (List.range e.nbPorts).map UInt8.ofNat := by
  intro opts ps
  have hset : ∀ s, parseOpts rteStrsplit {} opts = some s →
      s.enabledPortMask = 0xffffffff ∧ s.lcoreParams = ps := by
    intro s h
    have hmask := lastWritten_of_parseOpts (f := Settings.enabledPortMask)
      (fun _ _ => rfl : ∀ s w, _ = (Effect.enabledPortMask w).getD _) h
    rw [lastWritten_enabledPortMask, hlast, Option.map_some, Option.getD_some,
      parsePortmask_of_malformed hbad] at hmask
    exact ⟨hmask, lastWritten_of_parseOpts (f := Settings.lcoreParams)
      (fun _ _ => rfl : ∀ s w, _ = (Effect.lcoreParams w).getD _) h⟩
  unfold start parseArgs
  constructor
  · rw [← parseOpts_isSome_iff (s := {})]
    cases hparse : parseOpts rteStrsplit {} opts with
    | none => simp
    | some s =>
        obtain ⟨hmask, hparams⟩ := hset s hparse
        rw [Option.bind_some, hparams, startUp_isSome_of_all hmask, Option.isSome_some, eq_self,
          true_and]
  · intro t ht
    obtain ⟨s, hparse, hstart⟩ := Option.bind_eq_some_iff.mp ht
    obtain ⟨hmask, -⟩ := hset s hparse
    rw [ports_of_startUp hstart, List.filter_eq_self]
    intro portid _
    exact enabled_of_all hmask portid

end ParseArgs

/-- The mask `all`, which begins with a digit. -/
theorem start_malformed_mask_all :
    ∃ s, start splitFields fourPorts [[45, 112], [97, 108, 108]] = some s
      ∧ s.ports.map Prod.fst = [0, 1, 2, 3] := by
  have hopts : options ⟨[], [[45, 112], [97, 108, 108]]⟩ = [.portmask [97, 108, 108]] :=
    @options_words [.portmask [97, 108, 108]] (List.forall_mem_singleton.mpr rfl)
  have hsome : (start splitFields fourPorts [[45, 112], [97, 108, 108]]).isSome = true := by
    rw [start, parseArgs, hopts]
    decide +kernel
  obtain ⟨s, hs⟩ := Option.isSome_iff_exists.mp hsome
  exact ⟨s, hs, (@start_malformed_mask splitFields fourPorts _ [97, 108, 108] (by rw [hopts]; rfl)
    (Or.inl (by decide))).2 s hs⟩

end Rm
