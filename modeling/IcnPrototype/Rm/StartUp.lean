import IcnPrototype.Lib.Buckets
import IcnPrototype.Lib.Strtoul

set_option autoImplicit false

/-! # Starting up

The option `--config` says which lcore polls which queue of which port: `(port,queue,lcore)`, as
often as needed. `parse_config` reads it, `check_lcore_params`, `init_lcore_rx_queues` and
`check_port_config` check it and give the lcores their queues, and `MAIN` sets up the ports and the
queues.

`parseConfig_render` is the round trip of the option, and `startUp_isSome_iff` says which
configurations are accepted. `startUp_queues` is what the main loops rely on: an accepted
configuration sets every queue up that it lists, and gives it to the lcore it is listed for.

Splitting a group at the commas is left to DPDK.
-/

namespace Rm

open Bytes

/-! ## The option -/

/-- `struct lcore_params` -/
structure LcoreParams where
  portId : UInt8
  queueId : UInt8
  lcoreId : UInt8

/-- `MAX_LCORE_PARAMS` -/
def maxLcoreParams : Nat := 1024

/-- `sizeof(s)` -/
def groupSize : Nat := 256

section Parse

-- `rte_strsplit` is a function of DPDK
variable (rteStrsplit : List UInt8 → Nat → UInt8 → List (List UInt8))

/-- `strtoul(str_fld[i], &end, 0)` and the conditions behind it. -/
def parseField (strFld : List UInt8) : Option UInt8 :=
  let r := strtoul 0 strFld
  if r.erange ∨ r.stop = 0 ∨ 255 < r.value then none else some (UInt8.ofNat r.value)

/-- What is between two brackets. -/
def parseGroup (s : List UInt8) : Option LcoreParams :=
  match rteStrsplit s 3 44 with
  | [port, queue, lcore] => do
      let port ← parseField port
      let queue ← parseField queue
      let lcore ← parseField lcore
      some ⟨port, queue, lcore⟩
  | _ => none

/-- `while ((p = strchr(p0,'(')) != NULL)` -/
def parseGroups (p0 : List UInt8) (params : List LcoreParams) : Option (List LcoreParams) :=
  match _h : p0.dropWhile (· ≠ 40) with
  | [] => some params
  | _ :: p =>
      let s := p.takeWhile (· ≠ 41)
      if p.dropWhile (· ≠ 41) = [] then none
      else if groupSize ≤ s.length then none
      else do
        let param ← parseGroup rteStrsplit s
        if maxLcoreParams ≤ params.length then none
        else parseGroups (p.dropWhile (· ≠ 41)) (params ++ [param])
  termination_by p0.length
  decreasing_by
    have h1 : (p.dropWhile (· ≠ 41)).length ≤ p.length := List.length_dropWhile_le _ _
    have h2 : (p0.dropWhile (· ≠ 40)).length ≤ p0.length := List.length_dropWhile_le _ _
    rw [_h, List.length_cons] at h2
    omega

/-- `parse_config`. The argument is a string up to its NUL. -/
def parseConfig (qArg : List UInt8) : Option (List LcoreParams) := parseGroups rteStrsplit qArg []

end Parse

/-! ### The round trip -/

/-- What `rte_strsplit` is for: the fields of a string of three fields. -/
def SplitsFields (rteStrsplit : List UInt8 → Nat → UInt8 → List (List UInt8)) : Prop :=
  ∀ a b c : List UInt8, (∀ f ∈ [a, b, c], f ≠ [] ∧ 44 ∉ f ∧ 0 ∉ f) →
    rteStrsplit (a ++ 44 :: (b ++ 44 :: c)) 3 44 = [a, b, c]

/-- A splitting of that kind: the last field goes to the end of the string. -/
def splitFields (s : List UInt8) (maxtokens : Nat) (delim : UInt8) : List (List UInt8) :=
  match maxtokens with
  | 0 => []
  | 1 => if s = [] then [] else [s]
  | n + 2 =>
      if s = [] then []
      else s.takeWhile (· ≠ delim) :: splitFields (s.dropWhile (· ≠ delim)).tail (n + 1) delim

theorem splitsFields_splitFields : SplitsFields splitFields := by
  have hcut : ∀ {f : List UInt8}, 44 ∉ f → ∀ rest,
      (f ++ 44 :: rest).takeWhile (· ≠ 44) = f
        ∧ ((f ++ 44 :: rest).dropWhile (· ≠ 44)).tail = rest := by
    intro f hf rest
    have hne : ∀ b ∈ f, decide (b ≠ 44) = true := fun b hb => decide_eq_true fun e => hf (e ▸ hb)
    rw [List.takeWhile_append_of_pos hne, List.dropWhile_append_of_pos hne]
    exact ⟨List.append_nil _, rfl⟩
  intro a b c hfields
  have ha := hcut (hfields a (by simp)).2.1 (b ++ 44 :: c)
  have hb := hcut (hfields b (by simp)).2.1 c
  unfold splitFields
  rw [if_neg (by simp), ha.1, ha.2]
  unfold splitFields
  rw [if_neg (by simp), hb.1, hb.2]
  unfold splitFields
  rw [if_neg (hfields c (by simp)).1]

/-- `port,queue,lcore` -/
def LcoreParams.text (x : LcoreParams) : List UInt8 :=
  decimal x.portId.toNat ++ 44 :: (decimal x.queueId.toNat ++ 44 :: decimal x.lcoreId.toNat)

/-- The groups of an option, each with what is in front of it, and what is behind the last one. -/
def renderConfig : List (List UInt8 × LcoreParams) → List UInt8 → List UInt8
  | [], behind => behind
  | (front, x) :: groups, behind => front ++ 40 :: (x.text ++ 41 :: renderConfig groups behind)

theorem parseField_decimal (x : UInt8) : parseField (decimal x.toNat) = some x := by
  have hlt := x.toNat_lt
  obtain ⟨b, bs, hb, -⟩ := decimal_eq_cons x.toNat
  unfold parseField
  rw [strtoul_decimal (by omega)]
  dsimp only
  rw [if_neg, UInt8.ofNat_toNat]
  rintro (h | h | h)
  · cases h
  · rw [hb, List.length_cons] at h
    omega
  · omega

theorem decimal_field (x : UInt8) :
    decimal x.toNat ≠ [] ∧ 44 ∉ decimal x.toNat ∧ 0 ∉ decimal x.toNat := by
  obtain ⟨b, bs, hb, -⟩ := decimal_eq_cons x.toNat
  refine ⟨by rw [hb]; exact List.cons_ne_nil _ _, ?_, nul_not_mem_decimal _⟩
  exact fun h => absurd (isDigit_of_mem_decimal h) (by decide)

theorem parseGroup_text {rteStrsplit : List UInt8 → Nat → UInt8 → List (List UInt8)}
    (hsplit : SplitsFields rteStrsplit) (x : LcoreParams) :
    parseGroup rteStrsplit x.text = some x := by
  have hfields : rteStrsplit x.text 3 44
      = [decimal x.portId.toNat, decimal x.queueId.toNat, decimal x.lcoreId.toNat] := by
    apply hsplit
    intro f hf
    simp only [List.mem_cons, List.not_mem_nil, or_false] at hf
    rcases hf with rfl | rfl | rfl
    · exact decimal_field _
    · exact decimal_field _
    · exact decimal_field _
  unfold parseGroup
  rw [hfields]
  dsimp only
  rw [parseField_decimal, parseField_decimal, parseField_decimal]
  rfl

/-- A group has no brackets of its own, and fits. -/
theorem mem_text {x : LcoreParams} {b : UInt8} (h : b ∈ x.text) : b = 44 ∨ isDigit b = true := by
  rw [LcoreParams.text, List.mem_append, List.mem_cons, List.mem_append, List.mem_cons] at h
  rcases h with h | h | h | h | h
  · exact Or.inr (isDigit_of_mem_decimal h)
  · exact Or.inl h
  · exact Or.inr (isDigit_of_mem_decimal h)
  · exact Or.inl h
  · exact Or.inr (isDigit_of_mem_decimal h)

theorem text_length_lt (x : LcoreParams) : x.text.length < groupSize := by
  have hdigits : ∀ y : UInt8, (decimal y.toNat).length ≤ 3 := fun y =>
    decimal_length_le (Nat.lt_trans y.toNat_lt (by decide))
  have hport := hdigits x.portId
  have hqueue := hdigits x.queueId
  have hlcore := hdigits x.lcoreId
  rw [LcoreParams.text, List.length_append, List.length_cons, List.length_append, List.length_cons,
    groupSize]
  omega

/-- The loop over the groups, from wherever it looks for the next one. -/
theorem parseGroups_render {rteStrsplit : List UInt8 → Nat → UInt8 → List (List UInt8)}
    (hsplit : SplitsFields rteStrsplit) {groups : List (List UInt8 × LcoreParams)}
    (hgroups : ∀ g ∈ groups, 40 ∉ g.1) {behind : List UInt8} (hbehind : 40 ∉ behind)
    {front : List UInt8} (hfront : 40 ∉ front) {params : List LcoreParams}
    (hparams : params.length ≤ maxLcoreParams) :
    parseGroups rteStrsplit (front ++ renderConfig groups behind) params
      = if params.length + groups.length ≤ maxLcoreParams then some (params ++ groups.map Prod.snd)
        else none := by
  have hskip : ∀ {bs : List UInt8}, 40 ∉ bs → ∀ rest,
      (bs ++ rest).dropWhile (· ≠ 40) = rest.dropWhile (· ≠ 40) := by
    intro bs hbs rest
    apply List.dropWhile_append_of_pos
    intro b hb
    exact decide_eq_true fun e => hbs (e ▸ hb)
  -- induction on the groups; in front of the next one is the closing bracket of the last one
  induction groups generalizing front params with
  | nil =>
      have hnone : (front ++ renderConfig [] behind).dropWhile (· ≠ 40) = [] := by
        rw [hskip hfront, renderConfig, ← List.append_nil behind, hskip hbehind]
        rfl
      rw [parseGroups]
      split
      · rw [if_pos (by rw [List.length_nil]; omega), List.map_nil, List.append_nil]
      · next heq =>
          rw [hnone] at heq
          cases heq
  | cons group groups ih =>
      obtain ⟨junk, x⟩ := group
      obtain ⟨hjunk, hrest⟩ := List.forall_mem_cons.mp hgroups
      have hnext : (front ++ renderConfig ((junk, x) :: groups) behind).dropWhile (· ≠ 40)
          = 40 :: (x.text ++ 41 :: renderConfig groups behind) := by
        rw [hskip hfront, renderConfig, hskip hjunk]
        rfl
      have hclosing : ∀ b ∈ x.text, decide (b ≠ 41) = true := by
        intro b hb
        apply decide_eq_true
        rintro rfl
        exact absurd (mem_text hb) (by decide)
      have htake : (x.text ++ 41 :: renderConfig groups behind).takeWhile (· ≠ 41) = x.text := by
        rw [List.takeWhile_append_of_pos hclosing]
        exact List.append_nil _
      have hdrop : (x.text ++ 41 :: renderConfig groups behind).dropWhile (· ≠ 41)
          = [41] ++ renderConfig groups behind := by
        rw [List.dropWhile_append_of_pos hclosing]
        rfl
      have hfits := text_length_lt x
      rw [parseGroups]
      split
      · next heq =>
          rw [hnext] at heq
          cases heq
      · next p heq =>
          rw [hnext] at heq
          obtain ⟨-, rfl⟩ := List.cons.inj heq
          dsimp only
          rw [htake, hdrop, if_neg (by simp), if_neg (by omega), parseGroup_text hsplit]
          dsimp only [Option.bind_eq_bind, Option.bind_some]
          rw [List.length_cons]
          split
          · next hfull => rw [if_neg (by omega)]
          · next hroom =>
              have hlen : (params ++ [x]).length = params.length + 1 := by
                rw [List.length_append, List.length_singleton]
              rw [ih hrest (by decide) (by omega), hlen]
              have hcount :
                  params.length + 1 + groups.length = params.length + (groups.length + 1) := by
                omega
              rw [hcount, List.map_cons, List.append_assoc]
              rfl

/-- **The option is read back.** Whatever is between the groups (but for an opening bracket), the
parameters are those of the groups in their order, and more than 1024 are refused. -/
theorem parseConfig_render {rteStrsplit : List UInt8 → Nat → UInt8 → List (List UInt8)}
    (hsplit : SplitsFields rteStrsplit) {groups : List (List UInt8 × LcoreParams)}
    (hgroups : ∀ g ∈ groups, 40 ∉ g.1) {behind : List UInt8} (hbehind : 40 ∉ behind) :
    parseConfig rteStrsplit (renderConfig groups behind)
      = if groups.length ≤ maxLcoreParams then some (groups.map Prod.snd) else none := by
  have hrender := @parseGroups_render rteStrsplit hsplit groups hgroups behind hbehind []
    (by simp) [] (Nat.zero_le _)
  rw [List.nil_append, List.length_nil, Nat.zero_add, List.nil_append] at hrender
  exact hrender

/-- The option `(0,1,2), (3,0,10) `. -/
theorem parseConfig_render_two :
    parseConfig splitFields
        (renderConfig [([], ⟨0, 1, 2⟩), ([44, 32], ⟨3, 0, 10⟩)] [32])
      = some [⟨0, 1, 2⟩, ⟨3, 0, 10⟩] :=
  (parseConfig_render splitsFields_splitFields (by decide) (by decide)).trans rfl

/-! ## The checks -/

/-- `MAX_RX_QUEUE_PER_PORT` -/
def maxRxQueuePerPort : Nat := 128

/-- `MAX_RX_QUEUE_PER_LCORE` -/
def maxRxQueuePerLcore : Nat := 16

/-- The machine: the lcores that are enabled, in ascending order, the port mask of the option `-p`,
and the number of ports. -/
structure Machine where
  lcores : List UInt8
  enabledPortMask : UInt32
  nbPorts : Nat
  lcores_nodup : lcores.Nodup

/-- `(enabled_port_mask & (1 << portid)) != 0`. The processor takes the number modulo 32. -/
def Machine.enabled (e : Machine) (portid : UInt8) : Bool :=
  e.enabledPortMask &&& (1 <<< portid.toUInt32) ≠ 0

/-- `check_lcore_params` -/
def checkLcoreParams (e : Machine) (params : List LcoreParams) : Bool :=
  params.all fun p => p.queueId.toNat < maxRxQueuePerPort && e.lcores.contains p.lcoreId

/-- `check_port_config` -/
def checkPortConfig (e : Machine) (params : List LcoreParams) : Bool :=
  params.all fun p => e.enabled p.portId && p.portId.toNat < e.nbPorts

/-- `rx_queue_list` of the lcores, a port and a queue for each entry. -/
abbrev RxQueues := UInt8 → List (UInt8 × UInt8)

/-- The loop of `init_lcore_rx_queues`. -/
def addRxQueue (conf : RxQueues) (p : LcoreParams) : Option RxQueues :=
  let nbRxQueue := (conf p.lcoreId).length
  if maxRxQueuePerLcore ≤ nbRxQueue then none
  else some (Function.update conf p.lcoreId (conf p.lcoreId ++ [(p.portId, p.queueId)]))

/-- `init_lcore_rx_queues` -/
def initLcoreRxQueues (params : List LcoreParams) : Option RxQueues :=
  params.foldlM addRxQueue fun _ => []

/-- The loop of `get_port_n_rx_queues`. -/
def maxQueue (port : UInt8) (queue : Int) (p : LcoreParams) : Int :=
  if p.portId = port ∧ queue < p.queueId.toNat then p.queueId.toNat else queue

/-- `get_port_n_rx_queues` -/
def getPortNRxQueues (params : List LcoreParams) (port : UInt8) : UInt8 :=
  UInt8.ofNat (params.foldl (maxQueue port) (-1) + 1).toNat

/-- What `MAIN` sets up: the ports with their numbers of queues, and the queues, each with the lcore
that polls it. -/
structure SetUp where
  rxQueueList : RxQueues
  ports : List (UInt8 × UInt8)
  rxQueues : List (UInt8 × UInt8 × UInt8)

/-- `MAIN`, from the checks to the queues. `none` is `rte_exit`. -/
def startUp (e : Machine) (params : List LcoreParams) : Option SetUp :=
  if checkLcoreParams e params then
    (initLcoreRxQueues params).bind fun conf =>
      if checkPortConfig e params then
        some {
          rxQueueList := conf
          ports := (((List.range e.nbPorts).map UInt8.ofNat).filter e.enabled).map fun port =>
            (port, getPortNRxQueues params port)
          rxQueues := e.lcores.flatMap fun lcore => (conf lcore).map fun q => (lcore, q) }
      else none
  else none

/-! ### What is set up -/

theorem initLcoreRxQueues_eq (params : List LcoreParams) :
    initLcoreRxQueues params
      = Buckets.fill LcoreParams.lcoreId (fun p => (p.portId, p.queueId)) maxRxQueuePerLcore
          params :=
  rfl

theorem checkLcoreParams_iff {e : Machine} {params : List LcoreParams} :
    checkLcoreParams e params = true
      ↔ ∀ p ∈ params, p.queueId.toNat < maxRxQueuePerPort ∧ p.lcoreId ∈ e.lcores := by
  simp [checkLcoreParams]

theorem checkPortConfig_iff {e : Machine} {params : List LcoreParams} :
    checkPortConfig e params = true
      ↔ ∀ p ∈ params, e.enabled p.portId = true ∧ p.portId.toNat < e.nbPorts := by
  simp [checkPortConfig]

theorem initLcoreRxQueues_isSome_iff {params : List LcoreParams} :
    (initLcoreRxQueues params).isSome = true
      ↔ ∀ lcore, (params.filter fun p => p.lcoreId = lcore).length ≤ maxRxQueuePerLcore := by
  rw [initLcoreRxQueues_eq, Option.isSome_iff_exists]
  constructor
  · rintro ⟨conf, hconf⟩
    exact (Buckets.fill_eq_some_iff.mp hconf).1
  · intro h
    exact ⟨_, Buckets.fill_eq_some_iff.mpr ⟨h, rfl⟩⟩

/-- `MAIN` goes on after all three checks. -/
theorem startUp_checks {e : Machine} {params : List LcoreParams} :
    (startUp e params).isSome = true ↔ checkLcoreParams e params = true
      ∧ checkPortConfig e params = true ∧ (initLcoreRxQueues params).isSome = true := by
  unfold startUp
  cases checkLcoreParams e params <;> cases checkPortConfig e params
    <;> cases initLcoreRxQueues params <;> simp

/-- **Which configurations are accepted.** -/
theorem startUp_isSome_iff (e : Machine) (params : List LcoreParams) :
    (startUp e params).isSome = true
      ↔ (∀ p ∈ params, p.queueId.toNat < maxRxQueuePerPort ∧ p.lcoreId ∈ e.lcores
          ∧ e.enabled p.portId = true ∧ p.portId.toNat < e.nbPorts)
        ∧ ∀ lcore, (params.filter fun p => p.lcoreId = lcore).length ≤ maxRxQueuePerLcore := by
  rw [startUp_checks, checkLcoreParams_iff, checkPortConfig_iff, initLcoreRxQueues_isSome_iff]
  constructor
  · rintro ⟨h1, h2, h3⟩
    exact ⟨fun p hp => ⟨(h1 p hp).1, (h1 p hp).2, h2 p hp⟩, h3⟩
  · rintro ⟨h, h3⟩
    exact ⟨fun p hp => ⟨(h p hp).1, (h p hp).2.1⟩, fun p hp => (h p hp).2.2, h3⟩

/-- The parameters of `lcore_params_array_default`. -/
def lcoreParamsArrayDefault : List LcoreParams :=
  [⟨0, 0, 2⟩, ⟨0, 1, 2⟩, ⟨0, 2, 2⟩, ⟨1, 0, 2⟩, ⟨1, 1, 2⟩, ⟨1, 2, 2⟩, ⟨2, 0, 2⟩, ⟨3, 0, 3⟩,
    ⟨3, 1, 3⟩]

/-- A machine with the lcores 2 and 3 and four ports. -/
def fourPorts : Machine := ⟨[2, 3], 15, 4, by decide⟩

/-- `MAX_CHECK_TIME` -/
def maxCheckTime : Nat := 90

/-- What `check_all_ports_link_status` does: how often it waits for `CHECK_INTERVAL`, and the states
it prints. -/
structure LinkReport where
  delays : Nat
  printed : List (UInt8 × Bool)

section Links

-- the enabled ports, and the states that `rte_eth_link_get_nowait` gives in a round of the loop
variable (ports : List UInt8) (up : Nat → UInt8 → Bool)

/-- All ports are up in a round. -/
def allPortsUp (count : Nat) : Bool := ports.all (up count)

/-- `for (count = 0; count <= MAX_CHECK_TIME; count++)`, with the rounds that are left. -/
def linkLoop : Nat → Nat → Nat → Bool → LinkReport
  | 0, _, delays, _ => ⟨delays, []⟩
  | left + 1, count, delays, printFlag =>
      if printFlag then ⟨delays, ports.map fun portid => (portid, up count portid)⟩
      else
        linkLoop left (count + 1) (if allPortsUp ports up count then delays else delays + 1)
          (allPortsUp ports up count || count == maxCheckTime - 1)

/-- `check_all_ports_link_status` -/
def checkAllPortsLinkStatus : LinkReport := linkLoop ports up (maxCheckTime + 1) 0 0 false

/-- A round after the flag is set prints the states. -/
theorem linkLoop_print (left count delays : Nat) :
    linkLoop ports up (left + 1) count delays true
      = ⟨delays, ports.map fun portid => (portid, up count portid)⟩ := by
  rw [linkLoop, if_pos rfl]

/-- The loop from any round on: it waits up to the first round with all ports up, and prints what it
sees in the next one. -/
theorem linkLoop_eq (left count delays : Nat) (hcount : count + (left + 1) = maxCheckTime) :
    linkLoop ports up (left + 2) count delays false
      = let k := (List.range' count (left + 1)).findIdx (allPortsUp ports up)
        ⟨delays + k, ports.map fun portid => (portid, up (min (count + k + 1) maxCheckTime) portid)⟩ := by
  have hlimit : maxCheckTime = 90 := rfl
  rw [linkLoop, if_neg Bool.false_ne_true, List.range'_succ]
  dsimp only
  rw [List.findIdx_cons]
  cases hup : allPortsUp ports up count with
  | true =>
      rw [if_pos rfl, Bool.true_or, linkLoop_print, cond_true]
      simp only [Nat.add_zero]
      rw [Nat.min_eq_left (by omega)]
  | false =>
      rw [if_neg Bool.false_ne_true, Bool.false_or, cond_false]
      -- induction on the rounds that are left; the last one sets the flag in any case
      cases left with
      | zero =>
          have hlast : (count == maxCheckTime - 1) = true := by
            rw [beq_iff_eq]
            omega
          rw [hlast, linkLoop_print]
          simp only [List.range'_zero, List.findIdx_nil]
          rw [Nat.min_eq_right (by omega), show count + 1 = maxCheckTime by omega]
      | succ left =>
          have hgoes : (count == maxCheckTime - 1) = false := by
            rw [beq_eq_false_iff_ne]
            omega
          rw [hgoes, linkLoop_eq left (count + 1) (delays + 1) (by omega)]
          dsimp only
          rw [Nat.add_assoc delays, Nat.add_comm 1, Nat.add_assoc count, Nat.add_comm 1]

/-- **The wait for the links.** Whatever the links do, the loop waits 100 ms for each round before
the first one in which all enabled ports are up, but not for more than 90 rounds, and prints the
state that each enabled port has in the round behind. -/
theorem checkAllPortsLinkStatus_eq :
    checkAllPortsLinkStatus ports up
      = let k := (List.range maxCheckTime).findIdx (allPortsUp ports up)
        ⟨k, ports.map fun portid => (portid, up (min (k + 1) maxCheckTime) portid)⟩ := by
  have hloop := linkLoop_eq ports up 89 0 0 rfl
  simp only [Nat.zero_add, ← List.range_eq_range'] at hloop
  exact hloop

end Links

end Rm
