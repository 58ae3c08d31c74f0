import IcnPrototype.Lib.Run
import IcnPrototype.Rm.ReadConfiguration

set_option autoImplicit false

/-! # The chain and the link table stay in step

The PIDs of an RM are kept twice: in the nodes of the chain and in the rows of the link table.
`InStep` says that they are the same PIDs in the same order. The configuration establishes it,
and a commit keeps it because `update_nid_ip_nid_ip_nid` writes the PIDs of the node back into
exactly the rows of this node.

`InStep` is also what the handlers rely on where C leaves the behaviour undefined: it makes
`find_ip_or_pid` find a row and keeps the running counters of the commit inside their arrays.
So a packet of a known neighbour is always handled (`negotiate_isSome`).
-/

namespace Rm

/-- **The chain and the table are in step.** -/
structure InStep (host : Nid) (st : State) : Prop where
  rows : st.table.length ≤ 255
  nodup : (st.headWxb.map PidInfo.eid).Nodup
  pids : ∀ node ∈ st.headWxb, node.pid = linkPids host node.eid st.table
  nonempty : ∀ node ∈ st.headWxb, node.pid ≠ []

/-! ## The rows of a neighbour -/

theorem linkPids_cons_of_link {host eid : Nid} {item : NidIpNidIpNid} {rest : List NidIpNidIpNid}
    (h : item.isLink host eid = true) :
    linkPids host eid (item :: rest) = item.pid :: linkPids host eid rest := by
  rw [linkPids, List.filter_cons_of_pos h, List.map_cons, ← linkPids]

theorem linkPids_cons_of_not {host eid : Nid} {item : NidIpNidIpNid} {rest : List NidIpNidIpNid}
    (h : ¬ item.isLink host eid = true) :
    linkPids host eid (item :: rest) = linkPids host eid rest := by
  rw [linkPids, List.filter_cons_of_neg h, ← linkPids]

/-- **The rows after an update.** The rows of the neighbour get the PIDs of the node, those of
another neighbour keep theirs. -/
theorem updateRows_eq_some {host eid : Nid} {pids : List UInt32} {rows : List NidIpNidIpNid}
    (hlen : (linkPids host eid rows).length = pids.length) :
    ∃ rows', updateRows host eid pids rows = some rows'
      ∧ linkPids host eid rows' = pids
      ∧ ∀ eid' ≠ eid, linkPids host eid' rows' = linkPids host eid' rows := by
  induction rows generalizing pids with
  | nil =>
      have hnil : pids = [] := List.eq_nil_of_length_eq_zero (by simpa [linkPids] using hlen.symm)
      subst hnil
      exact ⟨[], by simp [updateRows], rfl, fun _ _ => rfl⟩
  | cons item rest ih =>
      unfold updateRows
      by_cases h : item.isLink host eid = true
      · rw [linkPids_cons_of_link h] at hlen
        cases pids with
        | nil => cases hlen
        | cons pid pids =>
            obtain ⟨rest', hrest, hself, hother⟩ := ih (Nat.succ.inj hlen)
            refine ⟨{ item with pid := pid } :: rest', by simp [h, hrest], ?_, ?_⟩
            · have h' : ({ item with pid := pid } : NidIpNidIpNid).isLink host eid = true := h
              rw [linkPids_cons_of_link h', hself]
            · -- a row of `eid` is a row of no other neighbour
              intro eid' hne
              have h' : ¬ item.isLink host eid' = true := by
                rw [NidIpNidIpNid.isLink_iff] at h ⊢
                exact fun e => hne (e.2.symm.trans h.2)
              have h'' : ¬ ({ item with pid := pid } : NidIpNidIpNid).isLink host eid' = true := h'
              rw [linkPids_cons_of_not h'', linkPids_cons_of_not h', hother eid' hne]
      · rw [linkPids_cons_of_not h] at hlen
        obtain ⟨rest', hrest, hself, hother⟩ := ih hlen
        refine ⟨item :: rest', by simp [h, hrest], by rw [linkPids_cons_of_not h, hself], ?_⟩
        intro eid' hne
        by_cases h' : item.isLink host eid' = true
        · rw [linkPids_cons_of_link h', linkPids_cons_of_link h', hother eid' hne]
        · rw [linkPids_cons_of_not h', linkPids_cons_of_not h', hother eid' hne]

theorem updateNidIpNidIpNid_eq {host : Nid} {AS : PidInfo} {table : List NidIpNidIpNid}
    (hrows : table.length ≤ 255) :
    updateNidIpNidIpNid host AS table = updateRows host AS.eid AS.pid table := by
  have hdrop : table.drop (table.length % 256) = [] := by
    rw [Nat.mod_eq_of_lt (by omega), List.drop_length]
  rw [updateNidIpNidIpNid, rows8_eq_self hrows, hdrop]
  simp

/-- When the rows carry the PIDs of the node, every row of the neighbour is announced, and no PID
behind the last is read. -/
theorem announceRows_eq {host eid : Nid} {all : List NidIpNidIpNid} :
    ∀ rows : List NidIpNidIpNid,
      announceRows host eid all (linkPids host eid rows) rows
        = some ((rows.filter (NidIpNidIpNid.isLink host eid)).flatMap (announceTo host all))
  | [] => by simp [announceRows]
  | item :: rest => by
      unfold announceRows
      by_cases h : item.isLink host eid = true
      · rw [linkPids_cons_of_link h, if_pos h, List.filter_cons_of_pos h, List.flatMap_cons]
        simp only [if_true]
        split
        · next hlast =>
            -- no PID is left, so no row is
            have hrest : rest.filter (NidIpNidIpNid.isLink host eid) = [] :=
              List.map_eq_nil_iff.mp hlast
            rw [hrest, List.flatMap_nil, List.append_nil]
        · rw [announceRows_eq rest, Option.map_some]
      · rw [linkPids_cons_of_not h, if_neg h, List.filter_cons_of_neg h]
        exact announceRows_eq rest

/-- `find_ip_or_pid` finds a row for every neighbour that has a link. -/
theorem findIpOrPid_isSome {host : Nid} {table : List NidIpNidIpNid} {AS : PidInfo}
    (h : linkPids host AS.eid table ≠ []) (type : PathField) :
    (findIpOrPid host table AS type).isSome = true := by
  rw [findIpOrPid, Option.isSome_map, List.find?_isSome]
  rw [linkPids, Ne, List.map_eq_nil_iff, List.filter_eq_nil_iff] at h
  simpa only [not_forall, not_not, exists_prop] using h

/-- A commit of as many PIDs as the neighbour has rows is defined. It writes the PIDs into these
rows, announces them, and leaves the rows of the other neighbours alone. -/
theorem commit_of_length {host : Nid} {st : State} {AS : PidInfo} (hrows : st.table.length ≤ 255)
    (hlen : (linkPids host AS.eid st.table).length = AS.pid.length) :
    ∃ table, commit host st AS
        = some ({ st with table := table, headWxb := writeNode st.headWxb AS },
            (table.filter (NidIpNidIpNid.isLink host AS.eid)).flatMap (announceTo host table))
      ∧ table.length ≤ 255
      ∧ linkPids host AS.eid table = AS.pid
      ∧ ∀ eid ≠ AS.eid, linkPids host eid table = linkPids host eid st.table := by
  obtain ⟨table, htable, hself, hother⟩ := updateRows_eq_some hlen
  have hlength : table.length ≤ 255 := by
    rw [updateRows_length htable]
    exact hrows
  have hannounce : announceIpNidIp host AS table
      = some ((table.filter (NidIpNidIpNid.isLink host AS.eid)).flatMap (announceTo host table)) := by
    rw [announceIpNidIp, rows8_eq_self hlength, ← hself]
    exact announceRows_eq table
  refine ⟨table, ?_, hlength, hself, hother⟩
  simp [commit, updateNidIpNidIpNid_eq hrows, htable, hannounce]

namespace InStep

variable {host : Nid} {st : State}

theorem findIpOrPid_isSome (hi : InStep host st) {AS : PidInfo} (hmem : AS ∈ st.headWxb)
    (type : PathField) : (findIpOrPid host st.table AS type).isSome = true :=
  Rm.findIpOrPid_isSome (hi.pids AS hmem ▸ hi.nonempty AS hmem) type

/-- The two paths to a neighbour that a handler writes into its packet. -/
theorem findIpOrPid_eq_some (hi : InStep host st) {eid : Nid} {AS : PidInfo}
    (hs : search st.headWxb eid = some AS) :
    ∃ pidPath ipPath, findIpOrPid host st.table AS .pid = some pidPath
      ∧ findIpOrPid host st.table AS .ip = some ipPath := by
  obtain ⟨pidPath, hpid⟩ := Option.isSome_iff_exists.mp (hi.findIpOrPid_isSome (search_mem hs) .pid)
  obtain ⟨ipPath, hip⟩ := Option.isSome_iff_exists.mp (hi.findIpOrPid_isSome (search_mem hs) .ip)
  exact ⟨pidPath, ipPath, hpid, hip⟩

/-! ## A commit -/

/-- **A commit is defined and keeps the chain and the table in step.** -/
theorem commit_eq_some (hi : InStep host st) {AS AS' : PidInfo}
    (hs : search st.headWxb AS'.eid = some AS) (hn : AS'.numberPid = AS.numberPid) :
    ∃ st' announced, commit host st AS' = some (st', announced) ∧ InStep host st' := by
  have heid : AS.eid = AS'.eid := search_eid hs
  have hmem : AS ∈ st.headWxb := search_mem hs
  have hlen : (linkPids host AS'.eid st.table).length = AS'.pid.length := by
    rw [← heid, ← hi.pids AS hmem]
    exact hn.symm
  obtain ⟨table, hc, hlength, hself, hother⟩ := commit_of_length hi.rows hlen
  refine ⟨_, _, hc, ?_⟩
  refine ⟨hlength, by simpa using hi.nodup, ?_, ?_⟩
  · intro node hnode
    rcases mem_writeNode hi.nodup hnode with rfl | ⟨hmem', hne⟩
    · exact hself.symm
    · exact (hi.pids node hmem').trans (hother node.eid hne).symm
  · intro node hnode
    rcases mem_writeNode hi.nodup hnode with rfl | ⟨hmem', -⟩
    · rw [← List.length_pos_iff]
      have hpos := List.length_pos_iff.mpr (hi.nonempty AS hmem)
      rw [← PidInfo.numberPid, ← hn] at hpos
      exact hpos
    · exact hi.nonempty node hmem'

/-! ## Packets -/

/-- **Every packet keeps the chain and the table in step.** -/
theorem negotiate (hi : InStep host st) {rand : Nat} {st' : State} {p : CtlPacket}
    {sent : List Send} (h : negotiate host rand st p = some (st', sent)) : InStep host st' := by
  rcases negotiate_cases h with rfl | ⟨AS, pids, -, -, -, rfl⟩ | ⟨AS, AS', announced, hs, heid, -, hn, hc⟩
  · exact hi
  · exact ⟨hi.rows, hi.nodup, hi.pids, hi.nonempty⟩
  · rw [← search_eid hs, ← heid] at hs
    obtain ⟨st₁, announced₁, hc₁, hi₁⟩ := hi.commit_eq_some hs hn
    rw [hc, Option.some.injEq, Prod.mk.injEq] at hc₁
    exact hc₁.1 ▸ hi₁

theorem onPidChangeRequest_isSome (hi : InStep host st) (rand : Nat) (p : CtlPacket) :
    (onPidChangeRequest host rand st p).isSome = true := by
  rw [onPidChangeRequest]
  cases hs : search st.headWxb p.eid with
  | none => rfl
  | some AS =>
      obtain ⟨pidPath, ipPath, hpid, hip⟩ := hi.findIpOrPid_eq_some hs
      simp [hpid, hip]

theorem onPidA_isSome (hi : InStep host st) (rand : Nat) {p : CtlPacket} {AS : PidInfo}
    (hs : search st.headWxb p.eid = some AS) (hid : AS.id < 10) :
    (onPidA host rand st p).isSome = true := by
  obtain ⟨pidPath, ipPath, hpid, hip⟩ := hi.findIpOrPid_eq_some hs
  have hloop := @whileDifferent_isSome (rows8 st.table) (UInt32.ofNat (rand % 101 + 1))
    (p.pids AS.numberPid) (rows8_length_le st.table) (by simpa [PidInfo.numberPid] using AS.pid_le)
    (by rw [number_toNat]; omega)
    (by rw [number_toNat]; have := Nat.mod_lt rand (show 101 > 0 by decide); omega)
  rw [CtlPacket.pids_length] at hloop
  obtain ⟨pids, hpids⟩ := Option.isSome_iff_exists.mp hloop
  simp only [onPidA, hs, hid, hpids, hpid, hip, if_true, Option.bind_eq_bind, Option.bind_some,
    Option.pure_def, Option.isSome_some]

theorem onPidB_isSome (hi : InStep host st) (rand : Nat) (p : CtlPacket) :
    (onPidB host rand st p).isSome = true := by
  rw [onPidB]
  cases hs : search st.headWxb p.eid with
  | none => rfl
  | some AS =>
      obtain ⟨pidPath, ipPath, hpid, hip⟩ := hi.findIpOrPid_eq_some hs
      have hs' : search st.headWxb (pidBNode AS p).eid = some AS := by
        rw [pidBNode_eid, search_eid hs, hs]
      obtain ⟨st', announced, hc, -⟩ := hi.commit_eq_some hs' (PidInfo.setPids_numberPid _ _)
      rw [pidBNode] at hc
      simp only [hpid, hip, hc, Option.bind_eq_bind, Option.bind_some, Option.pure_def]
      split <;> rfl

theorem onAck_isSome (hi : InStep host st) {p : CtlPacket} {AS : PidInfo}
    (hs : search st.headWxb p.eid = some AS) (hid : AS.id < 10) :
    (onAck host st p).isSome = true := by
  have hs' : search st.headWxb (ackNode st AS).eid = some AS := by
    rw [ackNode_eid, search_eid hs, hs]
  obtain ⟨st', announced, hc, -⟩ := hi.commit_eq_some hs' (PidInfo.setPids_numberPid _ _)
  rw [ackNode] at hc
  simp [onAck, hs, hid, hc]

/-- **A packet of a known neighbour is always handled.** -/
theorem negotiate_isSome (hi : InStep host st) (rand : Nat) {p : CtlPacket} {AS : PidInfo}
    (hs : search st.headWxb p.eid = some AS) (hid : AS.id < 10) :
    (Rm.negotiate host rand st p).isSome = true := by
  rw [Rm.negotiate]
  split
  · split
    · exact hi.onPidChangeRequest_isSome rand p
    · split
      · exact hi.onPidA_isSome rand hs hid
      · split
        · exact hi.onPidB_isSome rand p
        · split
          · exact hi.onAck_isSome hs hid
          · rfl
  · rfl

/-! ## The configuration -/

theorem init {table : List NidIpNidIpNid} {chain : List PidInfo} (hrows : table.length ≤ 255)
    (hread : ReadFrom host table (chain, chain.length)) (time : UInt32)
    (cache : Nat → Nat → UInt32) : InStep host ⟨table, chain, time, cache⟩ where
  rows := hrows
  nodup := hread.eids ▸ neighbours_nodup host table
  pids := hread.pids
  nonempty node hnode := by
    rw [hread.pids node hnode]
    exact linkPids_ne_nil (hread.eids ▸ List.mem_map_of_mem hnode)

end InStep

/-! ## Runs -/

/-- One packet and the number that `rand()` returns for it, as a step on the state. -/
def handle (host : Nid) (st : State) (a : Nat × CtlPacket) : Option State :=
  (negotiate host a.1 st a.2).map Prod.fst

theorem handle_eq_some {host : Nid} {st st' : State} {a : Nat × CtlPacket} :
    handle host st a = some st' ↔ ∃ sent, negotiate host a.1 st a.2 = some (st', sent) := by
  simp [handle]

/-- The `ID`s of the nodes are their places in the chain. -/
theorem ReadFrom.id_lt {host : Nid} {table : List NidIpNidIpNid} {chain : List PidInfo}
    (hread : ReadFrom host table (chain, chain.length)) (hlen : chain.length ≤ 10) :
    ∀ node ∈ chain, node.id < 10 := by
  intro node hnode
  have hmem : node.id ∈ (List.range chain.length).map UInt8.ofNat :=
    hread.ids ▸ List.mem_map_of_mem hnode
  obtain ⟨i, hi, heq⟩ := List.mem_map.mp hmem
  rw [List.mem_range] at hi
  rw [← heq, UInt8.lt_iff_toNat_lt, UInt8.toNat_ofNat', Nat.mod_eq_of_lt (by omega)]
  show i < 10
  omega

/-- The `ID`s of a chain are different as long as they fit into a byte. -/
theorem ReadFrom.ids_nodup {host : Nid} {table : List NidIpNidIpNid} {chain : List PidInfo}
    (hread : ReadFrom host table (chain, chain.length)) (hlen : chain.length ≤ 256) :
    (chain.map PidInfo.id).Nodup := by
  have hids : chain.map PidInfo.id = (List.range chain.length).map UInt8.ofNat := hread.ids
  rw [hids]
  refine (List.nodup_map_iff_inj_on List.nodup_range).mpr fun i hi j hj heq => ?_
  have h := congrArg UInt8.toNat heq
  rw [List.mem_range] at hi hj
  rwa [UInt8.toNat_ofNat', UInt8.toNat_ofNat', Nat.mod_eq_of_lt (by omega),
    Nat.mod_eq_of_lt (by omega)] at h

/-- Chains of one shape have a node for the same neighbours, with the same `ID`. -/
theorem search_of_shape {chain chain' : List PidInfo} (h : shape chain' = shape chain) {eid : Nid}
    {AS : PidInfo} (hs : search chain eid = some AS) :
    ∃ AS', search chain' eid = some AS' ∧ AS'.id = AS.id ∧ AS'.numberPid = AS.numberPid := by
  induction chain generalizing chain' with
  | nil => cases hs
  | cons node next ih =>
      cases chain' with
      | nil => cases h
      | cons node' next' =>
          simp only [shape, List.map_cons, List.cons.injEq, Prod.mk.injEq] at h
          obtain ⟨⟨heid, hid, hn⟩, hrest⟩ := h
          rw [search] at hs ⊢
          rw [heid]
          split at hs
          · next heq =>
              rw [Option.some.injEq] at hs
              subst hs
              exact ⟨node', if_pos heq, hid, hn⟩
          · next hne =>
              obtain ⟨AS', hAS', hrest'⟩ := ih hrest hs
              exact ⟨AS', by rw [if_neg hne, hAS'], hrest'⟩

/-- **The chain and the link table stay in step.** For every link table within the limits the
configuration gives one node per neighbour in order of first appearance; after every sequence
of negotiation packets the nodes are the same, each holds exactly the PIDs of its rows in table
order, `find_ip_or_pid` finds a row for each of them, and the next packet of any neighbour is
handled. -/
theorem chain_table_in_step (host : Nid) (table : List NidIpNidIpNid)
    (hrows : table.length ≤ 255) (hneighbours : (neighbours host table).length ≤ 10)
    (hpids : ∀ eid, (linkPids host eid table).length ≤ maxPidNumber) :
    ∃ chain, readConfigurationInitPidChangeWxb host table = some chain
      ∧ chain.map PidInfo.eid = neighbours host table
      ∧ ∀ time cache packets st,
          Lts.exec (handle host) ⟨table, chain, time, cache⟩ packets = some st →
          shape st.headWxb = shape chain
            ∧ (∀ AS ∈ st.headWxb, linkPids host AS.eid st.table = AS.pid
                ∧ ∀ type, (findIpOrPid host st.table AS type).isSome = true)
            ∧ ∀ rand p, p.eid ∈ neighbours host table →
                (negotiate host rand st p).isSome = true := by
  obtain ⟨chain, hchain⟩ := Option.isSome_iff_exists.mp (readConfiguration_isSome hpids)
  have hread := readConfiguration_readFrom hchain
  refine ⟨chain, hchain, hread.eids, ?_⟩
  intro time cache packets st hexec
  have hrun : InStep host st ∧ shape st.headWxb = shape chain := by
    refine Lts.exec_invariant (P := fun st => InStep host st ∧ shape st.headWxb = shape chain) ?_
      ⟨InStep.init hrows hread time cache, rfl⟩ hexec
    rintro s a s' ⟨hi, hshape⟩ hstep
    obtain ⟨sent, hneg⟩ := handle_eq_some.mp hstep
    exact ⟨hi.negotiate hneg, (negotiate_shape hneg).trans hshape⟩
  obtain ⟨hi, hshape⟩ := hrun
  refine ⟨hshape, ?_, ?_⟩
  · intro AS hAS
    exact ⟨(hi.pids AS hAS).symm, hi.findIpOrPid_isSome hAS⟩
  · intro rand p hp
    have hlen : chain.length ≤ 10 := by
      have h := hneighbours
      rwa [← hread.eids, List.length_map] at h
    -- the neighbour has a node with a small `ID` at the start, hence also now
    obtain ⟨AS, hs⟩ := search_eq_some_of_mem (hread.eids.symm ▸ hp)
    obtain ⟨AS', hs', hid, -⟩ := search_of_shape hshape hs
    exact hi.negotiate_isSome rand hs' (hid ▸ hread.id_lt hlen AS (search_mem hs))

theorem chain_table_in_step_threeRms :
    ∃ chain, readConfigurationInitPidChangeWxb (.ofByte 1) (threeRms (.ofByte 1)) = some chain
      ∧ chain.map PidInfo.eid = [.ofByte 2, .ofByte 3]
      ∧ ∀ time cache packets st,
          Lts.exec (handle (.ofByte 1)) ⟨threeRms (.ofByte 1), chain, time, cache⟩ packets = some st →
          shape st.headWxb = shape chain
            ∧ (∀ AS ∈ st.headWxb, linkPids (.ofByte 1) AS.eid st.table = AS.pid
                ∧ ∀ type, (findIpOrPid (.ofByte 1) st.table AS type).isSome = true)
            ∧ ∀ rand p, p.eid ∈ neighbours (.ofByte 1) (threeRms (.ofByte 1)) →
                (negotiate (.ofByte 1) rand st p).isSome = true :=
  chain_table_in_step (.ofByte 1) (threeRms (.ofByte 1)) (by decide) (by decide)
    fun eid => le_trans (linkPids_length_le _ _ _) (by decide)

end Rm
