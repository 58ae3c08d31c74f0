import IcnPrototype.Rm.InStep
import IcnPrototype.Rm.MainLoop

set_option autoImplicit false

/-! # The arrays that the link table must fit

Four limits are built into an RM and checked nowhere: the 20 PIDs of a node, the 10 neighbours of
`pid_huancun_pid_a`, the 100 PIDs of the other arrays, and the `uint8_t` in which most loops over the
link table keep their bound. This file logs the indices that reading the configuration and handling
a packet use, and the bounds of the loops over the table.

`respected_iff` says which link tables are small enough that no sequence of packets uses an index
outside an array, and that no loop leaves out a row.
-/

namespace Rm

/-! ## The log -/

/-- An index into one of the arrays, or a loop over the rows of the link table with the bound
`number`. A loop that is made several times, or that ends before its bound, is logged once. -/
inductive Access where
  | pid (i : Nat)
  | pidHuancun (i : Nat)
  | pidNew (i : Nat)
  | pidHuancunPidA (ID i : Nat)
  | rows (number : Nat)
  deriving DecidableEq

/-- The index is inside the array; the bound of a loop is the number of rows. -/
def Access.Ok (rowCount : Nat) : Access → Prop
  | pid i => i < maxPidNumber
  | pidHuancun i => i < 100
  | pidNew i => i < 100
  | pidHuancunPidA ID i => ID < 10 ∧ i < 100
  | rows number => number = rowCount

instance (rowCount : Nat) : DecidablePred (Access.Ok rowCount)
  | .pid i => inferInstanceAs (Decidable (i < maxPidNumber))
  | .pidHuancun i => inferInstanceAs (Decidable (i < 100))
  | .pidNew i => inferInstanceAs (Decidable (i < 100))
  | .pidHuancunPidA ID i => inferInstanceAs (Decidable (ID < 10 ∧ i < 100))
  | .rows number => inferInstanceAs (Decidable (number = rowCount))

/-- `for (i = 0; i < number_pid; i++)` -/
def PidInfo.forPids (AS : PidInfo) (f : Nat → List Access) : List Access :=
  (List.range AS.numberPid).flatMap f

/-- `print_configuration_init_pid_change` -/
def printAccesses (chain : List PidInfo) : List Access :=
  chain.flatMap fun AS => AS.forPids fun i => [.pid i]

/-! ### Reading the configuration -/

/-- One pass of the loop of `read_configuration_init_pid_change_wxb`. -/
def readConfigurationRowAccesses (host : Nid) (s : List PidInfo × Nat) (item : NidIpNidIpNid) :
    List Access :=
  if compareNid host item.eid1 = 0 then
    match search s.1 item.eid2 with
    | some AS => [.pid AS.numberPid]
    | none => [.pid 0]
  else []

/-- `read_configuration_init_pid_change_wxb`, from the chain and the counter reached. -/
def readConfigurationAccesses (host : Nid) :
    List NidIpNidIpNid → List PidInfo × Nat → List Access
  | [], s => printAccesses s.1
  | item :: rest, s =>
      readConfigurationRowAccesses host s item ++
        match readConfigurationRow host s item with
        | some s' => readConfigurationAccesses host rest s'
        | none => []

/-! ### Committing -/

/-- The loop of `update_nid_ip_nid_ip_nid`, from `counter`. -/
def updateRowsAccesses (host eid : Nid) : Nat → List NidIpNidIpNid → List Access
  | _, [] => []
  | counter, item :: rest =>
      if item.isLink host eid then .pid counter :: updateRowsAccesses host eid (counter + 1) rest
      else updateRowsAccesses host eid counter rest

/-- The outer loop of `announce_ip_nid_ip`, from `counter`. The inner loop has the bound `number`. -/
def announceRowsAccesses (host : Nid) (AS : PidInfo) (number : Nat) :
    Nat → List NidIpNidIpNid → List Access
  | _, [] => []
  | counter, item :: rest =>
      if item.isLink host AS.eid then
        .pid counter ::
          if AS.pid[counter]? = some item.pid then
            .rows number ::
              if AS.numberPid ≤ counter + 1 then []
              else announceRowsAccesses host AS number (counter + 1) rest
          else announceRowsAccesses host AS number counter rest
      else announceRowsAccesses host AS number counter rest

/-- The common end of the two handlers that commit: `update_nid_ip_nid_ip_nid`,
`print_configuration_init_pid_change` and `announce_ip_nid_ip`. -/
def commitAccesses (host : Nid) (st : State) (AS : PidInfo) : List Access :=
  .rows (st.table.length % 256) :: updateRowsAccesses host AS.eid 0 (rows8 st.table) ++
    match updateNidIpNidIpNid host AS st.table with
    | some table =>
        printAccesses (writeNode st.headWxb AS) ++
          .rows (table.length % 256) ::
            announceRowsAccesses host AS (table.length % 256) 0 (rows8 table)
    | none => []

/-! ### The handlers -/

/-- The handler of `pid_change_request`. -/
def onPidChangeRequestAccesses (st : State) (p : CtlPacket) : List Access :=
  match search st.headWxb p.eid with
  | none => []
  | some AS => AS.forPids (fun i => [.pid i]) ++
      AS.forPids fun i => [.pid i, .pidHuancun i, .pidNew i]

/-- The handler of `pid_a`. The message of a clash prints the entry with the number `j` that the
packet has in its burst. -/
def onPidAAccesses (j : Nat) (st : State) (p : CtlPacket) : List Access :=
  match search st.headWxb p.eid with
  | none => []
  | some AS =>
      AS.forPids (fun i => [.pidHuancunPidA AS.id.toNat i]) ++
        .rows (st.table.length % 256) ::
          if different (rows8 st.table) (p.pids AS.numberPid) then [.pidHuancunPidA AS.id.toNat j]
          else []

/-- The handler of `pid_b`. -/
def onPidBAccesses (host : Nid) (st : State) (p : CtlPacket) : List Access :=
  match search st.headWxb p.eid with
  | none => []
  | some AS =>
      (st.headWxb.flatMap fun AASS => AASS.forPids fun i => AS.forPids fun _ => [.pid i]) ++
        if ackYes st.headWxb (p.pids AS.numberPid) then
          AS.forPids (fun i => [.pid i]) ++ commitAccesses host st (pidBNode AS p)
        else AS.forPids fun i => [.pidHuancun i, .pidNew i]

/-- The handler of `ack`. -/
def onAckAccesses (host : Nid) (st : State) (p : CtlPacket) : List Access :=
  match search st.headWxb p.eid with
  | none => []
  | some AS =>
      AS.forPids (fun i => [.pid i, .pidHuancunPidA AS.id.toNat i]) ++
        commitAccesses host st (ackNode st AS)

/-- What `main_loop` uses for a control packet, the packet `j` of its burst. -/
def negotiateAccesses (host : Nid) (j : Nat) (st : State) (p : CtlPacket) : List Access :=
  if p.controltype = controlPacketPid then
    if p.option &&& optionKindMask = optionKind0ChangeRequest then onPidChangeRequestAccesses st p
    else if p.option &&& optionKindMask = optionKind1A then onPidAAccesses j st p
    else if p.option &&& optionKindMask = optionKind2B then onPidBAccesses host st p
    else if p.option &&& optionKindMask = optionKind3Ack then onAckAccesses host st p
    else []
  else []

/-- Reading the configuration, and handling any packet after any sequence of packets, respects the
arrays and leaves out no row. -/
def Respected (host : Nid) (table : List NidIpNidIpNid) : Prop :=
  (∀ a ∈ readConfigurationAccesses host table ([], 0), a.Ok table.length)
    ∧ ∀ chain, readConfigurationInitPidChangeWxb host table = some chain →
      ∀ time cache packets st,
        Lts.exec (handle host) ⟨table, chain, time, cache⟩ packets = some st →
        ∀ j < maxPktBurst, ∀ p, ∀ a ∈ negotiateAccesses host j st p, a.Ok table.length

/-- The tables that fit. A host without neighbours may have any number of rows. -/
structure Fits (host : Nid) (table : List NidIpNidIpNid) : Prop where
  pids : ∀ eid, (linkPids host eid table).length ≤ maxPidNumber
  rows : neighbours host table = [] ∨ table.length ≤ 255
  neighbours : (neighbours host table).length ≤ 10

/-! ## Reading the configuration -/

section Loops

variable {rowCount : Nat}

theorem mem_forPids {AS : PidInfo} {f : Nat → List Access} {a : Access} :
    a ∈ AS.forPids f ↔ ∃ i < AS.numberPid, a ∈ f i := by
  rw [PidInfo.forPids, List.mem_flatMap]
  simp only [List.mem_range]

/-- A loop over the PIDs of a node, which are 20 at most. -/
theorem forPids_ok {AS : PidInfo} {f : Nat → List Access}
    (h : ∀ i < maxPidNumber, ∀ a ∈ f i, a.Ok rowCount) : ∀ a ∈ AS.forPids f, a.Ok rowCount := by
  intro a ha
  obtain ⟨i, hi, ha⟩ := mem_forPids.mp ha
  exact h i (Nat.lt_of_lt_of_le hi AS.pid_le) a ha

theorem printAccesses_ok (chain : List PidInfo) : ∀ a ∈ printAccesses chain, a.Ok rowCount := by
  intro a ha
  obtain ⟨AS, -, ha⟩ := List.mem_flatMap.mp ha
  refine forPids_ok (fun i hi a ha => ?_) a ha
  rw [List.mem_singleton] at ha
  exact ha ▸ hi

/-- A pass of the loop is defined if its index is inside `pid`. -/
theorem readConfigurationRow_isSome_iff {host : Nid} {s : List PidInfo × Nat}
    {item : NidIpNidIpNid} :
    (readConfigurationRow host s item).isSome = true
      ↔ ∀ a ∈ readConfigurationRowAccesses host s item, a.Ok rowCount := by
  unfold readConfigurationRow readConfigurationRowAccesses
  by_cases heid : compareNid host item.eid1 = 0
  · rw [if_pos heid, if_pos heid]
    cases hs : search s.1 item.eid2 with
    | none =>
        dsimp only
        rw [List.forall_mem_singleton]
        exact iff_of_true rfl (show 0 < maxPidNumber by decide)
    | some AS =>
        dsimp only
        rw [List.forall_mem_singleton]
        show _ ↔ AS.numberPid < maxPidNumber
        split
        · next hlt => exact iff_of_true rfl hlt
        · next hge => exact iff_of_false Bool.false_ne_true hge
  · rw [if_neg heid, if_neg heid]
    exact iff_of_true rfl (by simp)

/-- **Reading the configuration** is defined if all its indices are inside `pid`. -/
theorem readConfiguration_isSome_iff {host : Nid} {table : List NidIpNidIpNid}
    {s : List PidInfo × Nat} :
    (table.foldlM (readConfigurationRow host) s).isSome = true
      ↔ ∀ a ∈ readConfigurationAccesses host table s, a.Ok rowCount := by
  induction table generalizing s with
  | nil => exact iff_of_true rfl (printAccesses_ok s.1)
  | cons item rest ih =>
      rw [readConfigurationAccesses, List.forall_mem_append, List.foldlM_cons,
        ← readConfigurationRow_isSome_iff]
      cases hrow : readConfigurationRow host s item with
      | none => simp
      | some s' => simpa using ih

/-! ## Committing -/

theorem updateRowsAccesses_ok {host eid : Nid} {rows : List NidIpNidIpNid} {counter : Nat}
    (h : counter + (linkPids host eid rows).length ≤ maxPidNumber) :
    ∀ a ∈ updateRowsAccesses host eid counter rows, a.Ok rowCount := by
  induction rows generalizing counter with
  | nil => simp [updateRowsAccesses]
  | cons item rest ih =>
      unfold updateRowsAccesses
      by_cases hlink : item.isLink host eid = true
      · rw [linkPids_cons_of_link hlink, List.length_cons] at h
        rw [if_pos hlink, List.forall_mem_cons]
        exact ⟨show counter < maxPidNumber by omega, ih (by omega)⟩
      · rw [linkPids_cons_of_not hlink] at h
        rw [if_neg hlink]
        exact ih h

theorem announceRowsAccesses_ok {host : Nid} {AS : PidInfo} {rows : List NidIpNidIpNid}
    {counter : Nat} (h : counter + (linkPids host AS.eid rows).length ≤ maxPidNumber) :
    ∀ a ∈ announceRowsAccesses host AS rowCount counter rows, a.Ok rowCount := by
  induction rows generalizing counter with
  | nil => simp [announceRowsAccesses]
  | cons item rest ih =>
      unfold announceRowsAccesses
      by_cases hlink : item.isLink host AS.eid = true
      · rw [linkPids_cons_of_link hlink, List.length_cons] at h
        rw [if_pos hlink, List.forall_mem_cons]
        refine ⟨show counter < maxPidNumber by omega, ?_⟩
        split
        · rw [List.forall_mem_cons]
          refine ⟨rfl, ?_⟩
          split
          · simp
          · exact ih (by omega)
        · exact ih (by omega)
      · rw [linkPids_cons_of_not hlink] at h
        rw [if_neg hlink]
        exact ih h

/-- A commit in a state that is in step. -/
theorem commitAccesses_ok {host : Nid} {st : State} (hi : InStep host st)
    (hlength : st.table.length = rowCount) {AS AS' : PidInfo}
    (hs : search st.headWxb AS'.eid = some AS) (hn : AS'.numberPid = AS.numberPid) :
    ∀ a ∈ commitAccesses host st AS', a.Ok rowCount := by
  have hrows : st.table.length ≤ 255 := hi.rows
  have hmod : st.table.length % 256 = rowCount := by omega
  have hpids : (linkPids host AS'.eid st.table).length = AS'.pid.length := by
    rw [← search_eid hs, ← hi.pids AS (search_mem hs)]
    exact hn.symm
  obtain ⟨table, htable, hself, -⟩ := updateRows_eq_some hpids
  have hlength' : table.length = rowCount := (updateRows_length htable).trans hlength
  have hmod' : table.length % 256 = rowCount := by omega
  have hle : (linkPids host AS'.eid table).length ≤ maxPidNumber := hself ▸ AS'.pid_le
  unfold commitAccesses
  rw [updateNidIpNidIpNid_eq hrows, htable, hmod, rows8_eq_self hrows]
  dsimp only
  rw [hmod', rows8_eq_self (by omega)]
  simp only [List.forall_mem_append, List.forall_mem_cons, List.cons_append]
  refine ⟨rfl, updateRowsAccesses_ok ?_, printAccesses_ok _, rfl, announceRowsAccesses_ok ?_⟩
  · rw [hpids, Nat.zero_add]
    exact AS'.pid_le
  · rw [Nat.zero_add]
    exact hle

end Loops

/-! ## Packets -/

section Packets

variable {host : Nid} {st : State} {rowCount : Nat}

/-- A packet of an unknown sender uses nothing. -/
theorem negotiateAccesses_unknown {p : CtlPacket} (hs : search st.headWxb p.eid = none) (j : Nat) :
    negotiateAccesses host j st p = [] := by
  unfold negotiateAccesses onPidChangeRequestAccesses onPidAAccesses onPidBAccesses onAckAccesses
  rw [hs]
  simp

theorem pid_ok : ∀ i < maxPidNumber, ∀ a ∈ [Access.pid i], a.Ok rowCount := by
  intro i hi a ha
  rw [List.mem_singleton] at ha
  exact ha ▸ hi

theorem lt_hundred {i : Nat} (h : i < maxPidNumber) : i < 100 := Nat.lt_trans h (by decide)

variable {p : CtlPacket} {AS : PidInfo}

theorem onPidChangeRequestAccesses_ok (hs : search st.headWxb p.eid = some AS) :
    ∀ a ∈ onPidChangeRequestAccesses st p, a.Ok rowCount := by
  unfold onPidChangeRequestAccesses
  rw [hs]
  dsimp only
  rw [List.forall_mem_append]
  refine ⟨forPids_ok pid_ok, forPids_ok fun i hi => ?_⟩
  rw [List.forall_mem_cons, List.forall_mem_cons, List.forall_mem_singleton]
  exact ⟨hi, lt_hundred hi, lt_hundred hi⟩

theorem onPidAAccesses_ok (hi : InStep host st) (hlength : st.table.length = rowCount)
    (hs : search st.headWxb p.eid = some AS) (hid : AS.id.toNat < 10) {j : Nat}
    (hj : j < maxPktBurst) : ∀ a ∈ onPidAAccesses j st p, a.Ok rowCount := by
  unfold onPidAAccesses
  rw [hs]
  dsimp only
  rw [List.forall_mem_append, List.forall_mem_cons]
  refine ⟨forPids_ok fun i hi => ?_, ?_, ?_⟩
  · rw [List.forall_mem_singleton]
    exact ⟨hid, lt_hundred hi⟩
  · show st.table.length % 256 = rowCount
    have hrows := hi.rows
    omega
  · split
    · rw [List.forall_mem_singleton]
      exact ⟨hid, Nat.lt_trans hj (by decide)⟩
    · simp

theorem onPidBAccesses_ok (hi : InStep host st) (hlength : st.table.length = rowCount)
    (hs : search st.headWxb p.eid = some AS) : ∀ a ∈ onPidBAccesses host st p, a.Ok rowCount := by
  have hs' : search st.headWxb (pidBNode AS p).eid = some AS := by
    rw [pidBNode_eid, search_eid hs, hs]
  unfold onPidBAccesses
  rw [hs]
  dsimp only
  rw [List.forall_mem_append]
  refine ⟨fun a ha => ?_, ?_⟩
  · -- the PIDs of the packet are compared with those of every node
    obtain ⟨AASS, -, ha⟩ := List.mem_flatMap.mp ha
    refine forPids_ok (fun i hi a ha => ?_) a ha
    obtain ⟨-, -, ha⟩ := mem_forPids.mp ha
    exact pid_ok i hi a ha
  · split
    · rw [List.forall_mem_append]
      exact ⟨forPids_ok pid_ok, commitAccesses_ok hi hlength hs' (PidInfo.setPids_numberPid _ _)⟩
    · apply forPids_ok
      intro i hi
      rw [List.forall_mem_cons, List.forall_mem_singleton]
      exact ⟨lt_hundred hi, lt_hundred hi⟩

theorem onAckAccesses_ok (hi : InStep host st) (hlength : st.table.length = rowCount)
    (hs : search st.headWxb p.eid = some AS) (hid : AS.id.toNat < 10) :
    ∀ a ∈ onAckAccesses host st p, a.Ok rowCount := by
  have hs' : search st.headWxb (ackNode st AS).eid = some AS := by
    rw [ackNode_eid, search_eid hs, hs]
  unfold onAckAccesses
  rw [hs]
  dsimp only
  rw [List.forall_mem_append]
  refine ⟨forPids_ok fun i hi => ?_,
    commitAccesses_ok hi hlength hs' (PidInfo.setPids_numberPid _ _)⟩
  rw [List.forall_mem_cons, List.forall_mem_singleton]
  exact ⟨hi, hid, lt_hundred hi⟩

/-- **A packet in a state that is in step.** -/
theorem negotiateAccesses_ok (hi : InStep host st) (hlength : st.table.length = rowCount)
    (hids : ∀ AS ∈ st.headWxb, AS.id < 10) {j : Nat} (hj : j < maxPktBurst) (p : CtlPacket) :
    ∀ a ∈ negotiateAccesses host j st p, a.Ok rowCount := by
  cases hs : search st.headWxb p.eid with
  | none =>
      rw [negotiateAccesses_unknown hs]
      simp
  | some AS =>
      have hid : AS.id.toNat < 10 := UInt8.lt_iff_toNat_lt.mp (hids AS (search_mem hs))
      unfold negotiateAccesses
      split
      · split
        · exact onPidChangeRequestAccesses_ok hs
        · split
          · exact onPidAAccesses_ok hi hlength hs hid hj
          · split
            · exact onPidBAccesses_ok hi hlength hs
            · split
              · exact onAckAccesses_ok hi hlength hs hid
              · simp
      · simp

end Packets

/-! ## The tables that fit -/

/-- No packet changes the number of rows. -/
theorem negotiate_table_length {host : Nid} {rand : Nat} {st st' : State} {p : CtlPacket}
    {sent : List Send} (h : negotiate host rand st p = some (st', sent)) :
    st'.table.length = st.table.length := by
  rcases negotiate_cases h with rfl | ⟨AS, pids, -, -, -, rfl⟩ | ⟨AS, AS', announced, -, -, -, -, hc⟩
  · rfl
  · rfl
  · obtain ⟨rows, hrows, hst'⟩ := Option.map_eq_some_iff.mp (commit_eq_some hc).1
    have hlen := updateRows_length hrows
    have hle : st.table.length % 256 ≤ st.table.length := Nat.mod_le _ _
    rw [rows8, List.length_take, Nat.min_eq_left hle] at hlen
    rw [← hst', List.length_append, List.length_drop, hlen]
    omega

section Fits

variable {host : Nid} {table : List NidIpNidIpNid}

/-- A table that fits is respected. -/
theorem Fits.respected (h : Fits host table) : Respected host table := by
  obtain ⟨chain, hchain⟩ := Option.isSome_iff_exists.mp (readConfiguration_isSome h.pids)
  refine ⟨?_, ?_⟩
  · rw [← readConfiguration_isSome_iff]
    have hsome := readConfiguration_isSome h.pids
    rwa [readConfigurationInitPidChangeWxb, Option.isSome_map] at hsome
  intro chain' hchain' time cache packets st hexec j hj p
  rw [hchain, Option.some.injEq] at hchain'
  subst hchain'
  have hread := readConfiguration_readFrom hchain
  have hshape : shape st.headWxb = shape chain ∧ st.table.length = table.length := by
    refine Lts.exec_invariant
      (P := fun st => shape st.headWxb = shape chain ∧ st.table.length = table.length) ?_
      ⟨rfl, rfl⟩ hexec
    rintro s a s' ⟨hshape, hlength⟩ hstep
    obtain ⟨sent, hneg⟩ := handle_eq_some.mp hstep
    exact ⟨(negotiate_shape hneg).trans hshape, (negotiate_table_length hneg).trans hlength⟩
  obtain ⟨hshape, hlength⟩ := hshape
  rcases h.rows with hnone | hrows
  · -- without neighbours every sender is unknown
    have hempty : chain = [] := by
      rw [← List.map_eq_nil_iff (f := PidInfo.eid)]
      exact hread.eids.trans hnone
    have hs : search st.headWxb p.eid = none := by
      rw [hempty, shape, shape, List.map_nil, List.map_eq_nil_iff] at hshape
      rw [hshape]
      rfl
    rw [negotiateAccesses_unknown hs]
    simp
  · have hi : InStep host st := by
      refine Lts.exec_invariant (P := InStep host) ?_ (InStep.init hrows hread time cache) hexec
      intro s a s' hi hstep
      obtain ⟨sent, hneg⟩ := handle_eq_some.mp hstep
      exact hi.negotiate hneg
    have hids : ∀ AS ∈ st.headWxb, AS.id < 10 := by
      intro AS hAS
      have hlen : chain.length ≤ 10 := by
        have hcount := h.neighbours
        rwa [← hread.eids, List.length_map] at hcount
      have hmem : (AS.eid, AS.id, AS.numberPid) ∈ shape chain := hshape ▸ List.mem_map_of_mem hAS
      obtain ⟨node, hnode, heq⟩ := List.mem_map.mp hmem
      rw [Prod.mk.injEq, Prod.mk.injEq] at heq
      rw [← heq.2.1]
      exact hread.id_lt hlen node hnode
    exact negotiateAccesses_ok hi hlength hids hj p

/-- A `pid_a` of a neighbour. -/
def pidAFrom (eid : Nid) : CtlPacket := ⟨controlPacketPid, optionKind1A, eid, fun _ => 0⟩

theorem negotiateAccesses_pidAFrom (host eid : Nid) (j : Nat) (st : State) :
    negotiateAccesses host j st (pidAFrom eid) = onPidAAccesses j st (pidAFrom eid) := by
  unfold negotiateAccesses
  rw [if_pos (by rfl), if_neg (by show ¬ optionKind1A &&& optionKindMask = _; decide),
    if_pos (by show optionKind1A &&& optionKindMask = _; decide)]

/-- In a table that is respected, a `pid_a` of a neighbour uses a line of `pid_huancun_pid_a` and
all rows. -/
theorem Respected.pidA (h : Respected host table) {chain : List PidInfo}
    (hchain : readConfigurationInitPidChangeWxb host table = some chain) {AS : PidInfo}
    (hmem : AS ∈ chain) : AS.id.toNat < 10 ∧ table.length ≤ 255 := by
  have hread := readConfiguration_readFrom hchain
  have hnodup : (chain.map PidInfo.eid).Nodup := hread.eids ▸ neighbours_nodup host table
  -- the node that `search` finds is this one
  have hs : search chain AS.eid = some AS := by
    obtain ⟨AS', hs⟩ := search_eq_some_of_mem (List.mem_map_of_mem (f := PidInfo.eid) hmem)
    rw [hs, List.inj_on_of_nodup_map hnodup (search_mem hs) hmem (search_eid hs)]
  have hpos : 0 < AS.numberPid := by
    have hne := linkPids_ne_nil (hread.eids ▸ List.mem_map_of_mem hmem : AS.eid ∈ neighbours host table)
    rw [← hread.pids AS hmem] at hne
    exact List.length_pos_iff.mpr hne
  have hok := h.2 chain hchain 0 (fun _ _ => 0) [] _ rfl 0 (by decide) (pidAFrom AS.eid)
  rw [negotiateAccesses_pidAFrom, onPidAAccesses] at hok
  dsimp only [pidAFrom] at hok
  rw [hs] at hok
  dsimp only at hok
  rw [List.forall_mem_append, List.forall_mem_cons] at hok
  obtain ⟨hcache, hrows, -⟩ := hok
  have hline := hcache _ (mem_forPids.mpr ⟨0, hpos, List.mem_singleton_self _⟩)
  have hbound : table.length % 256 = table.length := hrows
  exact ⟨hline.1, by omega⟩

/-- A table that is respected fits. -/
theorem Respected.fits (h : Respected host table) : Fits host table := by
  have hsome := readConfiguration_isSome_iff.mpr h.1
  have hread? : (readConfigurationInitPidChangeWxb host table).isSome = true := by
    rwa [readConfigurationInitPidChangeWxb, Option.isSome_map]
  obtain ⟨chain, hchain⟩ := Option.isSome_iff_exists.mp hread?
  have hread := readConfiguration_readFrom hchain
  have heids : chain.map PidInfo.eid = neighbours host table := hread.eids
  refine ⟨fun eid => ?_, ?_, ?_⟩
  · by_cases heid : eid ∈ neighbours host table
    · rw [← heids] at heid
      obtain ⟨AS, hmem, rfl⟩ := List.mem_map.mp heid
      rw [← hread.pids AS hmem]
      exact AS.pid_le
    · rw [linkPids_eq_nil heid]
      exact Nat.zero_le _
  · cases hnone : chain with
    | nil =>
        rw [hnone] at heids
        exact Or.inl heids.symm
    | cons AS next => exact Or.inr (h.pidA hchain (hnone ▸ List.mem_cons_self)).2
  · rw [← heids, List.length_map]
    by_contra hlen
    -- the eleventh neighbour has the `ID` 10
    have hten : 10 < chain.length := by omega
    have hids : chain.map PidInfo.id = (List.range chain.length).map UInt8.ofNat := hread.ids
    have hid : (chain[10]).id = 10 := by
      have hget := congrArg (fun ids => ids[10]?) hids
      simpa [hten] using hget
    have hlt := (h.pidA hchain (List.getElem_mem hten)).1
    rw [hid] at hlt
    exact absurd hlt (by decide)

/-- **The limits of the configuration.** Reading a link table and handling any sequence of
negotiation packets stays inside the arrays, with loops over all rows, if and only if the table
has at most 20 rows for a neighbour, at most 10 neighbours and, if any, at most 255 rows. -/
theorem respected_iff (host : Nid) (table : List NidIpNidIpNid) :
    Respected host table ↔ Fits host table :=
  ⟨Respected.fits, Fits.respected⟩

/-- Twenty-one links to one neighbour. -/
def tooManyLinks : List NidIpNidIpNid := List.replicate 21 (link 1 2 10)

/-- The 21st PID is written behind the end of `pid`. -/
theorem not_respected_tooManyLinks : ¬ Respected (.ofByte 1) tooManyLinks := by
  intro h
  exact absurd (h.1 (.pid 20) (by decide)) (by decide)

end Fits

end Rm
