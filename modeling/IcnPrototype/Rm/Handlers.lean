import IcnPrototype.Rm.Negotiation

set_option autoImplicit false

/-! # What the handlers can do

One lemma per handler says everything a handled packet can lead to: what happens to the state
and which messages are sent. The invariants of the negotiation are derived from these lemmas,
not from the definitions.

The loop `while (different)` of the `pid_a` handler has no counter. It ends because the PIDs
move along an arithmetic progression, in which every pair of a row and a PID can block one
point only: after `rows * number_pid` clashing passes there is no pair left
(`whileDifferent_isSome`).
-/

namespace Rm

open Host

/-! ## `while (different)` -/

theorem different_iff {rows : List NidIpNidIpNid} {pids : List UInt32} :
    different rows pids = true ↔ ∃ item ∈ rows, ∃ pid ∈ pids, pid = item.pid := by
  have hsub : ∀ a b : UInt32, a - b = 0 ↔ a = b := fun a b => by
    rw [UInt32.sub_eq_iff_eq_add, UInt32.zero_add]
  simp [different, hsub]

/-- The PIDs after `k` passes of the loop. -/
def shiftPids (number : UInt32) (k : Nat) (pids : List UInt32) : List UInt32 :=
  pids.map fun pid => pid + UInt32.ofNat k * number

@[simp] theorem shiftPids_length (number : UInt32) (k : Nat) (pids : List UInt32) :
    (shiftPids number k pids).length = pids.length := by
  simp [shiftPids]

@[simp] theorem shiftPids_zero (number : UInt32) (pids : List UInt32) :
    shiftPids number 0 pids = pids := by
  simp [shiftPids]

theorem shiftPids_succ (number : UInt32) (k : Nat) (pids : List UInt32) :
    shiftPids number (k + 1) pids = shiftPids number k (pids.map (· + number)) := by
  rw [shiftPids, shiftPids, List.map_map]
  apply List.map_congr_left
  intro pid _
  rw [Function.comp_apply, UInt32.ofNat_add, UInt32.add_mul, UInt32.add_comm (UInt32.ofNat k * number),
    ← UInt32.add_assoc]
  congr 2
  exact UInt32.one_mul number

/-- **The loop.** It leaves at the first pass whose PIDs are in no row. -/
theorem whileDifferent_eq_some {rows : List NidIpNidIpNid} {number : UInt32} {passes : Nat}
    {pids pids' : List UInt32} (h : whileDifferent rows number passes pids = some pids') :
    ∃ k < passes, pids' = shiftPids number k pids ∧ different rows pids' = false
      ∧ ∀ j < k, different rows (shiftPids number j pids) = true := by
  induction passes generalizing pids with
  | zero => cases h
  | succ passes ih =>
      rw [whileDifferent] at h
      split at h
      · next hdiff =>
          obtain ⟨k, hk, heq, hno, hall⟩ := ih h
          refine ⟨k + 1, by omega, by rw [heq, shiftPids_succ], hno, ?_⟩
          intro j hj
          cases j with
          | zero => rw [shiftPids_zero]; exact hdiff
          | succ j =>
              rw [shiftPids_succ]
              exact hall j (by omega)
      · next hno =>
          rw [Option.some.injEq] at h
          subst h
          exact ⟨0, by omega, by rw [shiftPids_zero], by simpa using hno, by omega⟩

theorem whileDifferent_eq_none {rows : List NidIpNidIpNid} {number : UInt32} {passes : Nat}
    {pids : List UInt32} (h : whileDifferent rows number passes pids = none) :
    ∀ j < passes, different rows (shiftPids number j pids) = true := by
  induction passes generalizing pids with
  | zero => omega
  | succ passes ih =>
      rw [whileDifferent] at h
      split at h
      · next hdiff =>
          intro j hj
          cases j with
          | zero => rw [shiftPids_zero]; exact hdiff
          | succ j =>
              rw [shiftPids_succ]
              exact ih h j (by omega)
      · cases h

/-- Passes below the bound move a PID to different places: nothing wraps around. -/
theorem shift_injective {number : UInt32} (hpos : 0 < number.toNat) (hle : number.toNat ≤ 101)
    {k k' : Nat} (hk : k ≤ 5100) (hk' : k' ≤ 5100)
    (h : UInt32.ofNat k * number = UInt32.ofNat k' * number) : k = k' := by
  have hmul : ∀ j ≤ 5100, (UInt32.ofNat j * number).toNat = j * number.toNat := by
    intro j hj
    have hj' : j * number.toNat ≤ 5100 * 101 := Nat.mul_le_mul hj hle
    rw [UInt32.toNat_mul, UInt32.toNat_ofNat', Nat.mod_eq_of_lt (a := j) (by omega),
      Nat.mod_eq_of_lt (by omega)]
  have heq := congrArg UInt32.toNat h
  rw [hmul k hk, hmul k' hk'] at heq
  exact Nat.eq_of_mul_eq_mul_right hpos heq

/-- **The loop ends.** If every one of the first `rows * number_pid + 1` passes clashed, two of
them would clash in the same row with the same PID. -/
theorem whileDifferent_isSome {rows : List NidIpNidIpNid} {number : UInt32} {pids : List UInt32}
    (hrows : rows.length ≤ 255) (hpids : pids.length ≤ maxPidNumber)
    (hpos : 0 < number.toNat) (hle : number.toNat ≤ 101) :
    (whileDifferent rows number (rows.length * pids.length + 1) pids).isSome = true := by
  cases hw : whileDifferent rows number (rows.length * pids.length + 1) pids with
  | some pids' => rfl
  | none =>
      exfalso
      have hclash := whileDifferent_eq_none hw
      have hbound : rows.length * pids.length ≤ 5100 :=
        le_trans (Nat.mul_le_mul hrows hpids) (by decide)
      -- the row and the PID that clash in each pass
      have hpair : ∀ j : Fin (rows.length * pids.length + 1),
          ∃ x : Fin rows.length × Fin pids.length,
            pids[x.2] + UInt32.ofNat j * number = rows[x.1].pid := by
        intro j
        obtain ⟨item, hitem, pid, hpid, heq⟩ := different_iff.mp (hclash j j.isLt)
        obtain ⟨p, hp, rfl⟩ := List.mem_map.mp hpid
        obtain ⟨r, hr, rfl⟩ := List.getElem_of_mem hitem
        obtain ⟨i, hi, rfl⟩ := List.getElem_of_mem hp
        exact ⟨(⟨r, hr⟩, ⟨i, hi⟩), heq⟩
      choose f hf using hpair
      obtain ⟨j, j', hne, hsame⟩ := Fintype.exists_ne_map_eq_of_card_lt f (by simp)
      have heq : pids[(f j').2] + UInt32.ofNat j * number
          = pids[(f j').2] + UInt32.ofNat j' * number :=
        calc pids[(f j').2] + UInt32.ofNat j * number
            = pids[(f j).2] + UInt32.ofNat j * number := by simp only [hsame]
          _ = rows[(f j).1].pid := hf j
          _ = rows[(f j').1].pid := by simp only [hsame]
          _ = pids[(f j').2] + UInt32.ofNat j' * number := (hf j').symm
      have hmul : UInt32.ofNat j * number = UInt32.ofNat j' * number :=
        (UInt32.add_right_inj _).mp heq
      have hj := j.isLt
      have hj' := j'.isLt
      exact hne (Fin.ext (shift_injective hpos hle (by omega) (by omega) hmul))

/-- The number of passes is fixed by the places where the PIDs clash: with `k` clashes before the
first free place the loop makes `k + 1` passes. -/
theorem whileDifferent_of_first {rows : List NidIpNidIpNid} {number : UInt32} :
    ∀ {k : Nat} {pids : List UInt32}, different rows (shiftPids number k pids) = false →
      (∀ j < k, different rows (shiftPids number j pids) = true) →
      ∀ passes, whileDifferent rows number passes pids
        = if k < passes then some (shiftPids number k pids) else none
  | _, _, _, _, 0 => by
      rw [whileDifferent, if_neg (Nat.not_lt_zero _)]
  | 0, pids, hno, _, passes + 1 => by
      rw [shiftPids_zero] at hno
      rw [whileDifferent, hno, if_pos (Nat.succ_pos passes), shiftPids_zero]
      rfl
  | k + 1, pids, hno, hall, passes + 1 => by
      have hdiff : different rows pids = true := by
        have h := hall 0 (Nat.succ_pos k)
        rwa [shiftPids_zero] at h
      rw [shiftPids_succ] at hno
      have hall' : ∀ j < k, different rows (shiftPids number j (pids.map (· + number))) = true := by
        intro j hj
        rw [← shiftPids_succ]
        exact hall (j + 1) (by omega)
      rw [whileDifferent, if_pos hdiff, whileDifferent_of_first hno hall' passes, ← shiftPids_succ]
      simp only [Nat.add_lt_add_iff_right]

/-- **The loop ends and finds free PIDs.** It makes `k + 1` passes for some
`k ≤ rows * number_pid`. All PIDs have then moved by `k * number`, none of them is the PID of a
row, and after every smaller number of moves one of them was. -/
theorem whileDifferent_finds_free (table : List NidIpNidIpNid) (pids : List UInt32)
    (number : UInt32) (hrows : table.length ≤ 255) (hpids : pids.length ≤ maxPidNumber)
    (hpos : 1 ≤ number.toNat) (hle : number.toNat ≤ 101) :
    ∃ k ≤ table.length * pids.length,
      (∀ passes, whileDifferent (rows8 table) number passes pids
          = if k < passes then some (pids.map fun pid => pid + UInt32.ofNat k * number) else none)
        ∧ (∀ pid ∈ pids, ∀ item ∈ table, pid + UInt32.ofNat k * number ≠ item.pid)
        ∧ ∀ j < k, ∃ pid ∈ pids, ∃ item ∈ table, pid + UInt32.ofNat j * number = item.pid := by
  rw [rows8_eq_self hrows]
  obtain ⟨pids', hsome⟩ := Option.isSome_iff_exists.mp (whileDifferent_isSome hrows hpids hpos hle)
  obtain ⟨k, hk, rfl, hno, hall⟩ := whileDifferent_eq_some hsome
  refine ⟨k, by omega, whileDifferent_of_first hno hall, ?_, ?_⟩
  · intro pid hpid item hitem heq
    have hclash : different table (shiftPids number k pids) = true :=
      different_iff.mpr ⟨item, hitem, _, List.mem_map_of_mem hpid, heq⟩
    rw [hno] at hclash
    cases hclash
  · intro j hj
    obtain ⟨item, hitem, pid', hpid', heq⟩ := different_iff.mp (hall j hj)
    obtain ⟨pid, hpid, rfl⟩ := List.mem_map.mp hpid'
    exact ⟨pid, hpid, item, hitem, heq⟩

/-- Both PIDs of the sponsor's links come back, and the step is 10. -/
theorem whileDifferent_finds_free_threeRms :
    ∃ k ≤ 4,
      (∀ passes, whileDifferent (rows8 (threeRms (.ofByte 1))) 10 passes [10, 20]
          = if k < passes then some ([10, 20].map fun pid => pid + UInt32.ofNat k * 10) else none)
        ∧ (∀ pid ∈ [10, 20], ∀ item ∈ threeRms (.ofByte 1),
            pid + UInt32.ofNat k * 10 ≠ item.pid)
        ∧ ∀ j < k, ∃ pid ∈ [10, 20], ∃ item ∈ threeRms (.ofByte 1),
            pid + UInt32.ofNat j * 10 = item.pid :=
  whileDifferent_finds_free (threeRms (.ofByte 1)) [10, 20] 10 (by decide) (by decide) (by decide)
    (by decide)

/-- `rand() % 101 + 1` -/
theorem number_toNat (rand : Nat) : (UInt32.ofNat (rand % 101 + 1)).toNat = rand % 101 + 1 := by
  have h : rand % 101 < 101 := Nat.mod_lt _ (by decide)
  rw [UInt32.toNat_ofNat', Nat.mod_eq_of_lt (by omega)]

/-! ## Committing -/

theorem updateRows_length {host eid : Nid} : ∀ {pids : List UInt32} {rows rows' : List NidIpNidIpNid},
    updateRows host eid pids rows = some rows' → rows'.length = rows.length
  | _, [], rows', h => by
      rw [updateRows, Option.some.injEq] at h
      rw [← h]
  | pids, item :: rest, rows', h => by
      unfold updateRows at h
      split at h
      · cases pids with
        | nil => cases h
        | cons pid pids =>
            obtain ⟨rest', hrest, rfl⟩ := Option.map_eq_some_iff.mp h
            rw [List.length_cons, List.length_cons, updateRows_length hrest]
      · obtain ⟨rest', hrest, rfl⟩ := Option.map_eq_some_iff.mp h
        rw [List.length_cons, List.length_cons, updateRows_length hrest]

/-- What `commit` changes: the node in the chain and its rows in the table. -/
theorem commit_eq_some {host : Nid} {st st' : State} {AS : PidInfo}
    {announced : List (AnnounceItem × UInt32)} (h : commit host st AS = some (st', announced)) :
    updateNidIpNidIpNid host AS st.table = some st'.table
      ∧ announceIpNidIp host AS st'.table = some announced
      ∧ st'.headWxb = writeNode st.headWxb AS
      ∧ st'.timeHuancunPidA = st.timeHuancunPidA
      ∧ st'.pidHuancunPidA = st.pidHuancunPidA := by
  simp only [commit, Option.bind_eq_bind, Option.bind_eq_some_iff, Option.pure_def,
    Option.some.injEq, Prod.mk.injEq] at h
  obtain ⟨table, ht, ann, ha, rfl, rfl⟩ := h
  exact ⟨ht, ha, rfl, rfl, rfl⟩

/-! ## One lemma per handler -/

/-- A `pid_change_request` changes nothing. A known neighbour is answered with `pid_a`. -/
theorem onPidChangeRequest_eq_some {host : Nid} {rand : Nat} {st st' : State} {p : CtlPacket}
    {sent : List Send} (h : onPidChangeRequest host rand st p = some (st', sent)) :
    st' = st ∧
      ((search st.headWxb p.eid = none ∧ sent = [])
        ∨ ∃ AS pidPath ipPath, search st.headWxb p.eid = some AS
          ∧ sent = [.pidA (htonl ((AS.pidChangeTime + UInt32.ofNat (rand % 101)) % 100))
              (AS.pid.map fun pid => htonl ((pid + UInt32.ofNat (rand % 101)) % 100))
              pidPath ipPath]) := by
  rw [onPidChangeRequest] at h
  cases hs : search st.headWxb p.eid with
  | none =>
      simp only [hs, Option.some.injEq, Prod.mk.injEq] at h
      exact ⟨h.1.symm, Or.inl ⟨rfl, h.2.symm⟩⟩
  | some AS =>
      simp only [hs, Option.bind_eq_bind, Option.bind_eq_some_iff, Option.pure_def,
        Option.some.injEq, Prod.mk.injEq] at h
      obtain ⟨pidPath, -, ipPath, -, rfl, rfl⟩ := h
      exact ⟨rfl, Or.inr ⟨AS, pidPath, ipPath, rfl, rfl⟩⟩

/-- A `pid_a` that is handled comes from a known neighbour. Its PIDs, moved away from every row
of the table, are stored in the cache and sent back. -/
theorem onPidA_eq_some {host : Nid} {rand : Nat} {st st' : State} {p : CtlPacket}
    {sent : List Send} (h : onPidA host rand st p = some (st', sent)) :
    ∃ AS k pidPath ipPath, search st.headWxb p.eid = some AS ∧ AS.id < 10
      ∧ different (rows8 st.table)
          (shiftPids (UInt32.ofNat (rand % 101 + 1)) k (p.pids AS.numberPid)) = false
      ∧ st' = { st with
          timeHuancunPidA := p.timer
          pidHuancunPidA := storeCache st.pidHuancunPidA AS.id.toNat
            (shiftPids (UInt32.ofNat (rand % 101 + 1)) k (p.pids AS.numberPid)) }
      ∧ sent = [.pidB (htonl p.timer)
          ((shiftPids (UInt32.ofNat (rand % 101 + 1)) k (p.pids AS.numberPid)).map htonl)
          pidPath ipPath] := by
  rw [onPidA] at h
  cases hs : search st.headWxb p.eid with
  | none => simp [hs] at h
  | some AS =>
      simp only [hs] at h
      split at h
      · next hid =>
          simp only [Option.bind_eq_bind, Option.bind_eq_some_iff, Option.pure_def,
            Option.some.injEq, Prod.mk.injEq] at h
          obtain ⟨pids, hpids, pidPath, -, ipPath, -, rfl, rfl⟩ := h
          obtain ⟨k, -, rfl, hno, -⟩ := whileDifferent_eq_some hpids
          exact ⟨AS, k, pidPath, ipPath, rfl, hid, hno, rfl, rfl⟩
      · cases h

/-- The node that `pid_b` commits. -/
def pidBNode (AS : PidInfo) (p : CtlPacket) : PidInfo :=
  { AS with pidChangeTime := p.timer }.setPids fun i => ntohl (p.word (i + 1))

@[simp] theorem pidBNode_eid (AS : PidInfo) (p : CtlPacket) : (pidBNode AS p).eid = AS.eid := rfl

@[simp] theorem pidBNode_id (AS : PidInfo) (p : CtlPacket) : (pidBNode AS p).id = AS.id := rfl

@[simp] theorem pidBNode_pidChangeTime (AS : PidInfo) (p : CtlPacket) :
    (pidBNode AS p).pidChangeTime = p.timer := rfl

@[simp] theorem pidBNode_pid (AS : PidInfo) (p : CtlPacket) :
    (pidBNode AS p).pid = p.pids AS.numberPid := rfl

/-- A `pid_b` is ignored, committed and acknowledged, or refused with a new `pid_a`. -/
theorem onPidB_eq_some {host : Nid} {rand : Nat} {st st' : State} {p : CtlPacket}
    {sent : List Send} (h : onPidB host rand st p = some (st', sent)) :
    (search st.headWxb p.eid = none ∧ st' = st ∧ sent = [])
      ∨ (∃ AS announced pidPath ipPath, search st.headWxb p.eid = some AS
          ∧ ackYes st.headWxb (p.pids AS.numberPid) = true
          ∧ commit host st (pidBNode AS p) = some (st', announced)
          ∧ sent = .ack pidPath ipPath :: announced.map fun a => .ipNidIp a.1 a.2)
      ∨ ∃ AS pidPath ipPath, search st.headWxb p.eid = some AS
          ∧ ackYes st.headWxb (p.pids AS.numberPid) = false
          ∧ st' = st
          ∧ sent = [.pidA (htonl ((p.timer + UInt32.ofNat (rand % 101 + 1)) % 100))
              ((p.pids AS.numberPid).map fun pid =>
                htonl ((pid + UInt32.ofNat (rand % 101 + 1)) % 100))
              pidPath ipPath] := by
  rw [onPidB] at h
  cases hs : search st.headWxb p.eid with
  | none =>
      simp only [hs, Option.some.injEq, Prod.mk.injEq] at h
      exact Or.inl ⟨rfl, h.1.symm, h.2.symm⟩
  | some AS =>
      simp only [hs] at h
      split at h
      · next hack =>
          simp only [Option.bind_eq_bind, Option.bind_eq_some_iff, Option.pure_def,
            Option.some.injEq, Prod.mk.injEq, Prod.exists] at h
          obtain ⟨pidPath, -, ipPath, -, st₁, announced, hc, rfl, rfl⟩ := h
          exact Or.inr (Or.inl ⟨AS, announced, pidPath, ipPath, rfl, hack, hc, rfl⟩)
      · next hack =>
          simp only [Option.bind_eq_bind, Option.bind_eq_some_iff, Option.pure_def,
            Option.some.injEq, Prod.mk.injEq] at h
          obtain ⟨pidPath, -, ipPath, -, rfl, rfl⟩ := h
          exact Or.inr (Or.inr ⟨AS, pidPath, ipPath, rfl, by simpa using hack, rfl, rfl⟩)

/-- The node that `ack` commits: the timer of the last `pid_a` and the cached PIDs. -/
def ackNode (st : State) (AS : PidInfo) : PidInfo :=
  { AS with pidChangeTime := st.timeHuancunPidA }.setPids (st.pidHuancunPidA AS.id.toNat)

@[simp] theorem ackNode_eid (st : State) (AS : PidInfo) : (ackNode st AS).eid = AS.eid := rfl

@[simp] theorem ackNode_id (st : State) (AS : PidInfo) : (ackNode st AS).id = AS.id := rfl

@[simp] theorem ackNode_pidChangeTime (st : State) (AS : PidInfo) :
    (ackNode st AS).pidChangeTime = st.timeHuancunPidA := rfl

@[simp] theorem ackNode_pid (st : State) (AS : PidInfo) :
    (ackNode st AS).pid = (List.range AS.numberPid).map (st.pidHuancunPidA AS.id.toNat) := rfl

/-- An `ack` that is handled comes from a known neighbour, and commits what is in the cache. -/
theorem onAck_eq_some {host : Nid} {st st' : State} {p : CtlPacket} {sent : List Send}
    (h : onAck host st p = some (st', sent)) :
    ∃ AS announced, search st.headWxb p.eid = some AS ∧ AS.id < 10
      ∧ commit host st (ackNode st AS) = some (st', announced)
      ∧ sent = announced.map fun a => .ipNidIp a.1 a.2 := by
  rw [onAck] at h
  cases hs : search st.headWxb p.eid with
  | none => simp [hs] at h
  | some AS =>
      simp only [hs] at h
      split at h
      · next hid =>
          simp only [Option.bind_eq_bind, Option.bind_eq_some_iff, Option.pure_def,
            Option.some.injEq, Prod.mk.injEq, Prod.exists] at h
          obtain ⟨st₁, announced, hc, rfl, rfl⟩ := h
          exact ⟨AS, announced, rfl, hid, hc, rfl⟩
      · cases h

/-! ## The shape of the chain -/

/-- What no packet changes: the neighbours in their order, their `ID`s and their numbers of
PIDs. -/
def shape (chain : List PidInfo) : List (Nid × UInt8 × Nat) :=
  chain.map fun AS => (AS.eid, AS.id, AS.numberPid)

theorem shape_writeNode {chain : List PidInfo} {AS AS' : PidInfo}
    (hs : search chain AS'.eid = some AS) (hid : AS'.id = AS.id)
    (hn : AS'.numberPid = AS.numberPid) : shape (writeNode chain AS') = shape chain :=
  writeNode_map _ hs (by rw [hid, hn, search_eid hs])

/-- **The dispatch.** What a negotiation packet does to the state is one of: nothing, storing a
`pid_a` in the cache, or committing a node. -/
theorem negotiate_cases {host : Nid} {rand : Nat} {st st' : State} {p : CtlPacket}
    {sent : List Send} (h : negotiate host rand st p = some (st', sent)) :
    st' = st
      ∨ (∃ AS pids, search st.headWxb p.eid = some AS ∧ AS.id < 10 ∧ pids.length = AS.numberPid
          ∧ st' = { st with
              timeHuancunPidA := p.timer
              pidHuancunPidA := storeCache st.pidHuancunPidA AS.id.toNat pids })
      ∨ ∃ AS AS' announced, search st.headWxb p.eid = some AS
          ∧ AS'.eid = AS.eid ∧ AS'.id = AS.id ∧ AS'.numberPid = AS.numberPid
          ∧ commit host st AS' = some (st', announced) := by
  have hnone : ∀ {r : State × List Send}, some (st, []) = some r → r.1 = st := by
    rintro r hr
    rw [← Option.some.inj hr]
  rw [negotiate] at h
  split at h
  · split at h
    · exact Or.inl (onPidChangeRequest_eq_some h).1
    · split at h
      · obtain ⟨AS, k, -, -, hs, hid, -, rfl, -⟩ := onPidA_eq_some h
        exact Or.inr (Or.inl ⟨AS, _, hs, hid, by simp, rfl⟩)
      · split at h
        · rcases onPidB_eq_some h with ⟨-, rfl, -⟩ | ⟨AS, ann, -, -, hs, -, hc, -⟩ | ⟨-, -, -, -, -, rfl, -⟩
          · exact Or.inl rfl
          · exact Or.inr (Or.inr ⟨AS, pidBNode AS p, ann, hs, rfl, rfl,
              PidInfo.setPids_numberPid _ _, hc⟩)
          · exact Or.inl rfl
        · split at h
          · obtain ⟨AS, ann, hs, -, hc, -⟩ := onAck_eq_some h
            exact Or.inr (Or.inr ⟨AS, ackNode st AS, ann, hs, rfl, rfl,
              PidInfo.setPids_numberPid _ _, hc⟩)
          · exact Or.inl (hnone h)
  · exact Or.inl (hnone h)

/-- **No packet changes the shape of the chain.** -/
theorem negotiate_shape {host : Nid} {rand : Nat} {st st' : State} {p : CtlPacket}
    {sent : List Send} (h : negotiate host rand st p = some (st', sent)) :
    shape st'.headWxb = shape st.headWxb := by
  rcases negotiate_cases h with rfl | ⟨AS, pids, -, -, -, rfl⟩ | ⟨AS, AS', ann, hs, heid, hid, hn, hc⟩
  · rfl
  · rfl
  · rw [(commit_eq_some hc).2.2.1]
    refine shape_writeNode ?_ hid hn
    rw [heid, search_eid hs]
    exact hs

end Rm
