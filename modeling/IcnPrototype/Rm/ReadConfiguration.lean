import IcnPrototype.Rm.Handlers

set_option autoImplicit false

/-! # The chain that the configuration gives

`read_configuration_init_pid_change_wxb` goes through the link table once and groups the rows of
the host by their neighbour. `ReadFrom` says what the chain is after a prefix of the table: one
node per neighbour in order of first appearance (`neighbours`), numbered in this order, and in
each node the PIDs of the rows of its neighbour in table order (`linkPids`).
-/

namespace Rm

/-! ## Neighbours -/

/-- The different `eid2` of the rows with `eid1 = host`, in order of first appearance. -/
def neighbours (host : Nid) (table : List NidIpNidIpNid) : List Nid :=
  ((table.filter fun item => item.eid1 = host).map NidIpNidIpNid.eid2).eraseDups

theorem mem_neighbours {host eid : Nid} {table : List NidIpNidIpNid} :
    eid ∈ neighbours host table ↔ ∃ item ∈ table, item.eid1 = host ∧ item.eid2 = eid := by
  simp [neighbours, and_assoc]

theorem neighbours_append_of_ne {host : Nid} {rows : List NidIpNidIpNid} {item : NidIpNidIpNid}
    (h : item.eid1 ≠ host) : neighbours host (rows ++ [item]) = neighbours host rows := by
  simp [neighbours, h]

theorem neighbours_append_of_mem {host : Nid} {rows : List NidIpNidIpNid} {item : NidIpNidIpNid}
    (h : item.eid2 ∈ neighbours host rows) :
    neighbours host (rows ++ [item]) = neighbours host rows := by
  by_cases heid : item.eid1 = host
  · have hmem : item.eid2 ∈ (rows.filter fun item => item.eid1 = host).map NidIpNidIpNid.eid2 := by
      simpa [neighbours] using h
    rw [neighbours, List.filter_append, List.map_append, List.eraseDups_append]
    simp [heid, neighbours, List.cons_removeAll, hmem]
  · exact neighbours_append_of_ne heid

theorem neighbours_append_new {host : Nid} {rows : List NidIpNidIpNid} {item : NidIpNidIpNid}
    (heid : item.eid1 = host) (h : item.eid2 ∉ neighbours host rows) :
    neighbours host (rows ++ [item]) = neighbours host rows ++ [item.eid2] := by
  have hmem : item.eid2 ∉ (rows.filter fun item => item.eid1 = host).map NidIpNidIpNid.eid2 := by
    simpa [neighbours] using h
  rw [neighbours, List.filter_append, List.map_append, List.eraseDups_append]
  simp [heid, neighbours, List.cons_removeAll, hmem, List.eraseDups_cons]

theorem neighbours_nodup (host : Nid) (table : List NidIpNidIpNid) : (neighbours host table).Nodup := by
  induction table using List.reverseRecOn with
  | nil => simp [neighbours]
  | append_singleton rows item ih =>
      by_cases h : item.eid1 = host ∧ item.eid2 ∉ neighbours host rows
      · rw [neighbours_append_new h.1 h.2, List.nodup_append]
        refine ⟨ih, by simp, ?_⟩
        rintro a ha b hb rfl
        exact h.2 (List.mem_singleton.mp hb ▸ ha)
      · by_cases heid : item.eid1 = host
        · rwa [neighbours_append_of_mem (by simpa [heid] using h)]
        · rwa [neighbours_append_of_ne heid]

theorem linkPids_append (host eid : Nid) (rows : List NidIpNidIpNid) (item : NidIpNidIpNid) :
    linkPids host eid (rows ++ [item])
      = linkPids host eid rows ++ if item.isLink host eid then [item.pid] else [] := by
  rw [linkPids, List.filter_append, List.map_append, ← linkPids]
  congr 1
  by_cases h : item.isLink host eid = true
  · rw [List.filter_cons_of_pos h, if_pos h]; rfl
  · rw [List.filter_cons_of_neg h, if_neg h]; rfl

theorem linkPids_eq_nil {host eid : Nid} {table : List NidIpNidIpNid}
    (h : eid ∉ neighbours host table) : linkPids host eid table = [] := by
  rw [linkPids, List.map_eq_nil_iff, List.filter_eq_nil_iff]
  intro item hitem hlink
  exact h (mem_neighbours.mpr ⟨item, hitem, (NidIpNidIpNid.isLink_iff _ _ _).mp hlink⟩)

/-- A neighbour has a link. -/
theorem linkPids_ne_nil {host eid : Nid} {table : List NidIpNidIpNid}
    (h : eid ∈ neighbours host table) : linkPids host eid table ≠ [] := by
  obtain ⟨item, hitem, hlink⟩ := mem_neighbours.mp h
  rw [linkPids, Ne, List.map_eq_nil_iff]
  exact List.ne_nil_of_mem
    (List.mem_filter.mpr ⟨hitem, (NidIpNidIpNid.isLink_iff _ _ _).mpr hlink⟩)

/-! ## The loop over the rows -/

/-- The chain and the counter after the rows. -/
structure ReadFrom (host : Nid) (rows : List NidIpNidIpNid) (s : List PidInfo × Nat) : Prop where
  eids : s.1.map PidInfo.eid = neighbours host rows
  ids : s.1.map PidInfo.id = (List.range s.1.length).map UInt8.ofNat
  count : s.2 = s.1.length
  time : ∀ node ∈ s.1, node.pidChangeTime = 30
  pids : ∀ node ∈ s.1, node.pid = linkPids host node.eid rows

theorem ReadFrom.nil (host : Nid) : ReadFrom host [] ([], 0) where
  eids := by simp [neighbours]
  ids := rfl
  count := rfl
  time := by simp
  pids := by simp

/-- A row of another host changes nothing. -/
theorem ReadFrom.skip {host : Nid} {rows : List NidIpNidIpNid} {item : NidIpNidIpNid}
    {s : List PidInfo × Nat} (hi : ReadFrom host rows s) (h : item.eid1 ≠ host) :
    ReadFrom host (rows ++ [item]) s where
  eids := by rw [hi.eids, neighbours_append_of_ne h]
  ids := hi.ids
  count := hi.count
  time := hi.time
  pids node hnode := by simp [linkPids_append, hi.pids node hnode, h]

/-- A row of a neighbour that has a node appends its PID to the node. -/
theorem ReadFrom.addPid {host : Nid} {rows : List NidIpNidIpNid} {item : NidIpNidIpNid}
    {s : List PidInfo × Nat} {AS : PidInfo} (hi : ReadFrom host rows s) (heid : item.eid1 = host)
    (hs : search s.1 item.eid2 = some AS) (hlt : AS.numberPid < maxPidNumber) :
    ReadFrom host (rows ++ [item]) (writeNode s.1 (AS.addPid item.pid hlt), s.2) := by
  have hASeid := search_eid hs
  have hASmem := search_mem hs
  have hnodup : (s.1.map PidInfo.eid).Nodup := hi.eids ▸ neighbours_nodup host rows
  have hknown : item.eid2 ∈ neighbours host rows := by
    rw [← hi.eids, ← hASeid]
    exact List.mem_map_of_mem hASmem
  refine ⟨?_, ?_, ?_, ?_, ?_⟩
  · rw [writeNode_map_eid, hi.eids, neighbours_append_of_mem hknown]
  · have hs' : search s.1 (AS.addPid item.pid hlt).eid = some AS := by
      rw [PidInfo.addPid_eid, hASeid, hs]
    show (writeNode s.1 _).map PidInfo.id = _
    rw [writeNode_map PidInfo.id hs' rfl, hi.ids, writeNode_length]
  · rw [hi.count, writeNode_length]
  · intro node hnode
    rcases mem_writeNode hnodup hnode with rfl | ⟨hmem, -⟩
    · exact hi.time AS hASmem
    · exact hi.time node hmem
  · intro node hnode
    rcases mem_writeNode hnodup hnode with rfl | ⟨hmem, hne⟩
    · have hlink : item.isLink host AS.eid = true := by simp [heid, hASeid]
      rw [PidInfo.addPid_pid, PidInfo.addPid_eid, linkPids_append, if_pos hlink, hi.pids AS hASmem]
    · have hlink : ¬ item.isLink host node.eid = true := by
        rw [NidIpNidIpNid.isLink_iff]
        exact fun h => hne (h.2.symm.trans hASeid.symm)
      rw [linkPids_append, if_neg hlink, List.append_nil, hi.pids node hmem]

/-- The first row of a neighbour appends a node. -/
theorem ReadFrom.new {host : Nid} {rows : List NidIpNidIpNid} {item : NidIpNidIpNid}
    {s : List PidInfo × Nat} (hi : ReadFrom host rows s) (heid : item.eid1 = host)
    (hs : search s.1 item.eid2 = none) (hle : [item.pid].length ≤ maxPidNumber) :
    ReadFrom host (rows ++ [item])
      (s.1 ++ [{ eid := item.eid2, id := UInt8.ofNat s.2, pidChangeTime := 30, pid := [item.pid],
                 pid_le := hle }], s.2 + 1) := by
  have hunknown : item.eid2 ∉ neighbours host rows := hi.eids ▸ search_eq_none.mp hs
  refine ⟨?_, ?_, ?_, ?_, ?_⟩
  · simp [hi.eids, neighbours_append_new heid hunknown]
  · simp [hi.ids, hi.count, List.range_succ]
  · simp [hi.count]
  · simpa [or_imp, forall_and] using hi.time
  · intro node hnode
    rw [linkPids_append]
    rcases List.mem_append.mp hnode with hmem | hmem
    · rw [if_neg, List.append_nil, hi.pids node hmem]
      rw [NidIpNidIpNid.isLink_iff]
      rintro ⟨-, h⟩
      exact hunknown (h ▸ hi.eids ▸ List.mem_map_of_mem hmem)
    · rw [List.mem_singleton] at hmem
      subst hmem
      rw [linkPids_eq_nil hunknown, if_pos ((NidIpNidIpNid.isLink_iff _ _ _).mpr ⟨heid, rfl⟩)]
      rfl

/-- **One pass of the loop.** -/
theorem ReadFrom.step {host : Nid} {rows : List NidIpNidIpNid} {item : NidIpNidIpNid}
    {s s' : List PidInfo × Nat} (hi : ReadFrom host rows s)
    (h : readConfigurationRow host s item = some s') : ReadFrom host (rows ++ [item]) s' := by
  rw [readConfigurationRow] at h
  by_cases heid : host = item.eid1
  · rw [if_pos ((compareNid_eq_zero _ _).mpr heid)] at h
    cases hs : search s.1 item.eid2 with
    | none =>
        simp only [hs, Option.some.injEq] at h
        exact h ▸ hi.new heid.symm hs _
    | some AS =>
        simp only [hs] at h
        split at h
        · next hlt =>
            rw [Option.some.injEq] at h
            exact h ▸ hi.addPid heid.symm hs hlt
        · cases h
  · rw [if_neg fun h0 => heid ((compareNid_eq_zero _ _).mp h0), Option.some.injEq] at h
    exact h ▸ hi.skip (Ne.symm heid)

/-- A pass is defined as long as the neighbour has at most `MAX_PID_NUMBER` rows. -/
theorem ReadFrom.step_isSome {host : Nid} {rows : List NidIpNidIpNid} {item : NidIpNidIpNid}
    {s : List PidInfo × Nat} (hi : ReadFrom host rows s)
    (hle : (linkPids host item.eid2 (rows ++ [item])).length ≤ maxPidNumber) :
    (readConfigurationRow host s item).isSome = true := by
  rw [readConfigurationRow]
  by_cases heid : host = item.eid1
  · rw [if_pos ((compareNid_eq_zero _ _).mpr heid)]
    cases hs : search s.1 item.eid2 with
    | none => rfl
    | some AS =>
        have hlink : item.isLink host item.eid2 = true := by simp [heid.symm]
        have hlt : AS.numberPid < maxPidNumber := by
          have hpids := hi.pids AS (search_mem hs)
          rw [linkPids_append, if_pos hlink, List.length_append, List.length_singleton,
            ← search_eid hs, ← hpids] at hle
          exact hle
        simp only [dif_pos hlt]
        rfl
  · rw [if_neg fun h0 => heid ((compareNid_eq_zero _ _).mp h0)]
    rfl

/-- The loop, over any number of rows. -/
theorem ReadFrom.foldlM {host : Nid} {table : List NidIpNidIpNid} {s : List PidInfo × Nat}
    (h : table.foldlM (readConfigurationRow host) ([], 0) = some s) : ReadFrom host table s := by
  induction table using List.reverseRecOn generalizing s with
  | nil =>
      rw [List.foldlM_nil, Option.pure_def, Option.some.injEq] at h
      exact h ▸ ReadFrom.nil host
  | append_singleton rows item ih =>
      rw [List.foldlM_append, Option.bind_eq_bind, Option.bind_eq_some_iff] at h
      obtain ⟨s₁, h1, h2⟩ := h
      exact (ih h1).step (by simpa using h2)

/-- **The chain that the configuration gives.** -/
theorem readConfiguration_readFrom {host : Nid} {table : List NidIpNidIpNid} {chain : List PidInfo}
    (h : readConfigurationInitPidChangeWxb host table = some chain) :
    ReadFrom host table (chain, chain.length) := by
  obtain ⟨s, hs, rfl⟩ := Option.map_eq_some_iff.mp h
  have hread := ReadFrom.foldlM hs
  have hcount : s.2 = s.1.length := hread.count
  rw [← hcount]
  exact hread

/-- The configuration is read for every table with at most `MAX_PID_NUMBER` rows per
neighbour. -/
theorem readConfiguration_isSome {host : Nid} {table : List NidIpNidIpNid}
    (hle : ∀ eid, (linkPids host eid table).length ≤ maxPidNumber) :
    (readConfigurationInitPidChangeWxb host table).isSome = true := by
  rw [readConfigurationInitPidChangeWxb, Option.isSome_map]
  induction table using List.reverseRecOn with
  | nil => rfl
  | append_singleton rows item ih =>
      have hprefix : ∀ eid, (linkPids host eid rows).length ≤ maxPidNumber := by
        intro eid
        have h := hle eid
        rw [linkPids_append, List.length_append] at h
        omega
      obtain ⟨s, hs⟩ := Option.isSome_iff_exists.mp (ih hprefix)
      rw [List.foldlM_append, hs]
      simpa using (ReadFrom.foldlM hs).step_isSome (hle item.eid2)

end Rm
