import IcnPrototype.Rm.Agreement

set_option autoImplicit false

/-! # When the PIDs of an RM stay distinct

The PIDs of all links of an RM are meant to be pairwise distinct. New PIDs are checked twice
before they are committed: the initiator moves them away from the rows of its table, and the
responder refuses them when one of them is in its chain. Both checks compare the new PIDs with
old ones, never with each other, and `(pid + number) % 100` can make equal PIDs from different
ones. The initiator commits later than it checks, when it may have committed PIDs for another
neighbour in between.

`pids_unique_iff` is the exact condition on the steps of a run. It follows from one fact about a
write into the chain, `nodup_writeNode_iff`.
-/

namespace Rm

open Host

/-- The PIDs of all links in a chain. -/
def chainPids (chain : List PidInfo) : List UInt32 := chain.flatMap PidInfo.pid

/-- In every RM the PIDs of all links are pairwise distinct. -/
def Unique (n : Net) : Prop := ∀ host, (chainPids (n.rm host).headWxb).Nodup

/-- PIDs for the neighbour `eid` that repeat neither each other nor a PID of another
neighbour. -/
def FreshFor (chain : List PidInfo) (eid : Nid) (pids : List UInt32) : Prop :=
  pids.Nodup ∧ ∀ node ∈ chain, node.eid ≠ eid → List.Disjoint pids node.pid

/-- The step does not commit PIDs that repeat each other or a PID of another neighbour: a
`pid_b` that passes the check of the responder has distinct PIDs, and at an `ack` the cached
PIDs are still fresh. -/
def Fresh (n : Net) : Action → Prop
  | .request _ _ => True
  | .deliver src dst _ room =>
      match n.chan src dst with
      | .pidB t pids :: _ => ∀ AS, search (n.rm dst).headWxb src = some AS →
          ackYes (n.rm dst).headWxb (((Msg.pidB t pids).packet src room).pids AS.numberPid) = true →
          (((Msg.pidB t pids).packet src room).pids AS.numberPid).Nodup
      | .ack :: _ => FreshFor (n.rm dst).headWxb src (cachedPids (n.rm dst) src)
      | _ => True

/-! ## A write into the chain -/

theorem writeNode_perm {chain : List PidInfo} (hnd : (chain.map PidInfo.eid).Nodup)
    {AS AS' : PidInfo} (hs : search chain AS'.eid = some AS) :
    (writeNode chain AS').Perm (AS' :: chain.filter fun node => node.eid ≠ AS'.eid) := by
  induction chain with
  | nil => cases hs
  | cons node next ih =>
      rw [List.map_cons, List.nodup_cons] at hnd
      rw [search] at hs
      rw [writeNode]
      split at hs
      · next heq =>
          have hkeep : (next.filter fun node => node.eid ≠ AS'.eid) = next := by
            rw [List.filter_eq_self]
            intro other hother
            refine decide_eq_true fun e => hnd.1 ?_
            rw [heq, ← e]
            exact List.mem_map_of_mem hother
          rw [if_pos heq, List.filter_cons_of_neg (by simp [heq]), hkeep]
      · next hne =>
          rw [if_neg hne, List.filter_cons_of_pos (by simp [hne])]
          exact ((ih hnd.2 hs).cons node).trans (List.Perm.swap _ _ _)

/-- **A write into a chain of distinct PIDs.** -/
theorem nodup_writeNode_iff {chain : List PidInfo} (hnd : (chain.map PidInfo.eid).Nodup)
    (hpids : (chainPids chain).Nodup) {AS AS' : PidInfo} (hs : search chain AS'.eid = some AS) :
    (chainPids (writeNode chain AS')).Nodup ↔ FreshFor chain AS'.eid AS'.pid := by
  have hothers : (chainPids (chain.filter fun node => node.eid ≠ AS'.eid)).Nodup :=
    hpids.sublist (List.filter_sublist.flatMap _)
  have hperm := (writeNode_perm hnd hs).flatMap_right PidInfo.pid
  rw [chainPids, hperm.nodup_iff, List.flatMap_cons, List.nodup_append', FreshFor]
  constructor
  · rintro ⟨hnew, -, hdisj⟩
    refine ⟨hnew, fun node hnode hne pid hpid hpid' => hdisj hpid ?_⟩
    exact List.mem_flatMap.mpr ⟨node, List.mem_filter.mpr ⟨hnode, by simp [hne]⟩, hpid'⟩
  · rintro ⟨hnew, hdisj⟩
    refine ⟨hnew, hothers, ?_⟩
    intro pid hpid hpid'
    obtain ⟨node, hnode, hpid''⟩ := List.mem_flatMap.mp hpid'
    obtain ⟨hmem, hne⟩ := List.mem_filter.mp hnode
    exact hdisj node hmem (by simpa using hne) hpid hpid''

/-- What the responder's check excludes. -/
theorem ackYes_iff {chain : List PidInfo} {pids : List UInt32} :
    ackYes chain pids = true ↔ ∀ node ∈ chain, List.Disjoint pids node.pid := by
  simp only [ackYes, Bool.not_eq_true', List.any_eq_false, Bool.not_eq_true, beq_eq_false_iff_ne]
  constructor
  · intro h node hnode pid hpid hpid'
    exact h node hnode pid hpid' pid hpid rfl
  · rintro h node hnode pid hpid new hnew rfl
    exact h node hnode hnew hpid

/-! ## One step -/

section Step

variable {n n' : Net}

/-- One node per neighbour, in every RM. -/
def EidsNodup (n : Net) : Prop := ∀ host, ((n.rm host).headWxb.map PidInfo.eid).Nodup

theorem EidsNodup.step (hi : EidsNodup n) {a : Action} (h : n.step a = some n') : EidsNodup n' := by
  intro host
  have heids := congrArg (List.map fun x : Nid × UInt8 × Nat => x.1) (Net.step_shape h host)
  simp only [shape, List.map_map] at heids
  have heids' : (n'.rm host).headWxb.map PidInfo.eid = (n.rm host).headWxb.map PidInfo.eid := heids
  rw [heids']
  exact hi host

theorem unique_update {dst : Nid} {st' : State} {chan : Nid → Nid → List Msg}
    {delivered : List Delivery} (hu : Unique n) :
    Unique { rm := Function.update n.rm dst st', chan := chan, delivered := delivered }
      ↔ (chainPids st'.headWxb).Nodup := by
  constructor
  · intro h
    simpa using h dst
  · intro h host
    by_cases hd : host = dst
    · subst hd
      simpa using h
    · simpa [hd] using hu host

/-- **One step.** It keeps the PIDs distinct if and only if it is fresh. -/
theorem unique_step_iff (hnd : EidsNodup n) (hu : Unique n) {a : Action} (h : n.step a = some n') :
    Unique n' ↔ Fresh n a := by
  cases a with
  | request src dst =>
      obtain ⟨-, rfl⟩ := Net.step_request h
      exact ⟨fun _ => trivial, fun _ => hu⟩
  | deliver src dst rand room =>
      obtain ⟨m, rest, st', sent, hchan, hneg, rfl⟩ := Net.step_deliver h
      rw [unique_update hu, Fresh, hchan]
      rw [negotiate_packet] at hneg
      cases m with
      | request =>
          obtain ⟨rfl, -⟩ := onPidChangeRequest_eq_some hneg
          exact ⟨fun _ => trivial, fun _ => hu dst⟩
      | pidA t pids =>
          obtain ⟨AS, j, -, -, -, -, -, rfl, -⟩ := onPidA_eq_some hneg
          exact ⟨fun _ => trivial, fun _ => hu dst⟩
      | pidB t pids =>
          rcases onPidB_eq_some hneg with ⟨hnone, rfl, -⟩
            | ⟨AS, announced, -, -, hs, hyes, hc, -⟩ | ⟨AS, -, -, hs, hno, rfl, -⟩
          · rw [Msg.packet_eid] at hnone
            exact ⟨fun _ AS hs => absurd (hnone.symm.trans hs) (by simp), fun _ => hu dst⟩
          · -- accepted: the responder's check leaves only the PIDs of the message to compare
            rw [Msg.packet_eid] at hs
            have hs' : search (n.rm dst).headWxb
                (pidBNode AS ((Msg.pidB t pids).packet src room)).eid = some AS := by
              rw [pidBNode_eid, search_eid hs, hs]
            rw [(commit_eq_some hc).2.2.1, nodup_writeNode_iff (hnd dst) (hu dst) hs', pidBNode_pid]
            constructor
            · rintro ⟨hnew, -⟩ AS' hs'' -
              rw [hs, Option.some.injEq] at hs''
              exact hs'' ▸ hnew
            · intro hfresh
              exact ⟨hfresh AS hs hyes, fun node hnode _ => ackYes_iff.mp hyes node hnode⟩
          · -- refused: the chain stays, and `Fresh` asks nothing
            refine ⟨fun _ AS' hs' hyes => ?_, fun _ => hu dst⟩
            rw [Msg.packet_eid] at hs
            rw [hs, Option.some.injEq] at hs'
            rw [← hs', hno] at hyes
            cases hyes
      | ack =>
          obtain ⟨AS, announced, hs, -, hc, -⟩ := onAck_eq_some hneg
          rw [Msg.packet_eid] at hs
          have hs' : search (n.rm dst).headWxb (ackNode (n.rm dst) AS).eid = some AS := by
            rw [ackNode_eid, search_eid hs, hs]
          have hcached : cachedPids (n.rm dst) src = (ackNode (n.rm dst) AS).pid := by
            simp [cachedPids, hs]
          rw [(commit_eq_some hc).2.2.1, nodup_writeNode_iff (hnd dst) (hu dst) hs', ← hcached,
            ackNode_eid, search_eid hs]

/-! ## Runs -/

/-- **The exact condition.** If every RM has read its configuration and the PIDs of all links of
every RM are pairwise distinct, then they are in every state of a run if and only if every step
of the run is fresh. -/
theorem pids_unique_iff {n₀ : Net}
    (hread : ∀ host, readConfigurationInitPidChangeWxb host (n₀.rm host).table
      = some (n₀.rm host).headWxb)
    (hunique : Unique n₀) (actions : List Action) :
    Lts.Always Net.step Unique n₀ actions ↔ Lts.Along Net.step Fresh n₀ actions := by
  have hnodup : EidsNodup n₀ := fun host =>
    (readConfiguration_readFrom (hread host)).eids ▸ neighbours_nodup host _
  refine Lts.always_iff_along (I := fun n => EidsNodup n ∧ Unique n) ?_ ?_ ?_ ⟨hnodup, hunique⟩
  · exact fun n hi => hi.2
  · rintro n a n' ⟨hnd, hu⟩ h hfresh
    exact ⟨hnd.step h, (unique_step_iff hnd hu h).mpr hfresh⟩
  · rintro n a n' ⟨hnd, hu⟩ h hstale hu'
    exact hstale ((unique_step_iff hnd hu h).mp hu')

end Step

/-! ## Equal PIDs from different ones -/

/-- Two RMs with two links, whose PIDs differ by 100. -/
def twoLinks (host : Nid) : List NidIpNidIpNid :=
  if host = .ofByte 1 then [link 1 2 1, link 1 2 101]
  else if host = .ofByte 2 then [link 2 1 1, link 2 1 101]
  else []

theorem twoLinks_length (host : Nid) : (twoLinks host).length ≤ maxPidNumber := by
  rw [twoLinks]
  split
  · decide
  · split <;> decide

theorem unique_twoLinks : Unique (Net.start twoLinks) := by
  intro host
  by_cases h1 : host = .ofByte 1
  · subst h1
    decide
  · by_cases h2 : host = .ofByte 2
    · subst h2
      decide
    · simp [Net.start, State.start, twoLinks, h1, h2, readConfigurationInitPidChangeWxb, chainPids]

/-- The RM 2 draws 0 and proposes the PID 1 for both links; the RM 1 moves both to 2. -/
def repeatedRun : List Action :=
  [.request (.ofByte 1) (.ofByte 2),
   .deliver (.ofByte 1) (.ofByte 2) 0 fun _ => 0,
   .deliver (.ofByte 2) (.ofByte 1) 0 fun _ => 0,
   .deliver (.ofByte 1) (.ofByte 2) 0 fun _ => 0]

theorem pids_unique_iff_repeatedRun :
    Lts.Always Net.step Unique (Net.start twoLinks) repeatedRun
      ↔ Lts.Along Net.step Fresh (Net.start twoLinks) repeatedRun :=
  pids_unique_iff (Net.start_read twoLinks_length) unique_twoLinks repeatedRun

/-- After this run the RM 2 has the PID 2 on both links. -/
theorem pids_repeated :
    Unique (Net.start twoLinks)
      ∧ ∃ n, Lts.exec Net.step (Net.start twoLinks) repeatedRun = some n
        ∧ chainPids (n.rm (.ofByte 2)).headWxb = [2, 2] ∧ ¬ Unique n := by
  refine ⟨unique_twoLinks, ?_⟩
  have hrun : (Lts.exec Net.step (Net.start twoLinks) repeatedRun).map
      (fun n => chainPids (n.rm (.ofByte 2)).headWxb) = some [2, 2] := by
    decide
  obtain ⟨n, hn, hpids⟩ := Option.map_eq_some_iff.mp hrun
  refine ⟨n, hn, hpids, ?_⟩
  intro hu
  have hnodup := hu (.ofByte 2)
  rw [hpids] at hnodup
  revert hnodup
  decide

end Rm
