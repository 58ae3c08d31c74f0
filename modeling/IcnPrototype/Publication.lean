import IcnPrototype.BorderRouter.DataPath
import IcnPrototype.BorderRouter.Items
import IcnPrototype.Rm.Announce

set_option autoImplicit false

/-! # The publication of PIDs

An RM that commits PIDs announces them to the border routers of its domain, and goes on. The
announcements are on the way while the RM handles the next packets and the router those of others. A
router that has got all of them should route every PID of a neighbour that was negotiated with to the
link of the PID: over the link if it is the router's own, else to the border router of the link.

A `Site` is the RM, one of its border routers, and what is on the way to it. What the router's table
will be once all of it has arrived is known at any time, by the writes that are on the way
(`Inv.routes`); the delivery of an announcement does not change it, and a commit changes it for the
rows of one neighbour. `published_routes` is what holds of every run in which PIDs with the same
string never name different links. So the RM's next message to the neighbour, which it sends under a
PID it has just changed, leaves the domain over the right link (`messages_follow`).
-/

namespace Publication

open Bytes Host Rm BorderRouter Table

/-! ## An announcement at a router -/

/-- What a border router reads of an announcement. -/
def pidItem (a : AnnounceItem) : PidItem := ⟨le32 a.pidCurrent, a.ipInside, a.ipOutside, a.timeToLive⟩

theorem received_item {F : Mbuf} {host : Nid} {a : AnnounceItem} {ip : UInt32} {p : Packet}
    (h : Announces F host a ip) (hp : Received F.data F.dataLen p) :
    p.dIp = ip ∧ p.mem 34 = 163 ∧ p.mem 35 = 129 ∧ p.item 0 = pidItem a := by
  have hlen := h.dataLen
  refine ⟨?_, ?_, ?_, ?_⟩
  · rw [Packet.dIp, hp.load32_eq (by omega), h.dst]
  · rw [hp.mem 34 (by omega), h.verType]
  · rw [hp.mem 35 (by omega), h.controltype]
    rfl
  · unfold Packet.item pidItem
    rw [peek_of_load32, hp.load32_eq (by omega), hp.load32_eq (by omega), hp.load32_eq (by omega),
      hp.load32_eq (by omega), h.pidCurrent, h.ipInside, h.ipOutside, h.timeToLive]

/-! ## An RM and a border router -/

/-- An RM, a border router of its domain, and the announcements on the way to it, oldest first. No
step reads `published`, the neighbours the RM has committed PIDs for. -/
structure Site where
  st : State
  router : IPBorderRouter
  queue : List AnnounceItem
  published : List Nid

/-- What a message of the RM announces to the border router with an address. -/
def announced (addr : UInt32) : Send → Option AnnounceItem
  | .ipNidIp item ip => if ip = addr then some item else none
  | _ => none

/-- The RM handles a control packet; the router gets the oldest announcement, in a frame whose bytes
are those of `sendIpNidIp`, with the arguments of the call of `push`; or it gets another packet. -/
inductive Event where
  | control (rand : Nat) (p : CtlPacket)
  | announcement (m ctlPub : Mem) (pidOriginal : UInt32) (s : Stop)
  | packet (i : Input)

/-- The frame of an announcement in the buffer of the router that gets it. -/
def announcementPacket (host : Nid) (m ctlPub : Mem) (pidOriginal : UInt32) (item : AnnounceItem)
    (addr : UInt32) (buffer : Mem) : Packet :=
  let frame := sendIpNidIp host m ctlPub pidOriginal item addr
  (⟨frame.data, frame.dataLen⟩ : Packet).receive buffer

/-- The site after an event. Only the RM announces to the border routers of its domain. -/
def step (host : Nid) (s : Site) : Event → Option Site
  | .control rand p => (negotiate host rand s.st p).map fun (st, sent) =>
      let items := sent.filterMap (announced (s.router.sIp 1))
      { s with
        st := st
        queue := s.queue ++ items
        published := if items = [] then s.published else p.eid :: s.published }
  | .announcement m ctlPub pidOriginal c =>
      match s.queue with
      | [] => none
      | item :: queue =>
          let p := announcementPacket host m ctlPub pidOriginal item (s.router.sIp 1) c.buffer
          some { s with router := (s.router.push c.now c.stack c.port p).1, queue := queue }
  | .packet i =>
      if s.router.isMine i.packet = true ∧ i.packet.mem 34 = 163 ∧ i.packet.mem 35 = 129 then none
      else some { s with router := (s.router.push i.now i.stack i.port i.packet).1 }

/-! ## The rows of the RM -/

/-- The string under which a router keeps the PID of a row. -/
def rowKey (x : NidIpNidIpNid) : List UInt8 := (pidItem (announceItem x)).key

/-- Where a router sends packets with the PID of a row: over its own link, or to the border router
of the link. -/
def rowHop (r : IPBorderRouter) (x : NidIpNidIpNid) : UInt32 :=
  if htonl x.ip1 = r.sIp 1 then htonl x.ip2 else htonl x.ip1

/-- No two rows of the host whose PIDs have the same string lead to different hops. -/
def Unambiguous (host : Nid) (s : Site) : Prop :=
  ∀ x ∈ s.st.table, ∀ y ∈ s.st.table, x.eid1 = host → y.eid1 = host → rowKey x = rowKey y →
    rowHop s.router x = rowHop s.router y

instance (host : Nid) (s : Site) : Decidable (Unambiguous host s) := by
  unfold Unambiguous
  infer_instance

/-! ### Rows after a commit -/

section Rows

variable {host eid : Nid}

/-- The rows of the other neighbours were there before. -/
theorem mem_of_updateRows : ∀ {pids : List UInt32} {rows rows' : List NidIpNidIpNid},
    updateRows host eid pids rows = some rows' → ∀ x ∈ rows', ¬ x.isLink host eid = true → x ∈ rows
  | _, [], rows', h, x, hx, _ => by
      obtain rfl := Option.some.inj h
      exact hx
  | pids, item :: rest, rows', h, x, hx, hnot => by
      unfold updateRows at h
      split at h
      · next hlink =>
          cases pids with
          | nil => cases h
          | cons pid pids =>
              obtain ⟨rest', hrest, rfl⟩ := Option.map_eq_some_iff.mp h
              rcases List.mem_cons.mp hx with rfl | hx
              · exact absurd hlink hnot
              · exact List.mem_cons_of_mem _ (mem_of_updateRows hrest x hx hnot)
      · obtain ⟨rest', hrest, rfl⟩ := Option.map_eq_some_iff.mp h
        rcases List.mem_cons.mp hx with rfl | hx
        · exact List.mem_cons_self
        · exact List.mem_cons_of_mem _ (mem_of_updateRows hrest x hx hnot)

/-- A commit changes nothing of a row but its PID. -/
theorem updateRows_near : ∀ {pids : List UInt32} {rows rows' : List NidIpNidIpNid},
    updateRows host eid pids rows = some rows' →
      rows'.map (fun x => (x.eid1, x.ip1)) = rows.map fun x => (x.eid1, x.ip1)
  | _, [], rows', h => by
      obtain rfl := Option.some.inj h
      rfl
  | pids, item :: rest, rows', h => by
      unfold updateRows at h
      split at h
      · cases pids with
        | nil => cases h
        | cons pid pids =>
            obtain ⟨rest', hrest, rfl⟩ := Option.map_eq_some_iff.mp h
            rw [List.map_cons, List.map_cons, updateRows_near hrest]
      · obtain ⟨rest', hrest, rfl⟩ := Option.map_eq_some_iff.mp h
        rw [List.map_cons, List.map_cons, updateRows_near hrest]

end Rows

/-- The router is at the host's end of a link. -/
def IsNear (host : Nid) (addr : UInt32) (table : List NidIpNidIpNid) : Prop :=
  ∃ x ∈ table, x.eid1 = host ∧ htonl x.ip1 = addr

/-- What reaches one border router of the announcements of a neighbour are the rows of the
neighbour. -/
theorem mem_announced_iff {host eid : Nid} {table : List NidIpNidIpNid} {addr : UInt32}
    (hnear : IsNear host addr table) {item : AnnounceItem} :
    item ∈ (((table.filter (NidIpNidIpNid.isLink host eid)).flatMap (announceTo host table)).map
        fun a => Send.ipNidIp a.1 a.2).filterMap (announced addr)
      ↔ ∃ x ∈ table, x.isLink host eid = true ∧ item = announceItem x := by
  simp only [List.mem_filterMap, List.mem_map, List.mem_flatMap, List.mem_filter, announceTo]
  constructor
  · rintro ⟨send, ⟨a, ⟨x, ⟨hx, hlink⟩, y, hy, rfl⟩, rfl⟩, hsend⟩
    refine ⟨x, hx, hlink, ?_⟩
    simp only [announced] at hsend
    split at hsend
    · exact (Option.some.inj hsend).symm
    · cases hsend
  · rintro ⟨x, hx, hlink, rfl⟩
    obtain ⟨y, hy, hhost, haddr⟩ := hnear
    have hself : (compareNid y.eid1 host == 0) = true := by
      rw [beq_iff_eq, compareNid_eq_zero]
      exact hhost
    refine ⟨_, ⟨(announceItem x, htonl y.ip1), ⟨x, ⟨hx, hlink⟩, y, ⟨hy, hself⟩, rfl⟩, rfl⟩, ?_⟩
    exact if_pos haddr

theorem IsNear.of_map {host : Nid} {addr : UInt32} {table table' : List NidIpNidIpNid}
    (h : IsNear host addr table)
    (heq : table'.map (fun x => (x.eid1, x.ip1)) = table.map fun x => (x.eid1, x.ip1)) :
    IsNear host addr table' := by
  obtain ⟨x, hx, hhost, haddr⟩ := h
  have hmem : (x.eid1, x.ip1) ∈ table'.map fun x => (x.eid1, x.ip1) :=
    heq ▸ List.mem_map_of_mem hx
  obtain ⟨y, hy, hends⟩ := List.mem_map.mp hmem
  obtain ⟨heid, hip⟩ := Prod.mk.inj hends
  exact ⟨y, hy, heid.trans hhost, hip ▸ haddr⟩

/-- The announcements of a control packet from `eid`, when there are any: they are the rows of `eid`,
and the other rows are as before. -/
structure Announced (host eid : Nid) (addr : UInt32) (table table' : List NidIpNidIpNid)
    (items : List AnnounceItem) : Prop where
  others : ∀ x ∈ table', ¬ x.isLink host eid = true → x ∈ table
  near : IsNear host addr table'
  ne_nil : items ≠ []
  mem_iff : ∀ item, item ∈ items ↔ ∃ x ∈ table', x.isLink host eid = true ∧ item = announceItem x

theorem commit_announced {host eid : Nid} {st st' : State} {AS AS' : PidInfo}
    {ann : List (AnnounceItem × UInt32)} (hi : InStep host st)
    (hs : search st.headWxb eid = some AS) (heid : AS'.eid = AS.eid)
    (hn : AS'.numberPid = AS.numberPid) (hc : commit host st AS' = some (st', ann)) {addr : UInt32}
    (hnear : IsNear host addr st.table) :
    Announced host eid addr st.table st'.table
      ((ann.map fun a => Send.ipNidIp a.1 a.2).filterMap (announced addr)) := by
  have heid' : AS'.eid = eid := heid.trans (search_eid hs)
  have hpids := hi.pids AS (search_mem hs)
  have hlen : (linkPids host AS'.eid st.table).length = AS'.pid.length := by
    rw [heid, ← hpids]
    exact hn.symm
  have hupdate := (commit_eq_some hc).1
  rw [updateNidIpNidIpNid_eq hi.rows] at hupdate
  obtain ⟨table, hc', -, hself, -⟩ := commit_of_length hi.rows hlen
  rw [hc, Option.some.injEq, Prod.mk.injEq] at hc'
  obtain ⟨rfl, rfl⟩ := hc'
  rw [heid'] at hupdate hself ⊢
  have hnear' := hnear.of_map (updateRows_near hupdate)
  refine {
    others := mem_of_updateRows hupdate
    near := hnear'
    ne_nil := ?_
    mem_iff := fun item => mem_announced_iff hnear' }
  -- the neighbour has a PID, so it has a row, which is announced
  have hne : linkPids host eid table ≠ [] := by
    rw [hself, ← List.length_pos_iff]
    have hpos := List.length_pos_iff.mpr (hi.nonempty AS (search_mem hs))
    rw [← PidInfo.numberPid, ← hn] at hpos
    exact hpos
  obtain ⟨pid, hpid⟩ := List.exists_mem_of_ne_nil _ hne
  obtain ⟨x, hx, -⟩ := List.mem_map.mp hpid
  obtain ⟨hx, hlink⟩ := List.mem_filter.mp hx
  exact List.ne_nil_of_mem ((mem_announced_iff hnear').mpr ⟨x, hx, hlink, rfl⟩)

/-- **What the RM announces.** A control packet that announces something to a near border router is
one that commits PIDs for the neighbour it is from. -/
theorem negotiate_announces {host : Nid} {rand : Nat} {st st' : State} {p : CtlPacket}
    {sent : List Send} (hi : InStep host st) (h : negotiate host rand st p = some (st', sent))
    {addr : UInt32} (hnear : IsNear host addr st.table) :
    (st'.table = st.table ∧ sent.filterMap (announced addr) = [])
      ∨ Announced host p.eid addr st.table st'.table (sent.filterMap (announced addr)) := by
  have hnone : some (st, []) = some (st', sent) →
      st'.table = st.table ∧ sent.filterMap (announced addr) = [] := by
    intro hsame
    obtain ⟨rfl, rfl⟩ := Prod.mk.inj (Option.some.inj hsame)
    exact ⟨rfl, rfl⟩
  unfold negotiate at h
  split at h
  · split at h
    · obtain ⟨rfl, ⟨-, rfl⟩ | ⟨AS, pidPath, ipPath, -, rfl⟩⟩ := onPidChangeRequest_eq_some h
      · exact Or.inl ⟨rfl, rfl⟩
      · exact Or.inl ⟨rfl, rfl⟩
    · split at h
      · obtain ⟨AS, k, pidPath, ipPath, -, -, -, rfl, rfl⟩ := onPidA_eq_some h
        exact Or.inl ⟨rfl, rfl⟩
      · split at h
        · rcases onPidB_eq_some h with ⟨-, rfl, rfl⟩ | ⟨AS, ann, pidPath, ipPath, hs, -, hc, rfl⟩
            | ⟨AS, pidPath, ipPath, -, -, rfl, rfl⟩
          · exact Or.inl ⟨rfl, rfl⟩
          · have hn : (pidBNode AS p).numberPid = AS.numberPid := PidInfo.setPids_numberPid _ _
            exact Or.inr (commit_announced hi hs (pidBNode_eid AS p) hn hc hnear)
          · exact Or.inl ⟨rfl, rfl⟩
        · split at h
          · obtain ⟨AS, ann, hs, -, hc, rfl⟩ := onAck_eq_some h
            have hn : (ackNode st AS).numberPid = AS.numberPid := PidInfo.setPids_numberPid _ _
            exact Or.inr (commit_announced hi hs (ackNode_eid st AS) hn hc hnear)
          · exact Or.inl (hnone h)
  · exact Or.inl (hnone h)

/-! ## The invariant -/

/-- The writes that are on the way to the router. -/
def Site.writes (s : Site) : List (List UInt8 × UInt32) := s.router.hopWrites (s.queue.map pidItem)

/-- Once everything has arrived, the PIDs of the published rows lead to their links. -/
structure Inv (host : Nid) (s : Site) : Prop where
  inStep : InStep host s.st
  near : IsNear host (s.router.sIp 1) s.st.table
  routes : ∀ x ∈ s.st.table, x.eid1 = host → x.eid2 ∈ s.published →
    Table.writes s.router.pidIp s.writes (rowKey x) = rowHop s.router x

theorem Inv.control {host : Nid} {s s' : Site} {rand : Nat} {p : CtlPacket} (hi : Inv host s)
    (h : step host s (.control rand p) = some s') (hun : Unambiguous host s') : Inv host s' := by
  obtain ⟨⟨st', sent⟩, hneg, rfl⟩ := Option.map_eq_some_iff.mp h
  rcases negotiate_announces hi.inStep hneg hi.near with ⟨htable, hitems⟩ | hann
  · -- nothing is announced
    refine ⟨hi.inStep.negotiate hneg, ?_, ?_⟩
    · dsimp only
      rw [htable]
      exact hi.near
    · intro x hx hhost hpub
      dsimp only at hx hpub
      rw [htable] at hx
      rw [hitems, if_pos rfl] at hpub
      dsimp only [Site.writes]
      rw [hitems, List.append_nil]
      exact hi.routes x hx hhost hpub
  · refine ⟨hi.inStep.negotiate hneg, hann.near, ?_⟩
    intro x hx hhost hpub
    dsimp only at hx hpub
    rw [if_neg hann.ne_nil] at hpub
    have hsplit : Table.writes s.router.pidIp
        (s.router.hopWrites ((s.queue ++ sent.filterMap (announced (s.router.sIp 1))).map pidItem))
        = Table.writes (Table.writes s.router.pidIp s.writes)
          (s.router.hopWrites ((sent.filterMap (announced (s.router.sIp 1))).map pidItem)) := by
      rw [List.map_append, IPBorderRouter.hopWrites, List.map_append, writes_append]
      rfl
    show Table.writes s.router.pidIp
        (s.router.hopWrites ((s.queue ++ sent.filterMap (announced (s.router.sIp 1))).map pidItem))
        (rowKey x) = rowHop s.router x
    rw [hsplit]
    -- every write that is new is one of a row, and with the string of `x` it leads where `x` leads
    have hagree : ∀ w ∈ s.router.hopWrites
        ((sent.filterMap (announced (s.router.sIp 1))).map pidItem),
        w.1 = rowKey x → w.2 = rowHop s.router x := by
      intro w hw hkey
      obtain ⟨item, hitem, rfl⟩ := List.mem_map.mp hw
      obtain ⟨a, ha, rfl⟩ := List.mem_map.mp hitem
      obtain ⟨y, hy, hlink, rfl⟩ := (hann.mem_iff a).mp ha
      exact hun y hy x hx ((NidIpNidIpNid.isLink_iff _ _ _).mp hlink).1 hhost hkey
    by_cases hwritten : ∃ w ∈ s.router.hopWrites
        ((sent.filterMap (announced (s.router.sIp 1))).map pidItem), w.1 = rowKey x
    · exact writes_of_agree hwritten hagree
    · -- the row is one of another neighbour
      have hnot : ¬ x.isLink host p.eid = true := by
        intro hlink
        apply hwritten
        refine ⟨_, List.mem_map_of_mem (List.mem_map_of_mem ((hann.mem_iff _).mpr
          ⟨x, hx, hlink, rfl⟩)), rfl⟩
      have hother : x.eid2 ≠ p.eid := fun heq =>
        hnot ((NidIpNidIpNid.isLink_iff _ _ _).mpr ⟨hhost, heq⟩)
      rw [writes_of_ne fun w hw hkey => hwritten ⟨w, hw, hkey⟩]
      exact hi.routes x (hann.others x hx hnot) hhost ((List.mem_cons.mp hpub).resolve_left hother)

theorem Inv.announcement {host : Nid} {s s' : Site} {m ctlPub : Mem} {pidOriginal : UInt32}
    {c : Stop} (hi : Inv host s) (h : step host s (.announcement m ctlPub pidOriginal c) = some s') :
    Inv host s' := by
  unfold step at h
  cases hq : s.queue with
  | nil =>
      rw [hq] at h
      cases h
  | cons item queue =>
      rw [hq] at h
      obtain rfl := Option.some.inj h
      set p := announcementPacket host m ctlPub pidOriginal item (s.router.sIp 1) c.buffer with hp
      have hreceived : Received (sendIpNidIp host m ctlPub pidOriginal item (s.router.sIp 1)).data
          (sendIpNidIp host m ctlPub pidOriginal item (s.router.sIp 1)).dataLen p :=
        receive_received ⟨_, _⟩ c.buffer
      obtain ⟨hdst, h34, h35, hitem⟩ := received_item
        (sendIpNidIp_announces host m ctlPub pidOriginal item (s.router.sIp 1)) hreceived
      have hmine : s.router.isMine p = true := by
        rw [IPBorderRouter.isMine]
        exact Bool.or_eq_true_iff.mpr (Or.inl (decide_eq_true hdst))
      have hpush : (s.router.push c.now c.stack c.port p).1
          = s.router.install c.now (pidItem item) := by
        rw [push_fst, if_pos ⟨hmine, h34, h35⟩, IPBorderRouter.announce_eq_install]
        exact congrArg (s.router.install c.now) hitem
      rw [hpush]
      refine ⟨hi.inStep, hi.near, ?_⟩
      intro x hx hhost hpub
      -- what is written now was on the way before
      have hwrites : Table.writes s.router.pidIp s.writes
          = Table.writes (s.router.install c.now (pidItem item)).pidIp
            (s.router.hopWrites (queue.map pidItem)) := by
        unfold Site.writes
        rw [hq]
        rfl
      have hroute := hi.routes x hx hhost hpub
      rw [hwrites] at hroute
      exact hroute

theorem Inv.packet {host : Nid} {s s' : Site} {i : Input} (hi : Inv host s)
    (h : step host s (.packet i) = some s') : Inv host s' := by
  dsimp only [step] at h
  split at h
  · cases h
  · next hnot =>
      obtain rfl := Option.some.inj h
      have hpush : (s.router.push i.now i.stack i.port i.packet).1 = s.router := by
        rw [push_fst, if_neg hnot]
      rw [hpush]
      exact hi

/-- **One event** keeps the invariant when it leaves the PIDs unambiguous. -/
theorem Inv.step {host : Nid} {s s' : Site} {e : Event} (hi : Inv host s)
    (h : step host s e = some s') (hun : Unambiguous host s') : Inv host s' := by
  cases e with
  | control rand p => exact hi.control h hun
  | announcement m ctlPub pidOriginal c => exact hi.announcement h
  | packet i => exact hi.packet h

/-! ## Runs -/

/-- The RM has read its configuration, and the router is near it. -/
structure Start (host : Nid) (s : Site) : Prop where
  inStep : InStep host s.st
  near : IsNear host (s.router.sIp 1) s.st.table
  queue : s.queue = []
  published : s.published = []

theorem Start.inv {host : Nid} {s : Site} (h : Start host s) : Inv host s where
  inStep := h.inStep
  near := h.near
  routes x _ _ hpub := by
    rw [h.published] at hpub
    cases hpub

theorem exec_inv {host : Nid} {s₀ s : Site} (h : Start host s₀) {es : List Event}
    (hrun : Lts.exec (step host) s₀ es = some s)
    (hun : Lts.Always (step host) (Unambiguous host) s₀ es) : Inv host s :=
  (Lts.always_of_along (fun _ hi => hi) (fun _ _ _ hi hstep hC => hi.step hstep (hC _ hstep)) h.inv
    (Lts.along_of_always hun)).last hrun

/-- The last PID of a Get packet or a negotiation message. -/
def lastPid (p : Packet) : List UInt8 := peek p.mem ((ntohs (load16 p.mem 36)).toNat + 30) 4

/-- **Committed PIDs are routed.** In any run of the RM and its border router, with announcements on
the way and other packets in between: once all announcements have arrived, a Get packet or a
negotiation message that comes from inside with the PID of a published row leaves the router towards
the link of this row, if the router has an interface there. -/
theorem published_routes {host : Nid} {s₀ s : Site} (h : Start host s₀) {es : List Event}
    (hrun : Lts.exec (step host) s₀ es = some s)
    (hun : Lts.Always (step host) (Unambiguous host) s₀ es) (hqueue : s.queue = [])
    {x : NidIpNidIpNid} (hx : x ∈ s.st.table) (hhost : x.eid1 = host) (hpub : x.eid2 ∈ s.published)
    {p : Packet} (hmine : s.router.isMine p = true)
    (hkind : p.mem 34 = 160 ∨ p.mem 34 = 163 ∧ IPBorderRouter.isNegotiation p = true)
    (hpid : lastPid p = le32 (htonl x.pid)) (hreach : s.router.Reaches (rowHop s.router x))
    (now : UInt32) (stack : List UInt8) :
    ∃ out, (s.router.push now stack 0 p).2 = [out] ∧ out.2.dIp = rowHop s.router x
      ∧ out.1 = s.router.ipNic (rowHop s.router x) ∧ leave out = some out.2 := by
  have hroute := (exec_inv h hrun hun).routes x hx hhost hpub
  rw [Site.writes, hqueue] at hroute
  have hkey : s.router.pidIp (IPBorderRouter.key (lastPid p)) = rowHop s.router x := by
    rw [hpid]
    exact hroute
  have hpush : (s.router.push now stack 0 p).2 = [s.router.pushByLastPid p] := by
    rcases hkind with h160 | ⟨h163, hneg⟩
    · simp [IPBorderRouter.push, hmine, h160]
    · have h129 : ¬ p.mem 35 = 129 := by
        intro h129
        rw [IPBorderRouter.isNegotiation, h129] at hneg
        exact absurd hneg (by decide)
      simp [IPBorderRouter.push, hmine, h163, h129, hneg]
  have hnic : (s.router.pushByLastPid p).1 = s.router.ipNic (rowHop s.router x) := by
    rw [← hkey]
    rfl
  refine ⟨_, hpush, ?_, hnic, if_neg (hnic ▸ hreach)⟩
  rw [← hkey]
  exact IPBorderRouter.emit_dIp (IPBorderRouter.iphead_length p)

/-! ### The next message to the neighbour -/

/-- **The RM's messages follow its PIDs.** When the announcements of a commit have arrived at the
border router of the first link to the neighbour, and it has an interface for its own links to the
neighbour, the next message to this neighbour, which carries the PID of the row after the commit,
leaves the router over this link and arrives as it was sent. -/
theorem messages_follow {host : Nid} {s₀ s : Site} (h : Start host s₀) {es : List Event}
    (hrun : Lts.exec (step host) s₀ es = some s)
    (hun : Lts.Always (step host) (Unambiguous host) s₀ es) (hqueue : s.queue = [])
    {AS : PidInfo} (hpub : AS.eid ∈ s.published) {pidPath ipPath : UInt32}
    (hpid : findIpOrPid host s.st.table AS .pid = some pidPath)
    (hip : findIpOrPid host s.st.table AS .ip = some ipPath) (haddr : ipPath = s.router.sIp 1)
    (hreach : ∀ x ∈ s.st.table, x.isLink host AS.eid = true → htonl x.ip1 = s.router.sIp 1 →
      s.router.Reaches (htonl x.ip2))
    {msg : Msg} (hm : msg.words.length ≤ maxPidNumber + 1) (base : Mem) {p : Packet}
    (hp : Received (msg.frame host base pidPath ipPath).data
      (msg.frame host base pidPath ipPath).dataLen p) (now : UInt32) (stack : List UInt8) :
    ∃ x ∈ s.st.table, x.isLink host AS.eid = true ∧ ∃ out, (s.router.push now stack 0 p).2 = [out]
      ∧ leave out = some out.2 ∧ out.2.dIp = htonl x.ip2
      ∧ CarriesBody out.2.mem out.2.length host msg := by
  obtain ⟨x, hfind, rfl⟩ := Option.map_eq_some_iff.mp hpid
  rw [findIpOrPid, hfind, Option.map_some, Option.some.injEq] at hip
  have hx : x ∈ s.st.table := List.mem_of_find?_eq_some hfind
  have hlink : x.isLink host AS.eid = true := List.find?_some hfind
  obtain ⟨hhost, heid⟩ := (NidIpNidIpNid.isLink_iff _ _ _).mp hlink
  have hroute := (exec_inv h hrun hun).routes x hx hhost (heid ▸ hpub)
  rw [Site.writes, hqueue] at hroute
  -- the link is the router's own
  have hkey : s.router.pidIp (IPBorderRouter.key (le32 (htonl x.pid))) = htonl x.ip2 :=
    hroute.trans (if_pos (hip.trans haddr))
  obtain ⟨hpush, hlen, hbody⟩ := push_inside hm (Or.inl haddr) hp now stack
  refine ⟨x, hx, hlink, _, hpush, ?_, ?_, ?_⟩
  · apply if_neg
    rw [IPBorderRouter.emit_fst, hkey]
    exact hreach x hx hlink (hip.trans haddr)
  · rw [IPBorderRouter.emit_dIp (IPBorderRouter.iphead_length p)]
    exact hkey
  · rw [IPBorderRouter.emit_length, hlen]
    exact hbody.congr
      (fun i hi _ _ => IPBorderRouter.emit_mem_of_le (IPBorderRouter.iphead_length p) hi)
      ((load16_congr fun i hi _ => IPBorderRouter.emit_mem_of_le
        (IPBorderRouter.iphead_length p) (by omega)).trans hbody.totalLen)

/-! ## A run -/

/-- RM 1 with a link to each of two neighbours. -/
def sponsorTable : List NidIpNidIpNid := [link 1 2 0x50494432, link 1 3 0x50494433]

/-- A node with one PID. -/
def sponsorNode (eid : Nid) (id : UInt8) (pid : UInt32) : PidInfo :=
  { eid := eid, id := id, pidChangeTime := 30, pid := [pid], pid_le := by simp [maxPidNumber] }

/-- RM 1, and the border router of both links. -/
def sponsorSite : Site where
  st := ⟨sponsorTable, [sponsorNode (.ofByte 2) 0 0x50494432, sponsorNode (.ofByte 3) 1 0x50494433], 0,
    fun _ _ => 0⟩
  router := { IPBorderRouter.new with
    ipNic := Function.update (Function.update (fun _ => 0) (htonl 0xC0A80102) 1) (htonl 0xC0A80103) 1
    sIp := Function.update (fun _ => 0) 1 (htonl 0xC0A80101) }
  queue := []
  published := []

theorem sponsorSite_start : Start (.ofByte 1) sponsorSite where
  inStep := {
    rows := by decide
    nodup := by decide
    pids := by decide
    nonempty := by decide }
  near := ⟨link 1 2 0x50494432, by decide, by decide, by decide⟩
  queue := rfl
  published := rfl

/-- RM 2 proposes `PID7`; RM 1 commits it and announces it, once for each link. A Get packet comes
before the announcements. -/
def publishPid7 : List Event :=
  [.control 0 ⟨controlPacketPid, optionKind2B, .ofByte 2, fun i =>
      if i = 0 then htonl 30 else htonl 0x50494437⟩,
    .packet ⟨0, [], 0, ⟨poke (fun _ => 0) 34 [160], 130⟩⟩,
    .announcement (fun _ => 0) (fun _ => 0) 0 ⟨IPBorderRouter.new, fun _ => 0, 0, 0, []⟩,
    .announcement (fun _ => 0) (fun _ => 0) 0 ⟨IPBorderRouter.new, fun _ => 0, 0, 0, []⟩]

/-- A Get packet with the one PID `PID7`, at the router of RM 1. -/
def getPid7 : Packet :=
  ⟨poke (poke (poke (fun _ => 0) 30 [192, 168, 1, 1]) 34 [160, 0, 0, 84]) 114 (le32 (htonl 0x50494437)),
    118⟩

/-- The site after the run. -/
theorem exec_publishPid7 : ∃ s, Lts.exec (step (.ofByte 1)) sponsorSite publishPid7 = some s
    ∧ s.st.table = [link 1 2 0x50494437, link 1 3 0x50494433] ∧ s.queue = []
    ∧ s.published = [.ofByte 2] ∧ s.router.sIp 1 = htonl 0xC0A80101
    ∧ s.router.ipNic (htonl 0xC0A80102) = 1 := by
  have hend : (Lts.exec (step (.ofByte 1)) sponsorSite publishPid7).map
      (fun s => (s.st.table, s.queue, s.published, s.router.sIp 1,
        s.router.ipNic (htonl 0xC0A80102)))
        = some ([link 1 2 0x50494437, link 1 3 0x50494433], [], [.ofByte 2], htonl 0xC0A80101, 1) := by
    decide +kernel
  obtain ⟨s, hs, hend⟩ := Option.map_eq_some_iff.mp hend
  simp only [Prod.mk.injEq] at hend
  exact ⟨s, hs, hend⟩

theorem unambiguous_publishPid7 :
    Lts.Always (step (.ofByte 1)) (Unambiguous (.ofByte 1)) sponsorSite publishPid7 := by
  decide +kernel

theorem published_routes_pid7 : ∃ s, Lts.exec (step (.ofByte 1)) sponsorSite publishPid7 = some s
    ∧ ∃ out, (s.router.push 0 [] 0 getPid7).2 = [out]
      ∧ out.2.dIp = rowHop s.router (link 1 2 0x50494437)
      ∧ out.1 = s.router.ipNic (rowHop s.router (link 1 2 0x50494437)) ∧ leave out = some out.2 := by
  obtain ⟨s, hs, htable, hqueue, hpub, haddr, hnic⟩ := exec_publishPid7
  have hmine : s.router.isMine getPid7 = true := by
    have hdst : getPid7.dIp = htonl 0xC0A80101 := by decide
    rw [IPBorderRouter.isMine, haddr, hdst]
    simp
  have hhop : rowHop s.router (link 1 2 0x50494437) = htonl 0xC0A80102 := if_pos haddr.symm
  have hreach : s.router.Reaches (rowHop s.router (link 1 2 0x50494437)) := by
    rw [IPBorderRouter.Reaches, hhop, hnic]
    decide
  exact ⟨s, hs, published_routes sponsorSite_start hs unambiguous_publishPid7 hqueue
    (htable ▸ List.mem_cons_self) rfl (hpub ▸ List.mem_cons_self) hmine (Or.inl (by decide))
    (by decide) hreach 0 []⟩

/-- RM 1 acknowledges, under the new PID. -/
theorem messages_follow_pid7 : ∃ s, Lts.exec (step (.ofByte 1)) sponsorSite publishPid7 = some s
    ∧ ∃ out, (s.router.push 0 [] 0 ⟨(Msg.ack.frame (.ofByte 1) (fun _ => 0) (htonl 0x50494437)
        (htonl 0xC0A80101)).data, (Msg.ack.frame (.ofByte 1) (fun _ => 0) (htonl 0x50494437)
        (htonl 0xC0A80101)).dataLen⟩).2 = [out]
      ∧ leave out = some out.2 ∧ CarriesBody out.2.mem out.2.length (.ofByte 1) .ack := by
  obtain ⟨s, hs, htable, hqueue, hpub, haddr, hnic⟩ := exec_publishPid7
  have hpid : findIpOrPid (.ofByte 1) s.st.table (sponsorNode (.ofByte 2) 0 0) .pid
      = some (htonl 0x50494437) := by
    rw [htable]
    decide
  have hip : findIpOrPid (.ofByte 1) s.st.table (sponsorNode (.ofByte 2) 0 0) .ip
      = some (htonl 0xC0A80101) := by
    rw [htable]
    decide
  have hreach : ∀ x ∈ s.st.table, x.isLink (.ofByte 1) (.ofByte 2) = true →
      htonl x.ip1 = s.router.sIp 1 → s.router.Reaches (htonl x.ip2) := by
    rw [htable]
    intro x hx hlink _
    rcases List.mem_cons.mp hx with rfl | hx
    · show s.router.ipNic (htonl 0xC0A80102) ≠ 0
      rw [hnic]
      decide
    · obtain rfl := List.mem_singleton.mp hx
      exact absurd hlink (by decide)
  obtain ⟨x, -, -, out, hout, hleave, -, hbody⟩ := messages_follow sponsorSite_start hs
    unambiguous_publishPid7 hqueue (hpub ▸ List.mem_cons_self) hpid hip haddr.symm hreach
    (show Msg.ack.words.length ≤ maxPidNumber + 1 by decide) (fun _ => 0) (Received.self ⟨_, _⟩) 0 []
  exact ⟨s, hs, out, hout, hleave, hbody⟩

end Publication
