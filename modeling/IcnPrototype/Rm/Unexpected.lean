import IcnPrototype.Rm.Network

set_option autoImplicit false

/-! # Messages nobody asked for

A negotiation message is unexpected when it comes from an RM that is not in the chain, or when
it is an `ack` of a neighbour that has no `pid_b` left to answer. `Session` keeps what each
neighbour still has to answer: a neighbour answers the requests and the `pid_b`s it gets in
their order, each with one `pid_a` or `ack`.

An unexpected message ought to be ignored. Two handlers do so: those of `pid_change_request`
and of `pid_b` test the node before they use it. The handlers of `pid_a` and of `ack` read
through the pointer first, and the handler of `ack` commits what the cache happens to hold.
`unexpected_harmless_iff` says exactly which unexpected messages do no harm.
-/

namespace Rm

open Host

/-! ## What a neighbour has to answer -/

/-- A message of this RM that its neighbour answers. -/
inductive Question where
  | changeRequest
  | pidB
  deriving DecidableEq

/-- The state of an RM and, for every neighbour, what it has not answered yet, oldest first. -/
structure Session where
  st : State
  unanswered : Nid → List Question

/-- The kind bits of a packet. -/
def CtlPacket.kind (p : CtlPacket) : UInt8 := p.option &&& optionKindMask

/-- A `pid_a` or an `ack` answers the oldest question. -/
def CtlPacket.isAnswer (p : CtlPacket) : Bool :=
  p.controltype = controlPacketPid && (p.kind = optionKind1A || p.kind = optionKind3Ack)

/-- The question in what a handler sends. -/
def Send.question : Send → Option Question
  | .pidB _ _ _ _ => some .pidB
  | _ => none

/-- The timer sends a `pid_change_request`. -/
def Session.request (s : Session) (eid : Nid) : Session :=
  { s with
    unanswered := Function.update s.unanswered eid (s.unanswered eid ++ [.changeRequest]) }

/-- A packet arrives. -/
def Session.receive (host : Nid) (rand : Nat) (s : Session) (p : CtlPacket) :
    Option (Session × List Send) := do
  let (st', sent) ← negotiate host rand s.st p
  let left := if p.isAnswer then (s.unanswered p.eid).tail else s.unanswered p.eid
  return ({ st := st',
            unanswered := Function.update s.unanswered p.eid (left ++ sent.filterMap Send.question) },
    sent)

/-- **A message nobody asked for.** -/
def Unexpected (s : Session) (p : CtlPacket) : Prop :=
  p.controltype = controlPacketPid ∧
    (search s.st.headWxb p.eid = none
      ∨ p.kind = optionKind3Ack ∧ Question.pidB ∉ s.unanswered p.eid)

/-- Handling the packet completes without undefined behaviour, leaves the chain and the link
table as they are and announces nothing to the border routers. -/
def Harmless (host : Nid) (rand : Nat) (s : Session) (p : CtlPacket) : Prop :=
  ∃ s' sent, s.receive host rand p = some (s', sent)
    ∧ s'.st.headWxb = s.st.headWxb ∧ s'.st.table = s.st.table
    ∧ ∀ item ip, Send.ipNidIp item ip ∉ sent

/-- What makes an unexpected packet harmless: it comes from an unknown RM and is of one of the
two kinds whose handler tests the node first; or it is an `ack` of a node without rows in the
link table, for which the cache holds what is committed. -/
def Ignored (host : Nid) (st : State) (p : CtlPacket) : Prop :=
  (search st.headWxb p.eid = none
      ∧ (p.kind = optionKind0ChangeRequest ∨ p.kind = optionKind2B))
    ∨ (p.kind = optionKind3Ack ∧ ∃ AS, search st.headWxb p.eid = some AS ∧ AS.id < 10
        ∧ linkPids host p.eid (rows8 st.table) = []
        ∧ AS.pidChangeTime = st.timeHuancunPidA
        ∧ AS.pid = (List.range AS.numberPid).map (st.pidHuancunPidA AS.id.toNat))

/-! ## Packets from unknown RMs -/

/-- The mask lets four kinds through. -/
theorem CtlPacket.kind_cases (p : CtlPacket) :
    p.kind = optionKind0ChangeRequest ∨ p.kind = optionKind1A ∨ p.kind = optionKind2B
      ∨ p.kind = optionKind3Ack := by
  have hall : ∀ f : Fin 256,
      UInt8.ofFin f &&& optionKindMask = optionKind0ChangeRequest
        ∨ UInt8.ofFin f &&& optionKindMask = optionKind1A
        ∨ UInt8.ofFin f &&& optionKindMask = optionKind2B
        ∨ UInt8.ofFin f &&& optionKindMask = optionKind3Ack := by
    decide +kernel
  have h := hall p.option.toFin
  rwa [UInt8.ofFin_toFin] at h

/-- The dispatch, by the kind. -/
theorem negotiate_of_kind {host : Nid} {rand : Nat} {st : State} {p : CtlPacket}
    (hp : p.controltype = controlPacketPid) :
    negotiate host rand st p =
      if p.kind = optionKind0ChangeRequest then onPidChangeRequest host rand st p
      else if p.kind = optionKind1A then onPidA host rand st p
      else if p.kind = optionKind2B then onPidB host rand st p
      else if p.kind = optionKind3Ack then onAck host st p
      else some (st, []) := by
  rw [negotiate, if_pos hp]
  rfl

theorem negotiate_of_ack {host : Nid} {rand : Nat} {st : State} {p : CtlPacket}
    (hp : p.controltype = controlPacketPid) (hk : p.kind = optionKind3Ack) :
    negotiate host rand st p = onAck host st p := by
  rw [negotiate_of_kind hp, hk, if_neg (by decide), if_neg (by decide), if_neg (by decide), if_pos rfl]

/-- A packet of an unknown RM is either dropped or dereferences a null pointer. -/
theorem negotiate_unknown {host : Nid} {rand : Nat} {st : State} {p : CtlPacket}
    (hp : p.controltype = controlPacketPid) (hs : search st.headWxb p.eid = none) :
    negotiate host rand st p =
      if p.kind = optionKind0ChangeRequest ∨ p.kind = optionKind2B then some (st, []) else none := by
  rw [negotiate_of_kind hp]
  rcases p.kind_cases with hk | hk | hk | hk
  · simp [hk, onPidChangeRequest, hs]
  · rw [hk, if_neg (by decide), if_pos rfl, if_neg (by decide)]
    simp [onPidA, hs]
  · rw [hk, if_neg (by decide), if_neg (by decide), if_pos rfl, if_pos (Or.inr rfl)]
    simp [onPidB, hs]
  · rw [hk, if_neg (by decide), if_neg (by decide), if_neg (by decide), if_pos rfl,
      if_neg (by decide)]
    simp [onAck, hs]

/-! ## What an `ack` announces -/

/-- Without a row of the neighbour nothing is written and nothing announced. -/
theorem updateRows_of_linkPids_eq_nil {host eid : Nid} {pids : List UInt32}
    {rows : List NidIpNidIpNid} (h : linkPids host eid rows = []) :
    updateRows host eid pids rows = some rows := by
  induction rows with
  | nil => simp [updateRows]
  | cons item rest ih =>
      by_cases hlink : item.isLink host eid = true
      · rw [linkPids_cons_of_link hlink] at h
        cases h
      · rw [linkPids_cons_of_not hlink] at h
        unfold updateRows
        rw [if_neg hlink, ih h]
        rfl

theorem announceRows_of_linkPids_eq_nil {host eid : Nid} {all : List NidIpNidIpNid}
    {pids : List UInt32} {rows : List NidIpNidIpNid} (h : linkPids host eid rows = []) :
    announceRows host eid all pids rows = some [] := by
  induction rows with
  | nil => simp [announceRows]
  | cons item rest ih =>
      by_cases hlink : item.isLink host eid = true
      · rw [linkPids_cons_of_link hlink] at h
        cases h
      · rw [linkPids_cons_of_not hlink] at h
        unfold announceRows
        rw [if_neg hlink, ih h]

/-- Rows that were just written are announced: the row is itself one of the links of the host
that the inner loop visits. -/
theorem announceRows_ne_nil {host eid : Nid} {all : List NidIpNidIpNid} {pids : List UInt32}
    {rows rows' : List NidIpNidIpNid} {announced : List (AnnounceItem × UInt32)}
    (hupdate : updateRows host eid pids rows = some rows') (hne : linkPids host eid rows ≠ [])
    (hall : ∀ item ∈ rows', item ∈ all)
    (hann : announceRows host eid all pids rows' = some announced) : announced ≠ [] := by
  induction rows generalizing pids rows' announced with
  | nil => exact absurd rfl hne
  | cons item rest ih =>
      unfold updateRows at hupdate
      by_cases hlink : item.isLink host eid = true
      · rw [if_pos hlink] at hupdate
        cases pids with
        | nil => cases hupdate
        | cons pid pids =>
            obtain ⟨rest', -, rfl⟩ := Option.map_eq_some_iff.mp hupdate
            have hlink' : ({ item with pid := pid } : NidIpNidIpNid).isLink host eid = true := hlink
            -- the row that was written is announced to its own border router
            have hmem : (announceItem { item with pid := pid },
                htonl item.ip1) ∈ announceTo host all { item with pid := pid } := by
              refine List.mem_map.mpr ⟨{ item with pid := pid }, List.mem_filter.mpr ⟨?_, ?_⟩, rfl⟩
              · exact hall _ List.mem_cons_self
              · rw [beq_iff_eq, compareNid_eq_zero]
                exact ((NidIpNidIpNid.isLink_iff _ _ _).mp hlink).1
            unfold announceRows at hann
            rw [if_pos hlink'] at hann
            simp only [if_true] at hann
            split at hann
            · rw [Option.some.injEq] at hann
              exact hann ▸ List.ne_nil_of_mem hmem
            · obtain ⟨sent, -, rfl⟩ := Option.map_eq_some_iff.mp hann
              exact List.ne_nil_of_mem (List.mem_append_left _ hmem)
      · rw [if_neg hlink] at hupdate
        obtain ⟨rest', hrest, rfl⟩ := Option.map_eq_some_iff.mp hupdate
        rw [linkPids_cons_of_not hlink] at hne
        unfold announceRows at hann
        rw [if_neg hlink] at hann
        exact ih hrest hne (fun i hi => hall i (List.mem_cons_of_mem _ hi)) hann

/-- A commit announces nothing only for a neighbour without rows. -/
theorem commit_announces {host : Nid} {st st' : State} {AS : PidInfo}
    (h : commit host st AS = some (st', [])) : linkPids host AS.eid (rows8 st.table) = [] := by
  by_contra hne
  obtain ⟨hupdate, hann, -⟩ := commit_eq_some h
  obtain ⟨rows', hrows', htable⟩ := Option.map_eq_some_iff.mp hupdate
  have hlen : rows'.length = (rows8 st.table).length := updateRows_length hrows'
  have hrows8 : rows8 st'.table = rows' := by
    have hmod : st.table.length % 256 ≤ st.table.length := Nat.mod_le _ _
    have hlen' : rows'.length = st.table.length % 256 := by
      rw [hlen, rows8, List.length_take]
      omega
    have htotal : st'.table.length = st.table.length := by
      rw [← htable, List.length_append, List.length_drop, hlen']
      omega
    rw [rows8, htotal, ← htable, ← hlen', List.take_left]
  rw [announceIpNidIp, hrows8] at hann
  exact announceRows_ne_nil hrows' hne (fun _ hi => hi) hann rfl

/-! ## The exact condition -/

theorem receive_eq_some {host : Nid} {rand : Nat} {s : Session} {p : CtlPacket} {s' : Session}
    {sent : List Send} (h : s.receive host rand p = some (s', sent)) :
    negotiate host rand s.st p = some (s'.st, sent) := by
  simp only [Session.receive, Option.bind_eq_bind, Option.bind_eq_some_iff, Option.pure_def,
    Option.some.injEq, Prod.mk.injEq, Prod.exists] at h
  obtain ⟨st', sent', hneg, rfl, rfl⟩ := h
  exact hneg

/-- `Harmless`, as a property of the handler. -/
theorem harmless_iff {host : Nid} {rand : Nat} {s : Session} {p : CtlPacket} :
    Harmless host rand s p ↔ ∃ st' sent, negotiate host rand s.st p = some (st', sent)
      ∧ st'.headWxb = s.st.headWxb ∧ st'.table = s.st.table
      ∧ ∀ item ip, Send.ipNidIp item ip ∉ sent := by
  constructor
  · rintro ⟨s', sent, h, hrest⟩
    exact ⟨s'.st, sent, receive_eq_some h, hrest⟩
  · rintro ⟨st', sent, h, hrest⟩
    exact ⟨_, sent, by rw [Session.receive, h]; rfl, hrest⟩

theorem ackNode_eq_iff {st : State} {AS : PidInfo} :
    ackNode st AS = AS ↔ AS.pidChangeTime = st.timeHuancunPidA
      ∧ AS.pid = (List.range AS.numberPid).map (st.pidHuancunPidA AS.id.toNat) := by
  constructor
  · intro h
    exact ⟨(congrArg PidInfo.pidChangeTime h).symm, (congrArg PidInfo.pid h).symm⟩
  · rintro ⟨htime, hpid⟩
    obtain ⟨eid, id, time, pid, hle⟩ := AS
    simp only [PidInfo.numberPid] at htime hpid
    simp [ackNode, PidInfo.setPids, PidInfo.numberPid, ← htime, ← hpid]

/-- An `ack` of a known neighbour is harmless only if it changes nothing at all. -/
theorem onAck_harmless_iff {host : Nid} {st : State} {p : CtlPacket} {AS : PidInfo}
    (hs : search st.headWxb p.eid = some AS) :
    (∃ st' sent, onAck host st p = some (st', sent) ∧ st'.headWxb = st.headWxb
        ∧ st'.table = st.table ∧ ∀ item ip, Send.ipNidIp item ip ∉ sent)
      ↔ AS.id < 10 ∧ linkPids host p.eid (rows8 st.table) = []
        ∧ AS.pidChangeTime = st.timeHuancunPidA
        ∧ AS.pid = (List.range AS.numberPid).map (st.pidHuancunPidA AS.id.toNat) := by
  rw [← ackNode_eq_iff]
  constructor
  · -- nothing was announced, so the neighbour has no rows; the node was written over with itself
    rintro ⟨st', sent, h, hchain, -, hsent⟩
    obtain ⟨AS', announced, hs', hid, hc, rfl⟩ := onAck_eq_some h
    rw [hs, Option.some.injEq] at hs'
    subst hs'
    have hnil : announced = [] := by
      apply List.eq_nil_iff_forall_not_mem.mpr
      intro a ha
      exact hsent a.1 a.2 (List.mem_map.mpr ⟨a, ha, rfl⟩)
    subst hnil
    have hnode := search_writeNode_of_search hs (ackNode_eid st AS)
    rw [← (commit_eq_some hc).2.2.1, hchain, hs, Option.some.injEq] at hnode
    refine ⟨hid, ?_, hnode.symm⟩
    have hlinks := commit_announces hc
    rwa [ackNode_eid, search_eid hs] at hlinks
  · rintro ⟨hid, hlinks, hnode⟩
    have heid : AS.eid = p.eid := search_eid hs
    have hupdate : updateNidIpNidIpNid host AS st.table = some st.table := by
      rw [updateNidIpNidIpNid, heid, updateRows_of_linkPids_eq_nil hlinks, Option.map_some, rows8,
        List.take_append_drop]
    have hann : announceIpNidIp host AS st.table = some [] := by
      rw [announceIpNidIp, heid, announceRows_of_linkPids_eq_nil hlinks]
    have hwrite : writeNode st.headWxb AS = st.headWxb := writeNode_of_search (heid.symm ▸ hs)
    refine ⟨st, [], ?_, rfl, rfl, by simp⟩
    have hack : { AS with pidChangeTime := st.timeHuancunPidA }.setPids
        (st.pidHuancunPidA AS.id.toNat) = AS := hnode
    simp [onAck, hs, hid, commit, hack, hupdate, hann, hwrite]

/-- **Which unexpected messages are harmless.** For every chain, link table, cache and packet:
an unexpected message is harmless if and only if it is ignored. -/
theorem unexpected_harmless_iff {host : Nid} {rand : Nat} {s : Session} {p : CtlPacket}
    (hu : Unexpected s p) : Harmless host rand s p ↔ Ignored host s.st p := by
  obtain ⟨hp, hwhy⟩ := hu
  rw [harmless_iff, Ignored]
  cases hs : search s.st.headWxb p.eid with
  | none =>
      rw [negotiate_unknown hp hs]
      constructor
      · rintro ⟨st', sent, h, -⟩
        split at h
        · next hkind => exact Or.inl ⟨rfl, hkind⟩
        · cases h
      · rintro (⟨-, hkind⟩ | ⟨-, AS, hAS, -⟩)
        · exact ⟨s.st, [], if_pos hkind, rfl, rfl, by simp⟩
        · cases hAS
  | some AS =>
      obtain ⟨hk, -⟩ := hwhy.resolve_left (by simp [hs])
      rw [negotiate_of_ack hp hk, onAck_harmless_iff hs]
      constructor
      · intro h
        exact Or.inr ⟨hk, AS, rfl, h⟩
      · rintro (⟨hnone, -⟩ | ⟨-, AS', hAS', h⟩)
        · cases hnone
        · rw [Option.some.injEq] at hAS'
          exact hAS' ▸ h

/-! ## Harm -/

/-- The RM 2 at the start; nothing has been sent. -/
def freshSession : Session where
  st := State.start (.ofByte 2) (threeRms (.ofByte 2))
  unanswered _ := []

theorem unexpected_harmless_iff_request :
    Harmless (.ofByte 2) 0 freshSession (Msg.request.packet (.ofByte 9) fun _ => 0)
      ↔ Ignored (.ofByte 2) freshSession.st (Msg.request.packet (.ofByte 9) fun _ => 0) :=
  unexpected_harmless_iff ⟨rfl, Or.inl rfl⟩

/-- A `pid_a` of an unknown RM reads `number_pid` through a null pointer, and an `ack` that
answers nothing commits the cache: the PID 10 of the link to the RM 1 becomes 0. -/
theorem unexpected_harmful :
    (Unexpected freshSession ((Msg.pidA 0 [0]).packet (.ofByte 9) fun _ => 0)
      ∧ ¬ Harmless (.ofByte 2) 0 freshSession ((Msg.pidA 0 [0]).packet (.ofByte 9) fun _ => 0))
    ∧ (Unexpected freshSession (Msg.ack.packet (.ofByte 1) fun _ => 0)
      ∧ ¬ Harmless (.ofByte 2) 0 freshSession (Msg.ack.packet (.ofByte 1) fun _ => 0)) := by
  refine ⟨⟨⟨rfl, Or.inl rfl⟩, ?_⟩, ⟨⟨rfl, Or.inr ⟨by decide, by simp [freshSession]⟩⟩, ?_⟩⟩
  · rintro ⟨s', sent, h, -⟩
    have hnone : (freshSession.receive (.ofByte 2) 0
        ((Msg.pidA 0 [0]).packet (.ofByte 9) fun _ => 0)).isSome = false := by
      decide
    rw [h] at hnone
    cases hnone
  · rintro ⟨s', sent, h, hchain, -⟩
    have hpids : (freshSession.receive (.ofByte 2) 0 (Msg.ack.packet (.ofByte 1) fun _ => 0)).map
        (fun r => r.1.st.headWxb.map PidInfo.pid) = some [[0]] := by
      decide
    have hpids₀ : freshSession.st.headWxb.map PidInfo.pid = [[10]] := by
      decide
    rw [h, Option.map_some, hchain, hpids₀] at hpids
    revert hpids
    decide

end Rm
