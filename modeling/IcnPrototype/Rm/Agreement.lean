import IcnPrototype.Lib.Handshake
import IcnPrototype.Rm.Network

set_option autoImplicit false

/-! # A pair of RMs runs the handshake

What a sponsor `I` and a responder `R` do to each other in the network is the handshake of
`Lib/Handshake.lean`, with `I` as its initiator; whatever the other RMs do is invisible in it.
`view f I R` is the handshake state that a network state shows of the pair. The function `f`
says which values are looked at: it gets the timer and the PID list of a node, of the cache or
of a message. `simulation` is the step-wise refinement, for every `f`.

* With the PID lists as values an `ack` commits the content of the cache, because the cache has
  a row per neighbour. So the lists agree in every quiet state (`pid_agreement`).
* With the timers as values an `ack` commits `time_huancun_pid_a`, which the next `pid_a` of any
  other neighbour overwrites. `ChangeTime.lean` says what follows.
-/

namespace Rm

open Host

/-! ## The view of a pair -/

/-- `pid_change_time` of the node of a neighbour. -/
def nodeTime (chain : List PidInfo) (eid : Nid) : Option UInt32 :=
  (search chain eid).map PidInfo.pidChangeTime

/-- The PIDs of the node of a neighbour. -/
def nodePids (chain : List PidInfo) (eid : Nid) : List UInt32 :=
  ((search chain eid).map PidInfo.pid).getD []

/-- What `pid_huancun_pid_a` holds for a neighbour. -/
def cachedPids (st : State) (eid : Nid) : List UInt32 :=
  ((search st.headWxb eid).map fun AS =>
    (List.range AS.numberPid).map (st.pidHuancunPidA AS.id.toNat)).getD []

/-- The timer of a delivered `pid_a`. -/
def Delivery.timer (d : Delivery) : Option UInt32 :=
  match d.msg with
  | .pidA timer _ => some (ntohl timer)
  | _ => none

/-- The timer of the last `pid_a` that `I` handled from `R`. -/
def lastTimerFrom (R I : Nid) (delivered : List Delivery) : Option UInt32 :=
  delivered.findSome? fun d => if d.src = R ∧ d.dst = I then d.timer else none

section View

variable {V : Type*} (f : Option UInt32 → List UInt32 → V)

/-- A message with its value. -/
def viewMsg : Msg → Handshake.Msg V
  | .request => .request
  | .pidA timer pids => .propose (f (some (ntohl timer)) (pids.map ntohl))
  | .pidB timer pids => .offer (f (some (ntohl timer)) (pids.map ntohl))
  | .ack => .ack

/-- What the network shows of the sponsor `I` and the responder `R`. -/
def view (I R : Nid) (n : Net) : Handshake.State V where
  own := f (nodeTime (n.rm I).headWxb R) (nodePids (n.rm I).headWxb R)
  cache := f (lastTimerFrom R I n.delivered) (cachedPids (n.rm I) R)
  peer := f (nodeTime (n.rm R).headWxb I) (nodePids (n.rm R).headWxb I)
  up := (n.chan I R).map (viewMsg f)
  down := (n.chan R I).map (viewMsg f)

end View

/-- The two RMs have a node for each other, with as many PIDs, and the offers under way have as
many. -/
structure Linked (I R : Nid) (k : Nat) (n : Net) : Prop where
  sponsor : ∃ AS, search (n.rm I).headWxb R = some AS ∧ AS.numberPid = k
  responder : ∃ AS, search (n.rm R).headWxb I = some AS ∧ AS.numberPid = k
  offered : ∀ timer pids, Msg.pidB timer pids ∈ n.chan I R → pids.length = k

/-- No other neighbour writes the cached value: the `ID`s of the sponsor are different, or the value
is not made from the PIDs. -/
def RowsApart {V : Type*} (f : Option UInt32 → List UInt32 → V) (I : Nid) (n : Net) : Prop :=
  ((n.rm I).headWxb.map PidInfo.id).Nodup ∨ ∀ t pids pids', f t pids = f t pids'

theorem RowsApart.step {V : Type*} {f : Option UInt32 → List UInt32 → V} {I : Nid} {n n' : Net}
    {a : Action} (hr : RowsApart f I n) (h : n.step a = some n') : RowsApart f I n' := by
  -- a step changes no `ID`
  have hids := congrArg (List.map fun x : Nid × UInt8 × Nat => x.2.1) (Net.step_shape h I)
  simp only [shape, List.map_map] at hids
  have hids' : (n'.rm I).headWxb.map PidInfo.id = (n.rm I).headWxb.map PidInfo.id := hids
  rw [RowsApart, hids']
  exact hr

/-! ## The channels of a delivery -/

section Deliver

variable {n n' : Net} {src dst : Nid} {rest : List Msg} {replies : List Msg}

theorem chan_deliver_self (hne : src ≠ dst) :
    sendTo (setChan n.chan src dst rest) dst src replies src dst = rest := by
  rw [sendTo_of_ne (fun h => hne h.1), setChan_self]

theorem chan_deliver_reply (hne : src ≠ dst) :
    sendTo (setChan n.chan src dst rest) dst src replies dst src = n.chan dst src ++ replies := by
  rw [sendTo_self, setChan_of_ne (fun h => hne h.1.symm)]

theorem chan_deliver_other {a b : Nid} (h : ¬ (a = src ∧ b = dst)) (h' : ¬ (a = dst ∧ b = src)) :
    sendTo (setChan n.chan src dst rest) dst src replies a b = n.chan a b := by
  rw [sendTo_of_ne h', setChan_of_ne h]

end Deliver

/-! ## One step of the pair -/

section Simulation

variable {V : Type*} {f : Option UInt32 → List UInt32 → V} {I R : Nid} {k : Nat} {n n' : Net}

/-- `I` handles a `pid_a` of `R`. -/
theorem view_pidA (hne : I ≠ R) {rand : Nat} {room : Nat → UInt32} {t : UInt32}
    {pids : List UInt32} {rest : List Msg} {st' : State} {sent : List Send}
    (hchan : n.chan R I = .pidA t pids :: rest)
    (h : onPidA I rand (n.rm I) ((Msg.pidA t pids).packet R room) = some (st', sent)) :
    Handshake.Step (view f I R n) (view f I R {
      rm := Function.update n.rm I st'
      chan := sendTo (setChan n.chan R I rest) I R (sent.filterMap Send.msg)
      delivered := ⟨R, I, .pidA t pids⟩ :: n.delivered }) := by
  obtain ⟨AS, j, pidPath, ipPath, hs, -, -, rfl, rfl⟩ := onPidA_eq_some h
  rw [Msg.packet_timer rfl] at h ⊢
  set new := shiftPids (UInt32.ofNat (rand % 101 + 1)) j
    (((Msg.pidA t pids).packet R room).pids AS.numberPid) with hnew
  have hlen : new.length = AS.numberPid := by simp [hnew]
  -- what was stored is read back under the `ID` of the same node
  have hcached : cachedPids
      { n.rm I with
        timeHuancunPidA := ntohl t
        pidHuancunPidA := storeCache (n.rm I).pidHuancunPidA AS.id.toNat new } R = new := by
    have hs' : search (n.rm I).headWxb R = some AS := hs
    apply List.ext_getElem (by simp [cachedPids, hs', hlen])
    intro i _ hi
    simp [cachedPids, hs', storeCache, List.getElem?_eq_getElem hi]
  have hview : view f I R {
      rm := Function.update n.rm I { n.rm I with
        timeHuancunPidA := ntohl t
        pidHuancunPidA := storeCache (n.rm I).pidHuancunPidA AS.id.toNat new }
      chan := sendTo (setChan n.chan R I rest) I R
        (([.pidB (htonl (ntohl t)) (new.map htonl) pidPath ipPath] : List Send).filterMap Send.msg)
      delivered := ⟨R, I, .pidA t pids⟩ :: n.delivered }
      = { view f I R n with
          down := rest.map (viewMsg f)
          cache := f (some (ntohl t)) new
          up := (view f I R n).up ++ [.offer (f (some (ntohl t)) new)] } := by
    simp only [view, Function.update_self, Function.update_of_ne (Ne.symm hne), hcached,
      chan_deliver_self (Ne.symm hne), chan_deliver_reply (Ne.symm hne)]
    simp [lastTimerFrom, Delivery.timer, Send.msg, viewMsg, Function.comp_def]
  rw [hview]
  exact .store _ _ _ (by rw [view, hchan]; rfl)

/-- What an `ack` of `R` that `I` handles changes in the view: the values of the node. -/
theorem view_ack_eq (hne : I ≠ R) {room : Nat → UInt32} {rest : List Msg} {st' : State}
    {sent : List Send} (h : onAck I (n.rm I) (Msg.ack.packet R room) = some (st', sent)) :
    view f I R {
      rm := Function.update n.rm I st'
      chan := sendTo (setChan n.chan R I rest) I R (sent.filterMap Send.msg)
      delivered := ⟨R, I, .ack⟩ :: n.delivered }
      = { view f I R n with
          down := rest.map (viewMsg f)
          own := f (some (n.rm I).timeHuancunPidA) (cachedPids (n.rm I) R) } := by
  obtain ⟨AS, announced, hs, -, hc, rfl⟩ := onAck_eq_some h
  have hs' : search (n.rm I).headWxb R = some AS := hs
  obtain ⟨-, -, hchain, -, hcache⟩ := commit_eq_some hc
  have hnode : search st'.headWxb R = some (ackNode (n.rm I) AS) := by
    rw [hchain]
    exact search_writeNode_of_search hs' (ackNode_eid _ _)
  have hno : (announced.map fun a => Send.ipNidIp a.1 a.2).filterMap Send.msg = [] := by
    simp [Send.msg]
  simp only [view, Function.update_self, Function.update_of_ne (Ne.symm hne), hno,
    chan_deliver_self (Ne.symm hne), chan_deliver_reply (Ne.symm hne), List.append_nil]
  simp [lastTimerFrom, Delivery.timer, nodeTime, nodePids, cachedPids, hnode, hs', hcache,
    PidInfo.numberPid]

/-- `I` handles an `ack` of `R`. -/
theorem view_ack (hne : I ≠ R) {room : Nat → UInt32} {rest : List Msg} {st' : State}
    {sent : List Send} (hchan : n.chan R I = .ack :: rest)
    (h : onAck I (n.rm I) (Msg.ack.packet R room) = some (st', sent))
    (hlast : n.chan I R = [] → rest = [] →
      f (some (n.rm I).timeHuancunPidA) (cachedPids (n.rm I) R) = (view f I R n).cache) :
    Handshake.Step (view f I R n) (view f I R {
      rm := Function.update n.rm I st'
      chan := sendTo (setChan n.chan R I rest) I R (sent.filterMap Send.msg)
      delivered := ⟨R, I, .ack⟩ :: n.delivered }) := by
  rw [view_ack_eq hne h]
  refine .commit _ _ (by rw [view, hchan]; rfl) fun hu hd => hlast ?_ ?_
  · simpa [view] using hu
  · simpa using hd

/-- What a proposal of `R` in answer to a message of `I` changes in the view. -/
theorem view_proposed (hne : I ≠ R) (m : Msg) (rest : List Msg) (t pidPath ipPath : UInt32)
    (pids : List UInt32) :
    view f I R {
      rm := Function.update n.rm R (n.rm R)
      chan := sendTo (setChan n.chan I R rest) R I
        (([.pidA t pids pidPath ipPath] : List Send).filterMap Send.msg)
      delivered := ⟨I, R, m⟩ :: n.delivered }
      = { view f I R n with
          up := rest.map (viewMsg f)
          down := (view f I R n).down ++ [.propose (f (some (ntohl t)) (pids.map ntohl))] } := by
  have hlog : lastTimerFrom R I (⟨I, R, m⟩ :: n.delivered) = lastTimerFrom R I n.delivered := by
    simp [lastTimerFrom, hne]
  simp only [view, Function.update_eq_self, chan_deliver_self hne, chan_deliver_reply hne, hlog]
  simp [Send.msg, viewMsg]

/-- `R` handles a `pid_change_request` of `I`. -/
theorem view_requested (hne : I ≠ R) {rand : Nat} {room : Nat → UInt32} {rest : List Msg}
    {st' : State} {sent : List Send} (hchan : n.chan I R = .request :: rest)
    (hknown : search (n.rm R).headWxb I ≠ none)
    (h : onPidChangeRequest R rand (n.rm R) (Msg.request.packet I room) = some (st', sent)) :
    Handshake.Step (view f I R n) (view f I R {
      rm := Function.update n.rm R st'
      chan := sendTo (setChan n.chan I R rest) R I (sent.filterMap Send.msg)
      delivered := ⟨I, R, .request⟩ :: n.delivered }) := by
  obtain ⟨rfl, hsent⟩ := onPidChangeRequest_eq_some h
  rcases hsent with ⟨hnone, -⟩ | ⟨AS, pidPath, ipPath, -, rfl⟩
  · exact absurd hnone hknown
  · rw [view_proposed hne]
    exact .answer _ _ (by rw [view, hchan]; rfl)

/-- `R` handles a `pid_b` of `I`. -/
theorem view_pidB (hne : I ≠ R) {rand : Nat} {room : Nat → UInt32} {t : UInt32}
    {pids : List UInt32} {rest : List Msg} {st' : State} {sent : List Send}
    (hchan : n.chan I R = .pidB t pids :: rest)
    (hknown : ∃ AS, search (n.rm R).headWxb I = some AS ∧ pids.length = AS.numberPid)
    (h : onPidB R rand (n.rm R) ((Msg.pidB t pids).packet I room) = some (st', sent)) :
    Handshake.Step (view f I R n) (view f I R {
      rm := Function.update n.rm R st'
      chan := sendTo (setChan n.chan I R rest) R I (sent.filterMap Send.msg)
      delivered := ⟨I, R, .pidB t pids⟩ :: n.delivered }) := by
  obtain ⟨AS, hs, hlen⟩ := hknown
  have hpids : ((Msg.pidB t pids).packet I room).pids AS.numberPid = pids.map ntohl := by
    rw [← hlen, Msg.packet_pids rfl]
  have hup : (view f I R n).up
      = .offer (f (some (ntohl t)) (pids.map ntohl)) :: rest.map (viewMsg f) := by
    rw [view, hchan]
    rfl
  rcases onPidB_eq_some h with ⟨hnone, -, -⟩ | ⟨AS', announced, pidPath, ipPath, hs', -, hc, rfl⟩
    | ⟨AS', pidPath, ipPath, -, -, rfl, rfl⟩
  · rw [Msg.packet_eid, hs] at hnone
    cases hnone
  · -- accepted: the node of `I` gets the values of the message
    rw [Msg.packet_eid, hs, Option.some.injEq] at hs'
    subst hs'
    have hnode : search st'.headWxb I = some (pidBNode AS ((Msg.pidB t pids).packet I room)) := by
      rw [(commit_eq_some hc).2.2.1]
      exact search_writeNode_of_search hs (pidBNode_eid _ _)
    have hview : view f I R {
        rm := Function.update n.rm R st'
        chan := sendTo (setChan n.chan I R rest) R I
          ((Send.ack pidPath ipPath :: announced.map fun a => .ipNidIp a.1 a.2).filterMap Send.msg)
        delivered := ⟨I, R, .pidB t pids⟩ :: n.delivered }
        = { view f I R n with
            up := rest.map (viewMsg f)
            peer := f (some (ntohl t)) (pids.map ntohl)
            down := (view f I R n).down ++ [.ack] } := by
      simp only [view, Function.update_self, Function.update_of_ne hne, chan_deliver_self hne,
        chan_deliver_reply hne]
      simp [lastTimerFrom, Delivery.timer, Send.msg, viewMsg, nodeTime, nodePids, hnode, hpids,
        Msg.packet_timer (m := .pidB t pids) rfl]
    rw [hview]
    exact .accept _ _ hup
  · -- refused: a new proposal
    rw [view_proposed hne]
    exact .refuse _ _ _ hup

/-- The sponsor asks for a change. -/
theorem view_request (hne : I ≠ R) :
    Handshake.Step (view f I R n)
      (view f I R { n with chan := sendTo n.chan I R [.request] }) := by
  have hview : view f I R { n with chan := sendTo n.chan I R [.request] }
      = { view f I R n with up := (view f I R n).up ++ [.request] } := by
    simp only [view, sendTo_self, sendTo_of_ne (fun h : R = I ∧ I = R => hne h.2)]
    simp [viewMsg]
  rw [hview]
  exact .request _

/-- Another request is invisible. -/
theorem view_request_other {src dst : Nid} (h : ¬ (I = src ∧ R = dst)) (h' : ¬ (R = src ∧ I = dst)) :
    view f I R { n with chan := sendTo n.chan src dst [.request] } = view f I R n := by
  simp only [view, sendTo_of_ne h, sendTo_of_ne h']

/-- Every delivery between two other RMs is invisible, also one from another RM to `I` or `R`. -/
theorem view_other (hl : Linked I R k n) (hr : RowsApart f I n) {src dst : Nid}
    (h : ¬ (I = src ∧ R = dst)) (h' : ¬ (R = src ∧ I = dst)) {rand : Nat} {room : Nat → UInt32} {m : Msg} {rest : List Msg}
    {st' : State} {sent : List Send}
    (hneg : negotiate dst rand (n.rm dst) (m.packet src room) = some (st', sent)) :
    view f I R {
      rm := Function.update n.rm dst st'
      chan := sendTo (setChan n.chan src dst rest) dst src (sent.filterMap Send.msg)
      delivered := ⟨src, dst, m⟩ :: n.delivered } = view f I R n := by
  have hnode : ∀ a b : Nid, ¬ (b = src ∧ a = dst) →
      search (Function.update n.rm dst st' a).headWxb b = search (n.rm a).headWxb b := by
    intro a b hab
    by_cases ha : a = dst
    · subst ha
      rw [Function.update_self]
      exact negotiate_search hneg fun e => hab ⟨e, rfl⟩
    · rw [Function.update_of_ne ha]
  have hcached : ∀ t, f t (cachedPids (Function.update n.rm dst st' I) R)
      = f t (cachedPids (n.rm I) R) := by
    intro t
    rcases hr with hids | hblind
    · obtain ⟨AS, hs, -⟩ := hl.sponsor
      have hrow : (Function.update n.rm dst st' I).pidHuancunPidA AS.id.toNat
          = (n.rm I).pidHuancunPidA AS.id.toNat := by
        by_cases hI : I = dst
        · subst hI
          rw [Function.update_self]
          refine negotiate_cache hneg fun AS' hs' heq => h' ⟨?_, rfl⟩
          -- different neighbours have different `ID`s
          have hAS := List.inj_on_of_nodup_map hids (search_mem hs') (search_mem hs)
            (UInt8.toNat_inj.mp heq)
          rw [← search_eid hs, ← hAS, search_eid hs', Msg.packet_eid]
        · rw [Function.update_of_ne hI]
      simp [cachedPids, hnode I R h', hs, hrow]
    · exact hblind t _ _
  have hlog : lastTimerFrom R I (⟨src, dst, m⟩ :: n.delivered) = lastTimerFrom R I n.delivered := by
    have hno : ¬ (src = R ∧ dst = I) := fun e => h' ⟨e.1.symm, e.2.symm⟩
    simp [lastTimerFrom, hno]
  simp only [view, nodeTime, nodePids, hnode I R h', hnode R I h, hcached, hlog,
    chan_deliver_other h (fun e : I = dst ∧ R = src => h' ⟨e.2, e.1⟩),
    chan_deliver_other h' (fun e : R = dst ∧ I = src => h ⟨e.2, e.1⟩)]

/-- An offer has as many PIDs as the node it was made for. -/
theorem offer_length {host : Nid} {rand : Nat} {st st' : State} {m : Msg} {src : Nid}
    {room : Nat → UInt32} {sent : List Send}
    (h : negotiate host rand st (m.packet src room) = some (st', sent)) {t : UInt32}
    {pids : List UInt32} (hmem : Msg.pidB t pids ∈ sent.filterMap Send.msg) :
    ∃ AS, search st.headWxb src = some AS ∧ pids.length = AS.numberPid := by
  have hno : ∀ announced : List (AnnounceItem × UInt32),
      (announced.map fun a => Send.ipNidIp a.1 a.2).filterMap Send.msg = [] := by
    simp [Send.msg]
  rw [negotiate_packet] at h
  cases m with
  | request =>
      obtain ⟨-, ⟨-, rfl⟩ | ⟨AS, pidPath, ipPath, -, rfl⟩⟩ := onPidChangeRequest_eq_some h
      · simp at hmem
      · simp [Send.msg] at hmem
  | pidA timer proposal =>
      obtain ⟨AS, j, pidPath, ipPath, hs, -, -, -, rfl⟩ := onPidA_eq_some h
      simp only [List.filterMap_cons, Send.msg, List.filterMap_nil, List.mem_singleton,
        Msg.pidB.injEq] at hmem
      exact ⟨AS, hs, by simp [hmem.2]⟩
  | pidB timer offer =>
      rcases onPidB_eq_some h with ⟨-, -, rfl⟩ | ⟨AS, announced, pidPath, ipPath, -, -, -, rfl⟩
        | ⟨AS, pidPath, ipPath, -, -, -, rfl⟩
      · simp at hmem
      · simp [Send.msg] at hmem
      · simp [Send.msg] at hmem
  | ack =>
      obtain ⟨AS, announced, -, -, -, rfl⟩ := onAck_eq_some h
      rw [hno] at hmem
      cases hmem

/-- Every step keeps the pair linked. -/
theorem Linked.step (hne : I ≠ R) (hl : Linked I R k n) {a : Action} (h : n.step a = some n') :
    Linked I R k n' := by
  have hknown : ∀ {host eid : Nid}, (∃ AS, search (n.rm host).headWxb eid = some AS ∧ AS.numberPid = k) →
      ∃ AS, search (n'.rm host).headWxb eid = some AS ∧ AS.numberPid = k := by
    rintro host eid ⟨AS, hs, hk⟩
    obtain ⟨AS', hs', -, hk'⟩ := search_of_shape (Net.step_shape h host) hs
    exact ⟨AS', hs', hk'.trans hk⟩
  refine ⟨hknown hl.sponsor, hknown hl.responder, ?_⟩
  -- an offer of `I` was under way before, or answers the proposal that `I` has handled
  intro t pids hmem
  cases a with
  | request src dst =>
      obtain ⟨-, rfl⟩ := Net.step_request h
      by_cases hsd : I = src ∧ R = dst
      · obtain ⟨rfl, rfl⟩ := hsd
        simp only [sendTo_self, List.mem_append, List.mem_singleton, reduceCtorEq, or_false] at hmem
        exact hl.offered t pids hmem
      · simp only [sendTo_of_ne hsd] at hmem
        exact hl.offered t pids hmem
  | deliver src dst rand room =>
      obtain ⟨m, rest, st', sent, hchan, hneg, rfl⟩ := Net.step_deliver h
      by_cases hup : I = src ∧ R = dst
      · obtain ⟨rfl, rfl⟩ := hup
        simp only [chan_deliver_self hne] at hmem
        exact hl.offered t pids (hchan ▸ List.mem_cons_of_mem _ hmem)
      · by_cases hdown : I = dst ∧ R = src
        · obtain ⟨rfl, rfl⟩ := hdown
          simp only [chan_deliver_reply (Ne.symm hne), List.mem_append] at hmem
          rcases hmem with hmem | hmem
          · exact hl.offered t pids hmem
          · obtain ⟨AS, hs, hlen⟩ := offer_length hneg hmem
            obtain ⟨AS', hs', hk⟩ := hl.sponsor
            rw [hs, Option.some.injEq] at hs'
            rw [hlen, hs', hk]
        · simp only [chan_deliver_other hup hdown] at hmem
          exact hl.offered t pids hmem

/-- **Refinement.** A step of the network is a step of the handshake of the pair, or invisible
in it. An `ack` after which nothing is in flight has to commit the values of the cache. -/
theorem simulation (hne : I ≠ R) (hle : compareNid I R ≤ 0) (hl : Linked I R k n)
    (hr : RowsApart f I n) (hi : Handshake.Inv (view f I R n)) {a : Action} (h : n.step a = some n')
    (hlast : ∀ rand room, a = .deliver R I rand room → n.chan I R = [] → n.chan R I = [.ack] →
      f (some (n.rm I).timeHuancunPidA) (cachedPids (n.rm I) R) = (view f I R n).cache) :
    view f I R n' = view f I R n ∨ Handshake.Step (view f I R n) (view f I R n') := by
  cases a with
  | request src dst =>
      obtain ⟨hmem, rfl⟩ := Net.step_request h
      by_cases hup : I = src ∧ R = dst
      · obtain ⟨rfl, rfl⟩ := hup
        exact Or.inr (view_request hne)
      · -- the responder is not the sponsor of the same pair
        have hdown : ¬ (R = src ∧ I = dst) := by
          rintro ⟨rfl, rfl⟩
          exact compareNid_pos_of_neg hne hle (compareNid_of_timer0Cb hmem)
        exact Or.inl (view_request_other hup hdown)
  | deliver src dst rand room =>
      obtain ⟨m, rest, st', sent, hchan, hneg, rfl⟩ := Net.step_deliver h
      by_cases hdown : R = src ∧ I = dst
      · obtain ⟨rfl, rfl⟩ := hdown
        have hm : (viewMsg f m).Downward := by
          refine hi.downward _ ?_
          rw [view, hchan]
          exact List.mem_cons_self
        rw [negotiate_packet] at hneg
        refine Or.inr ?_
        cases m with
        | request => exact hm.elim
        | pidA t pids => exact view_pidA hne hchan hneg
        | pidB t pids => exact hm.elim
        | ack =>
            refine view_ack hne hchan hneg fun hu hd => hlast rand room rfl hu ?_
            rw [hchan, hd]
      · by_cases hup : I = src ∧ R = dst
        · obtain ⟨rfl, rfl⟩ := hup
          have hm : (viewMsg f m).Upward := by
            refine hi.upward _ ?_
            rw [view, hchan]
            exact List.mem_cons_self
          obtain ⟨AS, hs, hk⟩ := hl.responder
          rw [negotiate_packet] at hneg
          refine Or.inr ?_
          cases m with
          | request => exact view_requested hne hchan (by rw [hs]; exact Option.some_ne_none _) hneg
          | pidA t pids => exact hm.elim
          | pidB t pids =>
              have hlen : pids.length = k := hl.offered t pids (hchan ▸ List.mem_cons_self)
              exact view_pidB hne hchan ⟨AS, hs, hlen.trans hk.symm⟩ hneg
          | ack => exact hm.elim
        · exact Or.inl (view_other hl hr hup hdown hneg)

end Simulation

/-! ## Agreement on the PIDs -/

/-- The sponsor `I` and the responder `R` at the start: the chains are those of their
configurations, the tables list the same PIDs for the links between them, in the same order, and
nothing is in flight between the two. -/
structure Paired (I R : Nid) (n : Net) : Prop where
  ne : I ≠ R
  sponsor : compareNid I R ≤ 0
  chainI : readConfigurationInitPidChangeWxb I (n.rm I).table = some (n.rm I).headWxb
  chainR : readConfigurationInitPidChangeWxb R (n.rm R).table = some (n.rm R).headWxb
  neighbour : R ∈ neighbours I (n.rm I).table
  links : linkPids I R (n.rm I).table = linkPids R I (n.rm R).table
  up : n.chan I R = []
  down : n.chan R I = []

/-- The pair at the start, with a sponsor of at most ten neighbours. -/
structure Configured (I R : Nid) (n : Net) : Prop extends Paired I R n where
  neighbours_le : (neighbours I (n.rm I).table).length ≤ 10

namespace Paired

variable {I R : Nid} {n : Net}

/-- The nodes that the two have for each other at the start. -/
theorem nodes (hc : Paired I R n) :
    ∃ AS AS', search (n.rm I).headWxb R = some AS ∧ search (n.rm R).headWxb I = some AS'
      ∧ AS.pid = AS'.pid ∧ AS.pidChangeTime = AS'.pidChangeTime := by
  have hI := readConfiguration_readFrom hc.chainI
  have hR := readConfiguration_readFrom hc.chainR
  have hmem : I ∈ neighbours R (n.rm R).table := by
    by_contra hno
    exact linkPids_ne_nil hc.neighbour (hc.links.trans (linkPids_eq_nil hno))
  obtain ⟨AS, hs⟩ := search_eq_some_of_mem (hI.eids.symm ▸ hc.neighbour)
  obtain ⟨AS', hs'⟩ := search_eq_some_of_mem (hR.eids.symm ▸ hmem)
  refine ⟨AS, AS', hs, hs', ?_, ?_⟩
  · rw [hI.pids AS (search_mem hs), hR.pids AS' (search_mem hs'), search_eid hs, search_eid hs', hc.links]
  · rw [hI.time AS (search_mem hs), hR.time AS' (search_mem hs')]

theorem linked (hc : Paired I R n) : ∃ k, Linked I R k n := by
  obtain ⟨AS, AS', hs, hs', hpid, -⟩ := hc.nodes
  exact ⟨AS.numberPid, ⟨AS, hs, rfl⟩, ⟨AS', hs', congrArg List.length hpid.symm⟩, by simp [hc.up]⟩

theorem inv {V : Type*} (f : Option UInt32 → List UInt32 → V) (hc : Paired I R n) :
    Handshake.Inv (view f I R n) := by
  obtain ⟨AS, AS', hs, hs', hpid, htime⟩ := hc.nodes
  have hview : view f I R n = {
      own := f (some AS.pidChangeTime) AS.pid
      cache := (view f I R n).cache
      peer := f (some AS.pidChangeTime) AS.pid
      up := []
      down := [] } := by
    simp [view, nodeTime, nodePids, hs, hs', hpid, htime, hc.up, hc.down]
  rw [hview]
  exact Handshake.inv_init _ _

end Paired

/-- Ten neighbours have different `ID`s. -/
theorem Configured.rowsApart {V : Type*} (f : Option UInt32 → List UInt32 → V) {I R : Nid} {n : Net}
    (hc : Configured I R n) : RowsApart f I n := by
  have hI := readConfiguration_readFrom hc.chainI
  have hlen : (n.rm I).headWxb.length ≤ 10 := by
    have h := hc.neighbours_le
    rwa [← hI.eids, List.length_map] at h
  exact Or.inl (hI.ids_nodup (by omega))

/-- **PID agreement.** In every state of the network in which no negotiation message between
the sponsor and the responder is in flight, the two have the same PID list for each other:
for every order of requests and deliveries, every random number and whatever else the two
negotiate with other RMs. -/
theorem pid_agreement {I R : Nid} {n₀ n : Net} {actions : List Action} (hc : Configured I R n₀)
    (hexec : Lts.exec Net.step n₀ actions = some n) (hup : n.chan I R = [])
    (hdown : n.chan R I = []) :
    ∃ AS AS', search (n.rm I).headWxb R = some AS ∧ search (n.rm R).headWxb I = some AS'
      ∧ AS.pid = AS'.pid := by
  obtain ⟨k, hl₀⟩ := hc.linked
  -- a value is the PID list alone, so that `simulation` asks nothing of the last `ack`
  have hrun : Linked I R k n ∧ RowsApart (fun (_ : Option UInt32) (pids : List UInt32) => pids) I n
      ∧ Handshake.Inv (view (fun _ pids => pids) I R n) := by
    refine Lts.exec_invariant
      (P := fun n => Linked I R k n
        ∧ RowsApart (fun (_ : Option UInt32) (pids : List UInt32) => pids) I n
        ∧ Handshake.Inv (view (fun _ pids => pids) I R n)) ?_
      ⟨hl₀, hc.rowsApart _, hc.inv _⟩ hexec
    rintro n a n' ⟨hl, hr, hi⟩ h
    refine ⟨hl.step hc.ne h, hr.step h, ?_⟩
    rcases simulation hc.ne hc.sponsor hl hr hi h (fun _ _ _ _ _ => rfl) with heq | hstep
    · rw [heq]
      exact hi
    · exact hi.step hstep
  obtain ⟨hl, -, hi⟩ := hrun
  obtain ⟨AS, hs, -⟩ := hl.sponsor
  obtain ⟨AS', hs', -⟩ := hl.responder
  refine ⟨AS, AS', hs, hs', ?_⟩
  have hagree := hi.agree (by rw [view, hup]; rfl) (by rw [view, hdown]; rfl)
  simpa [view, nodePids, hs, hs'] using hagree

theorem configured_threeRms : Configured (.ofByte 1) (.ofByte 2) (Net.start threeRms) where
  ne := by decide
  sponsor := by decide
  chainI := State.start_read (by decide)
  chainR := State.start_read (by decide)
  neighbour := by decide
  links := by decide
  neighbours_le := by decide
  up := rfl
  down := rfl

/-- One complete negotiation of the RMs 1 and 2. -/
def completedRun : List Action :=
  [.request (.ofByte 1) (.ofByte 2),
   .deliver (.ofByte 1) (.ofByte 2) 7 fun _ => 0,
   .deliver (.ofByte 2) (.ofByte 1) 0 fun _ => 0,
   .deliver (.ofByte 1) (.ofByte 2) 0 fun _ => 0,
   .deliver (.ofByte 2) (.ofByte 1) 0 fun _ => 0]

theorem pid_agreement_threeRms :
    ∃ n, Lts.exec Net.step (Net.start threeRms) completedRun = some n
      ∧ n.chan (.ofByte 1) (.ofByte 2) = [] ∧ n.chan (.ofByte 2) (.ofByte 1) = []
      ∧ ∃ AS AS', search (n.rm (.ofByte 1)).headWxb (.ofByte 2) = some AS
        ∧ search (n.rm (.ofByte 2)).headWxb (.ofByte 1) = some AS' ∧ AS.pid = AS'.pid := by
  have hquiet : (Lts.exec Net.step (Net.start threeRms) completedRun).map
      (fun n => (n.chan (.ofByte 1) (.ofByte 2), n.chan (.ofByte 2) (.ofByte 1))) = some ([], []) := by
    decide
  obtain ⟨n, hn, hchan⟩ := Option.map_eq_some_iff.mp hquiet
  obtain ⟨hup, hdown⟩ := Prod.mk.inj hchan
  exact ⟨n, hn, hup, hdown, pid_agreement configured_threeRms hn hup hdown⟩

end Rm
