import IcnPrototype.Rm.Frames

set_option autoImplicit false

/-! # The announcements of a commit

After a commit `announce_ip_nid_ip` tells every border router of the domain the new PIDs of the
links to the neighbour. It walks the link table with a counter into the PIDs of the node: a row
is announced when it carries the PID at the counter, and then the counter advances. One row out
of order would silence all later ones. `update_nid_ip_nid_ip_nid` has just written the PIDs into
the rows in the same order, so no row is (`announcements_complete`).

The second part is the frame of an announcement, as `send_ip_nid_ip` builds it. Only four fields
of its header are assigned, and of the item all but `pid_original`; the rest is what the stack
holds.
-/

namespace Rm

open Bytes Host

/-! ## What is announced -/

/-- **The announcements of a neighbour**: for every row from the host to the neighbour, one to the
near border router of every link of the host. -/
def announcements (host eid : Nid) (table : List NidIpNidIpNid) : List (AnnounceItem × UInt32) :=
  (table.filter fun item => item.eid1 = host ∧ item.eid2 = eid).flatMap fun item =>
    (table.filter fun itemJ => itemJ.eid1 = host).map fun itemJ =>
      (announceItem item, htonl itemJ.ip1)

/-- The two loops of the source announce just these. -/
theorem announcements_eq (host eid : Nid) (table : List NidIpNidIpNid) :
    announcements host eid table
      = (table.filter (NidIpNidIpNid.isLink host eid)).flatMap (announceTo host table) := by
  have hlink : (fun item : NidIpNidIpNid => decide (item.eid1 = host ∧ item.eid2 = eid))
      = NidIpNidIpNid.isLink host eid := by
    funext item
    rw [Bool.eq_iff_iff, decide_eq_true_iff, NidIpNidIpNid.isLink_iff]
  have hnear : (fun item : NidIpNidIpNid => compareNid item.eid1 host == 0)
      = fun item => decide (item.eid1 = host) := by
    funext item
    rw [Bool.eq_iff_iff, beq_iff_eq, compareNid_eq_zero, decide_eq_true_iff]
  have hto : announceTo host table = fun item =>
      (table.filter fun itemJ => itemJ.eid1 = host).map fun itemJ =>
        (announceItem item, htonl itemJ.ip1) := by
    funext item
    rw [announceTo, hnear]
  rw [announcements, hlink, hto]

/-! ## The frame -/

/-- `CONTROL_PACKET_PID_ANNOUNCE` -/
def controlPacketPidAnnounce : UInt8 := 129

/-- The local `struct color_ctl_pub` of `send_ip_nid_ip`. -/
def announceCtlPub (host : Nid) (stack : Mem) : Mem :=
  let ctlPub := poke stack 0 [0xA3, controlPacketPidAnnounce]
  let ctlPub := poke ctlPub 12 (le16 (htons 1))
  poke ctlPub 16 host.nid

/-- The words of `struct announce_item`. -/
def AnnounceItem.words (pidOriginal : UInt32) (item : AnnounceItem) : List UInt32 :=
  [pidOriginal, item.pidCurrent, item.ipInside, item.ipOutside, item.timeToLive]

/-- The frame of `send_ip_nid_ip`, in a buffer that held `m` before. -/
def sendIpNidIp (host : Nid) (m stack : Mem) (pidOriginal : UInt32) (item : AnnounceItem)
    (ip : UInt32) : Mbuf :=
  let data := pktgenCtorIpHeader (pktgenCtorEtherHeader m)
  let data := poke data 34 (peek (announceCtlPub host stack) 0 140)
  let data := poke data 174 ((item.words pidOriginal).flatMap le32)
  addPidAndIp ⟨data, 194⟩ 0 ip

/-- The fields of the frame of an announcement. -/
structure Announces (F : Mbuf) (host : Nid) (item : AnnounceItem) (ip : UInt32) : Prop where
  dataLen : F.dataLen = 198
  dst : load32 F.data 30 = ip
  verType : F.data 34 = 0xA3
  controltype : F.data 35 = controlPacketPidAnnounce
  totalLen : load16 F.data 36 = htons 164
  items : load16 F.data 46 = htons 1
  eid : peek F.data 50 16 = host.nid
  pidCurrent : load32 F.data 178 = item.pidCurrent
  ipInside : load32 F.data 182 = item.ipInside
  ipOutside : load32 F.data 186 = item.ipOutside
  timeToLive : load32 F.data 190 = item.timeToLive

theorem announceCtlPub_items (host : Nid) (stack : Mem) :
    load16 (announceCtlPub host stack) 12 = htons 1 := by
  rw [announceCtlPub, load16_poke_of_disjoint (by omega), load16_poke_le16]

theorem announceCtlPub_eid (host : Nid) (stack : Mem) :
    peek (announceCtlPub host stack) 16 16 = host.nid := by
  have h := peek_poke_self (poke (poke stack 0 [0xA3, controlPacketPidAnnounce]) 12 (le16 (htons 1)))
    16 host.nid
  rwa [host.size_eq] at h

/-- **The frame of an announcement** carries the item and is addressed to the border router. -/
theorem sendIpNidIp_announces (host : Nid) (m stack : Mem) (pidOriginal : UInt32)
    (item : AnnounceItem) (ip : UInt32) :
    Announces (sendIpNidIp host m stack pidOriginal item ip) host item ip := by
  have hlen : ((item.words pidOriginal).flatMap le32).length = 20 := flatMap_le32_length _
  rw [sendIpNidIp]
  set data₀ := poke (pktgenCtorIpHeader (pktgenCtorEtherHeader m)) 34
    (peek (announceCtlPub host stack) 0 140) with hdata₀
  set data := poke data₀ 174 ((item.words pidOriginal).flatMap le32) with hdata
  -- `add_pid_and_ip` writes the IP header, `total_len` and what is behind the frame
  have hkeep : ∀ i, 34 ≤ i → i < 194 → (i < 36 ∨ 38 ≤ i) →
      (addPidAndIp ⟨data, 194⟩ 0 ip).data i = data i := fun i hi hi' htotal =>
    addPidAndIp_data (by omega) (by omega) hi' (by omega) htotal 0 ip
  have hhead : ∀ i < 140, (i < 2 ∨ 4 ≤ i) →
      (addPidAndIp ⟨data, 194⟩ 0 ip).data (34 + i) = announceCtlPub host stack i := by
    intro i hi htotal
    rw [hkeep _ (by omega) (by omega) (by omega), hdata, poke_of_outside (by omega), hdata₀,
      poke_peek_of_lt _ _ _ hi]
  have hword : ∀ i (hi : i < 5),
      load32 (addPidAndIp ⟨data, 194⟩ 0 ip).data (174 + 4 * i) = (item.words pidOriginal)[i] := by
    intro i hi
    rw [← load32_poke_words data₀ 174 (item.words pidOriginal) i hi]
    exact load32_congr fun j hj hj' => hkeep j (by omega) (by omega) (by omega)
  refine ⟨rfl, addPidAndIp_dst (by omega) (by omega) 0 ip, hhead 0 (by omega) (by omega),
    hhead 1 (by omega) (by omega), addPidAndIp_totalLen 0 ip, ?_, ?_, hword 1 (by decide),
    hword 2 (by decide), hword 3 (by decide), hword 4 (by decide)⟩
  · rw [← announceCtlPub_items host stack]
    refine congrArg ofLe16 (List.map_congr_left fun i hi => ?_)
    have hi2 : i < 2 := List.mem_range.mp hi
    rw [show 46 + i = 34 + (12 + i) by omega]
    exact hhead (12 + i) (by omega) (by omega)
  · rw [← announceCtlPub_eid host stack]
    apply List.map_congr_left
    intro i hi
    have hi16 : i < 16 := List.mem_range.mp hi
    rw [show 50 + i = 34 + (16 + i) by omega]
    exact hhead (16 + i) (by omega) (by omega)

/-! ## After a commit -/

/-- **The announcements of a commit are complete.** When the nodes of the chain hold the PIDs of
their rows in table order, the commit of a node is defined, so it reads no PID behind the last.
The rows of the neighbour then carry the PIDs of the node in their order, and what is sent are
exactly the announcements of these rows, each in a frame with its item and the address of its
border router. -/
theorem announcements_complete (host : Nid) (st : State) (AS AS' : PidInfo)
    (hrows : st.table.length ≤ 255)
    (hpids : ∀ node ∈ st.headWxb, node.pid = linkPids host node.eid st.table)
    (hs : search st.headWxb AS'.eid = some AS) (hn : AS'.numberPid = AS.numberPid) :
    ∃ st', commit host st AS' = some (st', announcements host AS'.eid st'.table)
      ∧ st'.headWxb = writeNode st.headWxb AS'
      ∧ linkPids host AS'.eid st'.table = AS'.pid
      ∧ ∀ m stack pidOriginal, ∀ a ∈ announcements host AS'.eid st'.table,
          Announces (sendIpNidIp host m stack pidOriginal a.1 a.2) host a.1 a.2 := by
  have hlen : (linkPids host AS'.eid st.table).length = AS'.pid.length := by
    rw [← search_eid hs, ← hpids AS (search_mem hs)]
    exact hn.symm
  obtain ⟨table, hc, -, hself, -⟩ := commit_of_length hrows hlen
  rw [← announcements_eq] at hc
  refine ⟨_, hc, rfl, hself, ?_⟩
  intro m stack pidOriginal a _
  exact sendIpNidIp_announces host m stack pidOriginal a.1 a.2

/-- RM 1 of the small configuration, with a node for each neighbour. -/
def sponsorChain : List PidInfo :=
  [{ eid := .ofByte 2, id := 0, pidChangeTime := 30, pid := [10], pid_le := by decide },
    { eid := .ofByte 3, id := 1, pidChangeTime := 30, pid := [20], pid_le := by decide }]

/-- RM 1 commits the PID 77 for the link to RM 3. -/
theorem announcements_complete_sponsor :
    ∃ AS' : PidInfo, AS'.eid = .ofByte 3 ∧ AS'.pid = [77] ∧
    ∃ st', commit (.ofByte 1) ⟨threeRms (.ofByte 1), sponsorChain, 0, fun _ _ => 0⟩ AS'
        = some (st', announcements (.ofByte 1) AS'.eid st'.table)
      ∧ st'.headWxb = writeNode sponsorChain AS'
      ∧ linkPids (.ofByte 1) AS'.eid st'.table = AS'.pid
      ∧ ∀ m stack pidOriginal, ∀ a ∈ announcements (.ofByte 1) AS'.eid st'.table,
          Announces (sendIpNidIp (.ofByte 1) m stack pidOriginal a.1 a.2) (.ofByte 1) a.1 a.2 :=
  ⟨(sponsorChain[1]).setPids fun _ => 77, rfl, rfl,
    announcements_complete (.ofByte 1) ⟨threeRms (.ofByte 1), sponsorChain, 0, fun _ _ => 0⟩
      sponsorChain[1] _ (by decide) (by decide) rfl rfl⟩

end Rm
