import IcnPrototype.Host
import IcnPrototype.Rm.LinkTable

set_option autoImplicit false

/-! # The chain of neighbours

`head_wxb` is a singly linked chain with one `struct pid_info` per neighbour: its EID, a small
number `ID`, the time of the next PID change and the PIDs of the links to it. This file has the
operations on the chain and on the link table that the negotiation uses, each as the source
has it: `search`, `read_configuration_init_pid_change_wxb`, `find_ip_or_pid`,
`update_nid_ip_nid_ip_nid` and `announce_ip_nid_ip`.

The chain is the list of its nodes. `number_pid` is the length of the list `pid`, which is the
live prefix of the array `pid[MAX_PID_NUMBER]`. A pointer to a node is the node, and a write
through it is `writeNode`, which replaces the node that `search` finds for the same EID.

`none` stands for behaviour that C leaves undefined: an index outside an array, a slot that was
never written, a null pointer, a function that ends without a `return`.
-/

namespace Rm

open Host

/-- `MAX_PID_NUMBER` -/
def maxPidNumber : Nat := 20

/-- `struct pid_info`. The array holds at most `maxPidNumber` PIDs. -/
structure PidInfo where
  eid : Nid
  id : UInt8
  pidChangeTime : UInt32
  pid : List UInt32
  pid_le : pid.length ≤ maxPidNumber

namespace PidInfo

/-- `number_pid` -/
def numberPid (AS : PidInfo) : Nat := AS.pid.length

/-- `for (i = 0; i < number_pid; i++) pid[i] = src[i];` -/
def setPids (AS : PidInfo) (src : Nat → UInt32) : PidInfo :=
  { AS with
    pid := (List.range AS.numberPid).map src
    pid_le := by simpa [numberPid] using AS.pid_le }

/-- `pid[number_pid] = pid; number_pid++;` -/
def addPid (AS : PidInfo) (pid : UInt32) (h : AS.numberPid < maxPidNumber) : PidInfo :=
  { AS with
    pid := AS.pid ++ [pid]
    pid_le := by simpa [numberPid] using h }

@[simp] theorem addPid_eid (AS : PidInfo) (pid : UInt32) (h : AS.numberPid < maxPidNumber) :
    (AS.addPid pid h).eid = AS.eid := rfl

@[simp] theorem addPid_id (AS : PidInfo) (pid : UInt32) (h : AS.numberPid < maxPidNumber) :
    (AS.addPid pid h).id = AS.id := rfl

@[simp] theorem addPid_pidChangeTime (AS : PidInfo) (pid : UInt32)
    (h : AS.numberPid < maxPidNumber) : (AS.addPid pid h).pidChangeTime = AS.pidChangeTime := rfl

@[simp] theorem addPid_pid (AS : PidInfo) (pid : UInt32) (h : AS.numberPid < maxPidNumber) :
    (AS.addPid pid h).pid = AS.pid ++ [pid] := rfl

@[simp] theorem setPids_eid (AS : PidInfo) (src : Nat → UInt32) : (AS.setPids src).eid = AS.eid := rfl

@[simp] theorem setPids_id (AS : PidInfo) (src : Nat → UInt32) : (AS.setPids src).id = AS.id := rfl

@[simp] theorem setPids_pid (AS : PidInfo) (src : Nat → UInt32) :
    (AS.setPids src).pid = (List.range AS.numberPid).map src := rfl

@[simp] theorem setPids_numberPid (AS : PidInfo) (src : Nat → UInt32) :
    (AS.setPids src).numberPid = AS.numberPid := by
  simp [numberPid]

end PidInfo

/-! ## Searching the chain -/

/-- `search`: the first node with the given EID. -/
def search : List PidInfo → Nid → Option PidInfo
  | [], _ => none
  | node :: next, eidKey => if node.eid = eidKey then some node else search next eidKey

/-- A write through the pointer that `search` returned for `AS.eid`. -/
def writeNode : List PidInfo → PidInfo → List PidInfo
  | [], _ => []
  | node :: next, AS => if node.eid = AS.eid then AS :: next else node :: writeNode next AS

theorem search_eid {chain : List PidInfo} {eid : Nid} {AS : PidInfo}
    (h : search chain eid = some AS) : AS.eid = eid := by
  induction chain with
  | nil => cases h
  | cons node next ih =>
      rw [search] at h
      split at h
      · next heq => rw [← Option.some.inj h]; exact heq
      · exact ih h

theorem search_mem {chain : List PidInfo} {eid : Nid} {AS : PidInfo}
    (h : search chain eid = some AS) : AS ∈ chain := by
  induction chain with
  | nil => cases h
  | cons node next ih =>
      rw [search] at h
      split at h
      · rw [← Option.some.inj h]; exact List.mem_cons_self
      · exact List.mem_cons_of_mem _ (ih h)

theorem search_eq_none {chain : List PidInfo} {eid : Nid} :
    search chain eid = none ↔ eid ∉ chain.map PidInfo.eid := by
  induction chain with
  | nil => simp [search]
  | cons node next ih =>
      rw [search]
      split
      · next heq => simp [heq]
      · next hne => simp [ih, Ne.symm hne]

theorem search_eq_some_of_mem {chain : List PidInfo} {eid : Nid}
    (h : eid ∈ chain.map PidInfo.eid) : ∃ AS, search chain eid = some AS := by
  cases hs : search chain eid with
  | none => exact absurd h (search_eq_none.mp hs)
  | some AS => exact ⟨AS, rfl⟩

/-! ## Writing through the pointer -/

/-- A write keeps every field of the nodes that it keeps of the node it replaces. -/
theorem writeNode_map {β : Type*} (f : PidInfo → β) {chain : List PidInfo} {AS AS' : PidInfo}
    (hs : search chain AS'.eid = some AS) (hf : f AS' = f AS) :
    (writeNode chain AS').map f = chain.map f := by
  induction chain with
  | nil => rfl
  | cons node next ih =>
      rw [search] at hs
      rw [writeNode]
      split at hs
      · next heq =>
          rw [Option.some.injEq] at hs
          rw [if_pos heq, List.map_cons, List.map_cons, hf, hs]
      · next hne => rw [if_neg hne, List.map_cons, List.map_cons, ih hs]

theorem writeNode_of_search {chain : List PidInfo} {AS : PidInfo}
    (hs : search chain AS.eid = some AS) : writeNode chain AS = chain := by
  simpa using writeNode_map id hs rfl

theorem writeNode_of_search_none {chain : List PidInfo} {AS : PidInfo}
    (hs : search chain AS.eid = none) : writeNode chain AS = chain := by
  induction chain with
  | nil => rfl
  | cons node next ih =>
      rw [search] at hs
      rw [writeNode]
      split at hs
      · cases hs
      · next hne => rw [if_neg hne, ih hs]

@[simp] theorem writeNode_map_eid (chain : List PidInfo) (AS : PidInfo) :
    (writeNode chain AS).map PidInfo.eid = chain.map PidInfo.eid := by
  cases hs : search chain AS.eid with
  | none => rw [writeNode_of_search_none hs]
  | some AS₀ => exact writeNode_map PidInfo.eid hs (search_eid hs).symm

@[simp] theorem writeNode_length (chain : List PidInfo) (AS : PidInfo) :
    (writeNode chain AS).length = chain.length := by
  have h := congrArg List.length (writeNode_map_eid chain AS)
  rwa [List.length_map, List.length_map] at h

theorem search_writeNode_self {chain : List PidInfo} {AS AS' : PidInfo}
    (h : search chain AS'.eid = some AS) : search (writeNode chain AS') AS'.eid = some AS' := by
  induction chain with
  | nil => cases h
  | cons node next ih =>
      rw [search] at h
      rw [writeNode]
      split at h
      · next heq => rw [if_pos heq, search, if_pos rfl]
      · next hne =>
          rw [if_neg hne, search, if_neg hne]
          exact ih h

/-- What the pointer that `search` returned is after a write through it. -/
theorem search_writeNode_of_search {chain : List PidInfo} {AS AS' : PidInfo} {eid : Nid}
    (hs : search chain eid = some AS) (heid : AS'.eid = AS.eid) :
    search (writeNode chain AS') eid = some AS' := by
  have h : AS'.eid = eid := heid.trans (search_eid hs)
  subst h
  exact search_writeNode_self hs

theorem search_writeNode_ne {chain : List PidInfo} {AS : PidInfo} {eid : Nid} (hne : eid ≠ AS.eid) :
    search (writeNode chain AS) eid = search chain eid := by
  induction chain with
  | nil => rfl
  | cons node next ih =>
      rw [writeNode]
      split
      · next heq =>
          rw [search, search, heq, if_neg (Ne.symm hne), if_neg (Ne.symm hne)]
      · rw [search, search]
        split
        · rfl
        · exact ih

/-- The nodes after the write: the one written, and those with another EID. -/
theorem mem_writeNode {chain : List PidInfo} (hnd : (chain.map PidInfo.eid).Nodup)
    {AS node : PidInfo} (h : node ∈ writeNode chain AS) :
    node = AS ∨ (node ∈ chain ∧ node.eid ≠ AS.eid) := by
  induction chain with
  | nil => cases h
  | cons first next ih =>
      rw [List.map_cons, List.nodup_cons] at hnd
      rw [writeNode] at h
      split at h
      · next heq =>
          rcases List.mem_cons.mp h with rfl | hmem
          · exact Or.inl rfl
          · refine Or.inr ⟨List.mem_cons_of_mem _ hmem, fun e => hnd.1 ?_⟩
            rw [heq, ← e]
            exact List.mem_map_of_mem hmem
      · next hne =>
          rcases List.mem_cons.mp h with rfl | hmem
          · exact Or.inr ⟨List.mem_cons_self, hne⟩
          · rcases ih hnd.2 hmem with rfl | ⟨hmem', hne'⟩
            · exact Or.inl rfl
            · exact Or.inr ⟨List.mem_cons_of_mem _ hmem', hne'⟩

/-! ## Building the chain from the link table -/

/-- One pass of the loop of `read_configuration_init_pid_change_wxb`, over the chain built so
far and the static `counter`. A row whose neighbour is in the chain appends its PID to the node;
the first row of a neighbour appends a node. -/
def readConfigurationRow (host : Nid) (s : List PidInfo × Nat) (item : NidIpNidIpNid) :
    Option (List PidInfo × Nat) :=
  if compareNid host item.eid1 = 0 then
    match search s.1 item.eid2 with
    | some AS =>
        if h : AS.numberPid < maxPidNumber then some (writeNode s.1 (AS.addPid item.pid h), s.2)
        else none
    | none =>
        some (s.1 ++
          [{ eid := item.eid2, id := UInt8.ofNat s.2, pidChangeTime := 30, pid := [item.pid],
             pid_le := by simp [maxPidNumber] }], s.2 + 1)
  else some s

/-- `read_configuration_init_pid_change_wxb`: the chain it leaves in `head_wxb`. -/
def readConfigurationInitPidChangeWxb (host : Nid) (table : List NidIpNidIpNid) :
    Option (List PidInfo) :=
  (table.foldlM (readConfigurationRow host) ([], 0)).map Prod.fst

/-! ## The link table -/

/-- The `type` of `find_ip_or_pid`: 0 asks for the address, 1 for the PID. -/
inductive PathField where
  | ip
  | pid
  deriving DecidableEq

/-- `find_ip_or_pid`: the address or the PID of the first link to the neighbour, in network
byte order. There is no `return` after the loop. -/
def findIpOrPid (host : Nid) (table : List NidIpNidIpNid) (AS : PidInfo) (type : PathField) :
    Option UInt32 :=
  (table.find? (NidIpNidIpNid.isLink host AS.eid)).map fun item =>
    match type with
    | .ip => htonl item.ip1
    | .pid => htonl item.pid

/-- The loop of `update_nid_ip_nid_ip_nid` over the rows. The list of PIDs is what is left of
`AS->item.pid` at `counter`. -/
def updateRows (host eid : Nid) : List UInt32 → List NidIpNidIpNid → Option (List NidIpNidIpNid)
  | _, [] => some []
  | pids, item :: rest =>
      if item.isLink host eid then
        match pids with
        | [] => none
        | pid :: pids => (updateRows host eid pids rest).map fun rest' => { item with pid := pid } :: rest'
      else (updateRows host eid pids rest).map fun rest' => item :: rest'

/-- `update_nid_ip_nid_ip_nid`: write the PIDs of a node into the rows of its links. The number
of rows is kept in a `uint8_t`. -/
def updateNidIpNidIpNid (host : Nid) (AS : PidInfo) (table : List NidIpNidIpNid) :
    Option (List NidIpNidIpNid) :=
  (updateRows host AS.eid AS.pid (rows8 table)).map fun rows =>
    rows ++ table.drop (table.length % 256)

/-! ## Announcements to the border routers -/

/-- `struct announce_item`, without `pid_original`, which is never assigned. All fields are in
network byte order. -/
structure AnnounceItem where
  pidCurrent : UInt32
  ipInside : UInt32
  ipOutside : UInt32
  timeToLive : UInt32
  deriving DecidableEq

/-- `pid_change_period` -/
def pidChangePeriod : UInt32 := 1

/-- The announcement of one row. -/
def announceItem (item : NidIpNidIpNid) : AnnounceItem where
  timeToLive := htonl (pidChangePeriod * 2)
  ipInside := htonl item.ip1
  pidCurrent := htonl item.pid
  ipOutside := htonl item.ip2

/-- The inner loop of `announce_ip_nid_ip`: the item goes to the near border router of every
link of the host. -/
def announceTo (host : Nid) (rows : List NidIpNidIpNid) (item : NidIpNidIpNid) :
    List (AnnounceItem × UInt32) :=
  (rows.filter fun itemJ => compareNid itemJ.eid1 host == 0).map fun itemJ =>
    (announceItem item, htonl itemJ.ip1)

/-- The outer loop of `announce_ip_nid_ip`; `all` are the rows the inner loop visits, the list
of PIDs is what is left of `AS->item.pid` at `counter`, and the loop ends with the last PID. -/
def announceRows (host eid : Nid) (all : List NidIpNidIpNid) :
    List UInt32 → List NidIpNidIpNid → Option (List (AnnounceItem × UInt32))
  | _, [] => some []
  | pids, item :: rest =>
      if item.isLink host eid then
        match pids with
        | [] => none
        | pid :: pids =>
            if pid = item.pid then
              if pids = [] then some (announceTo host all item)
              else (announceRows host eid all pids rest).map fun sent => announceTo host all item ++ sent
            else announceRows host eid all (pid :: pids) rest
      else announceRows host eid all pids rest

/-- `announce_ip_nid_ip`: what is sent to the border routers, item and address. -/
def announceIpNidIp (host : Nid) (AS : PidInfo) (table : List NidIpNidIpNid) :
    Option (List (AnnounceItem × UInt32)) :=
  announceRows host AS.eid (rows8 table) AS.pid (rows8 table)

end Rm
