import IcnPrototype.Lib.Refine
import IcnPrototype.Rm.MainLoop

set_option autoImplicit false

/-! # The tables of the packets to send

For every port the RM has a table of 32 slots (`struct mbuf_table`). `send_single_packet` puts one
packet into it and `send_packetsx4` several, with a loop that is entered in the middle; a full table
is sent as a burst, and so is one that has been waiting. What the driver does not take is freed.

A slot behind the end of an array cannot be written, and nothing can be read there: the functions
are partial. `table_refines` says that the slots are a queue, and in which cases the functions are
defined; `tx_fifo` that no run loses a packet, sends one twice or changes the order. The loop that
is entered in the middle copies at least one row of four, also when nothing is left to copy
(`copyx4_eq`). So `send_packetsx4` reads packets it was not given when those it was given fill the
table exactly (`sendPacketsx4_defined_iff`).
-/

namespace Rm

/-! ## The functions -/

/-- `FWDSTEP` -/
def fwdStep : Nat := 4

/-- `MAX_TX_BURST` -/
def maxTxBurst : Nat := maxPktBurst / 2

/-- `struct mbuf_table` of a port, and what was done to the packets for it. -/
structure MbufTable where
  len : Nat
  mTable : List Nat
  log : List Event

/-- `m_table[i] = p` -/
def store (table : List Nat) (i p : Nat) : Option (List Nat) :=
  if i < table.length then some (table.set i p) else none

/-- `rte_eth_tx_burst` takes the first `ret` packets, the others are freed. -/
def burst (ms : List Nat) (ret : Nat) : List Event :=
  (ms.take ret).map .accept ++ (ms.drop ret).map .free

/-- `send_burst` -/
def MbufTable.sendBurst (t : MbufTable) (n ret : Nat) : Option MbufTable :=
  if n ≤ t.mTable.length then some { t with log := t.log ++ burst (t.mTable.take n) ret } else none

/-- `send_single_packet` -/
def MbufTable.sendSinglePacket (t : MbufTable) (m ret : Nat) : Option MbufTable := do
  let table ← store t.mTable t.len m
  let len := t.len + 1
  let t := { t with mTable := table }
  if len = maxPktBurst then
    let t ← t.sendBurst maxPktBurst ret
    some { t with len := 0 }
  else some { t with len := len }

/-- `m_table[off + j] = m[src + j]; j++;`, so many times in a row. -/
def copyRow (off src : Nat) (m : List Nat) : List Nat → Nat → Nat → Option (List Nat)
  | table, _, 0 => some table
  | table, j, k + 1 => do
      let p ← m[src + j]?
      let table ← store table (off + j) p
      copyRow off src m table (j + 1) k

/-- `while (j < n)` -/
def copyWhile (off src : Nat) (m : List Nat) (n : Nat) (table : List Nat) (j : Nat) :
    Option (List Nat) :=
  if j < n then do
    let table ← copyRow off src m table j fwdStep
    copyWhile off src m n table (j + fwdStep)
  else some table
  termination_by n - j
  decreasing_by
    unfold fwdStep
    omega

/-- `switch (n % FWDSTEP) { while (j < n) { case 0: ... case 3: ... case 2: ... case 1: ... } }`.
The first pass begins at a label, behind the condition. -/
def copyx4 (off src : Nat) (m table : List Nat) (n : Nat) : Option (List Nat) := do
  let first := if n % fwdStep = 0 then fwdStep else n % fwdStep
  let table ← copyRow off src m table 0 first
  copyWhile off src m n table first

/-- The arguments of `send_packetsx4`: `m` is a part of `pkts_burst`, up to its end. -/
structure Packets where
  m : List Nat
  num : Nat
  num_le : num ≤ m.length
  m_le : m.length ≤ maxPktBurst

/-- `send_packetsx4` -/
def MbufTable.sendPacketsx4 (t : MbufTable) (ps : Packets) (ret : Nat) : Option MbufTable :=
  if maxTxBurst ≤ ps.num ∧ t.len = 0 then
    some { t with log := t.log ++ burst (ps.m.take ps.num) ret }
  else do
    let n := if t.len + ps.num > maxPktBurst then maxPktBurst - t.len else ps.num
    let table ← copyx4 t.len 0 ps.m t.mTable n
    let len := t.len + n
    let t := { t with mTable := table }
    if len = maxPktBurst then
      let t ← t.sendBurst maxPktBurst ret
      let len := ps.num - n
      let table ← copyx4 0 n ps.m t.mTable len
      some { t with len := len, mTable := table }
    else some { t with len := len }

/-- One round of the loop that drains the tables. -/
def MbufTable.drain (t : MbufTable) (ret : Nat) : Option MbufTable :=
  if t.len = 0 then some t
  else do
    let t ← t.sendBurst t.len ret
    some { t with len := 0 }

/-- What is done to the table of a port. -/
inductive TxAction where
  | single (m ret : Nat)
  | packets (ps : Packets) (ret : Nat)
  | drain (ret : Nat)

def MbufTable.step (t : MbufTable) : TxAction → Option MbufTable
  | .single m ret => t.sendSinglePacket m ret
  | .packets ps ret => t.sendPacketsx4 ps ret
  | .drain ret => t.drain ret

/-! ## The loop that is entered in the middle -/

/-- A row is copied exactly if it can be read and there are slots for it. -/
theorem copyRow_eq (off src : Nat) (m : List Nat) {table : List Nat} {j k : Nat}
    (hk : k ≠ 0 ∨ (src + j ≤ m.length ∧ off + j ≤ table.length)) :
    copyRow off src m table j k
      = if src + j + k ≤ m.length ∧ off + j + k ≤ table.length then
          some (table.take (off + j) ++ (m.drop (src + j)).take k ++ table.drop (off + j + k))
        else none := by
  induction k generalizing table j with
  | zero =>
      have h := hk.resolve_left (fun h => h rfl)
      rw [copyRow, Nat.add_zero, Nat.add_zero, if_pos h, List.take_zero, List.append_nil,
        List.take_append_drop]
  | succ k ih =>
      rw [copyRow]
      by_cases hm : src + j < m.length
      · rw [List.getElem?_eq_getElem hm]
        dsimp only [Option.bind_eq_bind, Option.bind_some]
        by_cases ht : off + j < table.length
        · rw [store, if_pos ht, Option.bind_some, ih (Or.inr (by rw [List.length_set]; omega)),
            List.length_set]
          by_cases hfit : src + (j + 1) + k ≤ m.length ∧ off + (j + 1) + k ≤ table.length
          · rw [if_pos hfit, if_pos (by omega)]
            have htake : (table.set (off + j) m[src + j]).take (off + (j + 1))
                = table.take (off + j) ++ [m[src + j]] := by
              rw [← Nat.add_assoc,
                List.take_succ_eq_append_getElem (by rw [List.length_set]; exact ht),
                List.getElem_set_self, List.take_set_of_le (Nat.le_refl _)]
            have hdrop : (table.set (off + j) m[src + j]).drop (off + (j + 1) + k)
                = table.drop (off + j + (k + 1)) := by
              rw [List.drop_set_of_lt (by omega)]
              congr 1
              omega
            have hrow : (m.drop (src + j)).take (k + 1)
                = m[src + j] :: (m.drop (src + (j + 1))).take k := by
              rw [List.drop_eq_getElem_cons hm, List.take_succ_cons, Nat.add_assoc]
            rw [htake, hdrop, hrow, List.append_assoc (table.take _), List.singleton_append]
          · rw [if_neg hfit, if_neg (by omega)]
        · rw [store, if_neg ht, Option.bind_none, if_neg (by omega)]
      · rw [List.getElem?_eq_none (by omega), if_neg (by omega)]
        rfl

/-- Two rows in a row are one. -/
theorem copyRow_add (off src : Nat) (m table : List Nat) (j k l : Nat) :
    ((copyRow off src m table j k).bind fun table => copyRow off src m table (j + k) l)
      = copyRow off src m table j (k + l) := by
  induction k generalizing table j with
  | zero => rw [copyRow, Option.bind_some, Nat.add_zero, Nat.zero_add]
  | succ k ih =>
      rw [Nat.succ_add, copyRow, copyRow]
      cases m[src + j]? with
      | none => rfl
      | some p =>
          dsimp only [Option.bind_eq_bind, Option.bind_some]
          cases store table (off + j) p with
          | none => rfl
          | some table =>
              rw [Option.bind_some, Option.bind_some, ← ih table (j + 1)]
              congr 2
              funext table
              congr 1
              omega

/-- The loop copies the rest, if it is a number of whole rows. -/
theorem copyWhile_eq (off src : Nat) (m : List Nat) {n j : Nat} (table : List Nat)
    (hrows : ∃ rows, n = j + fwdStep * rows) :
    copyWhile off src m n table j = copyRow off src m table j (n - j) := by
  obtain ⟨rows, rfl⟩ := hrows
  induction rows generalizing table j with
  | zero =>
      rw [copyWhile, if_neg (by omega), Nat.mul_zero, Nat.add_zero, Nat.sub_self, copyRow]
  | succ rows ih =>
      have hlt : j < j + fwdStep * (rows + 1) := by
        unfold fwdStep
        omega
      rw [copyWhile, if_pos hlt, Nat.add_sub_cancel_left, Nat.mul_succ,
        Nat.add_comm (fwdStep * rows), ← copyRow_add]
      congr 1
      funext table
      rw [← Nat.add_assoc j, ih, Nat.add_sub_cancel_left]

/-- **What the device copies**: `n` packets, but four when `n` is 0. -/
theorem copyx4_eq (off src : Nat) (m table : List Nat) (n : Nat) :
    copyx4 off src m table n
      = copyRow off src m table 0 (if n = 0 then fwdStep else n) := by
  unfold copyx4
  by_cases hzero : n = 0
  · subst hzero
    rw [if_pos rfl, Nat.zero_mod, if_pos rfl]
    dsimp only [Option.bind_eq_bind]
    have hstop : ∀ table, copyWhile off src m 0 table fwdStep = some table := by
      intro table
      rw [copyWhile, if_neg (Nat.not_lt_zero _)]
    simp only [hstop, Option.bind_fun_some]
  · rw [if_neg hzero]
    dsimp only [Option.bind_eq_bind]
    set first := if n % fwdStep = 0 then fwdStep else n % fwdStep with hfirst
    have hrows : ∃ rows, n = first + fwdStep * rows := by
      unfold fwdStep at hfirst ⊢
      refine ⟨(n - first) / 4, ?_⟩
      split at hfirst <;> omega
    have hle : first ≤ n := by
      obtain ⟨rows, hrows⟩ := hrows
      omega
    have hcopy : (fun table => copyWhile off src m n table first)
        = fun table => copyRow off src m table (0 + first) (n - first) := by
      funext table
      rw [copyWhile_eq off src m table hrows, Nat.zero_add]
    rw [hcopy, copyRow_add, Nat.add_sub_cancel' hle]

/-- The number of packets that are copied for `n`. -/
def copied (n : Nat) : Nat := if n = 0 then fwdStep else n

section Copyx4

variable {off src : Nat} {m table : List Nat} {n : Nat}

/-- The `n` packets are in the slots from `off` on; what is behind them does not matter. -/
theorem copyx4_eq_some (hm : src + copied n ≤ m.length) (ht : off + copied n ≤ table.length) :
    ∃ table', copyx4 off src m table n = some table' ∧ table'.length = table.length
      ∧ table'.take (off + n) = table.take off ++ (m.drop src).take n := by
  have hle : n ≤ copied n := by
    unfold copied
    split <;> omega
  refine ⟨table.take off ++ (m.drop src).take (copied n) ++ table.drop (off + copied n), ?_, ?_, ?_⟩
  · rw [copyx4_eq, ← copied, copyRow_eq off src m (Or.inr (by omega)), Nat.add_zero, Nat.add_zero,
      if_pos ⟨hm, ht⟩]
  · rw [List.length_append, List.length_append, List.length_take, List.length_take,
      List.length_drop, List.length_drop]
    omega
  · have hfront : (table.take off).length = off := by
      rw [List.length_take]
      omega
    have hrow : n ≤ ((m.drop src).take (copied n)).length := by
      rw [List.length_take, List.length_drop]
      omega
    rw [List.append_assoc, List.take_append, hfront, Nat.add_sub_cancel_left,
      List.take_of_length_le (by omega), List.take_append_of_le_length hrow, List.take_take,
      Nat.min_eq_left hle]

theorem copyx4_eq_none (hsrc : src ≤ m.length) (hoff : off ≤ table.length)
    (h : ¬ (src + copied n ≤ m.length ∧ off + copied n ≤ table.length)) :
    copyx4 off src m table n = none := by
  rw [copyx4_eq, ← copied, copyRow_eq off src m (Or.inr (by omega)), Nat.add_zero, Nat.add_zero,
    if_neg h]

end Copyx4

/-! ## The queue -/

/-- What a table is for: the packets that wait, in their order. -/
@[ext] structure TxQueue where
  waiting : List Nat
  log : List Event

/-- The packets that wait are sent. -/
def TxQueue.flush (q : TxQueue) (ret : Nat) : TxQueue := ⟨[], q.log ++ burst q.waiting ret⟩

/-- A packet is added, and when there are 32, they are sent. -/
def TxQueue.add (q : TxQueue) (m ret : Nat) : TxQueue :=
  let q := { q with waiting := q.waiting ++ [m] }
  if q.waiting.length = maxPktBurst then q.flush ret else q

/-- Many packets are sent at once if none wait. Otherwise they are added, and those behind the 32nd
wait after it is sent. -/
def TxQueue.addAll (q : TxQueue) (ms : List Nat) (ret : Nat) : TxQueue :=
  if maxTxBurst ≤ ms.length ∧ q.waiting = [] then { q with log := q.log ++ burst ms ret }
  else
    let room := maxPktBurst - q.waiting.length
    let full := { q with waiting := q.waiting ++ ms.take room }
    if full.waiting.length = maxPktBurst then { full.flush ret with waiting := ms.drop room }
    else full

/-- **Where `send_packetsx4` is defined.** Unless the packets are sent at once: a call without
packets reads four and puts them into slots, and a call that fills the table reads four behind
its own. -/
def TxQueue.Readable (q : TxQueue) (ps : Packets) : Prop :=
  (maxTxBurst ≤ ps.num ∧ q.waiting = [])
    ∨ ((ps.num = 0 → fwdStep ≤ ps.m.length ∧ q.waiting.length + fwdStep ≤ maxPktBurst)
      ∧ (q.waiting.length + ps.num = maxPktBurst → ps.num + fwdStep ≤ ps.m.length))

instance (q : TxQueue) (ps : Packets) : Decidable (q.Readable ps) :=
  inferInstanceAs (Decidable (_ ∨ _))

def TxQueue.step (q : TxQueue) : TxAction → Option TxQueue
  | .single m ret => some (q.add m ret)
  | .packets ps ret => if q.Readable ps then some (q.addAll (ps.m.take ps.num) ret) else none
  | .drain ret => some (q.flush ret)

/-! ## The table is a queue -/

/-- A table between two calls. -/
structure MbufTable.Wf (t : MbufTable) : Prop where
  length : t.mTable.length = maxPktBurst
  len_lt : t.len < maxPktBurst

def MbufTable.queue (t : MbufTable) : TxQueue := ⟨t.mTable.take t.len, t.log⟩

theorem MbufTable.Wf.waiting_length {t : MbufTable} (h : t.Wf) :
    t.queue.waiting.length = t.len := by
  show (t.mTable.take t.len).length = t.len
  rw [List.length_take, h.length]
  exact Nat.min_eq_left (Nat.le_of_lt h.len_lt)

/-- What a step does, seen as a table and as a queue. -/
def Agrees (t : Option MbufTable) (q : Option TxQueue) : Prop :=
  (∀ t' ∈ t, t'.Wf) ∧ t.map MbufTable.queue = q

theorem agrees_some {t : MbufTable} {q : TxQueue} (h : t.Wf) (hq : t.queue = q) :
    Agrees (some t) (some q) := by
  refine ⟨?_, congrArg some hq⟩
  intro t' ht
  exact Option.some.inj ht ▸ h

theorem maxPktBurst_pos : 0 < maxPktBurst := by decide

/-- The call fills the table: the rest of the packets begins the next one. -/
theorem sendRest_agrees {t : MbufTable} {table : List Nat} {ps : Packets} {n : Nat} (ret : Nat)
    (hn : n ≤ ps.num) (hrest : ps.num - n < maxPktBurst) (hroom : t.len + n = maxPktBurst)
    (htable : table.length = maxPktBurst)
    (hfull : table = t.mTable.take t.len ++ (ps.m.take ps.num).take n) :
    Agrees
      (({ t with mTable := table }.sendBurst maxPktBurst ret).bind fun t =>
        (copyx4 0 n ps.m t.mTable (ps.num - n)).bind fun table =>
          some { t with len := ps.num - n, mTable := table })
      (if ps.num = n → n + fwdStep ≤ ps.m.length then
        some ⟨(ps.m.take ps.num).drop n,
          t.log ++ burst (t.queue.waiting ++ (ps.m.take ps.num).take n) ret⟩
      else none) := by
  have hnum := ps.num_le
  have hm := ps.m_le
  rw [MbufTable.sendBurst, if_pos (Nat.le_of_eq htable.symm), Option.bind_some]
  dsimp only
  have hcopied : copied (ps.num - n) = if ps.num = n then fwdStep else ps.num - n := by
    unfold copied
    congr 1
    exact propext (by omega)
  split
  · next hread =>
      have hfits : n + copied (ps.num - n) ≤ ps.m.length
          ∧ 0 + copied (ps.num - n) ≤ table.length := by
        rw [hcopied, htable]
        split
        · next heq => exact ⟨hread heq, by decide⟩
        · omega
      obtain ⟨table', hcopy, hlength, htake⟩ := copyx4_eq_some hfits.1 hfits.2
      rw [hcopy, Option.bind_some]
      refine agrees_some ⟨hlength.trans htable, hrest⟩ ?_
      rw [Nat.zero_add, List.take_zero, List.nil_append] at htake
      apply TxQueue.ext
      · show table'.take (ps.num - n) = (ps.m.take ps.num).drop n
        rw [htake, List.drop_take]
      · show t.log ++ burst (table.take maxPktBurst) ret = _
        rw [← htable, List.take_length, hfull]
        rfl
  · next hread =>
      have hnone : copyx4 0 n ps.m table (ps.num - n) = none := by
        apply copyx4_eq_none (by omega) (Nat.zero_le _)
        intro hfits
        apply hread
        intro heq
        rw [hcopied, if_pos heq] at hfits
        exact hfits.1
      rw [hnone]
      exact ⟨fun t' ht => (by cases ht), rfl⟩

section Steps

variable {t : MbufTable} (h : t.Wf)
include h

theorem sendSinglePacket_agrees (m ret : Nat) :
    Agrees (t.sendSinglePacket m ret) (some (t.queue.add m ret)) := by
  have hlen := h.length
  have hlt := h.len_lt
  have hset : (t.mTable.set t.len m).length = maxPktBurst := by rw [List.length_set, hlen]
  have hstore : store t.mTable t.len m = some (t.mTable.set t.len m) := if_pos (by omega)
  have htake : (t.mTable.set t.len m).take (t.len + 1) = t.mTable.take t.len ++ [m] := by
    rw [List.take_succ_eq_append_getElem (by rw [List.length_set]; omega), List.getElem_set_self,
      List.take_set_of_le (Nat.le_refl _)]
  have hnumber : (t.queue.waiting ++ [m]).length = t.len + 1 := by
    rw [List.length_append, h.waiting_length, List.length_singleton]
  unfold MbufTable.sendSinglePacket TxQueue.add
  rw [hstore]
  dsimp only [Option.bind_eq_bind, Option.bind_some]
  rw [hnumber]
  split
  · next hfull =>
      have hburst : (t.mTable.set t.len m).take maxPktBurst = t.mTable.take t.len ++ [m] := by
        rw [← hfull, htake]
      rw [MbufTable.sendBurst, if_pos (by rw [List.length_set]; omega)]
      refine agrees_some ⟨hset, maxPktBurst_pos⟩ ?_
      rw [MbufTable.queue, List.take_zero, hburst]
      rfl
  · next hroom =>
      refine agrees_some ⟨hset, by dsimp only; omega⟩ ?_
      rw [MbufTable.queue, htake]
      rfl

theorem drain_agrees (ret : Nat) : Agrees (t.drain ret) (some (t.queue.flush ret)) := by
  have hlen := h.length
  have hlt := h.len_lt
  unfold MbufTable.drain
  split
  · next hzero =>
      refine agrees_some h ?_
      apply TxQueue.ext
      · rw [MbufTable.queue, hzero, List.take_zero]
        rfl
      · show t.log = t.log ++ burst (t.mTable.take t.len) ret
        rw [hzero, List.take_zero, burst, List.take_nil, List.drop_nil]
        exact (List.append_nil _).symm
  · rw [MbufTable.sendBurst, if_pos (by omega)]
    exact agrees_some ⟨hlen, maxPktBurst_pos⟩ rfl

theorem sendPacketsx4_agrees (ps : Packets) (ret : Nat) :
    Agrees (t.sendPacketsx4 ps ret)
      (if t.queue.Readable ps then some (t.queue.addAll (ps.m.take ps.num) ret) else none) := by
  have hlen := h.length
  have hlt := h.len_lt
  have hnum := ps.num_le
  have hm := ps.m_le
  have hwaiting := h.waiting_length
  have hms : (ps.m.take ps.num).length = ps.num := by
    rw [List.length_take]
    omega
  have hempty : t.len = 0 ↔ t.queue.waiting = [] := by rw [← hwaiting, List.length_eq_zero_iff]
  unfold MbufTable.sendPacketsx4 TxQueue.addAll
  rw [hms, hwaiting]
  by_cases hdirect : maxTxBurst ≤ ps.num ∧ t.len = 0
  · have hdirect' : maxTxBurst ≤ ps.num ∧ t.queue.waiting = [] := ⟨hdirect.1, hempty.mp hdirect.2⟩
    have hread : t.queue.Readable ps := Or.inl hdirect'
    rw [if_pos hdirect, if_pos hread, if_pos hdirect']
    exact agrees_some ⟨hlen, hlt⟩ rfl
  · have hdirect' : ¬ (maxTxBurst ≤ ps.num ∧ t.queue.waiting = []) := fun hd =>
      hdirect ⟨hd.1, hempty.mpr hd.2⟩
    have hread : t.queue.Readable ps
        ↔ (ps.num = 0 → fwdStep ≤ ps.m.length ∧ t.len + fwdStep ≤ maxPktBurst)
          ∧ (t.len + ps.num = maxPktBurst → ps.num + fwdStep ≤ ps.m.length) := by
      rw [TxQueue.Readable, hwaiting]
      exact or_iff_right hdirect'
    obtain ⟨n, hn, hcases⟩ : ∃ n,
        (if t.len + ps.num > maxPktBurst then maxPktBurst - t.len else ps.num) = n
        ∧ (t.len + ps.num > maxPktBurst ∧ n = maxPktBurst - t.len
          ∨ t.len + ps.num ≤ maxPktBurst ∧ n = ps.num) := ⟨_, rfl, by split <;> omega⟩
    have htake : (ps.m.take ps.num).take (maxPktBurst - t.len) = (ps.m.take ps.num).take n := by
      rcases hcases with ⟨-, rfl⟩ | ⟨hle, rfl⟩
      · rfl
      · rw [List.take_of_length_le (show (ps.m.take ps.num).length ≤ maxPktBurst - t.len by omega),
          List.take_of_length_le (show (ps.m.take ps.num).length ≤ ps.num by omega)]
    have hnumber : (t.queue.waiting ++ (ps.m.take ps.num).take n).length = t.len + n := by
      rw [List.length_append, hwaiting, List.length_take, hms]
      omega
    rw [if_neg hdirect, if_neg hdirect', hn]
    dsimp only [Option.bind_eq_bind]
    rw [htake, hnumber]
    by_cases hfits : 0 + copied n ≤ ps.m.length ∧ t.len + copied n ≤ t.mTable.length
    · obtain ⟨table, hcopy, hlength, htable⟩ := copyx4_eq_some hfits.1 hfits.2
      have hrow : (ps.m.take ps.num).take n = ps.m.take n := by
        rw [List.take_take]
        congr 1
        omega
      rw [List.drop_zero, ← hrow] at htable
      rw [hcopy, Option.bind_some]
      by_cases hfull : t.len + n = maxPktBurst
      · have hiff : t.queue.Readable ps ↔ (ps.num = n → n + fwdStep ≤ ps.m.length) := by
          rw [hread]
          constructor
          · rintro ⟨-, hfill⟩ heq
            rw [← heq]
            exact hfill (by omega)
          · intro hrest
            exact ⟨fun hzero => by omega, fun hfill => by
              have heq : ps.num = n := by omega
              rw [heq]
              exact hrest heq⟩
        have hroom : maxPktBurst - t.len = n := by omega
        rw [if_pos hfull, if_pos hfull, hroom, if_congr hiff rfl rfl]
        exact sendRest_agrees ret (by omega) (by omega) hfull (hlength.trans hlen)
          (by rw [← htable, hfull, ← hlen, ← hlength, List.take_length])
      · have heq : n = ps.num := by omega
        have hreads : t.queue.Readable ps := by
          refine hread.mpr ⟨fun hzero => ?_, fun hfill => by omega⟩
          rw [heq, hzero, copied, if_pos rfl, hlen] at hfits
          omega
        rw [if_neg hfull, if_neg hfull, if_pos hreads]
        refine agrees_some ⟨hlength.trans hlen, ?_⟩ ?_
        · dsimp only
          omega
        · exact TxQueue.ext htable rfl
    · have hreads : ¬ t.queue.Readable ps := by
        intro hreads
        apply hfits
        have hzero := (hread.mp hreads).1
        unfold copied
        split
        · have heq : ps.num = 0 := by omega
          have hfour := hzero heq
          omega
        · omega
      rw [copyx4_eq_none (Nat.zero_le _) (by omega) hfits, if_neg hreads]
      exact ⟨fun t' ht => (by cases ht), rfl⟩

end Steps

/-- **The slots refine the queue.** -/
theorem table_refines :
    Lts.Refines MbufTable.step TxQueue.step MbufTable.Wf MbufTable.queue id := by
  have hagrees : ∀ t a, MbufTable.Wf t → Agrees (t.step a) (t.queue.step a) := by
    intro t a h
    cases a with
    | single m ret => exact sendSinglePacket_agrees h m ret
    | packets ps ret => exact sendPacketsx4_agrees h ps ret
    | drain ret => exact drain_agrees h ret
  constructor
  · intro t a t' h hstep
    exact (hagrees t a h).1 t' hstep
  · intro t a h
    exact (hagrees t a h).2

/-- The lists of the main loop are such queues. -/
theorem loop_sendSinglePacket {ethports : Nat} (s : Loop ethports) (m : Nat) (port : Fin ethports)
    (ret : Nat) :
    (⟨(s.sendSinglePacket m port ret).txMbufs port, (s.sendSinglePacket m port ret).log⟩ : TxQueue)
      = TxQueue.add ⟨s.txMbufs port, s.log⟩ m ret := by
  unfold Loop.sendSinglePacket TxQueue.add
  dsimp only
  split
  · simp [Loop.flush, Loop.sendBurst, TxQueue.flush, burst]
  · simp

theorem loop_drain {ethports : Nat} (s : Loop ethports) (port : Fin ethports) (ret : Nat) :
    (⟨(s.drain port ret).txMbufs port, (s.drain port ret).log⟩ : TxQueue)
      = TxQueue.flush ⟨s.txMbufs port, s.log⟩ ret := by
  unfold Loop.drain
  split
  · next hzero =>
      have hnil : s.txMbufs port = [] := List.length_eq_zero_iff.mp hzero
      simp [TxQueue.flush, burst, hnil]
  · simp [Loop.flush, Loop.sendBurst, TxQueue.flush, burst]

/-! ## First in, first out -/

/-- The buffer of an event. -/
def Event.buffer : Event → Nat
  | inspect m => m
  | free m => m
  | accept m => m

/-- The packets that a call is given. -/
def TxAction.given : TxAction → List Nat
  | .single m _ => [m]
  | .packets ps _ => ps.m.take ps.num
  | .drain _ => []

theorem burst_buffers (ms : List Nat) (ret : Nat) : (burst ms ret).map Event.buffer = ms := by
  have hbuffer : Event.buffer ∘ Event.accept = id ∧ Event.buffer ∘ Event.free = id := ⟨rfl, rfl⟩
  rw [burst, List.map_append, List.map_map, List.map_map, hbuffer.1, hbuffer.2, List.map_id,
    List.map_id, List.take_append_drop]

/-- The packets that were given to a table, in their order: those of the log, and those that
wait. -/
def TxQueue.history (q : TxQueue) : List Nat := q.log.map Event.buffer ++ q.waiting

theorem history_flush (q : TxQueue) (ret : Nat) : (q.flush ret).history = q.history := by
  unfold TxQueue.history TxQueue.flush
  rw [List.map_append, burst_buffers, List.append_nil]

theorem history_add (q : TxQueue) (m ret : Nat) : (q.add m ret).history = q.history ++ [m] := by
  unfold TxQueue.add
  dsimp only
  split
  · rw [history_flush]
    exact (List.append_assoc ..).symm
  · exact (List.append_assoc ..).symm

theorem history_addAll {q : TxQueue} (hq : q.waiting.length < maxPktBurst) (ms : List Nat)
    (ret : Nat) :
    (q.addAll ms ret).history = q.history ++ ms := by
  unfold TxQueue.addAll
  split
  · next hdirect =>
      unfold TxQueue.history
      rw [hdirect.2, List.map_append, burst_buffers, List.append_nil, List.append_nil]
  · dsimp only
    split
    · calc List.map Event.buffer (q.log ++ burst (q.waiting ++ ms.take _) ret) ++ ms.drop _
          = q.history ++ ms.take _ ++ ms.drop _ := by
            rw [List.map_append, burst_buffers, ← List.append_assoc, TxQueue.history]
        _ = q.history ++ ms := by rw [List.append_assoc, List.take_append_drop]
    · next hroom =>
        have hall : ms.take (maxPktBurst - q.waiting.length) = ms := by
          apply List.take_of_length_le
          rw [List.length_append, List.length_take] at hroom
          omega
        rw [hall]
        exact (List.append_assoc ..).symm

/-- A call adds what it is given. -/
theorem history_step {q q' : TxQueue} (hq : q.waiting.length < maxPktBurst) {a : TxAction}
    (h : q.step a = some q') : q'.history = q.history ++ a.given := by
  cases a with
  | single m ret =>
      obtain rfl := Option.some.inj h
      exact history_add q m ret
  | packets ps ret =>
      unfold TxQueue.step at h
      dsimp only at h
      split at h
      · obtain rfl := Option.some.inj h
        exact history_addAll hq _ ret
      · cases h
  | drain ret =>
      obtain rfl := Option.some.inj h
      rw [history_flush]
      exact (List.append_nil _).symm

/-- A table at the start: what its slots hold does not matter. -/
structure MbufTable.Start (t : MbufTable) : Prop where
  length : t.mTable.length = maxPktBurst
  len : t.len = 0
  log : t.log = []

theorem MbufTable.Start.wf {t : MbufTable} (h : t.Start) : t.Wf :=
  ⟨h.length, by rw [h.len]; exact maxPktBurst_pos⟩

/-- What a run adds. -/
theorem history_exec {t t' : MbufTable} (h : t.Wf) {as : List TxAction}
    (hrun : Lts.exec MbufTable.step t as = some t') :
    t'.queue.history = t.queue.history ++ as.flatMap TxAction.given := by
  induction as generalizing t with
  | nil =>
      obtain rfl := Option.some.inj hrun
      exact (List.append_nil _).symm
  | cons a as ih =>
      obtain ⟨t₁, hstep, hrest⟩ := Lts.exec_cons_eq_some.mp hrun
      have hqueue : t.queue.step a = some t₁.queue :=
        (table_refines.commutes t a h).symm.trans (by rw [hstep]; rfl)
      have hlt : t.queue.waiting.length < maxPktBurst := by
        rw [h.waiting_length]
        exact h.len_lt
      rw [ih (table_refines.keeps t a t₁ h hstep) hrest, history_step hlt hqueue, List.flatMap_cons,
        List.append_assoc]

/-- **First in, first out.** After any run, the packets that were given to the table are those that
the driver took or that were freed, and then those in the slots, in their order; and there is a slot
for the next packet. -/
theorem tx_fifo {t t' : MbufTable} (h : t.Start) {as : List TxAction}
    (hrun : Lts.exec MbufTable.step t as = some t') :
    t'.log.map Event.buffer ++ t'.mTable.take t'.len = as.flatMap TxAction.given
      ∧ t'.len < t'.mTable.length := by
  have hwf := Lts.exec_invariant table_refines.keeps h.wf hrun
  constructor
  · have hhistory := history_exec h.wf hrun
    have hstart : t.queue.history = [] := by
      rw [TxQueue.history, MbufTable.queue, h.log, h.len]
      rfl
    rwa [hstart, List.nil_append] at hhistory
  · rw [hwf.length]
    exact hwf.len_lt

/-- **What `send_packetsx4` may be called for.** After any run, a call has a defined result exactly
if the packets are sent at once, or four more can be read where the table is filled exactly, and four
packets can be read and stored where there are none. -/
theorem sendPacketsx4_defined_iff {t t' : MbufTable} (h : t.Start) {as : List TxAction}
    (hrun : Lts.exec MbufTable.step t as = some t') (ps : Packets) (ret : Nat) :
    (t'.sendPacketsx4 ps ret).isSome = true
      ↔ (maxTxBurst ≤ ps.num ∧ t'.len = 0)
        ∨ ((ps.num = 0 → fwdStep ≤ ps.m.length ∧ t'.len + fwdStep ≤ maxPktBurst)
          ∧ (t'.len + ps.num = maxPktBurst → ps.num + fwdStep ≤ ps.m.length)) := by
  have hwf := Lts.exec_invariant table_refines.keeps h.wf hrun
  have hsome : (t'.sendPacketsx4 ps ret).isSome = true ↔ t'.queue.Readable ps := by
    rw [← Option.isSome_map, (sendPacketsx4_agrees hwf ps ret).2]
    split
    · next hread => exact iff_of_true rfl hread
    · next hread => exact iff_of_false (by simp) hread
  have hempty : t'.queue.waiting = [] ↔ t'.len = 0 := by
    rw [← hwf.waiting_length, List.length_eq_zero_iff]
  rw [hsome, TxQueue.Readable, hwf.waiting_length, hempty]

/-- An empty table. -/
def emptyTable : MbufTable := ⟨0, List.replicate 32 0, []⟩

theorem emptyTable_start : emptyTable.Start := ⟨rfl, rfl, rfl⟩

/-- A burst of 20 packets, the first of which are given. -/
def firstOf20 (num : Nat) (h : num ≤ 20) : Packets :=
  ⟨List.range' 1 20, num, by simpa using h, by decide⟩

/-- Fifteen packets, one more, sixteen more, which fill the table, and five more. -/
def fourCalls : List TxAction :=
  [.packets (firstOf20 15 (by decide)) 0, .single 21 0, .packets (firstOf20 16 (by decide)) 30,
    .packets (firstOf20 5 (by decide)) 0]

theorem tx_fifo_four : ∃ t', Lts.exec MbufTable.step emptyTable fourCalls = some t'
    ∧ t'.log.map Event.buffer ++ t'.mTable.take t'.len = fourCalls.flatMap TxAction.given
    ∧ t'.len < t'.mTable.length := by
  have hsome : (Lts.exec MbufTable.step emptyTable fourCalls).isSome = true := by
    rw [← Option.isSome_map, table_refines.exec emptyTable_start.wf fourCalls]
    decide
  obtain ⟨t', ht'⟩ := Option.isSome_iff_exists.mp hsome
  exact ⟨t', ht', tx_fifo emptyTable_start ht'⟩

theorem sendPacketsx4_defined_iff_empty :
    (emptyTable.sendPacketsx4 (firstOf20 0 (by decide)) 0).isSome = true
      ↔ (maxTxBurst ≤ 0 ∧ 0 = 0) ∨ (((0 : Nat) = 0 → fwdStep ≤ 20 ∧ 0 + fwdStep ≤ maxPktBurst)
        ∧ (0 + 0 = maxPktBurst → 0 + fwdStep ≤ 20)) :=
  sendPacketsx4_defined_iff emptyTable_start
    (show Lts.exec MbufTable.step emptyTable [] = _ from rfl) (firstOf20 0 (by decide)) 0

end Rm
