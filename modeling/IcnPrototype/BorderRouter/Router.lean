import IcnPrototype.Host

set_option autoImplicit false

/-! # The border router

`IPBorderRouter` (`border_router/local/ipborderrouter.cc`) is a Click element with one function,
`push`: it takes a packet from an input port, may change its hash tables, and hands the packet
to an output port. The model is byte for byte: a packet is its buffer from the data pointer on
and its length, and every field is read and written at the offset the source computes.

* `find` on a Click `HashMap` gives 0 for an absent key, so a table is a function with value 0
  almost everywhere and `insert` is `Function.update`.
* A `String` made from a `char *` ends at the first NUL. Where the array has room behind its
  four bytes it was cleared before (`key`); where it has not (`unsigned char pid[4]` of the Data
  branches) the string goes on with the bytes behind it on the stack, which are an argument of
  `push`.
* Buffers are not bounded: a read behind the packet reads what is there.
-/

namespace BorderRouter

open Bytes Host

/-! ## Packets -/

/-- A Click packet: the bytes from its data pointer on, and its length. -/
structure Packet where
  mem : Mem
  length : Nat

/-- `packet->pull(n)`: drop bytes at the front. -/
def Packet.pull (p : Packet) (n : Nat) : Packet := ⟨fun i => p.mem (i + n), p.length - n⟩

/-- `packet->take(n)`: drop bytes at the end. The buffer keeps them. -/
def Packet.take (p : Packet) (n : Nat) : Packet := ⟨p.mem, p.length - n⟩

/-- `packet->put(n)`: append what the buffer has behind the end. -/
def Packet.put (p : Packet) (n : Nat) : Packet := ⟨p.mem, p.length + n⟩

/-- `struct iphead ip`, copied from behind the Ethernet header. -/
def Packet.iphead (p : Packet) : List UInt8 := peek p.mem 14 20

/-- `ip.d_ip` -/
def Packet.dIp (p : Packet) : UInt32 := load32 p.mem 30

/-- `ip.s_ip` -/
def Packet.sIp (p : Packet) : UInt32 := load32 p.mem 26

/-! ## The tables -/

/-- The members of `IPBorderRouter`. `pidpid`, `pid_c_num` and `pid_time` are written only; the
code that reads them is commented out. -/
structure IPBorderRouter where
  ipNic : UInt32 → Nat
  sIp : Nat → UInt32
  pidIp : List UInt8 → UInt32
  nidIp : List UInt8 → UInt32
  pidTime : List UInt8 → UInt32
  pidpid : Nat → List UInt8
  pidCNum : Nat

/-- `"PID2"` -/
def pid2 : List UInt8 := [0x50, 0x49, 0x44, 0x32]

/-- `"d3rm"` -/
def d3rm : List UInt8 := [0x64, 0x33, 0x72, 0x6d]

namespace IPBorderRouter

/-- The constructor. -/
def new : IPBorderRouter where
  ipNic := Function.update (Function.update (fun _ => 0) 0x20b0a0a 1) 0x103a8c0 2
  sIp := Function.update (Function.update (fun _ => 0) 1 0x10b0a0a) 2 0x203a8c0
  pidIp := Function.update (fun _ => 0) pid2 0x20b0a0a
  nidIp := Function.update (fun _ => 0) d3rm 0x103a8c0
  pidTime _ := 0
  pidpid _ := []
  pidCNum := 0

/-- The constructor of the router in `IPN`, at the other exit of the RM. Its `push` is the same. -/
def newIpn : IPBorderRouter where
  ipNic := Function.update (Function.update (fun _ => 0) 0x20a0a0a 1) 0x102a8c0 2
  sIp := Function.update (Function.update (fun _ => 0) 1 0x10a0a0a) 2 0x202a8c0
  pidIp := Function.update (fun _ => 0) [0x50, 0x49, 0x44, 0x31] 0x20a0a0a
  nidIp := Function.update (fun _ => 0) d3rm 0x102a8c0
  pidTime _ := 0
  pidpid _ := []
  pidCNum := 0

/-- The string of an array of 100 bytes that was cleared and then given `bs`. -/
def key (bs : List UInt8) : List UInt8 := cstr (bs ++ List.replicate (100 - bs.length) 0)

/-- The common end of all branches that emit: the packet goes to `hop`, with the address of
the interface towards it as source. -/
def emit (r : IPBorderRouter) (ip : List UInt8) (hop : UInt32) (p : Packet) : Nat × Packet :=
  let nic := r.ipNic hop
  (nic, { p with mem := poke p.mem 14 (ip.take 12 ++ le32 (r.sIp nic) ++ le32 hop) })

/-! ## The branches of `push` -/

/-- Get or control packet from inside: the last PID is at `total_len + 30`. -/
def pushByLastPid (r : IPBorderRouter) (p : Packet) : Nat × Packet :=
  let n := (ntohs (load16 p.mem 36)).toNat
  r.emit p.iphead (r.pidIp (key (peek p.mem (n + 30) 4))) p

/-- Get packet from outside. -/
def pushGetOutside (r : IPBorderRouter) (p : Packet) : Nat × Packet :=
  r.emit p.iphead (r.nidIp d3rm) p

/-- Data packet from inside: the last PID is taken out of the packet. -/
def pushDataInside (r : IPBorderRouter) (stack : List UInt8) (p : Packet) : List (Nat × Packet) :=
  let head := peek p.mem 34 80
  let pids := (p.mem 44).toNat
  if pids ≠ 0 then
    let totalLen := htons (ntohs (load16 p.mem 36) - 4)
    let head := head.take 2 ++ le16 totalLen ++ (head.drop 4).take 6 ++ [UInt8.ofNat (pids - 1)]
      ++ head.drop 11
    let newhead := peek p.mem 0 (110 + 4 * pids)
    let pid := peek p.mem (110 + 4 * pids) 4
    let pulled := p.pull 4
    let p' : Packet := { pulled with mem := poke (poke pulled.mem 0 newhead) 34 head }
    [r.emit p.iphead (r.pidIp (cstr (pid ++ stack))) p']
  else []

/-- Data packet from outside: the last PID, or the NID when there is none. -/
def pushDataOutside (r : IPBorderRouter) (stack : List UInt8) (p : Packet) : Nat × Packet :=
  let pids := (p.mem 44).toNat
  if pids ≠ 0 then r.emit p.iphead (r.pidIp (cstr (peek p.mem (110 + 4 * pids) 4 ++ stack))) p
  else r.emit p.iphead (r.nidIp (cstr (peek p.mem 98 16 ++ stack))) p

/-- Announcement. The condition `if(items=!0)` sets `items` to 1, so it is the first item. -/
def announce (r : IPBorderRouter) (now : UInt32) (p : Packet) : IPBorderRouter :=
  let curPid := peek p.mem 178 4
  let sourceIp := load32 p.mem 182
  let destIp := load32 p.mem 186
  let time := load32 p.mem 190
  { r with
    pidpid := Function.update r.pidpid r.pidCNum curPid
    pidCNum := if r.pidCNum = 99 then 0 else r.pidCNum + 1
    pidIp := Function.update r.pidIp (key curPid) (if sourceIp = r.sIp 1 then destIp else sourceIp)
    pidTime := Function.update r.pidTime (key curPid) (htonl time + now) }

/-- Control packet from outside: the last four bytes are cut off and the header is written
again, with the smaller length. -/
def pushControlOutside (r : IPBorderRouter) (p : Packet) : Nat × Packet :=
  let head := peek p.mem 34 140
  let totalLen := ntohs (ntohs (load16 p.mem 36) - 4)
  let cut := (p.take 8).put 4
  let p' : Packet := { cut with mem := poke cut.mem 34 (head.take 2 ++ le16 totalLen ++ head.drop 4) }
  r.emit p.iphead (r.nidIp d3rm) p'

/-- `head.controltype==16||head.controltype==35` -/
def isNegotiation (p : Packet) : Bool := p.mem 35 = 16 || p.mem 35 = 35

/-- The packet is for this router. -/
def isMine (r : IPBorderRouter) (p : Packet) : Bool := p.dIp = r.sIp 1 || p.dIp = r.sIp 2

/-- `push`. `now` is what `time()` returns, `stack` the bytes behind the local arrays of the
Data branches. The result is the packets handed to the output ports. -/
def push (r : IPBorderRouter) (now : UInt32) (stack : List UInt8) (port : Nat) (p : Packet) :
    IPBorderRouter × List (Nat × Packet) :=
  let version := p.mem 34
  if r.isMine p then
    if version = 160 ∧ port = 0 then (r, [r.pushByLastPid p])
    else if version = 160 ∧ port = 1 then (r, [r.pushGetOutside p])
    else if version = 161 ∧ port = 0 then (r, r.pushDataInside stack p)
    else if version = 161 ∧ port = 1 then (r, [r.pushDataOutside stack p])
    else if version = 163 then
      if p.mem 35 = 129 then (r.announce now p, [])
      else if isNegotiation p ∧ port = 0 then (r, [r.pushByLastPid p])
      else if isNegotiation p ∧ port = 1 then (r, [r.pushControlOutside p])
      else (r, [])
    else (r, [])
  else if 1 ≤ r.ipNic p.dIp ∧ r.ipNic p.dIp ≤ 4 then (r, [(r.ipNic p.dIp, p)])
  else (r, [(0, p)])

/-! ## What is emitted -/

section Emit

variable {r : IPBorderRouter} {ip : List UInt8} {hop : UInt32} {p : Packet}

@[simp] theorem emit_fst : (r.emit ip hop p).1 = r.ipNic hop := rfl

@[simp] theorem emit_length : (r.emit ip hop p).2.length = p.length := rfl

theorem emit_bytes_length (hip : ip.length = 20) (x y : UInt32) :
    (ip.take 12 ++ le32 x ++ le32 y).length = 20 := by
  simp [hip]

/-- The emitted packet has the next hop as destination. -/
theorem emit_dIp (hip : ip.length = 20) : (r.emit ip hop p).2.dIp = hop := by
  have hlen := emit_bytes_length hip (r.sIp (r.ipNic hop)) hop
  have hpeek := peek_poke_self p.mem 14 (ip.take 12 ++ le32 (r.sIp (r.ipNic hop)) ++ le32 hop)
  rw [hlen, show 20 = 16 + 4 from rfl, peek_append] at hpeek
  have hd := List.append_inj_right' hpeek (by simp)
  rw [Packet.dIp, load32, emit]
  exact (congrArg ofLe32 hd).trans (ofLe32_le32 hop)

/-- The emitted packet has the address of the interface as source. -/
theorem emit_sIp (hip : ip.length = 20) : (r.emit ip hop p).2.sIp = r.sIp (r.ipNic hop) := by
  have hlen := emit_bytes_length hip (r.sIp (r.ipNic hop)) hop
  have hpeek := peek_poke_self p.mem 14 (ip.take 12 ++ le32 (r.sIp (r.ipNic hop)) ++ le32 hop)
  rw [hlen, show 20 = 12 + 4 + 4 from rfl, peek_append, peek_append] at hpeek
  have hs := List.append_inj_right' (List.append_inj_left' hpeek (by simp)) (by simp)
  rw [Packet.sIp, load32, emit]
  exact (congrArg ofLe32 hs).trans (ofLe32_le32 _)

/-- Behind the IP header the emitted packet is unchanged. -/
theorem emit_mem_of_le (hip : ip.length = 20) {i : Nat} (hi : 34 ≤ i) :
    (r.emit ip hop p).2.mem i = p.mem i := by
  refine poke_of_outside (Or.inr ?_)
  rw [emit_bytes_length hip]
  omega

end Emit

@[simp] theorem iphead_length (p : Packet) : p.iphead.length = 20 := peek_length _ _ _

/-- The string of a cleared array is the string of the bytes alone. -/
theorem key_eq_cstr (bs : List UInt8) (h : bs.length < 100) : key bs = cstr bs := by
  obtain ⟨n, hn⟩ : ∃ n, 100 - bs.length = n + 1 := ⟨99 - bs.length, by omega⟩
  rw [key, hn, List.replicate_succ, cstr_append_zero]

end IPBorderRouter

/-- Only an announcement for the router changes its tables. -/
theorem push_fst (r : IPBorderRouter) (now : UInt32) (stack : List UInt8) (port : Nat) (p : Packet) :
    (r.push now stack port p).1
      = if r.isMine p = true ∧ p.mem 34 = 163 ∧ p.mem 35 = 129 then r.announce now p else r := by
  unfold IPBorderRouter.push
  by_cases h : r.isMine p = true ∧ p.mem 34 = 163 ∧ p.mem 35 = 129
  · rw [if_pos h]
    simp [h.1, h.2.1, h.2.2]
  · rw [if_neg h]
    dsimp only
    by_cases hmine : r.isMine p = true
    · rw [if_pos hmine]
      repeat' split
      all_goals first
        | rfl
        | exact absurd ⟨hmine, ‹p.mem 34 = 163›, ‹p.mem 35 = 129›⟩ h
    · rw [if_neg hmine]
      split <;> rfl

end BorderRouter
