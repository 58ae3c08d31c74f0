import IcnPrototype.Lib.Layout
import IcnPrototype.Rm.MainLoop

set_option autoImplicit false

/-! # The trap counters of the RM

`data_trap_message` stores the counter of a trap data packet for the host its NID names. Which
hosts these are and what `get_trap_message` does with a hello is said by `trapHost` and
`Loop.getTrapMessage`.
-/

namespace Rm

open Bytes

/-- `pc3_port`, `pc4_port` and `pc5_port` -/
structure TrapCounters where
  pc3Port : Int64
  pc4Port : Int64
  pc5Port : Int64
  deriving DecidableEq

/-- The hosts that the trap functions know. -/
inductive TrapHost where
  | pc3
  | pc4
  | pc5

/-- The digit in the name of a host. -/
def TrapHost.digit : TrapHost → UInt8
  | pc3 => 0x33
  | pc4 => 0x34
  | pc5 => 0x35

/-- `pc-3`, `pc-4` or `pc-5`. -/
def TrapHost.name (host : TrapHost) : List UInt8 := [0x70, 0x63, 0x2D, host.digit]

/-- The port whose address `get_trap_message` puts into a hello of the host. -/
def TrapHost.port : TrapHost → Nat
  | pc3 => 0
  | pc4 => 1
  | pc5 => 2

/-- Store the counter of one host. -/
def TrapCounters.set (k : TrapCounters) (host : TrapHost) (v : Int64) : TrapCounters :=
  match host with
  | .pc3 => { k with pc3Port := v }
  | .pc4 => { k with pc4Port := v }
  | .pc5 => { k with pc5Port := v }

/-- The counters after `data_trap_message`. In `struct trap_data_header`, `port1` is 128 bytes from
the beginning. -/
def dataTrapMessage (data : Mem) (k : TrapCounters) : TrapCounters :=
  let nid := peek data 68 16
  let sid := peek data 48 20
  let port1 := (load64 data 128).toInt64
  if compareSidNid (trapHelloNid 0x33) nid && compareSidNid trapHelloSid2 sid then
    { k with pc3Port := port1 }
  else if compareSidNid (trapHelloNid 0x34) nid && compareSidNid trapHelloSid2 sid then
    { k with pc4Port := port1 }
  else if compareSidNid (trapHelloNid 0x35) nid && compareSidNid trapHelloSid2 sid then
    { k with pc5Port := port1 }
  else k

theorem trapHelloNid_length (b : UInt8) : (trapHelloNid b).length = 16 := rfl

theorem trapHost_of_stored {data : Mem} {host : TrapHost}
    (h : Stored data 68 (trapHelloNid host.digit)) : trapHost data = some host.port := by
  rw [trapHost, h.peek_eq (n := 16) rfl]
  cases host
  · rfl
  · rfl
  · rfl

/-- A hello goes back with another `sid` and the address of a port of the RM. -/
theorem getTrapMessage_of_stored {ethports : Nat} (c : LoopConfig) (s : Loop ethports)
    (r : Received ethports) (ret : Nat) {host : TrapHost} (hversion : r.pkt.data 14 = 0xa0)
    (hsid : Stored r.pkt.data 48 trapHelloSid)
    (hnid : Stored r.pkt.data 68 (trapHelloNid host.digit)) :
    s.getTrapMessage c r ret
      = (poke (poke r.pkt.data 67 [3]) 6 (c.portsEthAddr host.port).addrBytes,
        (s.emit (.inspect r.mbuf)).sendSinglePacket r.mbuf r.portid ret) := by
  have hhello : compareSidNid trapHelloSid (peek r.pkt.data 48 20) = true := by
    rw [hsid.peek_eq (n := 20) rfl]
    rfl
  have hhost : trapHost (poke r.pkt.data 67 [3]) = some host.port := by
    refine trapHost_of_stored (hnid.poke (Or.inr ?_))
    rw [List.length_singleton]
  rw [Loop.getTrapMessage]
  dsimp only
  rw [if_pos hversion, if_pos hhello, hhost]

/-- A trap data packet sets the counter of its host and no other one. -/
theorem dataTrapMessage_of_stored {data : Mem} {host : TrapHost} {v : Int64} (k : TrapCounters)
    (hsid : Stored data 48 trapHelloSid2) (hnid : Stored data 68 (trapHelloNid host.digit))
    (hport1 : Stored data 128 (le64 v.toUInt64)) : dataTrapMessage data k = k.set host v := by
  rw [dataTrapMessage, hsid.peek_eq (n := 20) rfl, hnid.peek_eq (n := 16) rfl, hport1.load64_eq]
  cases host
  · rfl
  · rfl
  · rfl

/-- A packet that `data_trap_message` does not free sets no counter. -/
theorem dataTrapMessage_eq_self {data : Mem} (k : TrapCounters)
    (h : ((trapHost data).isSome && compareSidNid trapHelloSid2 (peek data 48 20)) = false) :
    dataTrapMessage data k = k := by
  cases hsid : compareSidNid trapHelloSid2 (peek data 48 20) with
  | false => simp only [dataTrapMessage, hsid, Bool.and_false, Bool.false_eq_true, if_false]
  | true =>
      rw [hsid, Bool.and_true, Option.isSome_eq_false_iff, Option.isNone_iff_eq_none, trapHost,
        List.findIdx?_eq_none_iff] at h
      have h3 := h 0x33 (by decide)
      have h4 := h 0x34 (by decide)
      have h5 := h 0x35 (by decide)
      simp only [dataTrapMessage, h3, h4, h5, Bool.false_and, Bool.false_eq_true, if_false]

end Rm
