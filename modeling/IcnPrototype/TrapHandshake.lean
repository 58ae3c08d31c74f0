import IcnPrototype.Monitor.Trap
import IcnPrototype.Rm.Trap

set_option autoImplicit false

/-! # The trap handshake

A monitor sends a hello, the RM sends it back with another `sid`, the monitor answers with its
traffic, and the RM stores it. `trap_handshake` follows the frames through the functions of both
programs, from the file of the monitor to the counter of the RM.
-/

namespace TrapHandshake

open Bytes Monitor Rm

variable {ethports : Nat}

/-- A frame in a buffer, in front of whatever was there. -/
def inBuffer (old : Mem) (frame : List UInt8) : Mem := poke old 0 frame

/-- The hello of a monitor as a packet of the RM. -/
def helloPacket (mon : TrapMonitor) (portIp : List UInt8) (trapState : UInt32) (old : Mem)
    (mbuf : Nat) (portid : Fin ethports) (pktLen : Nat) (ipv4Hdr : Bool) : Received ethports where
  mbuf := mbuf
  portid := portid
  pkt := ⟨inBuffer old (mon.sendTrapHello (mon.trapMessage portIp trapState)), pktLen, ipv4Hdr⟩

/-- The two changes that the RM makes to a hello. -/
structure SentBack (mac : EtherAddr) (hello back : Mem) : Prop where
  sid : back 67 = 3
  source : peek back 6 6 = mac.addrBytes
  rest : ∀ i, i ≠ 67 → i < 6 ∨ 12 ≤ i → back i = hello i

theorem sentBack_poke (mac : EtherAddr) (hello : Mem) :
    SentBack mac hello (poke (poke hello 67 [3]) 6 mac.addrBytes) where
  sid := by
    rw [poke_of_outside (by rw [mac.size_eq]; omega)]
    rfl
  source := (stored_poke _ 6 mac.addrBytes).peek_eq mac.size_eq
  rest := by
    intro i hi hout
    rw [poke_of_outside (by rw [mac.size_eq]; omega),
      poke_of_outside (by rw [List.length_singleton]; omega)]

/-- What is stored where the RM changes nothing comes back. -/
theorem SentBack.stored {mac : EtherAddr} {hello back : Mem} (h : SentBack mac hello back)
    {off : Nat} {bs : List UInt8} (hbs : Stored hello off bs) (hoff : 68 ≤ off) :
    Stored back off bs :=
  Eq.trans (peek_congr fun i hi _ => h.rest i (by omega) (by omega)) hbs

/-- The name of a host fills the NID of its hello. -/
theorem strncpy_name {host : TrapHost} {hostName : List UInt8} (h : cstr hostName = host.name) :
    strncpy 16 hostName = trapHelloNid host.digit := by
  rw [strncpy, h]
  cases host
  · rfl
  · rfl
  · rfl

theorem cstr_trapHelloNid (host : TrapHost) (rest : List UInt8) :
    cstr (trapHelloNid host.digit ++ rest) = host.name := by
  cases host
  · rfl
  · rfl
  · rfl

/-- The monitor takes a hello that comes back for its own, and answers with its traffic. -/
theorem ethdumpParseFrame_back {mon : TrapMonitor} {host : TrapHost} {v : Int64} {portIp : List UInt8}
    {frame : Mem} (hname : cstr mon.hostName = host.name)
    (htraffic : mon.trafficTemp = some (lld v ++ [10])) (hversion : frame 14 = 160)
    (hsid : frame 67 = 3) (hnid : Stored frame 68 (trapHelloNid host.digit))
    (hsbd : Stored frame 84 (trapHelloNid host.digit ++ strncpy 16 portIp)) :
    ∃ msg answer, mon.ethdumpParseFrame frame = mon.sendTrapData msg (trapHelloNid host.digit)
      ∧ mon.sendTrapData msg (trapHelloNid host.digit) = some answer := by
  have hlen : (trapHelloNid host.digit ++ strncpy 16 portIp).length = 32 := by
    rw [List.length_append, trapHelloNid_length, strncpy_length]
  have hmine : cstr (peek frame 84 32) = cstr mon.hostName := by
    rw [hsbd.peek_eq hlen, cstr_trapHelloNid, hname]
  refine ⟨mon.readTrapFile ⟨TrapSbd.load frame 84, 0⟩, ?_⟩
  rw [TrapMonitor.ethdumpParseFrame, if_pos ⟨hversion, hsid⟩, TrapMonitor.threadParseTrap,
    if_pos hmine, hnid.peek_eq (n := 16) rfl, TrapMonitor.sendTrapData, htraffic]
  exact ⟨_, rfl, rfl⟩

/-- The answer sets the counter of the host to the traffic of the monitor. -/
theorem dataTrapMessage_answer {mon : TrapMonitor} {host : TrapHost} {v : Int64}
    {msg : TrapMessage} {answer : List UInt8} (htraffic : mon.trafficTemp = some (lld v ++ [10]))
    (hanswer : mon.sendTrapData msg (trapHelloNid host.digit) = some answer) (old : Mem)
    (k : TrapCounters) : dataTrapMessage (inBuffer old answer) k = k.set host v := by
  obtain ⟨-, hsid, hnid, hport1⟩ :=
    TrapMonitor.sendTrapData_stored htraffic hanswer rfl (stored_poke old 0 answer)
  rw [strtoll_fgets_lld v (by decide)] at hport1
  exact dataTrapMessage_of_stored k hsid hnid hport1

/-- **The trap handshake.** For every monitor of one of the three hosts, the RM sends the hello
back to the port it came from with two changes; the monitor that receives it answers, and the
answer sets the counter of the host to the traffic of the monitor, and no other counter. -/
theorem trap_handshake (mon : TrapMonitor) (host : TrapHost) (v : Int64) (portIp : List UInt8)
    (trapState : UInt32) (c : LoopConfig) (s : Loop ethports) (mbuf : Nat) (portid : Fin ethports)
    (pktLen : Nat) (ipv4Hdr : Bool) (ret : Nat) (k : TrapCounters) (old₁ old₂ old₃ : Mem)
    (hname : cstr mon.hostName = host.name)
    (htraffic : mon.trafficTemp = some (lld v ++ [10])) :
    ∃ back, s.getTrapMessage c
        (helloPacket mon portIp trapState old₁ mbuf portid pktLen ipv4Hdr) ret
          = (back, (s.emit (.inspect mbuf)).sendSinglePacket mbuf portid ret)
      ∧ SentBack (c.portsEthAddr host.port)
          (inBuffer old₁ (mon.sendTrapHello (mon.trapMessage portIp trapState))) back
      ∧ ∃ msg answer, mon.ethdumpParseFrame (inBuffer old₂ (peek back 0 116))
            = mon.sendTrapData msg (trapHelloNid host.digit)
          ∧ mon.sendTrapData msg (trapHelloNid host.digit) = some answer
          ∧ dataTrapMessage (inBuffer old₃ answer) k = k.set host v := by
  have hnid16 : (mon.trapMessage portIp trapState).trapSbd.trapNid = trapHelloNid host.digit :=
    strncpy_name hname
  have hstored : Stored (inBuffer old₁ (mon.sendTrapHello (mon.trapMessage portIp trapState))) 0
      (mon.sendTrapHello (mon.trapMessage portIp trapState)) := stored_poke _ _ _
  obtain ⟨hversion, hsid, hnid, hsbd⟩ := TrapMonitor.sendTrapHello_stored hstored
  rw [TrapSbd.bytes] at hsbd
  have hip16 : (mon.trapMessage portIp trapState).trapSbd.portIp = strncpy 16 portIp := rfl
  rw [hnid16] at hnid hsbd
  rw [hip16] at hsbd
  rw [helloPacket]
  generalize inBuffer old₁ (mon.sendTrapHello (mon.trapMessage portIp trapState)) = hello at *
  have hback := sentBack_poke (c.portsEthAddr host.port) hello
  have hrm := getTrapMessage_of_stored c s ⟨mbuf, portid, ⟨hello, pktLen, ipv4Hdr⟩⟩ ret hversion
    hsid hnid
  generalize poke (poke hello 67 [3]) 6 (c.portsEthAddr host.port).addrBytes = back at *
  refine ⟨back, hrm, hback, ?_⟩
  -- The monitor sees the first 116 bytes of what came back.
  have hbyte : ∀ i < 116, inBuffer old₂ (peek back 0 116) i = back i := by
    intro i hi
    have hcopy := poke_peek_of_lt old₂ back 0 hi
    rwa [Nat.zero_add] at hcopy
  have hversion' : inBuffer old₂ (peek back 0 116) 14 = 160 := by
    rw [hbyte 14 (by decide), hback.rest 14 (by decide) (by decide), hversion]
  have hsid' : inBuffer old₂ (peek back 0 116) 67 = 3 := by
    rw [hbyte 67 (by decide), hback.sid]
  have hnid' := (hback.stored hnid (by decide)).copy (n := 116)
    (by rw [trapHelloNid_length]; decide) old₂
  have hsbd' := (hback.stored hsbd (by decide)).copy (n := 116)
    (by rw [List.length_append, trapHelloNid_length, strncpy_length]) old₂
  obtain ⟨msg, answer, hparse, hanswer⟩ :=
    ethdumpParseFrame_back hname htraffic hversion' hsid' hnid' hsbd'
  exact ⟨msg, answer, hparse, hanswer, dataTrapMessage_answer htraffic hanswer old₃ k⟩

/-- The monitor of `pc-4`, with a counter that is negative. -/
def pcFour : TrapMonitor where
  hostName := [0x70, 0x63, 0x2D, 0x34] ++ List.replicate 28 0
  sourceMac := List.replicate 6 1
  sourceMac_length := by simp
  trapFile := fun _ => none
  trafficTemp := some (lld (-7) ++ [10])

/-- An RM whose ports have one address. -/
def oneAddress : LoopConfig := ⟨Nid.ofByte 1, fun _ => ⟨List.replicate 6 2, by simp⟩⟩

theorem trap_handshake_pcFour :
    ∃ back msg answer,
      SentBack (oneAddress.portsEthAddr 1)
          (inBuffer (fun _ => 0) (pcFour.sendTrapHello (pcFour.trapMessage [0x31, 0] 1))) back
        ∧ pcFour.ethdumpParseFrame (inBuffer (fun _ => 0) (peek back 0 116))
          = pcFour.sendTrapData msg (trapHelloNid 0x34)
        ∧ pcFour.sendTrapData msg (trapHelloNid 0x34) = some answer
        ∧ dataTrapMessage (inBuffer (fun _ => 0) answer) ⟨0, 0, 0⟩ = ⟨0, -7, 0⟩ := by
  have hname : cstr pcFour.hostName = TrapHost.pc4.name := by decide
  obtain ⟨back, -, hback, msg, answer, hparse, hanswer, hcounter⟩ :=
    trap_handshake pcFour .pc4 (-7) [0x31, 0] 1 oneAddress
      (Loop.start ⟨[], [], 0, fun _ _ => 0⟩ : Loop 3) 0 0 116 true 0 ⟨0, 0, 0⟩ (fun _ => 0)
      (fun _ => 0) (fun _ => 0) hname rfl
  exact ⟨back, msg, answer, hback, hparse, hanswer, hcounter⟩

end TrapHandshake
