import IcnPrototype.Host
import IcnPrototype.Lib.Decimal
import IcnPrototype.Lib.Layout

set_option autoImplicit false

/-! # Trap messages of a monitor

A monitor reports a trap with `send_trap_hello` (`trap.c`). The RM sends the frame back with another
`sid`, and `ethdump_parseFrame` (`get_port_info.c`) starts a thread for it, `thread_parse_trap`,
which answers with `send_trap_data`.

The frames are the bytes of `struct TRAP_HELLO_PKG` (116 bytes: a head of 84 and the trap, no
padding behind the head) and `struct TRAP_DATA_PKG` (144 bytes: the head, four bytes of padding and
the message, which has 64-bit counters). Both are zero before they are filled.
-/

namespace Monitor

open Bytes Host

/-! ## Structures -/

/-- `struct TRAP_SBD` -/
structure TrapSbd where
  trapNid : List UInt8
  portIp : List UInt8
  trapNid_length : trapNid.length = 16
  portIp_length : portIp.length = 16

/-- The 32 bytes of a `struct TRAP_SBD`. -/
def TrapSbd.bytes (sbd : TrapSbd) : List UInt8 := sbd.trapNid ++ sbd.portIp

/-- The `struct TRAP_SBD` at an offset. -/
def TrapSbd.load (m : Mem) (off : Nat) : TrapSbd where
  trapNid := peek m off 16
  portIp := peek m (off + 16) 16
  trapNid_length := peek_length _ _ _
  portIp_length := peek_length _ _ _

/-- `struct TRAP_MESSAGE`. Its counters are set by `send_trap_data` only. -/
structure TrapMessage where
  trapSbd : TrapSbd
  trapType : UInt32

/-- What the trap functions read of a host: the name, the address of `eth2`, the file
`log/temp_trap_*` of a port, and the file `traffic_temp`. A file that cannot be read is `none`. -/
structure TrapMonitor where
  hostName : List UInt8
  sourceMac : List UInt8
  sourceMac_length : sourceMac.length = 6
  trapFile : List UInt8 → Option TrapMessage
  trafficTemp : Option (List UInt8)

namespace TrapMonitor

variable (mon : TrapMonitor)

/-! ## Frames -/

/-- The first 44 bytes of both heads: the Ethernet head, and the CoLoR head up to its reserved
options. -/
def headFront (versionType : UInt8) : List UInt8 :=
  List.replicate 6 255 ++ mon.sourceMac ++ le16 (htons 0x0800)
    ++ [versionType, 255] ++ le16 (htons 68) ++ le16 0 ++ le16 0 ++ [20, 16, 0, 0]
    ++ List.replicate 2 0 ++ le32 0 ++ le32 0 ++ List.replicate 8 0

/-- A `sid` that is zero but for its last byte. -/
def trapSid (b : UInt8) : List UInt8 := List.replicate 19 0 ++ [b]

/-- The message that `trap_send_proc` reports. -/
def trapMessage (portIp : List UInt8) (trapState : UInt32) : TrapMessage where
  trapSbd :=
    { trapNid := strncpy 16 mon.hostName
      portIp := strncpy 16 portIp
      trapNid_length := strncpy_length _ _
      portIp_length := strncpy_length _ _ }
  trapType := trapState

/-- `send_trap_hello`: the frame. -/
def sendTrapHello (trapMessage : TrapMessage) : List UInt8 :=
  mon.headFront 160 ++ (le16 (htons 16) ++ le16 (htons 1500)) ++ trapSid 2
    ++ trapMessage.trapSbd.trapNid ++ trapMessage.trapSbd.bytes

/-- `send_trap_data`: the frame, if `traffic_temp` can be read. -/
def sendTrapData (trapMessage : TrapMessage) (nid : List UInt8) : Option (List UInt8) :=
  match mon.trafficTemp with
  | none => none
  | some file =>
      some (mon.headFront 161 ++ List.replicate 4 0 ++ trapSid 3 ++ nid
        ++ List.replicate 4 0 ++ trapMessage.trapSbd.bytes ++ le32 trapMessage.trapType
        ++ List.replicate 4 0 ++ le64 (strtoll (fgets 100 file)).toUInt64 ++ le64 3)

/-! ## Frames that are received -/

/-- `read_trap_file`: what it makes of the message. -/
def readTrapFile (trapMessage : TrapMessage) : TrapMessage :=
  (mon.trapFile (cstr trapMessage.trapSbd.portIp)).getD trapMessage

/-- `thread_parse_trap`: the answer to a `struct TRAP_HELLO_PKG`. -/
def threadParseTrap (pkg : Mem) : Option (List UInt8) :=
  if cstr (peek pkg 84 32) = cstr mon.hostName then
    mon.sendTrapData (mon.readTrapFile ⟨TrapSbd.load pkg 84, 0⟩) (peek pkg 68 16)
  else none

/-- `ethdump_parseFrame`: the answer to a frame, if the frame starts a thread and this one
answers. -/
def ethdumpParseFrame (frame : Mem) : Option (List UInt8) :=
  if frame 14 = 160 ∧ frame 67 = 3 then mon.threadParseTrap frame else none

/-! ## Where the fields are -/

variable {mon}

theorem headFront_length (versionType : UInt8) : (mon.headFront versionType).length = 44 := by
  simp [headFront, mon.sourceMac_length]

theorem headFront_stored {m : Mem} {versionType : UInt8}
    (h : Stored m 0 (mon.headFront versionType)) : m 14 = versionType := by
  simp only [headFront, stored_append, List.length_append, List.length_replicate,
    mon.sourceMac_length, le16_length, and_assoc] at h
  obtain ⟨-, -, -, hversion, -⟩ := h
  exact (stored_cons.mp hversion).1

/-- The length of a hello, all of which the RM sends back. -/
theorem sendTrapHello_length (msg : TrapMessage) : (mon.sendTrapHello msg).length = 116 := by
  simp [sendTrapHello, headFront_length, trapSid, TrapSbd.bytes, msg.trapSbd.trapNid_length,
    msg.trapSbd.portIp_length]

/-- The fields of a hello. -/
theorem sendTrapHello_stored {m : Mem} {msg : TrapMessage}
    (h : Stored m 0 (mon.sendTrapHello msg)) :
    m 14 = 160 ∧ Stored m 48 (trapSid 2) ∧ Stored m 68 msg.trapSbd.trapNid
      ∧ Stored m 84 msg.trapSbd.bytes := by
  have hsid : (trapSid 2).length = 20 := rfl
  simp only [sendTrapHello, stored_append, List.length_append, headFront_length, le16_length, hsid,
    msg.trapSbd.trapNid_length] at h
  obtain ⟨⟨⟨⟨hfront, -⟩, hsid⟩, hnid⟩, hsbd⟩ := h
  exact ⟨headFront_stored hfront, hsid, hnid, hsbd⟩

/-- The fields of the answer: `port1_data` is 128 bytes from the beginning. -/
theorem sendTrapData_stored {m : Mem} {msg : TrapMessage} {nid file frame : List UInt8}
    (hfile : mon.trafficTemp = some file) (hframe : mon.sendTrapData msg nid = some frame)
    (hnid : nid.length = 16) (h : Stored m 0 frame) :
    m 14 = 161 ∧ Stored m 48 (trapSid 3) ∧ Stored m 68 nid
      ∧ Stored m 128 (le64 (strtoll (fgets 100 file)).toUInt64) := by
  rw [sendTrapData, hfile] at hframe
  dsimp only at hframe
  rw [Option.some.injEq] at hframe
  subst hframe
  have hsid : (trapSid 3).length = 20 := rfl
  have hsbd : msg.trapSbd.bytes.length = 32 := by
    rw [TrapSbd.bytes, List.length_append, msg.trapSbd.trapNid_length, msg.trapSbd.portIp_length]
  simp only [stored_append, List.length_append, headFront_length, List.length_replicate, hsid, hnid,
    hsbd, le32_length, le64_length] at h
  obtain ⟨⟨⟨⟨⟨⟨⟨⟨⟨hfront, -⟩, hsid⟩, hnid⟩, -⟩, -⟩, -⟩, -⟩, hport1⟩, -⟩ := h
  exact ⟨headFront_stored hfront, hsid, hnid, hport1⟩

end TrapMonitor

end Monitor
