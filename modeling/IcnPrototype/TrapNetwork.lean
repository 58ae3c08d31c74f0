import IcnPrototype.Rm.MaxMinUtility
import IcnPrototype.TrapHandshake

set_option autoImplicit false

/-! # Traps in a network

Three hosts report to one RM. A monitor writes the trap of a port into a file and sends a hello; the
RM sends the hello back; the monitor that captures it starts a thread, which reads the trap file and
then the traffic file and answers; the RM stores the traffic. Every frame may be lost, come twice or
overtake others, every host captures the frames of all, and the files change between any two of
these events.

What can be relied on then is where things come from: `counters_written` for the counters of the RM,
and `answers_reported` for the traps in the answers. Both follow from `Inv`, which says of every frame
that was ever sent what it is.
-/

namespace Monitor

open Bytes

/-! ## Reports and answers -/

/-- An IP address as text. -/
structure PortIp where
  text : List UInt8
  short : text.length < 16
  nul_not_mem : 0 ∉ text

/-- The address of a port goes into the 16 bytes of a message and comes out again. -/
theorem PortIp.cstr_strncpy (portIp : PortIp) : cstr (strncpy 16 portIp.text) = portIp.text := by
  have hself : cstr portIp.text = portIp.text := cstr_eq_self portIp.nul_not_mem
  have hshort := portIp.short
  obtain ⟨k, hk⟩ : ∃ k, 16 - portIp.text.length = k + 1 := ⟨15 - portIp.text.length, by omega⟩
  rw [strncpy, hself, List.take_of_length_le (Nat.le_of_lt hshort), hk, List.replicate_succ,
    cstr_append_zero, hself]

/-- `"10.10.11.1"` -/
def strip : List UInt8 := [49, 48, 46, 49, 48, 46, 49, 49, 46, 49]

namespace TrapMonitor

variable (mon : TrapMonitor)

/-- `write_trap_file` -/
def writeTrapFile (trapMessage : TrapMessage) : TrapMonitor :=
  { mon with
    trapFile := Function.update mon.trapFile (cstr trapMessage.trapSbd.portIp) (some trapMessage) }

/-- `trap_send_proc`: the monitor, and the hello if one is sent. -/
def trapSendProc (portIp : PortIp) (trapState : UInt32) : TrapMonitor × Option (List UInt8) :=
  let msg := mon.trapMessage portIp.text trapState
  (mon.writeTrapFile msg,
    if cstr msg.trapSbd.portIp = strip then none else some (mon.sendTrapHello msg))

/-- `ethdump_parseFrame`, and `thread_parse_trap` up to `send_trap_data`: its arguments. -/
def capture (frame : Mem) : Option (TrapMessage × List UInt8) :=
  if frame 14 = 160 ∧ frame 67 = 3 then
    if cstr (peek frame 84 32) = cstr mon.hostName then
      some (mon.readTrapFile ⟨TrapSbd.load frame 84, 0⟩, peek frame 68 16)
    else none
  else none

/-- When nothing happens in between, it is the answer of `ethdumpParseFrame`. -/
theorem ethdumpParseFrame_eq (frame : Mem) :
    mon.ethdumpParseFrame frame = (mon.capture frame).bind fun t => mon.sendTrapData t.1 t.2 := by
  unfold ethdumpParseFrame capture threadParseTrap
  split
  · split
    · rfl
    · rfl
  · rfl

variable {mon}

/-- The trap in an answer is behind four bytes of padding. -/
theorem sendTrapData_trap {m : Mem} {msg : TrapMessage} {nid frame : List UInt8}
    (hframe : mon.sendTrapData msg nid = some frame) (hnid : nid.length = 16)
    (h : Stored m 0 frame) : Stored m 88 (msg.trapSbd.bytes ++ le32 msg.trapType) := by
  have hsid : (trapSid 3).length = 20 := rfl
  have hsbd : msg.trapSbd.bytes.length = 32 := by
    rw [TrapSbd.bytes, List.length_append, msg.trapSbd.trapNid_length, msg.trapSbd.portIp_length]
  cases hfile : mon.trafficTemp with
  | none => simp [sendTrapData, hfile] at hframe
  | some file =>
      rw [sendTrapData, hfile] at hframe
      obtain rfl := Option.some.inj hframe
      simp only [stored_append, List.length_append, headFront_length, List.length_replicate, hsid,
        hnid, hsbd, le32_length, le64_length] at h
      obtain ⟨⟨⟨⟨⟨-, hsbd'⟩, htype⟩, -⟩, -⟩, -⟩ := h
      refine stored_append.mpr ⟨hsbd', ?_⟩
      rw [hsbd]
      exact htype

end TrapMonitor

end Monitor

namespace Rm

open Bytes

/-- `get_trap_message`: the frame that goes back, if one does. -/
def trapReply (c : LoopConfig) (data : Mem) : Option Mem :=
  if data 14 = 0xa0 then
    if compareSidNid trapHelloSid (peek data 48 20) then
      let data := poke data 67 [3]
      (trapHost data).map fun i => poke data 6 (c.portsEthAddr i).addrBytes
    else none
  else none

/-- It is what `get_trap_message` gives to `send_single_packet`. -/
theorem getTrapMessage_eq {ethports : Nat} (c : LoopConfig) (s : Loop ethports)
    (r : Received ethports) (ret : Nat) :
    s.getTrapMessage c r ret = match trapReply c r.pkt.data with
      | some back => (back, (s.emit (.inspect r.mbuf)).sendSinglePacket r.mbuf r.portid ret)
      | none => ((s.getTrapMessage c r ret).1, s.emit (.inspect r.mbuf)) := by
  unfold Loop.getTrapMessage trapReply
  dsimp only
  split
  · split
    · cases trapHost (poke r.pkt.data 67 [3]) <;> rfl
    · rfl
  · rfl

theorem TrapHost.name_injective {host other : TrapHost} (h : host.name = other.name) :
    host = other := by
  cases host <;> cases other <;> first | rfl | cases h

/-- The counter of a host. -/
def TrapCounters.get (k : TrapCounters) : TrapHost → Int64
  | .pc3 => k.pc3Port
  | .pc4 => k.pc4Port
  | .pc5 => k.pc5Port

theorem TrapCounters.get_set (k : TrapCounters) (host host' : TrapHost) (v : Int64) :
    (k.set host v).get host' = if host = host' then v else k.get host' := by
  cases host <;> cases host' <;> rfl

end Rm

namespace TrapNetwork

open Bytes Monitor Rm TrapHandshake

/-! ## Three hosts and an RM -/

/-- A host: its monitor, the threads between their two files, and all that was written to the traffic
file and reported for the ports, which no step reads. -/
structure Site where
  mon : TrapMonitor
  threads : List (TrapMessage × List UInt8)
  written : List Int64
  reported : List (List UInt8 × UInt32)

/-- The hosts, every frame that was ever sent, and the counters of the RM. -/
structure Net where
  site : TrapHost → Site
  wire : List (List UInt8)
  counters : TrapCounters

/-- `get_port_info` opens the traffic file, which empties it, and writes the traffic; it reports a
trap; a monitor captures a frame that was sent; a thread answers; the RM gets a frame that was sent;
a frame that is no trap message is sent. -/
inductive Action where
  | truncate (host : TrapHost)
  | write (host : TrapHost) (totalBytes : Int64)
  | report (host : TrapHost) (portIp : PortIp) (trapState : UInt32)
  | capture (host : TrapHost) (i : Nat) (old : Mem)
  | answer (host : TrapHost) (i : Nat)
  | receive (i : Nat) (old : Mem)
  | other (frame : List UInt8)

def Net.setSite (n : Net) (host : TrapHost) (s : Site) : Net :=
  { n with site := Function.update n.site host s }

theorem Net.setSite_self (n : Net) (host : TrapHost) (s : Site) : (n.setSite host s).site host = s :=
  Function.update_self ..

theorem Net.setSite_of_ne (n : Net) {host other : TrapHost} (h : other ≠ host) (s : Site) :
    (n.setSite host s).site other = n.site other :=
  Function.update_of_ne h ..

/-- A frame of at least 60 bytes that is neither a Get nor a Data packet right behind its Ethernet
head. -/
def isOther (frame : List UInt8) : Bool :=
  60 ≤ frame.length && frame[14]? != some 160 && frame[14]? != some 161

/-- The network after an action. -/
def step (c : LoopConfig) (n : Net) : Action → Option Net
  | .truncate host =>
      let s := n.site host
      some (n.setSite host { s with mon := { s.mon with trafficTemp := some [] } })
  | .write host v =>
      let s := n.site host
      some (n.setSite host { s with
        mon := { s.mon with trafficTemp := some (lld v ++ [10]) }
        written := v :: s.written })
  | .report host portIp trapState =>
      let s := n.site host
      let (mon, hello) := s.mon.trapSendProc portIp trapState
      let n := n.setSite host { s with
        mon := mon
        reported := (portIp.text, trapState) :: s.reported }
      some { n with wire := hello.toList ++ n.wire }
  | .capture host i old => (n.wire[i]?).map fun frame =>
      let s := n.site host
      n.setSite host { s with
        threads := (s.mon.capture (inBuffer old frame)).toList ++ s.threads }
  | .answer host i => ((n.site host).threads[i]?).map fun t =>
      let s := n.site host
      let n := n.setSite host { s with threads := s.threads.eraseIdx i }
      { n with wire := (s.mon.sendTrapData t.1 t.2).toList ++ n.wire }
  | .receive i old => (n.wire[i]?).map fun frame =>
      let data := inBuffer old frame
      { n with
        wire := ((trapReply c data).map fun back => peek back 0 frame.length).toList ++ n.wire
        counters := if data 14 = 0xa1 then dataTrapMessage data n.counters else n.counters }
  | .other frame => if isOther frame then some { n with wire := frame :: n.wire } else none

/-! ## What a frame is -/

/-- A trap that was reported for a port, or none. -/
def Truthful (reported : List (List UInt8 × UInt32)) (msg : TrapMessage) : Prop :=
  msg.trapType = 0 ∨ (cstr msg.trapSbd.portIp, msg.trapType) ∈ reported

/-- A hello, or a hello that was sent back, with the last byte of its `sid`. -/
structure IsHello (host : TrapHost) (sid : UInt8) (portIp : List UInt8) (m : Mem) : Prop where
  version : m 14 = 160
  sid : Stored m 48 (TrapMonitor.trapSid sid)
  nid : Stored m 68 (trapHelloNid host.digit)
  sbd : Stored m 84 (trapHelloNid host.digit ++ portIp)

/-- An answer. -/
structure IsData (host : TrapHost) (v : Int64) (msg : TrapMessage) (m : Mem) : Prop where
  version : m 14 = 161
  sid : Stored m 48 trapHelloSid2
  nid : Stored m 68 (trapHelloNid host.digit)
  trap : Stored m 88 (msg.trapSbd.bytes ++ le32 msg.trapType)
  port1 : Stored m 128 (le64 v.toUInt64)

/-- What a frame is, in any buffer. -/
inductive Known (site : TrapHost → Site) (frame : List UInt8) : Prop where
  | hello (host : TrapHost) (sid : UInt8) (portIp : List UInt8) (hlen : frame.length = 116)
      (hsid : sid = 2 ∨ sid = 3) (hip : portIp.length = 16)
      (h : ∀ old, IsHello host sid portIp (inBuffer old frame))
  | data (host : TrapHost) (v : Int64) (msg : TrapMessage) (hv : v = 0 ∨ v ∈ (site host).written)
      (hmsg : Truthful (site host).reported msg) (h : ∀ old, IsData host v msg (inBuffer old frame))
  | other (h : ∀ old, inBuffer old frame 14 ≠ 160 ∧ inBuffer old frame 14 ≠ 161)

/-- What is known of a host. -/
structure Site.Sound (s : Site) (host : TrapHost) : Prop where
  name : cstr s.mon.hostName = host.name
  traffic : s.mon.trafficTemp = none ∨ s.mon.trafficTemp = some []
    ∨ ∃ v ∈ s.written, s.mon.trafficTemp = some (lld v ++ [10])
  files : ∀ key msg, s.mon.trapFile key = some msg → Truthful s.reported msg
  threads : ∀ t ∈ s.threads, t.2 = trapHelloNid host.digit ∧ Truthful s.reported t.1

/-- **The invariant**: every frame is known, and every counter was written. -/
structure Inv (n : Net) : Prop where
  sites : ∀ host, (n.site host).Sound host
  wire : ∀ frame ∈ n.wire, Known n.site frame
  counters : ∀ host, n.counters.get host = 0 ∨ n.counters.get host ∈ (n.site host).written

/-! ### Histories grow -/

theorem Truthful.mono {reported reported' : List (List UInt8 × UInt32)} (h : reported ⊆ reported')
    {msg : TrapMessage} (hmsg : Truthful reported msg) : Truthful reported' msg :=
  hmsg.imp_right fun hmem => h hmem

/-- More was written and reported. -/
structure Grows (s s' : Site) : Prop where
  written : s.written ⊆ s'.written
  reported : s.reported ⊆ s'.reported

theorem Known.mono {site site' : TrapHost → Site} (hgrow : ∀ host, Grows (site host) (site' host))
    {frame : List UInt8} (h : Known site frame) : Known site' frame := by
  cases h with
  | hello host sid portIp hlen hsid hip h => exact .hello host sid portIp hlen hsid hip h
  | data host v msg hv hmsg h =>
      exact .data host v msg (hv.imp_right fun hmem => (hgrow host).written hmem)
        (hmsg.mono (hgrow host).reported) h
  | other h => exact .other h

/-- **A host changes**: what it has written and reported stays. -/
theorem Inv.setSite {n : Net} (hi : Inv n) {host : TrapHost} {s : Site} (hs : s.Sound host)
    (hgrow : Grows (n.site host) s) : Inv (n.setSite host s) := by
  have hgrows : ∀ other, Grows (n.site other) ((n.setSite host s).site other) := by
    intro other
    by_cases heq : other = host
    · subst heq
      rw [Net.setSite_self]
      exact hgrow
    · rw [n.setSite_of_ne heq]
      exact ⟨fun _ hmem => hmem, fun _ hmem => hmem⟩
  refine {
    sites := ?_
    wire := fun frame hframe => (hi.wire frame hframe).mono hgrows
    counters := fun other => (hi.counters other).imp_right fun hmem => (hgrows other).written hmem }
  intro other
  by_cases heq : other = host
  · subst heq
    rw [Net.setSite_self]
    exact hs
  · rw [n.setSite_of_ne heq]
    exact hi.sites other

/-- Frames are sent. -/
theorem Inv.send {n : Net} (hi : Inv n) {frames : List (List UInt8)}
    (h : ∀ frame ∈ frames, Known n.site frame) : Inv { n with wire := frames ++ n.wire } where
  sites := hi.sites
  wire frame hframe := (List.mem_append.mp hframe).elim (h frame) (hi.wire frame)
  counters := hi.counters

/-! ### Frames in buffers -/

theorem inBuffer_stored (old : Mem) (frame : List UInt8) : Stored (inBuffer old frame) 0 frame :=
  stored_poke old 0 frame

/-- The last byte of the `sid`. -/
theorem IsHello.last {host : TrapHost} {sid : UInt8} {portIp : List UInt8} {m : Mem}
    (h : IsHello host sid portIp m) : m 67 = sid := by
  have hlast := h.sid.slice (k := 19) (n := 1) (by simp [TrapMonitor.trapSid])
  exact (stored_cons.mp hlast).1

/-- A frame that is sent back is a hello still. -/
theorem IsHello.sentBack {host : TrapHost} {sid : UInt8} {portIp : List UInt8} {m back : Mem}
    (h : IsHello host sid portIp m) {mac : EtherAddr} (hback : SentBack mac m back)
    (hip : portIp.length = 16) (old : Mem) :
    IsHello host 3 portIp (inBuffer old (peek back 0 116)) := by
  have hbyte : ∀ i < 116, inBuffer old (peek back 0 116) i = back i := by
    intro i hi
    have hcopy := poke_peek_of_lt old back 0 hi
    rwa [Nat.zero_add] at hcopy
  refine {
    version := ?_
    sid := ?_
    nid := (hback.stored h.nid (by decide)).copy (by rw [trapHelloNid_length]; decide) old
    sbd := (hback.stored h.sbd (by decide)).copy
      (by rw [List.length_append, trapHelloNid_length, hip]) old }
  · rw [hbyte 14 (by decide), hback.rest 14 (by decide) (by decide), h.version]
  · -- nineteen bytes come back as they were, and then the 3
    have hfront := h.sid.slice (k := 0) (n := 19) (by simp [TrapMonitor.trapSid])
    have hfront' : Stored back 48 (List.replicate 19 0) :=
      Eq.trans (peek_congr fun i hi hlt => hback.rest i
        (by rw [List.length_replicate] at hlt; omega) (by omega)) hfront
    have hlast : Stored back 67 [3] := stored_cons.mpr ⟨hback.sid, rfl⟩
    exact (stored_append.mpr ⟨hfront', hlast⟩).copy (by decide) old

/-- The hello of a monitor that knows its name. -/
theorem sendTrapHello_isHello {mon : TrapMonitor} {host : TrapHost}
    (hname : cstr mon.hostName = host.name) (portIp : List UInt8) (trapState : UInt32) (old : Mem) :
    IsHello host 2 (strncpy 16 portIp)
      (inBuffer old (mon.sendTrapHello (mon.trapMessage portIp trapState))) := by
  obtain ⟨hversion, hsid, hnid, hsbd⟩ :=
    TrapMonitor.sendTrapHello_stored (inBuffer_stored old
      (mon.sendTrapHello (mon.trapMessage portIp trapState)))
  have hnid16 : (mon.trapMessage portIp trapState).trapSbd.trapNid = trapHelloNid host.digit :=
    strncpy_name hname
  rw [TrapSbd.bytes] at hsbd
  rw [hnid16] at hnid hsbd
  exact ⟨hversion, hsid, hnid, hsbd⟩

/-- What the RM makes of a frame that is known. -/
theorem trapReply_of_known (c : LoopConfig) {site : TrapHost → Site} {frame : List UInt8}
    (h : Known site frame) (old : Mem) {back : Mem}
    (hback : trapReply c (inBuffer old frame) = some back) :
    Known site (peek back 0 frame.length) := by
  unfold trapReply at hback
  split at hback
  · next hversion =>
      split at hback
      · next hcompare =>
          cases h with
          | hello host sid portIp hlen hsid hip h =>
              obtain ⟨i, -, rfl⟩ := Option.map_eq_some_iff.mp hback
              rw [hlen]
              refine .hello host 3 portIp (peek_length _ _ _) (Or.inr rfl) hip ?_
              exact fun old' => (h old).sentBack (sentBack_poke (c.portsEthAddr i) _) hip old'
          | data host v msg hv hmsg h =>
              rw [(h old).version] at hversion
              cases hversion
          | other h => exact absurd hversion (h old).1
      · cases hback
  · cases hback

/-- What the RM stores of a frame that is known. -/
theorem counters_of_known {site : TrapHost → Site} {frame : List UInt8} (h : Known site frame)
    (old : Mem) (hversion : inBuffer old frame 14 = 0xa1) (k : TrapCounters) :
    ∃ host v, dataTrapMessage (inBuffer old frame) k = k.set host v
      ∧ (v = 0 ∨ v ∈ (site host).written) := by
  cases h with
  | hello host sid portIp hlen hsid hip h =>
      rw [(h old).version] at hversion
      cases hversion
  | data host v msg hv hmsg h =>
      exact ⟨host, v, dataTrapMessage_of_stored k (h old).sid (h old).nid (h old).port1, hv⟩
  | other h => exact absurd hversion (h old).2

/-! ### Threads -/

/-- The trap file of a port, or no trap. -/
theorem truthful_readTrapFile {mon : TrapMonitor} {reported : List (List UInt8 × UInt32)}
    (hfiles : ∀ key msg, mon.trapFile key = some msg → Truthful reported msg) (sbd : TrapSbd) :
    Truthful reported (mon.readTrapFile ⟨sbd, 0⟩) := by
  unfold TrapMonitor.readTrapFile
  cases hfile : mon.trapFile (cstr sbd.portIp) with
  | none => exact Or.inl rfl
  | some msg => exact hfiles _ msg hfile

theorem truthful_writeTrapFile {mon : TrapMonitor} {reported reported' : List (List UInt8 × UInt32)}
    (hfiles : ∀ key msg, mon.trapFile key = some msg → Truthful reported msg)
    (hgrow : reported ⊆ reported') {new : TrapMessage} (hnew : Truthful reported' new) :
    ∀ key msg, (mon.writeTrapFile new).trapFile key = some msg → Truthful reported' msg := by
  intro key msg hfile
  unfold TrapMonitor.writeTrapFile at hfile
  dsimp only at hfile
  by_cases hkey : key = cstr new.trapSbd.portIp
  · rw [hkey, Function.update_self] at hfile
    exact Option.some.inj hfile ▸ hnew
  · rw [Function.update_of_ne hkey] at hfile
    exact (hfiles key msg hfile).mono hgrow

/-- A thread is started for a hello of the host that has come back. -/
theorem capture_of_known {site : TrapHost → Site} {host : TrapHost} {frame : List UInt8}
    (hs : (site host).Sound host) (h : Known site frame) (old : Mem)
    {t : TrapMessage × List UInt8} (ht : (site host).mon.capture (inBuffer old frame) = some t) :
    t.2 = trapHelloNid host.digit ∧ Truthful (site host).reported t.1 := by
  unfold TrapMonitor.capture at ht
  split at ht
  · next hback =>
      split at ht
      · next hmine =>
          obtain rfl := Option.some.inj ht
          refine ⟨?_, truthful_readTrapFile hs.files _⟩
          cases h with
          | hello sender sid portIp hlen hsid hip h =>
              have hsbd : (trapHelloNid sender.digit ++ portIp).length = 32 := by
                rw [List.length_append, trapHelloNid_length, hip]
              rw [(h old).sbd.peek_eq hsbd, cstr_trapHelloNid, hs.name] at hmine
              obtain rfl := TrapHost.name_injective hmine
              exact (h old).nid.peek_eq rfl
          | data sender v msg hv hmsg h =>
              rw [(h old).version] at hback
              cases hback.1
          | other h => exact absurd hback.1 (h old).1
      · cases ht
  · cases ht

/-- The answer of a thread. -/
theorem sendTrapData_known {site : TrapHost → Site} {host : TrapHost} (hs : (site host).Sound host)
    {msg : TrapMessage} (hmsg : Truthful (site host).reported msg) {frame : List UInt8}
    (hframe : (site host).mon.sendTrapData msg (trapHelloNid host.digit) = some frame) :
    Known site frame := by
  have hknown : ∀ file v, (site host).mon.trafficTemp = some file → strtoll (fgets 100 file) = v →
      (v = 0 ∨ v ∈ (site host).written) → Known site frame := by
    intro file v hfile hread hv
    refine .data host v msg hv hmsg fun old => ?_
    obtain ⟨hversion, hsid, hnid, hport1⟩ :=
      TrapMonitor.sendTrapData_stored hfile hframe rfl (inBuffer_stored old frame)
    rw [hread] at hport1
    exact ⟨hversion, hsid, hnid,
      TrapMonitor.sendTrapData_trap hframe rfl (inBuffer_stored old frame), hport1⟩
  rcases hs.traffic with hnone | hempty | ⟨v, hv, hfile⟩
  · rw [TrapMonitor.sendTrapData, hnone] at hframe
    cases hframe
  · exact hknown _ 0 hempty (by decide) (Or.inl rfl)
  · exact hknown _ v hfile (strtoll_fgets_lld v (by decide)) (Or.inr hv)

/-! ## One action -/

theorem Inv.report {n : Net} (hi : Inv n) (host : TrapHost) (portIp : PortIp) (trapState : UInt32)
    (c : LoopConfig) {n' : Net} (h : step c n (.report host portIp trapState) = some n') : Inv n' := by
  obtain rfl := Option.some.inj h
  have hs := hi.sites host
  have hgrow : (n.site host).reported ⊆ (portIp.text, trapState) :: (n.site host).reported :=
    List.subset_cons_self _ _
  have hnew : Truthful ((portIp.text, trapState) :: (n.site host).reported)
      ((n.site host).mon.trapMessage portIp.text trapState) := by
    refine Or.inr ?_
    show (cstr (strncpy 16 portIp.text), trapState) ∈ _
    rw [portIp.cstr_strncpy]
    exact List.mem_cons_self
  let s' : Site := { n.site host with
    mon := (n.site host).mon.writeTrapFile ((n.site host).mon.trapMessage portIp.text trapState)
    reported := (portIp.text, trapState) :: (n.site host).reported }
  have hset : Inv (n.setSite host s') :=
    hi.setSite ⟨hs.name, hs.traffic, truthful_writeTrapFile hs.files hgrow hnew,
        fun t ht => ⟨(hs.threads t ht).1, (hs.threads t ht).2.mono hgrow⟩⟩
      ⟨fun _ hmem => hmem, hgrow⟩
  refine hset.send ?_
  intro frame hframe
  split at hframe
  · cases hframe
  · rw [Option.toList_some, List.mem_singleton] at hframe
    subst hframe
    exact .hello host 2 (strncpy 16 portIp.text) (TrapMonitor.sendTrapHello_length _) (Or.inl rfl)
      (strncpy_length _ _) fun old => sendTrapHello_isHello hs.name portIp.text trapState old

/-- **One action** keeps the invariant. -/
theorem Inv.step {c : LoopConfig} {n n' : Net} (hi : Inv n) {a : Action}
    (h : step c n a = some n') : Inv n' := by
  cases a with
  | truncate host =>
      obtain rfl := Option.some.inj h
      have hs := hi.sites host
      exact hi.setSite ⟨hs.name, Or.inr (Or.inl rfl), hs.files, hs.threads⟩
        ⟨fun _ hmem => hmem, fun _ hmem => hmem⟩
  | write host v =>
      obtain rfl := Option.some.inj h
      have hs := hi.sites host
      exact hi.setSite
        ⟨hs.name, Or.inr (Or.inr ⟨v, List.mem_cons_self, rfl⟩), hs.files, hs.threads⟩
        ⟨List.subset_cons_self _ _, fun _ hmem => hmem⟩
  | report host portIp trapState => exact hi.report host portIp trapState c h
  | capture host i old =>
      obtain ⟨frame, hframe, rfl⟩ := Option.map_eq_some_iff.mp h
      have hs := hi.sites host
      have hknown := hi.wire frame (List.mem_of_getElem? hframe)
      refine hi.setSite ⟨hs.name, hs.traffic, hs.files, ?_⟩
        ⟨fun _ hmem => hmem, fun _ hmem => hmem⟩
      intro t ht
      rcases List.mem_append.mp ht with hnew | hold
      · exact capture_of_known hs hknown old (Option.mem_toList.mp hnew)
      · exact hs.threads t hold
  | answer host i =>
      obtain ⟨t, ht, rfl⟩ := Option.map_eq_some_iff.mp h
      have hs := hi.sites host
      obtain ⟨hnid, hmsg⟩ := hs.threads t (List.mem_of_getElem? ht)
      let s' : Site := { n.site host with threads := (n.site host).threads.eraseIdx i }
      have hset : Inv (n.setSite host s') :=
        hi.setSite ⟨hs.name, hs.traffic, hs.files,
            fun t' ht' => hs.threads t' (List.mem_of_mem_eraseIdx ht')⟩
          ⟨fun _ hmem => hmem, fun _ hmem => hmem⟩
      refine hset.send ?_
      intro frame hframe
      rw [hnid] at hframe
      have hknown := sendTrapData_known hs hmsg (Option.mem_toList.mp hframe)
      refine hknown.mono fun other => ?_
      by_cases heq : other = host
      · subst heq
        rw [Net.setSite_self]
        exact ⟨fun _ hmem => hmem, fun _ hmem => hmem⟩
      · rw [n.setSite_of_ne heq]
        exact ⟨fun _ hmem => hmem, fun _ hmem => hmem⟩
  | receive i old =>
      obtain ⟨frame, hframe, rfl⟩ := Option.map_eq_some_iff.mp h
      have hknown := hi.wire frame (List.mem_of_getElem? hframe)
      have hreply : ∀ out ∈ ((trapReply c (inBuffer old frame)).map
          fun back => peek back 0 frame.length).toList, Known n.site out := by
        intro out hout
        obtain ⟨back, hback, rfl⟩ := Option.map_eq_some_iff.mp (Option.mem_toList.mp hout)
        exact trapReply_of_known c hknown old hback
      have hsent := hi.send hreply
      refine ⟨hsent.sites, hsent.wire, ?_⟩
      intro other
      dsimp only
      split
      · next hversion =>
          obtain ⟨host, v, hcounters, hv⟩ := counters_of_known hknown old hversion n.counters
          rw [hcounters, TrapCounters.get_set]
          split
          · next heq => exact heq ▸ hv
          · exact hi.counters other
      · exact hi.counters other
  | other frame =>
      dsimp only [TrapNetwork.step] at h
      split at h
      · next hother =>
          obtain rfl := Option.some.inj h
          refine hi.send (List.forall_mem_singleton.mpr (.other fun old => ?_))
          simp only [isOther, Bool.and_eq_true, decide_eq_true_eq, bne_iff_ne] at hother
          obtain ⟨⟨hlen, h160⟩, h161⟩ := hother
          have hbyte : frame[14]? = some (inBuffer old frame 14) := by
            rw [inBuffer, poke_of_inside (Nat.zero_le _) (by omega),
              List.getElem?_eq_getElem (by omega)]
          rw [hbyte] at h160 h161
          exact ⟨fun h => h160 (congrArg some h), fun h => h161 (congrArg some h)⟩
      · cases h

/-! ## Runs -/

/-- Nothing has been sent, written or reported, and no thread runs. -/
structure Start (n : Net) : Prop where
  name : ∀ host, cstr (n.site host).mon.hostName = host.name
  traffic : ∀ host, (n.site host).mon.trafficTemp = none
  trapFile : ∀ host key, (n.site host).mon.trapFile key = none
  threads : ∀ host, (n.site host).threads = []
  wire : n.wire = []
  counters : ∀ host, n.counters.get host = 0

theorem Start.inv {n : Net} (h : Start n) : Inv n where
  sites host := {
    name := h.name host
    traffic := Or.inl (h.traffic host)
    files := fun key msg hfile => by rw [h.trapFile host key] at hfile; cases hfile
    threads := fun t ht => by rw [h.threads host] at ht; cases ht }
  wire frame hframe := by rw [h.wire] at hframe; cases hframe
  counters host := Or.inl (h.counters host)

theorem exec_inv {c : LoopConfig} {n₀ n : Net} (h : Start n₀) {as : List Action}
    (hrun : Lts.exec (step c) n₀ as = some n) : Inv n :=
  Lts.exec_invariant (fun _ _ _ hi hstep => hi.step hstep) h.inv hrun

/-- **The counters come from the hosts.** Whatever is lost, repeated, delayed or captured by others,
a counter of the RM is 0 or a traffic that its host has written. -/
theorem counters_written {c : LoopConfig} {n₀ n : Net} (h : Start n₀) {as : List Action}
    (hrun : Lts.exec (step c) n₀ as = some n) (host : TrapHost) :
    n.counters.get host = 0 ∨ n.counters.get host ∈ (n.site host).written :=
  (exec_inv h hrun).counters host

theorem startMac_length : (List.replicate 6 (1 : UInt8)).length = 6 := List.length_replicate

/-- The network before anything has happened. -/
def startNet : Net where
  site host := ⟨⟨host.name ++ List.replicate 28 0, List.replicate 6 1, startMac_length,
    fun _ => none, none⟩, [], [], []⟩
  wire := []
  counters := ⟨0, 0, 0⟩

theorem startNet_start : Start startNet where
  name host := by cases host <;> decide
  traffic _ := rfl
  trapFile _ _ := rfl
  threads _ := rfl
  wire := rfl
  counters host := by cases host <;> rfl

/-- `pc-4` writes its traffic and reports a trap, and the RM gets the answer twice. -/
def twoAnswers : List Action :=
  [.write .pc4 (-7), .report .pc4 ⟨[49], by decide, by decide⟩ 1, .receive 0 (fun _ => 0),
    .capture .pc3 0 (fun _ => 0), .capture .pc4 0 (fun _ => 0), .truncate .pc4, .answer .pc4 0,
    .receive 0 (fun _ => 0), .receive 0 (fun _ => 0)]

theorem twoAnswers_runs : ∃ n, Lts.exec (step oneAddress) startNet twoAnswers = some n :=
  Option.isSome_iff_exists.mp (by decide +kernel)

theorem counters_written_twoAnswers :
    ∃ n, Lts.exec (step oneAddress) startNet twoAnswers = some n
      ∧ (n.counters.get .pc4 = 0 ∨ n.counters.get .pc4 ∈ (n.site .pc4).written) := by
  obtain ⟨n, hn⟩ := twoAnswers_runs
  exact ⟨n, hn, counters_written startNet_start hn .pc4⟩

/-- **The answers come from the ports.** A trap message that a station receives and takes for an
answer is one of a host it names, and the trap in it was reported for the port in it, or is none. -/
theorem answers_reported {c : LoopConfig} {n₀ n : Net} (h : Start n₀) {as : List Action}
    (hrun : Lts.exec (step c) n₀ as = some n) {frame : List UInt8} (hframe : frame ∈ n.wire)
    (old : Mem) (hversion : inBuffer old frame 14 = 161) :
    ∃ (host : TrapHost) (msg : TrapMessage), Stored (inBuffer old frame) 68 (trapHelloNid host.digit)
      ∧ Stored (inBuffer old frame) 88 (msg.trapSbd.bytes ++ le32 msg.trapType)
      ∧ (msg.trapType = 0
        ∨ (cstr msg.trapSbd.portIp, msg.trapType) ∈ (n.site host).reported) := by
  cases (exec_inv h hrun).wire frame hframe with
  | hello host sid portIp hlen hsid hip h =>
      rw [(h old).version] at hversion
      cases hversion
  | data host v msg hv hmsg h => exact ⟨host, msg, (h old).nid, (h old).trap, hmsg⟩
  | other h => exact absurd hversion (h old).2

/-- The first frame is the answer of `pc-4`. -/
theorem answers_reported_twoAnswers :
    ∃ n, Lts.exec (step oneAddress) startNet twoAnswers = some n
      ∧ ∃ frame ∈ n.wire, ∃ (host : TrapHost) (msg : TrapMessage),
        Stored (inBuffer (fun _ => 0) frame) 68 (trapHelloNid host.digit)
          ∧ Stored (inBuffer (fun _ => 0) frame) 88 (msg.trapSbd.bytes ++ le32 msg.trapType)
          ∧ (msg.trapType = 0
            ∨ (cstr msg.trapSbd.portIp, msg.trapType) ∈ (n.site host).reported) := by
  obtain ⟨n, hn⟩ := twoAnswers_runs
  have hfirst : (Lts.exec (step oneAddress) startNet twoAnswers).bind (fun n => n.wire.head?.map
      fun frame => inBuffer (fun _ => 0) frame 14) = some 161 := by
    decide +kernel
  rw [hn, Option.bind_some] at hfirst
  obtain ⟨frame, hframe, hversion⟩ := Option.map_eq_some_iff.mp hfirst
  have hmem := List.mem_of_mem_head? hframe
  exact ⟨n, hn, frame, hmem, answers_reported startNet_start hn hmem (fun _ => 0) hversion⟩

end TrapNetwork
