import IcnPrototype.BorderRouter.PidRouting
import IcnPrototype.Rm.Leak
import IcnPrototype.Server.SendDataPackets
import IcnPrototype.TrapHandshake

set_option autoImplicit false

/-! # What becomes of a flow

The flow generator answers a Get packet with frames that have a `struct data_header` right behind
the Ethernet head (`send_data_packets` of `flow_generator2.c`). The other stations expect an IP
header there, and the CoLoR header behind it: to a border router such a frame is addressed to nobody,
and to an RM it is a trap message from nobody. So no border router of the repository ever passes a
frame of a flow on, and an RM loses a buffer with each of them (`flow_unanswered`).
-/

namespace FlowGenerator

open Bytes

/-! ## The bytes of the frames -/

/-- `struct data_header dh`, as `main` fills it. -/
def dataHeader : List UInt8 :=
  [0xa1, 255] ++ le16 0 ++ le16 0 ++ le16 0 ++ le16 0 ++ [1, 0] ++ le32 0 ++ le32 0 ++ le16 0 ++ le16 0
    ++ le32 0 ++ (List.replicate 15 0 ++ [1]) ++ (List.replicate 19 0 ++ [100])
    ++ (List.replicate 15 0 ++ [1]) ++ le32 1

/-- `mac` -/
def mac : List UInt8 := List.replicate 12 255 ++ [8, 0]

/-- `sbuf` when the frames are sent: the headers, `psize` bytes that `memset` fills, and zeros. -/
def sbuf (psize : Nat) : List UInt8 :=
  mac ++ dataHeader ++ List.replicate psize 1
    ++ List.replicate (sendBufsize - headerSize - psize) 0

/-- The frames of a flow, with their bytes. -/
def flow (B : Argc) : Option (List (List UInt8)) :=
  (finalSizes B).map fun s => (frames s).map fun n => (sbuf (toSize s.psize)).take n

theorem headers_length : (mac ++ dataHeader).length = headerSize := rfl

/-- The lengths of the frames, when share and rest fit an `int` with the headers. -/
theorem mem_frames_bounds {B : Argc} (hpackets : B.flowPackets ≠ 0)
    (hshare : B.share < 2 ^ 31 - 98) (hrest : B.rest < 2 ^ 31 - 98) {s : Sizes}
    (hs : finalSizes B = some s) : ∀ n ∈ frames s, headerSize ≤ n ∧ n ≤ 1400 := by
  have hpos := flowPackets_ne_zero_iff.mp hpackets
  rcases Nat.lt_or_ge 1514 B.share with hlarge | hsmall
  · rw [finalSizes_large hpackets hlarge (by omega), Option.some.injEq] at hs
    subst hs
    have hsize : 1514 < B.flowSize.toNat := Nat.lt_of_lt_of_le hlarge (Nat.div_le_self _ _)
    have hdiv : (B.flowSize / 1514).toNat = B.flowSize.toNat / 1514 := UInt32.toNat_div _ _
    apply And.right (frames_of_clampLen ?_ rfl rfl Int.natCast_eq_zero)
    dsimp only
    split
    · omega
    · rw [UInt32.toNat_add, hdiv, Nat.mod_eq_of_lt]
      · exact Nat.succ_pos _
      · have hlt := B.flowSize.toNat_lt
        simp only [UInt32.reduceToNat]
        omega
  · rw [finalSizes_small hpackets hsmall hrest, Option.some.injEq] at hs
    subst hs
    apply And.right (frames_of_clampLen hpos rfl rfl ?_)
    dsimp only
    omega

/-- **Every frame begins with the headers**, and an IP header is not among them. -/
theorem headers_prefix {B : Argc} (hpackets : B.flowPackets ≠ 0) (hshare : B.share < 2 ^ 31 - 98)
    (hrest : B.rest < 2 ^ 31 - 98) {fs : List (List UInt8)} (hfs : flow B = some fs)
    {frame : List UInt8} (hframe : frame ∈ fs) : mac ++ dataHeader <+: frame := by
  obtain ⟨s, hs, rfl⟩ := Option.map_eq_some_iff.mp hfs
  obtain ⟨n, hn, rfl⟩ := List.mem_map.mp hframe
  have hlen := (mem_frames_bounds hpackets hshare hrest hs n hn).1
  apply List.prefix_take_iff.mpr
  rw [headers_length]
  refine ⟨?_, hlen⟩
  unfold sbuf
  rw [List.append_assoc (mac ++ dataHeader)]
  exact List.prefix_append _ _

end FlowGenerator

namespace Answer

open Bytes BorderRouter FlowGenerator Rm TrapHandshake

/-! ## The stations -/

/-- A border router after some calls of `push`. -/
def after (r : IPBorderRouter) (is : List Input) : IPBorderRouter :=
  is.foldl (fun r i => (r.push i.now i.stack i.port i.packet).1) r

/-- No call changes the interfaces. -/
theorem after_interfaces (r : IPBorderRouter) (is : List Input) :
    (after r is).ipNic = r.ipNic ∧ (after r is).sIp = r.sIp := by
  induction is generalizing r with
  | nil => exact ⟨rfl, rfl⟩
  | cons i is ih =>
      have hpush : (r.push i.now i.stack i.port i.packet).1.ipNic = r.ipNic
          ∧ (r.push i.now i.stack i.port i.packet).1.sIp = r.sIp := by
        rw [push_fst]
        split <;> exact ⟨rfl, rfl⟩
      obtain ⟨hnic, hsip⟩ := ih (r.push i.now i.stack i.port i.packet).1
      exact ⟨hnic.trans hpush.1, hsip.trans hpush.2⟩

section Frame

variable {frame : List UInt8} (h : mac ++ dataHeader <+: frame) (buffer : Mem)
include h

/-- The headers as a station has them. -/
theorem headers_peek {k n : Nat} (hkn : k + n ≤ headerSize) :
    peek (inBuffer buffer frame) k n = ((mac ++ dataHeader).drop k).take n := by
  obtain ⟨tail, rfl⟩ := h
  have hstored := (stored_append.mp (stored_poke buffer 0 (mac ++ dataHeader ++ tail))).1
  have hslice := hstored.slice (k := k) (n := n) (by rw [headers_length]; exact hkn)
  rw [Nat.zero_add] at hslice
  apply hslice.peek_eq
  rw [List.length_take, List.length_drop, headers_length]
  omega

theorem headers_mem {k : Nat} (hk : k < headerSize) {b : UInt8}
    (hb : ((mac ++ dataHeader).drop k).take 1 = [b]) : inBuffer buffer frame k = b := by
  have hpeek : [inBuffer buffer frame k] = [b] := (headers_peek h buffer hk).trans hb
  exact List.singleton_inj.mp hpeek

/-- To a border router the frame is addressed to 0.0.0.0, which it discards. -/
theorem push_headers {r : IPBorderRouter} (h1 : r.sIp 1 ≠ 0) (h2 : r.sIp 2 ≠ 0)
    (hnic : r.ipNic 0 = 0) (now : UInt32) (stack : List UInt8) (port : Nat) :
    r.push now stack port ⟨inBuffer buffer frame, frame.length⟩
      = (r, [(0, ⟨inBuffer buffer frame, frame.length⟩)]) := by
  have hdst : (⟨inBuffer buffer frame, frame.length⟩ : Packet).dIp = 0 := by
    unfold Packet.dIp load32
    rw [headers_peek h buffer (by decide)]
    rfl
  have hmine : r.isMine ⟨inBuffer buffer frame, frame.length⟩ = false := by
    unfold IPBorderRouter.isMine
    rw [hdst, decide_eq_false h1.symm, decide_eq_false h2.symm]
    rfl
  unfold IPBorderRouter.push
  rw [hmine, hdst, hnic]
  rfl

/-- To an RM the frame is a trap data message of no host. -/
theorem trapHost_headers : trapHost (inBuffer buffer frame) = none := by
  unfold trapHost
  rw [headers_peek h buffer (by decide)]
  decide

end Frame

/-- **A flow does not leave its network.** Whatever a border router of the repository has done
before, it discards every frame of every flow and keeps its tables. An RM that gets such a frame
loses its buffer, and its counters stay as they are. -/
theorem flow_unanswered {B : Argc} (hpackets : B.flowPackets ≠ 0)
    (hshare : B.share < 2 ^ 31 - 98) (hrest : B.rest < 2 ^ 31 - 98) {fs : List (List UInt8)}
    (hfs : flow B = some fs) {frame : List UInt8} (hframe : frame ∈ fs) (buffer : Mem) :
    (∀ r ∈ [IPBorderRouter.new, IPBorderRouter.newIpn], ∀ is now stack port,
      (after r is).push now stack port ⟨inBuffer buffer frame, frame.length⟩
        = (after r is, [(0, ⟨inBuffer buffer frame, frame.length⟩)]))
      ∧ (∀ {ethports : Nat} (r : Rm.Received ethports) (o : Outcome),
        r.pkt.data = inBuffer buffer frame → Loses r o)
      ∧ ∀ k, dataTrapMessage (inBuffer buffer frame) k = k := by
  have hheaders := headers_prefix hpackets hshare hrest hfs hframe
  have hnone := trapHost_headers hheaders buffer
  refine ⟨?_, ?_, ?_⟩
  · intro r hr is now stack port
    have htables : r.sIp 1 ≠ 0 ∧ r.sIp 2 ≠ 0 ∧ r.ipNic 0 = 0 := by
      rcases List.mem_pair.mp hr with rfl | rfl
      · decide
      · decide
    obtain ⟨hnic, hsip⟩ := after_interfaces r is
    rw [← hnic, ← hsip] at htables
    exact push_headers hheaders buffer htables.1 htables.2.1 htables.2.2 now stack port
  · intro ethports r o hdata
    have h14 : r.pkt.data 14 = 0xa1 := by
      rw [hdata]
      exact headers_mem hheaders buffer (by decide) rfl
    have h34 : r.pkt.data 34 = 0 := by
      rw [hdata]
      exact headers_mem hheaders buffer (by decide) rfl
    unfold Loses isTrapGet isTrapData
    rw [hdata, hnone, ← hdata, h14, h34]
    exact ⟨rfl, rfl, Or.inr (Or.inl ⟨by decide, by decide⟩)⟩
  · intro k
    apply dataTrapMessage_eq_self
    rw [hnone]
    rfl

/-- The frame of the flow of 20 packets and 1000 bytes. -/
def twentyFrame : List UInt8 := (sbuf 50).take 148

theorem twentyFrame_mem : ∃ fs, flow ⟨20, 1000, 10⟩ = some fs ∧ twentyFrame ∈ fs := by
  have hsizes : finalSizes ⟨20, 1000, 10⟩ = some ⟨20, 50, 0, 148, 98⟩ := by decide
  have hframes : frames ⟨20, 50, 0, 148, 98⟩ = List.replicate 20 148 := by decide
  refine ⟨List.replicate 20 twentyFrame, ?_, ?_⟩
  · unfold flow
    rw [hsizes, Option.map_some, hframes, List.map_replicate]
    rfl
  · exact List.mem_replicate.mpr ⟨by decide, rfl⟩

theorem flow_unanswered_twenty :
    (∃ fs, flow ⟨20, 1000, 10⟩ = some fs ∧ twentyFrame ∈ fs)
      ∧ IPBorderRouter.new.push 0 [] 0 ⟨inBuffer (fun _ => 0) twentyFrame, twentyFrame.length⟩
        = (IPBorderRouter.new, [(0, ⟨inBuffer (fun _ => 0) twentyFrame, twentyFrame.length⟩)]) := by
  refine ⟨twentyFrame_mem, ?_⟩
  obtain ⟨fs, hfs, hframe⟩ := twentyFrame_mem
  have hflow := flow_unanswered (by decide) (by decide) (by decide) hfs hframe fun _ => 0
  exact hflow.1 .new List.mem_cons_self [] 0 [] 0

end Answer
