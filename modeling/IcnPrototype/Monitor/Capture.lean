import IcnPrototype.Monitor.Statistics

set_option autoImplicit false

/-! # What the capture thread counts

`ethdump_parseFrame` counts a frame in six counters, and once more in six of its own if it is a
Get or a Data packet. After any frames the eighteen counters are sums over them
(`counts_captured`), where a frame counts as sent if its source address and the address of the
port are equal as strings. This is not the same as being equal: a string ends at a zero byte
(`describes_captured_iff`).

`ethdump_startCapture` receives the frames. It keeps what `recvfrom` returns in an `unsigned int`
and then asks whether it is negative, which it never is. So a failure is counted as a frame of
2^32 - 1 bytes (`uncounted_iff`).
-/

namespace Monitor.Statistics

open Bytes Lts

/-! ## `ethdump_parseFrame` -/

/-- `local_mac`, six bytes of an address and a seventh. -/
structure LocalMac where
  bytes : List UInt8
  length_eq : bytes.length = 7

/-- The address of the port. -/
def LocalMac.mac (localMac : LocalMac) : List UInt8 := localMac.bytes.take 6

theorem LocalMac.mac_length (localMac : LocalMac) : localMac.mac.length = 6 := by
  rw [LocalMac.mac, List.length_take, localMac.length_eq]
  rfl

/-- `ether_shost` -/
def Frame.shost (f : Frame) : List UInt8 := peek f.buf 6 6

/-- `ethdump_parseFrame`: the counters, and the buffer with which it starts `thread_parse_trap`,
if it does. -/
def ethdumpParseFrame (localMac : LocalMac) (stats : StatsInfo) (f : Frame) :
    StatsInfo × Option Mem :=
  let (stats, rsflag) := ethdumpParseEthHead localMac.bytes stats f
  match f.kind with
  | none => (stats, none)
  | some .data => (countKind stats .data rsflag f.size, none)
  | some .get =>
      -- `pstColorGet->sid[19] == 3`
      (countKind stats .get rsflag f.size, if f.buf 67 = 3 then some f.buf else none)

/-- The events of a frame: its two sections, or one if it is neither a Get nor a Data packet. -/
def frameEvents (f : Frame) : List Event := .frame f :: if f.kind.isSome then [.kind] else []

/-- `ethdump_parseFrame` is its sections, one after the other. -/
theorem exec_frameEvents (localMac : LocalMac) {s : State} (hs : s.half = none) (f : Frame) :
    ∃ s', exec (step localMac.bytes) s (frameEvents f) = some s' ∧ s'.half = none
      ∧ s'.current.stats = (ethdumpParseFrame localMac s.current.stats f).1 := by
  cases hkind : f.kind with
  | none =>
      refine ⟨_, by simp [frameEvents, hkind, exec, step, hs]; rfl, rfl, ?_⟩
      simp [ethdumpParseFrame, hkind]
  | some k =>
      refine ⟨_, by simp [frameEvents, hkind, exec, step, hs]; rfl, rfl, ?_⟩
      cases k <;> simp [ethdumpParseFrame, hkind]

/-! ## Six sums -/

/-- The bytes of frames. -/
def bytesOf (frames : List Frame) : Int := (frames.map fun f => (f.size.toNat : Int)).sum

/-- The numbers and bytes of the frames that were sent, of the others, and of all. -/
def PackCount.of (sent : Frame → Bool) (frames : List Frame) : PackCount where
  txPackets := (frames.filter sent).length
  rxPackets := (frames.filter fun f => !sent f).length
  totalPackets := frames.length
  txBytes := bytesOf (frames.filter sent)
  rxBytes := bytesOf (frames.filter fun f => !sent f)
  totalBytes := bytesOf frames

/-- The code of the direction of a frame. -/
def direction (sent : Frame → Bool) (f : Frame) : Nat := if sent f then 2 else 1

/-- **One more frame.** -/
theorem PackCount.of_concat (sent : Frame → Bool) (frames : List Frame) (f : Frame) :
    PackCount.of sent (frames ++ [f])
      = (PackCount.of sent frames).add (direction sent f) f.size := by
  cases hf : sent f <;>
    simp [PackCount.of, PackCount.add, direction, bytesOf, hf]

theorem PackCount.of_congr {sent sent' : Frame → Bool} {frames : List Frame}
    (h : ∀ f ∈ frames, sent f = sent' f) :
    PackCount.of sent frames = PackCount.of sent' frames := by
  have htx : frames.filter sent = frames.filter sent' := List.filter_congr h
  have hrx : (frames.filter fun f => !sent f) = frames.filter fun f => !sent' f :=
    List.filter_congr fun f hf => by rw [h f hf]
  rw [PackCount.of, PackCount.of, htx, hrx]

/-- What was sent and what was not is all. -/
theorem PackCount.of_total (sent : Frame → Bool) (frames : List Frame) :
    (PackCount.of sent frames).totalPackets
        = (PackCount.of sent frames).txPackets + (PackCount.of sent frames).rxPackets
      ∧ (PackCount.of sent frames).totalBytes
        = (PackCount.of sent frames).txBytes + (PackCount.of sent frames).rxBytes := by
  induction frames with
  | nil => exact ⟨rfl, rfl⟩
  | cons f frames ih =>
      obtain ⟨hpackets, hbytes⟩ := ih
      simp only [PackCount.of, bytesOf] at hpackets hbytes
      cases hf : sent f
      · simp [PackCount.of, bytesOf, hf]
        omega
      · simp [PackCount.of, bytesOf, hf]
        omega

/-! ## The eighteen counters -/

/-- The six counters of all frames. -/
def StatsInfo.port (stats : StatsInfo) : PackCount where
  txPackets := stats.txPackets
  rxPackets := stats.rxPackets
  totalPackets := stats.totalPackets
  txBytes := stats.txBytes
  rxBytes := stats.rxBytes
  totalBytes := stats.totalBytes

/-- The counters are the sums over the frames: over all, over the Get packets and over the Data
packets. -/
structure Counts (sent : Frame → Bool) (frames : List Frame) (stats : StatsInfo) : Prop where
  port : stats.port = PackCount.of sent frames
  get : stats.getPackCount = PackCount.of sent (frames.filter fun f => f.kind = some .get)
  data : stats.dataPackCount = PackCount.of sent (frames.filter fun f => f.kind = some .data)

/-- What `strncmp` makes of the source address of a frame. -/
def sentAsString (localMac : LocalMac) (f : Frame) : Bool := cstr f.shost = cstr localMac.mac

theorem ethdumpParseEthHead_port (localMac : LocalMac) (stats : StatsInfo) (f : Frame) :
    (ethdumpParseEthHead localMac.bytes stats f).1.port
        = stats.port.add (direction (sentAsString localMac) f) f.size
      ∧ (ethdumpParseEthHead localMac.bytes stats f).2
        = direction (sentAsString localMac) f := by
  by_cases h : cstr f.shost = cstr localMac.mac
  · have hsent : direction (sentAsString localMac) f = 2 := by simp [direction, sentAsString, h]
    rw [Frame.shost, LocalMac.mac] at h
    rw [hsent, ethdumpParseEthHead, if_pos h]
    exact ⟨rfl, rfl⟩
  · have hsent : direction (sentAsString localMac) f = 1 := by simp [direction, sentAsString, h]
    rw [Frame.shost, LocalMac.mac] at h
    rw [hsent, ethdumpParseEthHead, if_neg h]
    exact ⟨rfl, rfl⟩

/-- **A frame is counted where it belongs.** -/
theorem Counts.parse {localMac : LocalMac} {frames : List Frame} {stats : StatsInfo}
    (h : Counts (sentAsString localMac) frames stats) (f : Frame) :
    Counts (sentAsString localMac) (frames ++ [f]) (ethdumpParseFrame localMac stats f).1 := by
  obtain ⟨hport, hdir⟩ := ethdumpParseEthHead_port localMac stats f
  obtain ⟨hget, hdata⟩ := ethdumpParseEthHead_packCounts localMac.bytes stats f
  have hall : (ethdumpParseEthHead localMac.bytes stats f).1.port
      = PackCount.of (sentAsString localMac) (frames ++ [f]) := by
    rw [hport, h.port, PackCount.of_concat]
  rw [h.get] at hget
  rw [h.data] at hdata
  cases hkind : f.kind with
  | none =>
      simp only [ethdumpParseFrame, hkind]
      exact
        { port := hall
          get := by simpa [hkind, List.filter_append] using hget
          data := by simpa [hkind, List.filter_append] using hdata }
  | some k =>
      cases k with
      | get =>
          simp only [ethdumpParseFrame, hkind, countKind]
          refine
            { port := hall
              get := ?_
              data := by simpa [hkind, List.filter_append] using hdata }
          simp only [hdir, hget]
          simp [hkind, List.filter_append, PackCount.of_concat]
      | data =>
          simp only [ethdumpParseFrame, hkind, countKind]
          refine
            { port := hall
              get := by simpa [hkind, List.filter_append] using hget
              data := ?_ }
          simp only [hdir, hdata]
          simp [hkind, List.filter_append, PackCount.of_concat]

/-- The counters after frames, from the reset on. -/
def captured (localMac : LocalMac) (frames : List Frame) : StatsInfo :=
  frames.foldl (fun stats f => (ethdumpParseFrame localMac stats f).1) .zero

theorem captured_concat (localMac : LocalMac) (frames : List Frame) (f : Frame) :
    captured localMac (frames ++ [f])
      = (ethdumpParseFrame localMac (captured localMac frames) f).1 := by
  simp [captured]

/-- **The counters are sums**, with the direction as `strncmp` sees it. -/
theorem counts_captured (localMac : LocalMac) (frames : List Frame) :
    Counts (sentAsString localMac) frames (captured localMac frames) := by
  induction frames using List.reverseRecOn with
  | nil => exact ⟨rfl, rfl, rfl⟩
  | append_singleton frames f ih => exact captured_concat localMac frames f ▸ ih.parse f

/-! ## Addresses as strings -/

/-- The frame was sent from the port. -/
def sentExactly (localMac : LocalMac) (f : Frame) : Bool := f.shost = localMac.mac

/-- The counters describe the frames: those sent from the port and those not, with all, over all
frames and over the Get and the Data packets. -/
structure Describes (localMac : LocalMac) (frames : List Frame) (stats : StatsInfo) : Prop where
  counts : Counts (sentExactly localMac) frames stats
  packets : stats.totalPackets = stats.txPackets + stats.rxPackets
  bytes : stats.totalBytes = stats.txBytes + stats.rxBytes

/-- Two addresses that differ, but agree up to a zero byte in both. -/
def Confusable (a b : List UInt8) : Prop :=
  a ≠ b ∧ ∃ k, a[k]? = some 0 ∧ a.take (k + 1) = b.take (k + 1)

theorem sentAsString_iff (localMac : LocalMac) (f : Frame) :
    sentAsString localMac f = true
      ↔ sentExactly localMac f = true ∨ Confusable f.shost localMac.mac := by
  have hlen : f.shost.length = localMac.mac.length := by
    rw [localMac.mac_length, Frame.shost, peek_length]
  rw [sentAsString, sentExactly, decide_eq_true_eq, decide_eq_true_eq, cstr_eq_cstr_iff hlen,
    Confusable]
  tauto

/-- Of two sets of frames, one in the other, the sizes are equal only if the sets are. -/
theorem forall_of_length_filter_eq {p q : Frame → Bool} (hpq : ∀ f, p f = true → q f = true)
    {frames : List Frame} (h : (frames.filter q).length = (frames.filter p).length) :
    ∀ f ∈ frames, q f = p f := by
  have hsub : frames.filter p = (frames.filter q).filter p := by
    rw [List.filter_filter]
    apply List.filter_congr
    intro f _
    cases hp : p f with
    | true => simp [hpq f hp]
    | false => rfl
  have hall : (frames.filter q).filter p = frames.filter q :=
    List.filter_sublist.eq_of_length (by rw [← hsub, h])
  intro f hf
  cases hq : q f with
  | false =>
      cases hp : p f with
      | false => rfl
      | true => exact absurd (hpq f hp) (by simp [hq])
  | true =>
      have hmem : f ∈ (frames.filter q).filter p := by
        rw [hall]
        exact List.mem_filter.mpr ⟨hf, hq⟩
      exact (List.mem_filter.mp hmem).2.symm

/-- **The counters describe the frames if and only if no source address is confusable with the
address of the port.** -/
theorem describes_captured_iff (localMac : LocalMac) (frames : List Frame) :
    Describes localMac frames (captured localMac frames)
      ↔ ∀ f ∈ frames, ¬ Confusable f.shost localMac.mac := by
  have hcounts := counts_captured localMac frames
  constructor
  · intro h f hf hconf
    have htx : ((frames.filter (sentAsString localMac)).length : Int)
        = (frames.filter (sentExactly localMac)).length :=
      congrArg PackCount.txPackets (hcounts.port.symm.trans h.counts.port)
    have heq := forall_of_length_filter_eq
      (fun f hsent => (sentAsString_iff localMac f).mpr (Or.inl hsent)) (Int.ofNat.inj htx) f hf
    rw [(sentAsString_iff localMac f).mpr (Or.inr hconf)] at heq
    exact hconf.1 (of_decide_eq_true heq.symm)
  · intro h
    have hsame : ∀ f ∈ frames, sentAsString localMac f = sentExactly localMac f := by
      intro f hf
      rw [Bool.eq_iff_iff, sentAsString_iff, or_iff_left (h f hf)]
    have hsame' : ∀ (p : Frame → Bool), ∀ f ∈ frames.filter p,
        sentAsString localMac f = sentExactly localMac f :=
      fun p f hf => hsame f (List.mem_of_mem_filter hf)
    have htotal := PackCount.of_total (sentAsString localMac) frames
    rw [← hcounts.port] at htotal
    exact
      { counts :=
          { port := hcounts.port.trans (PackCount.of_congr hsame)
            get := hcounts.get.trans (PackCount.of_congr (hsame' _))
            data := hcounts.data.trans (PackCount.of_congr (hsame' _)) }
        packets := htotal.1
        bytes := htotal.2 }

/-- A frame from `02:00:00:00:00:01` at the port `02:00:00:00:00:02` is counted as sent. -/
theorem not_describes_captured_confusable :
    ¬ Describes ⟨[2, 0, 0, 0, 0, 2, 0], rfl⟩ [⟨poke (fun _ => 0) 6 [2, 0, 0, 0, 0, 1], 60⟩]
      (captured ⟨[2, 0, 0, 0, 0, 2, 0], rfl⟩
        [⟨poke (fun _ => 0) 6 [2, 0, 0, 0, 0, 1], 60⟩]) := by
  intro h
  have htx := congrArg PackCount.txPackets h.counts.port
  revert htx
  decide

/-! ## `ethdump_startCapture` -/

/-- `RCV_BUF_SIZE` -/
def rcvBufSize : Nat := 1024 * 5

/-- `recvfrom` into the cleared buffer: a datagram, or a failure. It returns how many bytes it
wrote, or -1. -/
def recvfrom : Option (List UInt8) → Mem × Int
  | some bs => (poke (fun _ => 0) 0 (bs.take rcvBufSize), (bs.take rcvBufSize).length)
  | none => (fun _ => 0, -1)

/-- The counters, and the frames that `ethdump_parseFrame` was called with. -/
structure Capture where
  stats : StatsInfo
  parsed : List Frame

/-- A turn of the loop of `ethdump_startCapture`. `size_received` is unsigned. -/
def Capture.turn (localMac : LocalMac) (s : Capture) (received : Option (List UInt8)) : Capture :=
  let (buf, ret) := recvfrom received
  let sizeReceived := UInt32.ofInt ret
  if 0 > sizeReceived then s
  else
    let f : Frame := ⟨buf, sizeReceived⟩
    { stats := (ethdumpParseFrame localMac s.stats f).1, parsed := s.parsed ++ [f] }

/-- `ethdump_startCapture` over what is received. -/
def Capture.run (localMac : LocalMac) (s : Capture) (rs : List (Option (List UInt8))) : Capture :=
  rs.foldl (Capture.turn localMac) s

/-- The size that a result of `recvfrom` adds: nothing if it failed. -/
def receivedSize (received : Option (List UInt8)) : Int := max 0 (recvfrom received).2

/-- Failures are not counted: a failing `recvfrom` changes no counter and parses nothing, and
`total_bytes` grows by the sizes of what was received. -/
structure Capture.Uncounted (localMac : LocalMac) (s : Capture)
    (rs : List (Option (List UInt8))) : Prop where
  failed : ∀ before after, rs = before ++ none :: after →
    (s.run localMac before).turn localMac none = s.run localMac before
  bytes : (s.run localMac rs).stats.totalBytes
    = s.stats.totalBytes + (rs.map receivedSize).sum

/-- `size_received` is not less than 0. -/
theorem turn_eq (localMac : LocalMac) (s : Capture) (received : Option (List UInt8)) :
    s.turn localMac received
      = ⟨(ethdumpParseFrame localMac s.stats
            ⟨(recvfrom received).1, UInt32.ofInt (recvfrom received).2⟩).1,
          s.parsed ++ [⟨(recvfrom received).1, UInt32.ofInt (recvfrom received).2⟩]⟩ := by
  have hnot : ¬ 0 > UInt32.ofInt (recvfrom received).2 := UInt32.not_lt_zero
  rw [Capture.turn]
  exact if_neg hnot

/-- What a frame adds to `total_bytes`. -/
theorem ethdumpParseFrame_totalBytes (localMac : LocalMac) (stats : StatsInfo) (f : Frame) :
    (ethdumpParseFrame localMac stats f).1.totalBytes = stats.totalBytes + f.size.toNat := by
  have hhead : (ethdumpParseEthHead localMac.bytes stats f).1.totalBytes
      = stats.totalBytes + f.size.toNat := by
    rw [ethdumpParseEthHead]
    split <;> rfl
  cases hkind : f.kind with
  | none => simpa [ethdumpParseFrame, hkind] using hhead
  | some k => cases k <;> simpa [ethdumpParseFrame, hkind, countKind] using hhead

theorem toNat_ofInt_natCast {n : Nat} (h : n < 2 ^ 32) : (UInt32.ofInt (n : Int)).toNat = n := by
  have hmod : ((n : Int) % 2 ^ 32).toNat = n := by omega
  rw [UInt32.ofInt, UInt32.toNat_ofNat', hmod]
  exact Nat.mod_eq_of_lt h

/-- A turn adds the size, and more if it is a failure. -/
theorem turn_totalBytes (localMac : LocalMac) (s : Capture) (received : Option (List UInt8)) :
    (s.turn localMac received).stats.totalBytes
      = s.stats.totalBytes + receivedSize received
        + if received = none then 4294967295 else 0 := by
  rw [turn_eq, ethdumpParseFrame_totalBytes]
  cases received with
  | none =>
      have hret : (UInt32.ofInt (recvfrom none).2).toNat = 4294967295 := by decide
      have hsize : receivedSize none = 0 := by decide
      simp [hret, hsize]
  | some bs =>
      have hlen : (bs.take rcvBufSize).length ≤ rcvBufSize := List.length_take_le ..
      have hret : (UInt32.ofInt (recvfrom (some bs)).2).toNat = (bs.take rcvBufSize).length :=
        toNat_ofInt_natCast (lt_of_le_of_lt hlen (by decide))
      have hsize : receivedSize (some bs) = (bs.take rcvBufSize).length := by
        simp [receivedSize, recvfrom]
      simp [hret, hsize]

theorem run_concat (localMac : LocalMac) (s : Capture) (rs : List (Option (List UInt8)))
    (received : Option (List UInt8)) :
    s.run localMac (rs ++ [received]) = (s.run localMac rs).turn localMac received := by
  simp [Capture.run]

/-- **What a run adds to `total_bytes`**: the sizes, and 2^32 - 1 for each failure. -/
theorem run_totalBytes (localMac : LocalMac) (s : Capture) (rs : List (Option (List UInt8))) :
    (s.run localMac rs).stats.totalBytes
      = s.stats.totalBytes + (rs.map receivedSize).sum + 4294967295 * rs.count none := by
  induction rs using List.reverseRecOn with
  | nil => simp [Capture.run]
  | append_singleton rs received ih =>
      rw [run_concat, turn_totalBytes, ih]
      cases received with
      | none =>
          simp
          ring
      | some bs =>
          simp
          ring

/-- **Failures are not counted if and only if there are none.** -/
theorem uncounted_iff (localMac : LocalMac) (s : Capture) (rs : List (Option (List UInt8))) :
    s.Uncounted localMac rs ↔ none ∉ rs := by
  constructor
  · intro h hmem
    have hbytes := run_totalBytes localMac s rs
    have hpos : 0 < rs.count none := List.count_pos_iff.mpr hmem
    rw [h.bytes] at hbytes
    omega
  · intro hno
    refine ⟨fun before after heq => ?_, ?_⟩
    · exact absurd (heq ▸ List.mem_append_right before List.mem_cons_self) hno
    · have hbytes := run_totalBytes localMac s rs
      rw [List.count_eq_zero.mpr hno] at hbytes
      simpa using hbytes

/-- One failure on a socket that receives nothing else. -/
theorem not_uncounted_failure :
    ¬ (⟨.zero, []⟩ : Capture).Uncounted ⟨[2, 0, 0, 0, 0, 2, 0], rfl⟩ [none] := by
  intro h
  have hbytes := h.bytes
  revert hbytes
  decide

end Monitor.Statistics
