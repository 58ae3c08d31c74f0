import IcnPrototype.Lib.Decimal
import IcnPrototype.Monitor.Insert

set_option autoImplicit false

/-! # Discovery of the ports and lookup by address

`get_port_index` fills one entry of `port_info` for each interface that has a MAC, and
`set_timer_id` looks a timer message's address up in the same array. The lookup takes the first
entry without a `port_type` for the end of the entries (`setTimerIdChecked_append`).

Nobody writes `port_type`. The only assignment is in `get_dest_ip`, and `main` no longer calls
that. So the entries that discovery fills are all past what the lookup takes for the end, and a
message is handled as it should be only if it names none of them
(`initPorts_accepts_iff`).
-/

namespace Monitor

open Bytes Dll

/-! ## Entries of `port_info` -/

/-- A `struct ADAPTER`. -/
structure Adapter where
  supported : UInt32
  advertising : UInt32
  speed : UInt16
  duplex : Int
  port : Int
  transceiver : Int
  autoneg : UInt8
deriving DecidableEq

/-- A `struct PORT_INFO`, as far as discovery and lookup go. `portType` and `devIp` are those of
`PortInfo`. -/
structure Port extends PortInfo where
  devName : List UInt8
  devMac : List UInt8
  devBroadAddr : List UInt8
  devSubnetMask : List UInt8
  mtu : Int
  adapter : Adapter
  linkDetect : Int

/-- An entry after `memset(&port_info, 0, sizeof(port_info))`. -/
def Port.zero : Port where
  portType := 0
  devIp := List.replicate 16 0
  devName := List.replicate 16 0
  devMac := List.replicate 7 0
  devBroadAddr := List.replicate 32 0
  devSubnetMask := List.replicate 32 0
  mtu := 0
  adapter := ⟨0, 0, 0, 0, 0, 0, 0⟩
  linkDetect := 0

/-! ## `get_port_index` -/

/-- A `struct in_addr`, in the order of its bytes. -/
structure InAddr where
  b0 : UInt8
  b1 : UInt8
  b2 : UInt8
  b3 : UInt8

/-- `inet_ntoa`: the four bytes in decimal, with dots between them. -/
def inetNtoa (a : InAddr) : List UInt8 :=
  decimal a.b0.toNat ++ 46 :: decimal a.b1.toNat ++ 46 :: decimal a.b2.toNat ++
    46 :: decimal a.b3.toNat

/-- `strcpy(dest, src)`: what is in `dest`. -/
def strcpy (dest src : List UInt8) : List UInt8 :=
  cstr src ++ 0 :: dest.drop ((cstr src).length + 1)

/-- What the kernel answers about an interface. An `ioctl` that fails has no answer; the one of
`get_adapter` is not tested. -/
structure Interface where
  ifrName : List UInt8
  hwaddr : Option (List UInt8)
  addr : Option InAddr
  broadaddr : Option InAddr
  netmask : Option InAddr
  mtu : Option Int
  adapter : Adapter
  linkDetect : Int

/-- The locals of `get_port_index` with the array. `portInfo` is the entry that the pointer is
at, which is also the counter `i`. -/
structure Scan where
  ports : List Port
  portInfo : Nat
  broadAddr : List UInt8
  subnetMask : List UInt8

/-- An assignment through `port_info`. -/
def Scan.write (s : Scan) (f : Port → Port) : Scan :=
  { s with ports := s.ports.modify s.portInfo f }

/-- What follows the MAC and the name in a turn of the loop; `false` is `return -1`. -/
def fillPort (s : Scan) (b : Interface) : Scan × Bool :=
  match b.addr with
  | none => (s, false)
  | some addr =>
      let s := s.write fun p => { p with devIp := strcpy p.devIp (inetNtoa addr) }
      match b.broadaddr with
      | none => (s, false)
      | some broad =>
          let s := { s with broadAddr := strcpy s.broadAddr (inetNtoa broad) }
          let s := s.write fun p => { p with devBroadAddr := s.broadAddr }
          match b.netmask with
          | none => (s, false)
          | some mask =>
              let s := { s with subnetMask := strcpy s.subnetMask (inetNtoa mask) }
              let s := s.write fun p => { p with devSubnetMask := s.subnetMask }
              match b.mtu with
              | none => (s, false)
              | some mtu =>
                  let s := s.write fun p => { p with mtu := mtu }
                  -- `get_adapter`
                  let s := s.write fun p =>
                    { p with adapter := b.adapter, linkDetect := b.linkDetect }
                  ({ s with portInfo := s.portInfo + 1 }, true)

/-- A turn of the loop over the interfaces. One with the MAC `00:00:00:00:00:00` is skipped. -/
def scanInterface (s : Scan) (b : Interface) : Scan × Bool :=
  match b.hwaddr with
  | none => (s, false)
  | some mac =>
      if mac.take 6 = List.replicate 6 0 then (s, true) else
        let s := s.write fun p => { p with devMac := mac.take 6 ++ p.devMac.drop 6 }
        let s := s.write fun p => { p with devName := strcpy p.devName b.ifrName }
        fillPort s b

/-- The loop, which returns at the first `ioctl` that fails. -/
def scanInterfaces (s : Scan) : List Interface → Scan × Bool
  | [] => (s, true)
  | b :: bs =>
      match scanInterface s b with
      | (s, true) => scanInterfaces s bs
      | (s, false) => (s, false)

/-- What `socket` and `SIOCGIFCONF` give `get_port_index`. -/
structure Interfaces where
  socketOk : Bool
  ifconf : Option (List Interface)

/-- The array and the `port_count` of `host_info`, with the result. -/
structure Discovered where
  ports : List Port
  portCount : Nat
  ret : Int

/-- `get_port_index`. There is room for 64 interfaces in `buf`, and the loop goes from the last
one to the first. -/
def getPortIndex (ports : List Port) (portCount : Nat) (host : Interfaces) : Discovered :=
  if host.socketOk then
    match host.ifconf with
    | none => ⟨ports, portCount, -1⟩
    | some buf =>
        match scanInterfaces ⟨ports, 0, List.replicate 32 0, List.replicate 32 0⟩
            (buf.take 64).reverse with
        | (s, true) => ⟨s.ports, s.portInfo, 0⟩
        | (s, false) => ⟨s.ports, portCount, -1⟩
  else ⟨ports, portCount, -1⟩

/-- The initialisation in `main`: `port_info` and `host_info` are zero before the call. -/
def initPorts (host : Interfaces) : Discovered := getPortIndex (List.replicate 64 Port.zero) 0 host

/-- The ports that were discovered. -/
def Discovered.discovered (d : Discovered) : List Port := d.ports.take d.portCount

/-! ## `port_type` is never written -/

/-- The `port_type` of the entries. -/
def portTypes (ports : List Port) : List Int := ports.map fun p => p.portType

theorem portTypes_write {f : Port → Port} (hf : ∀ p, (f p).portType = p.portType) (s : Scan) :
    portTypes (s.write f).ports = portTypes s.ports := by
  apply List.ext_getElem?
  intro k
  simp only [portTypes, Scan.write, List.getElem?_map, List.getElem?_modify]
  cases s.ports[k]? with
  | none => rfl
  | some p =>
      by_cases hk : s.portInfo = k
      · simp [hk, hf]
      · simp [hk]

theorem portTypes_fillPort (s : Scan) (b : Interface) :
    portTypes (fillPort s b).1.ports = portTypes s.ports := by
  unfold fillPort
  repeat' split
  all_goals simp only [portTypes_write, implies_true]

theorem portTypes_scanInterface (s : Scan) (b : Interface) :
    portTypes (scanInterface s b).1.ports = portTypes s.ports := by
  unfold scanInterface
  split
  · rfl
  · split
    · rfl
    · simp only [portTypes_fillPort, portTypes_write, implies_true]

theorem portTypes_scanInterfaces (s : Scan) (bs : List Interface) :
    portTypes (scanInterfaces s bs).1.ports = portTypes s.ports := by
  induction bs generalizing s with
  | nil => rfl
  | cons b bs ih =>
      have hturn := portTypes_scanInterface s b
      rw [scanInterfaces]
      cases hb : scanInterface s b with
      | mk s' ok =>
          rw [hb] at hturn
          cases ok with
          | true => exact (ih s').trans hturn
          | false => exact hturn

/-- **Discovery writes no `port_type`.** -/
theorem portTypes_getPortIndex (ports : List Port) (portCount : Nat) (host : Interfaces) :
    portTypes (getPortIndex ports portCount host).ports = portTypes ports := by
  unfold getPortIndex
  split
  · split
    · rfl
    · rename_i buf _
      have hloop := portTypes_scanInterfaces ⟨ports, 0, List.replicate 32 0, List.replicate 32 0⟩
        (buf.take 64).reverse
      split <;> (rename_i h; rw [h] at hloop; exact hloop)
  · rfl

/-! ## `set_timer_id` -/

/-- `set_timer_id` from the `i`-th entry on; it reads past the array if that has no end. -/
def setTimerIdChecked (ip : List UInt8) : List PortInfo → Int → Option Int
  | [], _ => none
  | port :: ports, i =>
      if port.portType = 0 then some (-1)
      else if cstr ip = cstr port.devIp then some i
      else setTimerIdChecked ip ports (i + 1)

theorem setTimerId_of_checked {ip : List UInt8} {ports : List PortInfo} {i v : Int}
    (h : setTimerIdChecked ip ports i = some v) : setTimerId ip ports i = v := by
  induction ports generalizing i with
  | nil => cases h
  | cons port ports ih =>
      rw [setTimerIdChecked] at h
      rw [setTimerId]
      split at h
      · rename_i htype
        rw [if_pos htype]
        exact Option.some.inj h
      · rename_i htype
        rw [if_neg htype]
        split at h
        · rename_i heq
          rw [if_pos heq]
          exact Option.some.inj h
        · rename_i heq
          rw [if_neg heq]
          exact ih h

/-- The entries in front of the first one without a `port_type` are searched, and no others. -/
theorem setTimerIdChecked_append (ip : List UInt8) {live : List PortInfo}
    (hlive : ∀ p ∈ live, p.portType ≠ 0) {stop : PortInfo} (hstop : stop.portType = 0)
    (rest : List PortInfo) (i : Int) :
    setTimerIdChecked ip (live ++ stop :: rest) i
      = some ((live.findIdx? fun p : PortInfo => cstr ip = cstr p.devIp).elim (-1) fun k => i + k) := by
  induction live generalizing i with
  | nil => simp [setTimerIdChecked, hstop]
  | cons p live ih =>
      have hp : p.portType ≠ 0 := hlive p List.mem_cons_self
      rw [List.cons_append, setTimerIdChecked, if_neg hp, List.findIdx?_cons]
      by_cases heq : cstr ip = cstr p.devIp
      · simp [heq]
      · rw [if_neg heq, ih fun q hq => hlive q (List.mem_cons_of_mem p hq)]
        cases live.findIdx? fun p : PortInfo => cstr ip = cstr p.devIp with
        | none => simp [heq]
        | some k =>
            simp only [heq, decide_false, Bool.false_eq_true, if_false, Option.map_some,
              Option.elim_some, Nat.cast_succ]
            congr 1
            ring

/-! ## Timer messages after discovery -/

/-- `port_info` and the `mktime` of the host, for `set_child_timer`. -/
def Discovered.site {Tm : Type} (d : Discovered) (mktime : Tm → Int) : Site Tm where
  portInfo := d.ports.map fun p => p.toPortInfo
  mktime := mktime

/-- After discovery the lookup stops at the first entry. -/
theorem setTimerIdChecked_initPorts (host : Interfaces) (ip : List UInt8) :
    setTimerIdChecked ip ((initPorts host).ports.map fun p => p.toPortInfo) 0 = some (-1) := by
  have htypes : portTypes (initPorts host).ports = List.replicate 64 0 := by
    rw [initPorts, portTypes_getPortIndex]
    rfl
  cases hports : (initPorts host).ports with
  | nil =>
      rw [hports] at htypes
      cases htypes
  | cons p ps =>
      rw [hports] at htypes
      have hp : p.toPortInfo.portType = 0 := (List.cons.inj htypes).1
      exact setTimerIdChecked_append ip
        (List.forall_mem_nil fun p : PortInfo => p.portType ≠ 0) hp _ 0

/-- The address names the discovered port `i`, and none before it. -/
structure Discovered.Names (d : Discovered) (ip : List UInt8) (i : Nat) : Prop where
  same : ∃ p, d.discovered[i]? = some p ∧ cstr ip = cstr p.devIp
  first : ∀ j < i, ∀ p, d.discovered[j]? = some p → cstr ip ≠ cstr p.devIp

theorem Discovered.exists_names_iff (d : Discovered) (ip : List UInt8) :
    (∃ i, d.Names ip i) ↔ ∃ p ∈ d.discovered, cstr ip = cstr p.devIp := by
  constructor
  · rintro ⟨i, ⟨p, hp, heq⟩, -⟩
    exact ⟨p, List.mem_of_getElem? hp, heq⟩
  · rintro ⟨p, hp, heq⟩
    have hex : ∃ i : Nat, ∃ p, d.discovered[i]? = some p ∧ cstr ip = cstr p.devIp := by
      obtain ⟨i, hi⟩ := List.getElem?_of_mem hp
      exact ⟨i, p, hi, heq⟩
    classical
    refine ⟨Nat.find hex, Nat.find_spec hex, ?_⟩
    intro j hj q hq hne
    exact Nat.find_min hex hj ⟨q, hq, hne⟩

/-- A timer message is handled as the ports that were discovered ask for: `set_timer_id` finds
the port it names, or -1 at the end of the entries, and `set_child_timer` inserts a timer if
there is a port and leaves the timers as they are otherwise. -/
structure Discovered.Accepts {Tm : Type} (d : Discovered) (mktime : Tm → Int)
    (timerMessage : TimerMessage Tm) : Prop where
  found : ∀ i, d.Names timerMessage.ip i →
    setTimerIdChecked timerMessage.ip (d.site mktime).portInfo 0 = some (i : Int)
  unknown : (∀ i, ¬ d.Names timerMessage.ip i) →
    setTimerIdChecked timerMessage.ip (d.site mktime).portInfo 0 = some (-1)
  inserts : (∃ i, d.Names timerMessage.ip i) → ∀ m now timerInfo L, Holds m timerInfo L →
    ∃ m' timerInfo', setChildTimer (d.site mktime) m now timerInfo timerMessage
        = some (m', timerInfo')
      ∧ Holds m' timerInfo' (insertNode now (m.brk, newTimer (d.site mktime) timerMessage) L)
  keeps : (∀ i, ¬ d.Names timerMessage.ip i) → ∀ m now timerInfo L, Holds m timerInfo L →
    ∃ m', setChildTimer (d.site mktime) m now timerInfo timerMessage = some (m', timerInfo)
      ∧ Holds m' timerInfo L

/-- **A timer message is handled as it should be if and only if it names no discovered port.** -/
theorem initPorts_accepts_iff {Tm : Type} (host : Interfaces) (mktime : Tm → Int)
    (timerMessage : TimerMessage Tm) :
    (initPorts host).Accepts mktime timerMessage
      ↔ ∀ p ∈ (initPorts host).discovered, cstr timerMessage.ip ≠ cstr p.devIp := by
  have hscan := setTimerIdChecked_initPorts host timerMessage.ip
  have hnames := (initPorts host).exists_names_iff timerMessage.ip
  constructor
  · intro h p hp heq
    obtain ⟨i, hi⟩ := hnames.mpr ⟨p, hp, heq⟩
    have hfound : some (-1 : Int) = some (i : Int) := hscan.symm.trans (h.found i hi)
    have hi' := Option.some.inj hfound
    omega
  · intro h
    have hnone : ∀ i, ¬ (initPorts host).Names timerMessage.ip i := by
      intro i hi
      obtain ⟨p, hp, heq⟩ := hnames.mp ⟨i, hi⟩
      exact h p hp heq
    have hid : (newTimer ((initPorts host).site mktime) timerMessage).timerId = -1 :=
      setTimerId_of_checked hscan
    exact
      { found := fun i hi => absurd hi (hnone i)
        unknown := fun _ => hscan
        inserts := fun ⟨i, hi⟩ => absurd hi (hnone i)
        keeps := fun _ m now timerInfo L hl => by
          obtain ⟨m', hrun, -, hl', -⟩ := setChildTimer_unknown hid hl now
          exact ⟨m', hrun, hl'⟩ }

/-- `eth0` with the address 1.2.3.4. -/
def eth0 : Interface where
  ifrName := [101, 116, 104, 48, 0]
  hwaddr := some [2, 0, 0, 0, 0, 1]
  addr := some ⟨1, 2, 3, 4⟩
  broadaddr := some ⟨1, 2, 3, 255⟩
  netmask := some ⟨255, 255, 255, 0⟩
  mtu := some 1500
  adapter := ⟨0, 0, 0, 0, 0, 0, 0⟩
  linkDetect := 1

/-- A message for the only port of a host finds no port. -/
theorem eth0_not_accepts :
    ¬ (initPorts ⟨true, some [eth0]⟩).Accepts (fun t : Int => t)
      ⟨[49, 46, 50, 46, 51, 46, 52, 0], 0, 100⟩ := by
  intro h
  have hname : (initPorts ⟨true, some [eth0]⟩).Names [49, 46, 50, 46, 51, 46, 52, 0] 0 := by
    refine ⟨⟨_, rfl, ?_⟩, fun j hj => absurd hj (Nat.not_lt_zero j)⟩
    simp [inetNtoa, decimal, strcpy, cstr]
  have hfound := (setTimerIdChecked_initPorts _ _).symm.trans (h.found 0 hname)
  exact absurd (Option.some.inj hfound) (by decide)

end Monitor
