import IcnPrototype.Lib.Run

set_option autoImplicit false

/-! # The traps of a port

`get_port_info` looks at its port once in an interval and reports a mask of traps with
`trap_send_proc`. The mask is changed by toggles alone: nine branches XOR one bit into it. The
invariant `Tracks` ties the mask to what the function remembers besides, the flag
`bandwidth_trap_flag` and whether the link is down.

A link-down report is followed by a loop that was written to repeat a database access. The access
is commented out, and with it the assignment of `ret` and the decrement of `rewrite_flag`. So the
loop ends at once or never, as the uninitialised `ret` will have it (`getsPastRewrite_iff`).

The test of `trap_flag` and the copy of the mask for communication ports are out of use and left
out.
-/

namespace Monitor

open Lts

/-- `TRAP_CONNECTION`, `1 << 0` -/
def trapConnection : UInt32 := 1

/-- `TRAP_BANDWIDTH_HIGH`, `1 << 1` -/
def trapBandwidthHigh : UInt32 := 2

/-- `TRAP_BANDWIDTH_LOW`, `1 << 2` -/
def trapBandwidthLow : UInt32 := 4

/-! ## `get_port_info` -/

/-- Where `get_port_info` is: before the next sample, in the loop around the database access, or
in the loop that waits for the link. -/
inductive Place
  | sampling
  | rewriting
  | waiting
deriving DecidableEq

/-- The locals of `get_port_info`, with `pts.trap_state`. -/
structure PortMonitor where
  bandwidthTrapFlag : Int
  trapState : UInt32
  rewriteFlag : Int
  ret : Int
  place : Place
deriving DecidableEq

namespace PortMonitor

/-- At the beginning of the loop. The function does not assign `ret`. -/
def init (ret : Int) : PortMonitor := ⟨0, 0, 0, ret, .sampling⟩

/-- `trap_port_set` -/
def trapPortSet (s : PortMonitor) (state : UInt32) : PortMonitor :=
  { s with trapState := s.trapState ^^^ state }

/-- `trap_send_proc`: the `trap_type` of the message. -/
def trapSendProc (s : PortMonitor) : UInt32 := s.trapState

variable {α : Type*} [LinearOrder α]

/-- `switch(bandwidth_trap_flag)`. The thresholds are `low` and `high`. -/
def bandwidthSwitch (low high : α) (s : PortMonitor) (efficiency : α) : PortMonitor :=
  if s.bandwidthTrapFlag = 0 then
    if high < efficiency then
      { s.trapPortSet trapBandwidthHigh with bandwidthTrapFlag := 1 }
    else if efficiency < low then
      { s.trapPortSet trapBandwidthLow with bandwidthTrapFlag := 2 }
    else s
  else if s.bandwidthTrapFlag = 1 then
    if efficiency < high then
      let s := { s.trapPortSet trapBandwidthHigh with bandwidthTrapFlag := 0 }
      if efficiency < low then
        { s.trapPortSet trapBandwidthLow with bandwidthTrapFlag := 2 }
      else s
    else s
  else if s.bandwidthTrapFlag = 2 then
    if low < efficiency then
      let s := { s.trapPortSet trapBandwidthLow with bandwidthTrapFlag := 0 }
      if high < efficiency then
        { s.trapPortSet trapBandwidthHigh with bandwidthTrapFlag := 1 }
      else s
    else s
  else s

/-- What happens to `get_port_info`: the sample at the end of an interval, with what `check_port`
returns and the utilisation if the bandwidth is known; a turn of the loop around the database
access; a turn of the loop that waits for the link, with what `check_port` returns. -/
inductive Event (α : Type*)
  | sample (checkFlag : Int) (efficiency : Option α)
  | rewrite
  | check (checkFlag : Int)

/-- `get_port_info` up to its next event, with the report it sends if it sends one. -/
def observe (low high : α) (s : PortMonitor) : Event α → Option (PortMonitor × Option UInt32)
  | .sample checkFlag efficiency =>
      if s.place ≠ .sampling then none
      else if checkFlag ≠ 0 then
        match efficiency with
        | some u =>
            let s := s.bandwidthSwitch low high u
            some (s, some s.trapSendProc)
        | none => some (s, some s.trapSendProc)
      else
        let s := s.trapPortSet trapConnection
        some ({ s with rewriteFlag := 3, place := .rewriting }, some s.trapSendProc)
  | .rewrite =>
      if s.place ≠ .rewriting then none
      else if s.rewriteFlag = 0 then some ({ s with place := .waiting }, none)
      -- `while(ret)`
      else if s.ret ≠ 0 then some (s, none)
      else some ({ s with place := .waiting }, none)
  | .check checkFlag =>
      if s.place ≠ .waiting then none
      else if checkFlag = 0 then some (s, none)
      else
        let s := s.trapPortSet trapConnection
        some ({ s with place := .sampling }, some s.trapSendProc)

/-- The same, as a step of a run. -/
def step (low high : α) (s : PortMonitor) (e : Event α) : Option PortMonitor :=
  (s.observe low high e).map Prod.fst

theorem step_eq_some {low high : α} {s s' : PortMonitor} {e : Event α} :
    s.step low high e = some s' ↔ ∃ r, s.observe low high e = some (s', r) := by
  simp [step, Option.map_eq_some_iff]

/-! ## The mask -/

/-- The bit of a `bandwidth_trap_flag`. -/
def bandwidthBit (flag : Int) : UInt32 :=
  if flag = 1 then trapBandwidthHigh else if flag = 2 then trapBandwidthLow else 0

/-- The bit of the link: it is down from the sample that finds it so to the end of the wait. -/
def connectionBit (place : Place) : UInt32 := if place = .sampling then 0 else trapConnection

/-- The mask is what the flag and the link say. -/
structure Tracks (s : PortMonitor) : Prop where
  flag : s.bandwidthTrapFlag = 0 ∨ s.bandwidthTrapFlag = 1 ∨ s.bandwidthTrapFlag = 2
  mask : s.trapState = bandwidthBit s.bandwidthTrapFlag ^^^ connectionBit s.place

/-! The toggles that set or clear a bandwidth bit. -/

theorem set_high : bandwidthBit 0 ^^^ trapBandwidthHigh = bandwidthBit 1 := by decide

theorem clear_high : bandwidthBit 1 ^^^ trapBandwidthHigh = bandwidthBit 0 := by decide

theorem set_low : bandwidthBit 0 ^^^ trapBandwidthLow = bandwidthBit 2 := by decide

theorem clear_low : bandwidthBit 2 ^^^ trapBandwidthLow = bandwidthBit 0 := by decide

theorem tracks_init (ret : Int) : (init ret).Tracks where
  flag := Or.inl rfl
  mask := UInt32.xor_zero.symm

/-- A toggle of the bit by which two flags differ. -/
theorem Tracks.toggle {s : PortMonitor} (hs : s.Tracks) {bit : UInt32} {flag : Int}
    (hflag : flag = 0 ∨ flag = 1 ∨ flag = 2)
    (hbit : bandwidthBit s.bandwidthTrapFlag ^^^ bit = bandwidthBit flag) :
    Tracks { s.trapPortSet bit with bandwidthTrapFlag := flag } := by
  refine ⟨hflag, ?_⟩
  calc s.trapState ^^^ bit
      = bandwidthBit s.bandwidthTrapFlag ^^^ connectionBit s.place ^^^ bit := by rw [hs.mask]
    _ = bandwidthBit s.bandwidthTrapFlag ^^^ bit ^^^ connectionBit s.place := by
        rw [UInt32.xor_assoc, UInt32.xor_comm (connectionBit s.place), ← UInt32.xor_assoc]
    _ = bandwidthBit flag ^^^ connectionBit s.place := by rw [hbit]

/-- A toggle of the link's bit, when the link goes down or comes back. -/
theorem Tracks.toggleConnection {s : PortMonitor} (hs : s.Tracks) {place : Place}
    (hplace : connectionBit s.place ^^^ trapConnection = connectionBit place) (rewriteFlag : Int) :
    Tracks { s.trapPortSet trapConnection with rewriteFlag := rewriteFlag, place := place } := by
  refine ⟨hs.flag, ?_⟩
  calc s.trapState ^^^ trapConnection
      = bandwidthBit s.bandwidthTrapFlag ^^^ (connectionBit s.place ^^^ trapConnection) := by
        rw [hs.mask, UInt32.xor_assoc]
    _ = bandwidthBit s.bandwidthTrapFlag ^^^ connectionBit place := by rw [hplace]

/-- The flag after a sample: on which side of the thresholds it was. A sample that is equal to a
threshold clears the other flag only. -/
def thresholdFlag (low high efficiency : α) (flag : Int) : Int :=
  if high < efficiency then 1
  else if efficiency < low then 2
  else if efficiency = high then if flag = 1 then 1 else 0
  else if efficiency = low then if flag = 2 then 2 else 0
  else 0

section Switch

variable {low high : α} {s : PortMonitor}

theorem bandwidthSwitch_tracks (hs : s.Tracks) (u : α) :
    (s.bandwidthSwitch low high u).Tracks := by
  unfold bandwidthSwitch
  split
  · rename_i h0
    split
    · exact hs.toggle (by decide) (h0 ▸ set_high)
    · split
      · exact hs.toggle (by decide) (h0 ▸ set_low)
      · exact hs
  · split
    · rename_i h1
      have hclear : Tracks { s.trapPortSet trapBandwidthHigh with bandwidthTrapFlag := 0 } :=
        hs.toggle (by decide) (h1 ▸ clear_high)
      split
      · split
        · exact hclear.toggle (by decide) set_low
        · exact hclear
      · exact hs
    · split
      · rename_i h2
        have hclear : Tracks { s.trapPortSet trapBandwidthLow with bandwidthTrapFlag := 0 } :=
          hs.toggle (by decide) (h2 ▸ clear_low)
        split
        · split
          · exact hclear.toggle (by decide) set_high
          · exact hclear
        · exact hs
      · exact hs

@[simp] theorem bandwidthSwitch_place (s : PortMonitor) (u : α) :
    (s.bandwidthSwitch low high u).place = s.place := by
  unfold bandwidthSwitch
  repeat' split
  all_goals rfl

/-- **The switch.** From each of the three flags it goes where the sample says. -/
theorem bandwidthSwitch_flag (hlt : low < high) (hs : s.Tracks) (u : α) :
    (s.bandwidthSwitch low high u).bandwidthTrapFlag
      = thresholdFlag low high u s.bandwidthTrapFlag := by
  rcases hs.flag with h | h | h
  · rw [bandwidthSwitch, if_pos h, thresholdFlag, h]
    split
    · rfl
    · split
      · rfl
      · simp [h]
  · have h0 : s.bandwidthTrapFlag ≠ 0 := by rw [h]; decide
    rw [bandwidthSwitch, if_neg h0, if_pos h, thresholdFlag, h]
    rcases lt_trichotomy u high with hu | hu | hu
    · rw [if_pos hu, if_neg hu.not_gt]
      split
      · rfl
      · simp [hu.ne]
    · simp [hu, h, hlt.not_gt]
    · simp [hu, hu.not_gt, h]
  · have h0 : s.bandwidthTrapFlag ≠ 0 := by rw [h]; decide
    have h1 : s.bandwidthTrapFlag ≠ 1 := by rw [h]; decide
    rw [bandwidthSwitch, if_neg h0, if_neg h1, if_pos h, thresholdFlag, h]
    rcases lt_trichotomy u low with hu | hu | hu
    · simp [hu, hu.not_gt, h, (hu.trans hlt).not_gt]
    · simp [hu, h, hlt.not_gt, hlt.ne]
    · rw [if_pos hu, if_neg hu.not_gt]
      split
      · rfl
      · simp [hu.ne']

end Switch

/-! ## Steps -/

/-- What can happen at an event. -/
inductive Observed (low high : α) (s : PortMonitor) :
    Event α → PortMonitor → Option UInt32 → Prop
  | up {checkFlag : Int} (u : α) (hplace : s.place = .sampling) (hcheck : checkFlag ≠ 0) :
      Observed low high s (.sample checkFlag (some u)) (s.bandwidthSwitch low high u)
        (some (s.bandwidthSwitch low high u).trapState)
  | upUnknown {checkFlag : Int} (hplace : s.place = .sampling) (hcheck : checkFlag ≠ 0) :
      Observed low high s (.sample checkFlag none) s (some s.trapState)
  | down (u : Option α) (hplace : s.place = .sampling) :
      Observed low high s (.sample 0 u)
        { s.trapPortSet trapConnection with rewriteFlag := 3, place := .rewriting }
        (some (s.trapState ^^^ trapConnection))
  | rewriteOver (hplace : s.place = .rewriting) (hover : s.rewriteFlag = 0 ∨ s.ret = 0) :
      Observed low high s .rewrite { s with place := .waiting } none
  | rewriteAgain (hplace : s.place = .rewriting) (hflag : s.rewriteFlag ≠ 0) (hret : s.ret ≠ 0) :
      Observed low high s .rewrite s none
  | stillDown (hplace : s.place = .waiting) : Observed low high s (.check 0) s none
  | recovered {checkFlag : Int} (hplace : s.place = .waiting) (hcheck : checkFlag ≠ 0) :
      Observed low high s (.check checkFlag)
        { s.trapPortSet trapConnection with place := .sampling }
        (some (s.trapState ^^^ trapConnection))

theorem observed_of_observe {low high : α} {s s' : PortMonitor} {e : Event α}
    {r : Option UInt32} (h : s.observe low high e = some (s', r)) : Observed low high s e s' r := by
  cases e with
  | sample checkFlag efficiency =>
      by_cases hplace : s.place = .sampling
      · by_cases hcheck : checkFlag = 0
        · subst hcheck
          simp [observe, hplace, trapSendProc] at h
          obtain ⟨rfl, rfl⟩ := h
          exact Observed.down efficiency hplace
        · cases efficiency with
          | some u =>
              simp [observe, hplace, hcheck, trapSendProc] at h
              obtain ⟨rfl, rfl⟩ := h
              exact Observed.up u hplace hcheck
          | none =>
              simp [observe, hplace, hcheck, trapSendProc] at h
              obtain ⟨rfl, rfl⟩ := h
              exact Observed.upUnknown hplace hcheck
      · simp [observe, hplace] at h
  | rewrite =>
      by_cases hplace : s.place = .rewriting
      · by_cases hover : s.rewriteFlag = 0 ∨ s.ret = 0
        · have hrun : s.observe low high .rewrite = some ({ s with place := .waiting }, none) := by
            rcases hover with hover | hover <;> simp [observe, hplace, hover]
          obtain ⟨rfl, rfl⟩ := Prod.mk.inj (Option.some.inj (hrun.symm.trans h))
          exact Observed.rewriteOver hplace hover
        · obtain ⟨hflag, hret⟩ := not_or.mp hover
          simp [observe, hplace, hflag, hret] at h
          obtain ⟨rfl, rfl⟩ := h
          exact Observed.rewriteAgain hplace hflag hret
      · simp [observe, hplace] at h
  | check checkFlag =>
      by_cases hplace : s.place = .waiting
      · by_cases hcheck : checkFlag = 0
        · subst hcheck
          simp [observe, hplace] at h
          obtain ⟨rfl, rfl⟩ := h
          exact Observed.stillDown hplace
        · simp [observe, hplace, hcheck, trapSendProc] at h
          obtain ⟨rfl, rfl⟩ := h
          exact Observed.recovered hplace hcheck
      · simp [observe, hplace] at h

/-- Every step leaves the mask in step with the flag and the link. -/
theorem Observed.tracks {low high : α} {s s' : PortMonitor} {e : Event α} {r : Option UInt32}
    (h : Observed low high s e s' r) (hs : s.Tracks) : s'.Tracks := by
  cases h with
  | up u hplace hcheck => exact bandwidthSwitch_tracks hs u
  | upUnknown hplace hcheck => exact hs
  | down u hplace => exact hs.toggleConnection (by rw [hplace]; decide) 3
  | rewriteOver hplace hover =>
      have hbit : connectionBit s.place = connectionBit .waiting := by rw [hplace]; decide
      exact ⟨hs.flag, hs.mask.trans (by rw [hbit])⟩
  | rewriteAgain hplace hflag hret => exact hs
  | stillDown hplace => exact hs
  | recovered hplace hcheck => exact hs.toggleConnection (by rw [hplace]; decide) s.rewriteFlag

/-- **The mask is in step after every run.** -/
theorem tracks_exec {low high : α} {ret : Int} {es : List (Event α)} {s : PortMonitor}
    (h : exec (step low high) (init ret) es = some s) : s.Tracks := by
  refine exec_invariant (fun s₁ e s₂ h₁ h₂ => ?_) (tracks_init ret) h
  obtain ⟨r, hr⟩ := step_eq_some.mp h₂
  exact (observed_of_observe hr).tracks h₁

/-! ## Reports -/

/-- Whether the event begins a link-down episode. -/
def Event.LinkDown : Event α → Prop
  | .sample checkFlag _ => checkFlag = 0
  | .rewrite => False
  | .check _ => False

instance (e : Event α) : Decidable e.LinkDown := by
  cases e <;> unfold Event.LinkDown <;> infer_instance

/-- The report of a step: the bit of the flag, and the bit of the link if it went down. -/
theorem Observed.report {low high : α} {s s' : PortMonitor} {e : Event α} {m : UInt32}
    (h : Observed low high s e s' (some m)) (hs : s.Tracks) :
    m = bandwidthBit s'.bandwidthTrapFlag ^^^ if e.LinkDown then trapConnection else 0 := by
  have hs' := h.tracks hs
  cases h with
  | @up checkFlag u hplace hcheck =>
      have hup : ¬ (Event.sample checkFlag (some u)).LinkDown := hcheck
      rw [if_neg hup, hs'.mask, bandwidthSwitch_place, hplace]
      rfl
  | @upUnknown checkFlag hplace hcheck =>
      have hup : ¬ (Event.sample checkFlag (none : Option α)).LinkDown := hcheck
      rw [if_neg hup, hs.mask, hplace]
      rfl
  | down u hplace =>
      have hdown : (Event.sample 0 u).LinkDown := rfl
      rw [if_pos hdown]
      exact hs'.mask
  | @recovered checkFlag hplace hcheck =>
      have hup : ¬ (Event.check checkFlag : Event α).LinkDown := id
      rw [if_neg hup]
      exact hs'.mask

/-- What a report says of the link and of the sample it was made at, by a step from `s` to `s'`.
A sample that is equal to a threshold keeps the bit of this threshold. -/
structure ReportOk (low high : α) (s s' : PortMonitor) (e : Event α) (m : UInt32) : Prop where
  high_iff : m &&& trapBandwidthHigh ≠ 0 ↔ s'.bandwidthTrapFlag = 1
  low_iff : m &&& trapBandwidthLow ≠ 0 ↔ s'.bandwidthTrapFlag = 2
  not_both : ¬ (m &&& trapBandwidthHigh ≠ 0 ∧ m &&& trapBandwidthLow ≠ 0)
  connection_iff : m &&& trapConnection ≠ 0 ↔ e.LinkDown
  above : ∀ c u, c ≠ 0 → e = .sample c (some u) → high < u → m = trapBandwidthHigh
  below : ∀ c u, c ≠ 0 → e = .sample c (some u) → u < low → m = trapBandwidthLow
  between : ∀ c u, c ≠ 0 → e = .sample c (some u) → low < u → u < high → m = 0
  at_high : ∀ c, c ≠ 0 → e = .sample c (some high) →
    m &&& trapBandwidthHigh = s.trapState &&& trapBandwidthHigh ∧ m &&& trapBandwidthLow = 0
  at_low : ∀ c, c ≠ 0 → e = .sample c (some low) →
    m &&& trapBandwidthLow = s.trapState &&& trapBandwidthLow ∧ m &&& trapBandwidthHigh = 0

/-- The report at a sample of a link that is up. -/
theorem report_sample {low high : α} (hlt : low < high) {s s' : PortMonitor} {checkFlag : Int}
    {u : α} {m : UInt32} (hs : s.Tracks) (hcheck : checkFlag ≠ 0)
    (h : Observed low high s (.sample checkFlag (some u)) s' (some m)) :
    m = bandwidthBit (thresholdFlag low high u s.bandwidthTrapFlag) := by
  have hup : ¬ (Event.sample checkFlag (some u)).LinkDown := hcheck
  have hreport := h.report hs
  rw [if_neg hup, UInt32.xor_zero] at hreport
  cases h with
  | up u hplace hcheck => rw [hreport, bandwidthSwitch_flag hlt hs u]
  | down u hplace => exact absurd rfl hcheck

/-- The mask before a sample has the bit of the flag and no other. -/
theorem mask_sample {low high : α} {s s' : PortMonitor} {checkFlag : Int} {u : Option α}
    {r : Option UInt32} (hs : s.Tracks)
    (h : Observed low high s (.sample checkFlag u) s' r) :
    s.trapState = bandwidthBit s.bandwidthTrapFlag := by
  have hplace : s.place = .sampling := by cases h <;> assumption
  rw [hs.mask, hplace]
  exact UInt32.xor_zero

/-- The bits of a report, one by one. -/
theorem report_bits {flag : Int} {link : UInt32} (hflag : flag = 0 ∨ flag = 1 ∨ flag = 2)
    (hlink : link = 0 ∨ link = trapConnection) :
    ((bandwidthBit flag ^^^ link) &&& trapBandwidthHigh ≠ 0 ↔ flag = 1)
      ∧ ((bandwidthBit flag ^^^ link) &&& trapBandwidthLow ≠ 0 ↔ flag = 2)
      ∧ ((bandwidthBit flag ^^^ link) &&& trapConnection ≠ 0 ↔ link = trapConnection) := by
  rcases hflag with rfl | rfl | rfl <;> rcases hlink with rfl | rfl <;> decide

theorem Observed.reportOk {low high : α} (hlt : low < high) {s s' : PortMonitor} {e : Event α}
    {m : UInt32} (h : Observed low high s e s' (some m)) (hs : s.Tracks) :
    ReportOk low high s s' e m := by
  have hlink : ∀ p : Prop, [Decidable p] →
      ((if p then trapConnection else 0) = 0 ∨ (if p then trapConnection else 0) = trapConnection)
      ∧ ((if p then trapConnection else 0) = trapConnection ↔ p) := by
    intro p _
    by_cases hp : p <;> simp [hp, trapConnection]
  obtain ⟨hhigh, hlow, hconnection⟩ := report_bits (h.tracks hs).flag (hlink e.LinkDown).1
  rw [← h.report hs] at hhigh hlow hconnection
  -- what a sample does to the three flags
  have hsample : ∀ c u, c ≠ 0 → e = .sample c (some u) →
      m = bandwidthBit (thresholdFlag low high u s.bandwidthTrapFlag)
        ∧ s.trapState = bandwidthBit s.bandwidthTrapFlag := by
    rintro c u hc rfl
    exact ⟨report_sample hlt hs hc h, mask_sample hs h⟩
  refine
    { high_iff := hhigh
      low_iff := hlow
      not_both := fun ⟨h1, h2⟩ => absurd ((hhigh.mp h1).symm.trans (hlow.mp h2)) (by decide)
      connection_iff := hconnection.trans (hlink e.LinkDown).2
      above := fun c u hc he hu => ?_
      below := fun c u hc he hu => ?_
      between := fun c u hc he hl hu => ?_
      at_high := fun c hc he => ?_
      at_low := fun c hc he => ?_ }
  · rw [(hsample c u hc he).1, thresholdFlag, if_pos hu]
    rfl
  · rw [(hsample c u hc he).1, thresholdFlag, if_neg (hu.trans hlt).not_gt, if_pos hu]
    rfl
  · rw [(hsample c u hc he).1, thresholdFlag, if_neg hu.not_gt, if_neg hl.not_gt, if_neg hu.ne,
      if_neg hl.ne']
    rfl
  · obtain ⟨hm, hmask⟩ := hsample c high hc he
    rw [hm, hmask, thresholdFlag, if_neg (lt_irrefl high), if_neg hlt.not_gt, if_pos rfl]
    rcases hs.flag with hf | hf | hf <;> rw [hf] <;> decide
  · obtain ⟨hm, hmask⟩ := hsample c low hc he
    rw [hm, hmask, thresholdFlag, if_neg hlt.not_gt, if_neg (lt_irrefl low), if_neg hlt.ne,
      if_pos rfl]
    rcases hs.flag with hf | hf | hf <;> rw [hf] <;> decide

/-- **The trap state follows the link**: over every sequence of samples and link-down episodes,
every report says what the flag and the sample say. -/
theorem reports_follow_link {low high : α} (hlt : low < high) {ret : Int} {es : List (Event α)}
    {s s' : PortMonitor} {e : Event α} {m : UInt32}
    (hrun : exec (step low high) (init ret) es = some s)
    (hreport : s.observe low high e = some (s', some m)) : ReportOk low high s s' e m :=
  (observed_of_observe hreport).reportOk hlt (tracks_exec hrun)

/-- A link that goes down while the utilisation is high. -/
theorem reports_follow_link_down :
    exec (step (1 : Int) 6) (init 0) [.sample 1 (some 7)]
        = some ⟨1, trapBandwidthHigh, 0, 0, .sampling⟩
      ∧ ReportOk (1 : Int) 6 ⟨1, trapBandwidthHigh, 0, 0, .sampling⟩
          ⟨1, trapBandwidthHigh ^^^ trapConnection, 3, 0, .rewriting⟩ (.sample 0 none)
          (trapBandwidthHigh ^^^ trapConnection) :=
  ⟨by decide, reports_follow_link (by decide) (by decide : exec (step (1 : Int) 6) (init 0)
    [.sample 1 (some 7)] = some ⟨1, trapBandwidthHigh, 0, 0, .sampling⟩) rfl⟩

/-! ## The loop around the database access -/

theorem Observed.ret_eq {low high : α} {s s' : PortMonitor} {e : Event α} {r : Option UInt32}
    (h : Observed low high s e s' r) : s'.ret = s.ret := by
  cases h with
  | up u hplace hcheck =>
      unfold bandwidthSwitch
      repeat' split
      all_goals rfl
  | _ => rfl

theorem ret_exec {low high : α} {ret : Int} {es : List (Event α)} {s : PortMonitor}
    (h : exec (step low high) (init ret) es = some s) : s.ret = ret := by
  refine exec_invariant (P := fun s => s.ret = ret) (fun s₁ e s₂ h₁ h₂ => ?_) rfl h
  obtain ⟨r, hr⟩ := step_eq_some.mp h₂
  exact (observed_of_observe hr).ret_eq.trans h₁

/-- With a `ret` that is not 0 the loop goes round and round: nothing in it changes what it
tests. -/
theorem rewrite_forever (low high : α) {s : PortMonitor} (hplace : s.place = .rewriting)
    (hflag : s.rewriteFlag ≠ 0) (hret : s.ret ≠ 0) (k : Nat) :
    exec (step low high) s (List.replicate k .rewrite) = some s := by
  induction k with
  | zero => rfl
  | succ k ih =>
      have hstep : s.step low high .rewrite = some s :=
        step_eq_some.mpr ⟨none, by simp [observe, hplace, hflag, hret]⟩
      rw [List.replicate_succ, exec_cons, hstep]
      exact ih

/-- After every link-down report the loop ends within three repetitions. The wait for the link
then lasts until `check_port` finds it up, and the recovery is reported. -/
def GetsPastRewrite (low high : α) (ret : Int) : Prop :=
  ∀ es s s' u, exec (step low high) (init ret) es = some s →
    s.step low high (.sample 0 u) = some s' →
    ∃ k ≤ 4, ∃ s₂, exec (step low high) s' (List.replicate k .rewrite) = some s₂
      ∧ s₂.place = .waiting
      ∧ s₂.step low high (.check 0) = some s₂
      ∧ ∀ c, c ≠ 0 → ∃ s₃ m, s₂.observe low high (.check c) = some (s₃, some m)
        ∧ s₃.place = .sampling ∧ m &&& trapConnection = 0

/-- From the loop that waits, the recovery is reported. -/
theorem recovery (low high : α) {s : PortMonitor} (hs : s.Tracks) (hplace : s.place = .waiting)
    {c : Int} (hc : c ≠ 0) :
    ∃ s' m, s.observe low high (.check c) = some (s', some m)
      ∧ s'.place = .sampling ∧ m &&& trapConnection = 0 := by
  have hrun : s.observe low high (.check c)
      = some ({ s.trapPortSet trapConnection with place := .sampling },
        some (s.trapState ^^^ trapConnection)) := by
    simp [observe, hplace, hc, trapSendProc, trapPortSet]
  refine ⟨_, _, hrun, rfl, ?_⟩
  have hreport := (observed_of_observe hrun).report hs
  have hup : ¬ (Event.check c : Event α).LinkDown := id
  rw [if_neg hup] at hreport
  have hbits := (report_bits hs.flag (Or.inl rfl)).2.2
  rw [hreport]
  by_contra hne
  exact absurd (hbits.mp hne) (by decide)

/-- With a `ret` that is not 0, the first link-down episode is never left. -/
theorem ret_eq_zero (low high : α) {ret : Int} (h : GetsPastRewrite low high ret) : ret = 0 := by
  by_contra hret
  have hdown : (init ret).step low high (.sample 0 none)
      = some ⟨0, 0 ^^^ trapConnection, 3, ret, .rewriting⟩ := rfl
  obtain ⟨k, -, s₂, hrun, hplace, -⟩ := h [] _ _ none rfl hdown
  have hflag : (3 : Int) ≠ 0 := by decide
  have hstuck := rewrite_forever low high
    (s := ⟨0, 0 ^^^ trapConnection, 3, ret, .rewriting⟩) rfl hflag hret k
  rw [← Option.some.inj (hstuck.symm.trans hrun)] at hplace
  cases hplace

/-- **The loop is left if and only if `ret` happens to be 0.** -/
theorem getsPastRewrite_iff (low high : α) (ret : Int) : GetsPastRewrite low high ret ↔ ret = 0 := by
  constructor
  · exact ret_eq_zero low high
  · rintro rfl es s s' u hrun hdown
    obtain ⟨r, hr⟩ := step_eq_some.mp hdown
    have hobs := observed_of_observe hr
    have htracks := hobs.tracks (tracks_exec hrun)
    have hret : s'.ret = 0 := hobs.ret_eq.trans (ret_exec hrun)
    have hplace : s'.place = .rewriting := by
      cases hobs with
      | up u hplace hcheck => exact absurd rfl hcheck
      | upUnknown hplace hcheck => exact absurd rfl hcheck
      | down u hplace => rfl
    -- the first turn of the loop is the last one
    have hturn : s'.observe low high .rewrite = some ({ s' with place := .waiting }, none) := by
      simp [observe, hplace, hret]
    have hwait := (observed_of_observe hturn).tracks htracks
    refine ⟨1, by decide, { s' with place := .waiting }, ?_, rfl, rfl, fun c hc => ?_⟩
    · rw [List.replicate_one, exec_cons, step_eq_some.mpr ⟨none, hturn⟩]
      rfl
    · exact recovery low high hwait rfl hc

/-- It is not left with a 1 in `ret`. -/
theorem not_getsPastRewrite_one : ¬ GetsPastRewrite (1 : Int) 6 1 := by
  intro h
  exact absurd (ret_eq_zero 1 6 h) (by decide)

end PortMonitor

end Monitor
