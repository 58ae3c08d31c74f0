import IcnPrototype.Monitor.LocalThread
import IcnPrototype.Monitor.SortedInsert
import IcnPrototype.Monitor.TimerFile

set_option autoImplicit false

/-! # From `timer.lst` to the timers

`local_sender` reads a `timer.lst` and sends its records; the listener of the monitor takes them
apart, and `set_child_timer` looks the ports up and puts the timers into the list.

`timer_lst_scheduled` is about the whole way: for every file of up to 12 lines the list is sorted by
time, and has for each port, and for each of start and stop, the last line of the file that is about
it, or else the timer that was there before. A line counts if the port is known and the time is not
past when the line is handled. That is so unless a timer is called while the listener has the head of
the list in its hand.
-/

namespace Monitor

open Bytes Dll

/-! ## Schedules -/

/-- What a timer is for: which port, start or stop, and when. -/
structure Job where
  timerId : Int
  flag : Int
  time : Int
deriving DecidableEq

/-- The port, and start or stop. -/
def Job.key (x : Job) : Int × Int := (x.timerId, x.flag)

/-- The job of a timer in the list. -/
def Entry.job (x : Entry) : Job := ⟨x.timerId, x.flag, x.time⟩

/-- The jobs of the timers in the list. -/
def LocalThread.jobs (s : LocalThread) : List Job :=
  (entries (nodes s.mem.heap s.mem.brk s.timerInfo)).map Entry.job

/-- What a message asks for. -/
def TimerMessage.job {Tm : Type} (site : Site Tm) (r : TimerMessage Tm) : Job :=
  ⟨setTimerId r.ip site.portInfo 0, r.flag, site.mktime r.t⟩

/-- A job that is asked for at the clock `t` counts. -/
def Job.Counts (x : Job) (t : Int) : Prop := x.timerId ≠ -1 ∧ t ≤ x.time

instance (x : Job) (t : Int) : Decidable (x.Counts t) :=
  inferInstanceAs (Decidable (x.timerId ≠ -1 ∧ t ≤ x.time))

/-- The jobs that count among those that are asked for at a clock. -/
def accepted (xs : List (Int × Job)) : List Job :=
  (xs.filter fun x => x.2.Counts x.1).map Prod.snd

/-! ## The timers of a message -/

/-- The timers of a host, with their jobs. -/
structure Timers.Scheduled (s : Timers) (L : List Job) : Prop where
  wf : s.Wf
  jobs : (entries s.list).map Entry.job = L

theorem Timers.Scheduled.sorted {s : Timers} {L : List Job} (h : s.Scheduled L) :
    SortedSet.Wf Job.key Job.time L := by
  obtain ⟨hwf, rfl⟩ := h
  refine ⟨?_, ?_⟩
  · exact List.pairwise_map.mpr hwf.sorted.sorted
  · rw [List.map_map]
    exact hwf.sorted.unique

/-- Times within 2^31 seconds can be told apart. -/
theorem inRange_of_lt {t base : Int} {x : Entry} {L : List Entry} (ht : base ≤ t)
    (hx : x.time < base + 2 ^ 31) (hL : ∀ y ∈ L, y.time < base + 2 ^ 31) : InRange t x L := by
  by_cases hpast : x.time < t
  · exact Or.inl hpast
  · refine Or.inr ⟨by omega, ?_⟩
    intro y hy
    have hmem : y ∈ L := List.eraseP_sublist.subset (List.mem_of_find?_eq_some hy)
    have hy' := hL y hmem
    omega

theorem insertEntry_job (t : Int) (x : Entry) (L : List Entry) :
    (insertEntry t x L).map Entry.job
      = if x.time < t then L.map Entry.job
        else SortedSet.insert Job.key Job.time x.job (L.map Entry.job) := by
  rw [insertEntry]
  split
  · rfl
  · exact SortedSet.map_insert (fun _ => rfl : ∀ a : Entry, a.job.key = a.key)
      (fun _ => rfl : ∀ a : Entry, a.job.time = a.time) x L

variable {site : Site Tm}

/-- One message: the job is inserted if it counts. -/
theorem Timers.Scheduled.setChildTimer {s : Timers} {L : List Job} (hs : s.Scheduled L)
    {now base : Int} (hnow : base ≤ now) {r : TimerMessage Tm}
    (hr : (r.job site).time < base + 2 ^ 31) (hL : ∀ x ∈ L, x.time < base + 2 ^ 31) :
    ∃ m p, Monitor.setChildTimer site s.mem now s.timerInfo r = some (m, p)
      ∧ Timers.Scheduled ⟨m, p⟩
        (if (r.job site).Counts now then SortedSet.insert Job.key Job.time (r.job site) L else L) := by
  by_cases hid : (newTimer site r).timerId = -1
  · -- the cell that was allocated is lost
    obtain ⟨m, hrun, -, hholds, hframe⟩ := setChildTimer_unknown hid hs.wf.holds now
    have hlist : Timers.list ⟨m, s.timerInfo⟩ = s.list := Timers.list_eq hholds
    have hcounts : ¬ (r.job site).Counts now := fun h => h.1 hid
    refine ⟨m, s.timerInfo, hrun, ?_⟩
    rw [if_neg hcounts]
    refine ⟨⟨?_, ?_⟩, ?_⟩
    · rw [hlist]
      exact hholds
    · rw [hlist]
      exact hs.wf.sorted
    · rw [hlist]
      exact hs.jobs
  · let a : Insertion := ⟨now, newTimer site r⟩
    have hfits : s.Fits a := by
      refine inRange_of_lt hnow hr ?_
      intro y hy
      exact hL y.job (hs.jobs ▸ List.mem_map_of_mem hy)
    obtain ⟨s', hrun, -, hentries, -⟩ := (Timers.refines_iff hs.wf a).mpr hfits
    have hset : Monitor.setChildTimer site s.mem now s.timerInfo r = some (s'.mem, s'.timerInfo) := by
      obtain ⟨⟨m, p⟩, hinsert, hs'⟩ := Option.bind_eq_some_iff.mp hrun
      obtain rfl := Option.some.inj hs'
      rw [setChildTimer_eq, if_neg hid]
      exact hinsert
    refine ⟨s'.mem, s'.timerInfo, hset, hs.wf.insert hrun hfits, ?_⟩
    have hjob : (s.entry a).job = r.job site := rfl
    have htime : (s.entry a).time = (r.job site).time := rfl
    calc (entries s'.list).map Entry.job
        = if (r.job site).time < now then L
            else SortedSet.insert Job.key Job.time (r.job site) L := by
          rw [hentries, insertEntry_job, hs.jobs, hjob, htime]
      _ = _ := by
          by_cases hpast : (r.job site).time < now
          · rw [if_pos hpast, if_neg fun h => absurd h.2 (not_le.mpr hpast)]
          · rw [if_neg hpast, if_pos ⟨hid, not_lt.mp hpast⟩]

/-- What messages ask for, each with the clock at which it is handled. -/
def asked (site : Site Tm) (rs : List (Int × TimerMessage Tm)) : List (Int × Job) :=
  rs.map fun r => (r.1, r.2.job site)

/-- **The messages of a datagram.** The jobs that count are inserted one after the other. -/
theorem Timers.Scheduled.parseTimerMessage {base : Int} {rs : List (Int × TimerMessage Tm)}
    (hrs : ∀ r ∈ asked site rs, base ≤ r.1 ∧ r.2.time < base + 2 ^ 31) {s : Timers} {L : List Job}
    (hs : s.Scheduled L) (hL : ∀ x ∈ L, x.time < base + 2 ^ 31) :
    ∃ m p, Monitor.parseTimerMessage site s.mem s.timerInfo rs = some (m, p)
      ∧ Timers.Scheduled ⟨m, p⟩
        (SortedSet.insertAll Job.key Job.time (accepted (asked site rs)) L) := by
  induction rs generalizing s L with
  | nil => exact ⟨s.mem, s.timerInfo, rfl, hs⟩
  | cons r rs ih =>
      obtain ⟨⟨hnow, htime⟩, hrest⟩ := List.forall_mem_cons.mp hrs
      obtain ⟨m, p, hrun, hs'⟩ := hs.setChildTimer hnow htime hL
      have hL' : ∀ x ∈ (if (r.2.job site).Counts r.1 then
          SortedSet.insert Job.key Job.time (r.2.job site) L else L), x.time < base + 2 ^ 31 := by
        split
        · intro x hx
          rcases SortedSet.mem_of_mem_insert hx with rfl | hx
          · exact htime
          · exact hL x hx
        · exact hL
      obtain ⟨m', p', hrun', hs''⟩ := ih hrest hs' hL'
      refine ⟨m', p', Option.bind_eq_some_iff.mpr ⟨_, hrun, hrun'⟩, ?_⟩
      have hins : SortedSet.insertAll Job.key Job.time (accepted (asked site (r :: rs))) L
          = SortedSet.insertAll Job.key Job.time (accepted (asked site rs))
            (if (r.2.job site).Counts r.1 then
              SortedSet.insert Job.key Job.time (r.2.job site) L else L) := by
        unfold accepted asked
        rw [List.map_cons]
        by_cases hc : (r.2.job site).Counts r.1
        · rw [if_pos hc, List.filter_cons_of_pos (by simpa using hc), List.map_cons]
          rfl
        · rw [if_neg hc, List.filter_cons_of_neg (by simpa using hc)]
      rw [hins]
      exact hs''

/-! ## The file -/

/-- A record after `memset(&send_buf, 0, sizeof(send_buf))`. -/
def TimerRecord.zero : TimerRecord where
  ip := List.replicate 16 0
  flag := 0
  t := ⟨0, 0, 0, 0, 0, 0, 0, 0, 0, 0, 0⟩
  ip_length := List.length_replicate

/-- `main` of `local_sender`: what is in `send_buf` when it is sent. -/
def localSender (file : List UInt8) : Option SendBuf := do
  let m ← getTimerMessage file (List.replicate 64 TimerRecord.zero)
  let records := m.timerMessage.take m.j
  if h : 0 < records.length ∧ records.length ≤ 64 then some ⟨records, h.1, h.2⟩ else none

namespace TimerLine

/-- The time of a line. -/
def tm (l : TimerLine) : Tm where
  tmSec := Int32.ofNat l.sec.value
  tmMin := Int32.ofNat l.min.value
  tmHour := Int32.ofNat l.hour.value
  tmMday := Int32.ofNat l.mday.value
  tmMon := Int32.ofNat l.mon.value - 1
  tmYear := Int32.ofNat l.year.value - 1900
  tmWday := 0
  tmYday := 0
  tmIsdst := 0
  tmGmtoff := 0
  tmZone := 0

/-- What a line asks for. -/
def job (site : Site Tm) (l : TimerLine) : Job :=
  ⟨setTimerId l.ip site.portInfo 0, if l.flag then 1 else 0, site.mktime l.tm⟩

theorem message_fill (l : TimerLine) :
    (l.fill TimerRecord.zero).message = ⟨l.ip, if l.flag then 1 else 0, l.tm⟩ := by
  have hfilled := l.filled_fill TimerRecord.zero
  have htm : (l.fill TimerRecord.zero).t = l.tm := by
    simp only [fill, LineFields.fill, TimerRecord.setIp_t, fields, Numeral.foldl]
    rfl
  rw [TimerRecord.message, hfilled.ip, hfilled.flag, htm]

end TimerLine

/-- The records of a file are sent. -/
theorem localSender_bytes (file : TimerFile) :
    ∃ s, localSender file.bytes = some s
      ∧ s.records = file.lines.map fun l => l.fill TimerRecord.zero := by
  have hle := file.length_le
  have hpos := List.length_pos_iff.mpr file.ne_nil
  have hzeros : (List.replicate 64 TimerRecord.zero).length = 64 := List.length_replicate
  have hzip : List.zipWith TimerLine.fill file.lines (List.replicate 64 TimerRecord.zero)
      = file.lines.map fun l => l.fill TimerRecord.zero := by
    apply List.ext_getElem
    · rw [List.length_zipWith, hzeros, List.length_map]
      omega
    · intro i h1 h2
      rw [List.getElem_zipWith, List.getElem_map, List.getElem_replicate]
  have hrun := foldlM_timerTurn file.fgetsAll_bytes [] (hzeros ▸ hle)
  rw [List.nil_append, List.nil_append, List.length_nil, Nat.zero_add, hzip] at hrun
  have htake : ∀ rest, ((file.lines.map fun l => l.fill TimerRecord.zero) ++ rest).take
      file.lines.length = file.lines.map fun l => l.fill TimerRecord.zero :=
    fun rest => List.take_left' (List.length_map _)
  refine ⟨⟨file.lines.map fun l => l.fill TimerRecord.zero, ?_, ?_⟩, ?_, rfl⟩
  · rw [List.length_map]
    exact hpos
  · rw [List.length_map]
    exact hle
  · unfold localSender
    rw [getTimerMessage_eq file.bytes_ne_nil, hrun]
    simp only [Option.bind_eq_bind, Option.bind_some, htake, List.length_map]
    exact dif_pos ⟨hpos, hle⟩

/-! ## The whole way -/

/-- `mktime` does not read `tm_zone`. -/
def IgnoresZone (site : Site Tm) : Prop :=
  ∀ t zone, site.mktime { t with tmZone := zone } = site.mktime t

/-- What the lines ask for, each with the clock at which its record is handled. -/
def TimerFile.asked (file : TimerFile) (site : Site Tm) (clock : Nat → Int) : List (Int × Job) :=
  (file.lines.map (TimerLine.job site)).zipIdx.map fun x => (clock x.2, x.1)

theorem job_withZone (hzone : IgnoresZone site) (r : TimerRecord) (zone : UInt64) :
    (r.withZone zone).message.job site = r.message.job site := by
  unfold TimerMessage.job TimerRecord.message TimerRecord.withZone
  rw [hzone]

/-- Only the zone of the last record may change on the way. -/
theorem jobs_arrived (hzone : IgnoresZone site) (s : SendBuf) (stale : Mem) :
    (s.arrived stale).map (fun r => r.message.job site)
      = s.records.map fun r => r.message.job site := by
  calc (s.arrived stale).map (fun r => r.message.job site)
      = (s.records.dropLast ++ [s.last]).map fun r => r.message.job site := by
        rw [SendBuf.arrived, List.map_append, List.map_append, List.map_singleton,
          List.map_singleton, job_withZone hzone]
    _ = s.records.map fun r => r.message.job site := by rw [s.dropLast_append_last]

theorem asked_clocked (d : Received) (records : List (TimerMessage Tm)) :
    asked site (d.clocked records)
      = (records.map fun r => r.job site).zipIdx.map fun x => (d.clock x.2, x.1) := by
  unfold asked Received.clocked
  rw [List.zipIdx_map, List.map_map, List.map_map]
  rfl

/-- What the messages of a file ask for is what its lines ask for. -/
theorem asked_file (hzone : IgnoresZone site) (file : TimerFile) {sb : SendBuf}
    (hsb : sb.records = file.lines.map fun l => l.fill TimerRecord.zero) (stale recvBuf : Mem)
    (clock : Nat → Int) :
    asked site (Received.clocked ⟨recvBuf, clock⟩ ((sb.arrived stale).map TimerRecord.message))
      = file.asked site clock := by
  have hjobs : ((sb.arrived stale).map TimerRecord.message).map (fun r => r.job site)
      = file.lines.map (TimerLine.job site) := by
    rw [List.map_map]
    calc (sb.arrived stale).map (fun r => r.message.job site)
        = (file.lines.map fun l => l.fill TimerRecord.zero).map fun r => r.message.job site := by
          rw [jobs_arrived hzone, hsb]
      _ = file.lines.map (TimerLine.job site) := by
          rw [List.map_map]
          apply List.map_congr_left
          intro l _
          rw [Function.comp_apply, l.message_fill]
          rfl
  rw [asked_clocked, hjobs]
  rfl

/-- **What `timer.lst` says is what is scheduled.** From a file of up to 12 lines, `local_sender`
makes a datagram, and when the listener has handled it, over whatever was in its buffer, the list is
sorted, with one timer for each port and flag: the one of the last line about it that counts, or else
the one that was there before. No timer is called between the listener's last look at the head and
the end of the datagram. -/
theorem timer_lst_scheduled (hzone : IgnoresZone site) (file : TimerFile)
    (h12 : file.lines.length ≤ 12) (stale : Mem) {clock : Nat → Int} {base : Int}
    (hrange : ∀ x ∈ file.asked site clock, base ≤ x.1 ∧ x.2.time < base + 2 ^ 31)
    {s : LocalThread} (hs : Timers.Wf ⟨s.mem, s.timerInfo⟩) (hhead : s.head = s.timerInfo)
    (hjobs : ∀ x ∈ s.jobs, x.time < base + 2 ^ 31) :
    ∃ sb s', localSender file.bytes = some sb
      ∧ LocalThread.step site s (.datagram ⟨(sb.received stale).mem, clock⟩) = some s'
      ∧ Timers.Wf ⟨s'.mem, s'.timerInfo⟩ ∧ s'.head = s'.timerInfo
      ∧ SortedSet.Wf Job.key Job.time s'.jobs
      ∧ ∀ k, s'.jobs.find? (fun x => x.key = k)
          = ((accepted (file.asked site clock)).filter fun x => x.key = k).getLast?.or
            (s.jobs.find? fun x => x.key = k) := by
  obtain ⟨sb, hsend, hrecords⟩ := localSender_bytes file
  have hlen : sb.records.length ≤ 12 := by
    rw [hrecords, List.length_map]
    exact h12
  -- an address of 16 bytes has at most 15 that are not 0
  have hterm : ∀ r ∈ sb.records, 0 ∈ r.ip := by
    intro r hr
    rw [hrecords] at hr
    obtain ⟨l, -, rfl⟩ := List.mem_map.mp hr
    by_contra hzero
    have hip := (l.filled_fill TimerRecord.zero).ip
    rw [cstr_eq_self hzero] at hip
    have hle := l.ip_le
    rw [← hip, TimerRecord.ip_length, ipSize] at hle
    omega
  have hlisten := localListen_received site sb stale hlen hterm
  have hasked := asked_file hzone file hrecords stale (sb.received stale).mem clock
  have hscheduled : Timers.Scheduled ⟨s.mem, s.timerInfo⟩ s.jobs := ⟨hs, rfl⟩
  obtain ⟨m, p, hparse, hs'⟩ := hscheduled.parseTimerMessage (hasked ▸ hrange) hjobs
  rw [hasked] at hs'
  have hjobs' : LocalThread.jobs ⟨m, p, p, 1, s.calls⟩
      = SortedSet.insertAll Job.key Job.time (accepted (file.asked site clock)) s.jobs := hs'.jobs
  refine ⟨sb, ⟨m, p, p, 1, s.calls⟩, hsend, ?_, hs'.wf, rfl, ?_, ?_⟩
  · have hlisten' : LocalThread.listen site s ⟨(sb.received stale).mem, clock⟩
        = some (m, 1, .timers p) := by
      unfold LocalThread.listen
      rw [show (⟨(sb.received stale).mem, 1024⟩ : Window) = sb.received stale from rfl, hlisten]
      dsimp only
      rw [hhead, hparse]
      rfl
    exact Option.bind_eq_some_iff.mpr ⟨_, hlisten', rfl⟩
  · rw [hjobs']
    exact hs'.sorted
  · intro k
    rw [hjobs']
    exact SortedSet.find?_insertAll hscheduled.sorted _ k

/-- A monitor with the port `10.0.0.1`, where a day has nothing but hours. -/
def hoursOnly : Site Tm where
  portInfo := [⟨1, sampleLine.ip⟩]
  mktime t := 3600 * t.tmHour.toInt

/-- The line of the sample file is scheduled at 9 o'clock. -/
theorem timer_lst_scheduled_sample :
    ∃ sb s', localSender sampleFile.bytes = some sb
      ∧ LocalThread.step hoursOnly LocalThread.start
        (.datagram ⟨(sb.received fun _ => 0).mem, fun _ => 0⟩) = some s'
      ∧ s'.jobs.find? (fun x => x.key = (0, 1)) = some ⟨0, 1, 32400⟩ := by
  have hasked : sampleFile.asked hoursOnly (fun _ => 0) = [(0, ⟨0, 1, 32400⟩)] := by decide
  have hrange : ∀ x ∈ sampleFile.asked hoursOnly fun _ => 0,
      0 ≤ x.1 ∧ x.2.time < 0 + 2 ^ 31 := by
    rw [hasked]
    decide
  obtain ⟨sb, s', hsend, hstep, -, -, -, hfind⟩ := timer_lst_scheduled (fun _ _ => rfl) sampleFile
    (by decide) (fun _ => 0) hrange (s := LocalThread.start) Timers.wf_start rfl
    (List.forall_mem_nil _)
  refine ⟨sb, s', hsend, hstep, ?_⟩
  rw [hfind, hasked]
  rfl

end Monitor
