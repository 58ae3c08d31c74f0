import IcnPrototype.Monitor.LocalInform
import IcnPrototype.Monitor.PortFile

set_option autoImplicit false

/-! # Scanners and the end of their input

`get_timer_message`, `get_dest_ip` and `insert_time` look for one separator after another and for
nothing else: not for the NUL at the end of the line or the string, not for the end of the arrays
they store to, and not for a file that is empty. `scanners_stop_iff` says on which files and strings
they still stop in time.
-/

namespace Monitor

open Bytes

/-! ## `get_timer_message` -/

/-- Every field loop of `get_timer_message` stops at or before the NUL that ends its line, and
every store is to an entry of `timer_message` and to the 16 bytes of an address. -/
def TimerScanStops (file : List UInt8) (recs : List TimerRecord) : Prop :=
  (getTimerMessage file recs).isSome = true ∧
    ∀ line ∈ fgetsAll 1024 file, ∀ r r' rest, scanLine line r = some (r', rest) → rest ≠ []

/-- A line of `timer.lst` with its separators and a byte behind the last of them. -/
def LineInOrder (line : List UInt8) : Prop :=
  ∃ f : LineFields, f.Ok ∧ line = f.text ∧ f.sec ≠ []

/-- **The loop over the seconds** always stops. It goes over the NUL if there is nothing else. -/
theorem scanSec_terminated {len i : Nat} {sec : List UInt8} (hlen : len ≤ i + sec.length)
    (num : Int32) :
    ∃ t rest, scanSec len i num (sec ++ [0]) = some (t, rest) ∧ (rest ≠ [] ↔ sec ≠ []) := by
  induction sec generalizing i num with
  | nil =>
      -- the NUL is taken for a digit before the length is looked at
      have hstop : len ≤ i + 1 := Nat.le_succ_of_le hlen
      refine ⟨nextNum num 0, [], ?_, by simp⟩
      rw [List.nil_append, scanSec, if_neg (by decide), if_pos hstop]
  | cons b sec ih =>
      rw [List.length_cons] at hlen
      rw [List.cons_append, scanSec]
      by_cases hb : b = 10
      · exact ⟨num, b :: (sec ++ [0]), if_pos hb, by simp⟩
      · rw [if_neg hb]
        by_cases hstop : len ≤ i + 1
        · exact ⟨nextNum num b, sec ++ [0], if_pos hstop, by simp⟩
        · rw [if_neg hstop]
          obtain ⟨t, rest, hscan, hrest⟩ := @ih (i + 1) (by omega) (nextNum num b)
          refine ⟨t, rest, hscan, ?_⟩
          have hsec : sec ≠ [] := by
            rintro rfl
            rw [List.length_nil] at hlen
            omega
          exact ⟨fun _ => List.cons_ne_nil _ _, fun _ => hrest.mpr hsec⟩

theorem secPos_add (f : LineFields) : f.secPos + f.sec.length = f.text.length := by
  have hle : f.sec.length ≤ f.text.length := by
    rw [LineFields.text]
    simp only [List.length_append, List.length_cons]
    omega
  rw [LineFields.secPos]
  omega

theorem cstr_append_zero_length_le (line : List UInt8) :
    (cstr (line ++ [0])).length ≤ line.length := by
  rw [cstr_append_zero]
  exact (List.takeWhile_sublist _).length_le

/-- The last loop on the fields of a line. -/
theorem LineFields.scanSec (f : LineFields) :
    ∃ t rest, Monitor.scanSec (cstr (f.text ++ [0])).length f.secPos 0 (f.sec ++ [0]) =
      some (t, rest) ∧ (rest ≠ [] ↔ f.sec ≠ []) := by
  apply scanSec_terminated
  rw [secPos_add]
  exact cstr_append_zero_length_le f.text

theorem isSome_scanLine_iff (line : List UInt8) (r : TimerRecord) :
    (scanLine line r).isSome = true ↔ ∃ f : LineFields, f.Ok ∧ line = f.text := by
  rw [Option.isSome_iff_exists]
  constructor
  · rintro ⟨⟨r', rest⟩, h⟩
    obtain ⟨f, hf, hline, -⟩ := scanLine_eq_some_iff.mp h
    exact ⟨f, hf, hline⟩
  · rintro ⟨f, hf, rfl⟩
    obtain ⟨t, rest, hscan, -⟩ := f.scanSec
    exact ⟨(f.fill t r, rest), scanLine_eq_some_iff.mpr ⟨f, hf, rfl, t, hscan, rfl⟩⟩

/-- What holds of `j` and `timer_message` after a number of lines. -/
structure TimerMessages.Inv (k : Nat) (s : TimerMessages) : Prop where
  j_eq : s.j = k
  length_eq : s.timerMessage.length = 64

theorem isSome_timerTurn_iff {k : Nat} {s : TimerMessages} (line : List UInt8) (hs : s.Inv k) :
    (timerTurn s line).isSome = true ↔ k < 64 ∧ ∃ f : LineFields, f.Ok ∧ line = f.text := by
  rw [timerTurn, hs.j_eq]
  by_cases hk : k < 64
  · have hget : s.timerMessage[k]? = some _ :=
      List.getElem?_eq_getElem (by rw [hs.length_eq]; exact hk)
    rw [hget, ← isSome_scanLine_iff line]
    simp only [Option.bind_eq_bind, Option.bind_some, hk, true_and]
    cases scanLine line _ <;> rfl
  · have hget : s.timerMessage[k]? = none :=
      List.getElem?_eq_none (by rw [hs.length_eq]; omega)
    rw [hget]
    simp [hk]

theorem timerTurn_inv {k : Nat} {s s' : TimerMessages} {line : List UInt8} (hs : s.Inv k)
    (h : timerTurn s line = some s') : s'.Inv (k + 1) := by
  unfold timerTurn at h
  simp only [Option.bind_eq_bind, Option.bind_eq_some_iff] at h
  obtain ⟨r, -, ⟨r', rest⟩, -, h⟩ := h
  rw [← Option.some.inj h]
  refine ⟨?_, ?_⟩
  · rw [hs.j_eq]
  · rw [List.length_set]
    exact hs.length_eq

/-- **`get_timer_message` is defined** exactly on the files of at most 64 lines, each of them with
its separators. -/
theorem isSome_getTimerMessage_iff (file : List UInt8) {recs : List TimerRecord}
    (hrecs : recs.length = 64) :
    (getTimerMessage file recs).isSome = true ↔
      file ≠ [] ∧ (fgetsAll 1024 file).length ≤ 64 ∧
        ∀ line ∈ fgetsAll 1024 file, ∃ f : LineFields, f.Ok ∧ line = f.text := by
  have hok (k : Nat) (s : TimerMessages) (line : List UInt8) (hs : s.Inv k) :
      (timerTurn s line).isSome = true ↔ k < 64 ∧ ∃ f : LineFields, f.Ok ∧ line = f.text :=
    isSome_timerTurn_iff line hs
  unfold getTimerMessage
  rw [isSome_eachLine_iff (by omega) hok (fun _ _ _ _ hs h => timerTurn_inv hs h) file ⟨rfl, hrecs⟩]
  refine and_congr_right fun _ => ?_
  constructor
  · intro h
    refine ⟨?_, ?_⟩
    · by_contra hlen
      have hlast : (fgetsAll 1024 file)[64]? = some _ :=
        List.getElem?_eq_getElem (Nat.lt_of_not_le hlen)
      exact absurd (h 64 _ hlast).1 (lt_irrefl 64)
    · intro line hline
      obtain ⟨i, hi⟩ := List.getElem?_of_mem hline
      exact (h i line hi).2
  · rintro ⟨hlen, hlines⟩ i line hi
    obtain ⟨hlt, -⟩ := List.getElem?_eq_some_iff.mp hi
    exact ⟨Nat.lt_of_lt_of_le hlt hlen, hlines line (List.mem_of_getElem? hi)⟩

/-- A line on which every loop stops at or before the NUL. -/
theorem lineInOrder_iff {line : List UInt8} :
    LineInOrder line ↔ (∃ f : LineFields, f.Ok ∧ line = f.text) ∧
      ∀ r r' rest, scanLine line r = some (r', rest) → rest ≠ [] := by
  constructor
  · rintro ⟨f, hf, rfl, hsec⟩
    refine ⟨⟨f, hf, rfl⟩, ?_⟩
    intro r r' rest h
    obtain ⟨t, rest', hscan, hrest⟩ := f.scanSec
    have hline : scanLine f.text r = some (f.fill t r, rest') :=
      scanLine_eq_some_iff.mpr ⟨f, hf, rfl, t, hscan, rfl⟩
    rw [hline] at h
    rw [← (Prod.mk.inj (Option.some.inj h)).2]
    exact hrest.mpr hsec
  · rintro ⟨⟨f, hf, rfl⟩, hstops⟩
    obtain ⟨t, rest, hscan, hrest⟩ := f.scanSec
    have hline : scanLine f.text SendBuf.blank = some (f.fill t SendBuf.blank, rest) :=
      scanLine_eq_some_iff.mpr ⟨f, hf, rfl, t, hscan, rfl⟩
    exact ⟨f, hf, rfl, hrest.mp (hstops _ _ _ hline)⟩

/-- **When the loops of `get_timer_message` stop in time.** -/
theorem timerScanStops_iff (file : List UInt8) {recs : List TimerRecord}
    (hrecs : recs.length = 64) :
    TimerScanStops file recs ↔ file ≠ [] ∧ (fgetsAll 1024 file).length ≤ 64 ∧
      ∀ line ∈ fgetsAll 1024 file, LineInOrder line := by
  unfold TimerScanStops
  rw [isSome_getTimerMessage_iff file hrecs]
  simp only [lineInOrder_iff]
  constructor
  · rintro ⟨⟨hfile, hlen, hfields⟩, hstops⟩
    exact ⟨hfile, hlen, fun line hline => ⟨hfields line hline, hstops line hline⟩⟩
  · rintro ⟨hfile, hlen, hlines⟩
    exact ⟨⟨hfile, hlen, fun line hline => (hlines line hline).1⟩,
      fun line hline => (hlines line hline).2⟩

/-! ## The three scanners -/

/-- `send_buf.timer_message` -/
structure TimerArray where
  records : List TimerRecord
  length_eq : records.length = 64

/-- **The scanners stop in time** exactly on input that is in order. -/
theorem scanners_stop_iff (timerFile : List UInt8) (A : TimerArray)
    (linkStats portFile : List UInt8) (T : PortTable) (str : List UInt8) :
    (TimerScanStops timerFile A.records ↔
      timerFile ≠ [] ∧ (fgetsAll 1024 timerFile).length ≤ 64 ∧
        ∀ line ∈ fgetsAll 1024 timerFile, LineInOrder line) ∧
    ((getDestIp linkStats portFile T).isSome = true ↔
      portFile ≠ [] ∧ ∀ line ∈ fgetsAll 1024 portFile, PortLine (portNames T.ports) line) ∧
    ((insertTime str).isSome = true ↔ TimeString str) :=
  ⟨timerScanStops_iff timerFile A.length_eq, isSome_getDestIp_iff linkStats portFile T,
    isSome_insertTime_iff str⟩

/-- An empty line, an empty file and an empty string. -/
theorem scanners_run_over :
    ¬ TimerScanStops [10] (List.replicate 64 SendBuf.blank) ∧
    getDestIp [] [] ⟨[], Nat.zero_le 64⟩ = none ∧ insertTime [0] = none := by
  refine ⟨?_, rfl, rfl⟩
  rintro ⟨hsome, -⟩
  have hnone : getTimerMessage [10] (List.replicate 64 SendBuf.blank) = none := rfl
  rw [hnone] at hsome
  cases hsome

end Monitor
