import IcnPrototype.Lib.Lines
import IcnPrototype.Lib.Words
import IcnPrototype.Monitor.LocalSender

set_option autoImplicit false

/-! # `timer.lst`

`get_timer_message` reads `timer.lst` into `send_buf.timer_message`, one record a line, in the form

    1 192.168.1.2 2015/6/9,9:5:0

Seven loops go over a line one behind the other. Each waits for its own separator, and they share
one index. An access outside the line and its NUL, or outside of the 16 bytes of an address, is
undefined (`none`).

`getTimerMessage_text` says that a file in this form is read back.
-/

namespace Monitor

open Bytes

/-! ## The loops over a line -/

/-- `num * 10 + (int)c - 48`. An `int` wraps around: close to its largest value the sum leaves the
range, and `- 48` brings it back. -/
def nextNum (num : Int32) (c : UInt8) : Int32 := num * 10 + c.toInt8.toInt32 - 48

/-- `ip[i - 2] = c` -/
def TimerRecord.storeIp (r : TimerRecord) (i : Nat) (c : UInt8) : Option TimerRecord :=
  if 2 ≤ i ∧ i < 2 + ipSize then
    some { r with ip := r.ip.set (i - 2) c, ip_length := (List.length_set ..).trans r.ip_length }
  else none

/-- The loop over the address, up to its NUL: `i` is the position in the line. -/
def scanIp : Nat → TimerRecord → List UInt8 → Option (TimerRecord × List UInt8)
  | _, _, [] => none
  | i, r, b :: bs =>
      if b = 32 then (r.storeIp i 0).map fun r => (r, bs)
      else (r.storeIp i b).bind fun r => scanIp (i + 1) r bs

/-- The loop over the seconds, which ends at a newline or at the length of the line. What is left
starts with the byte it stopped at. -/
def scanSec (len : Nat) : Nat → Int32 → List UInt8 → Option (Int32 × List UInt8)
  | _, _, [] => none
  | i, num, b :: bs =>
      if b = 10 then some (num, b :: bs)
      else if len ≤ i + 1 then some (nextNum num b, bs)
      else scanSec len (i + 1) (nextNum num b) bs

/-- What is done with a line: the record, and the bytes from where the last loop stopped. -/
def scanLine (line : List UInt8) (r : TimerRecord) : Option (TimerRecord × List UInt8) := do
  -- `fgets` puts a NUL behind what it reads
  let str := line ++ [0]
  let len := (cstr str).length
  let (num, s) ← scanTo nextNum 32 0 str
  let r := { r with flag := num }
  let (r, s) ← scanIp (str.length - s.length) r s
  let (num, s) ← scanTo nextNum 47 0 s
  let r := { r with t := { r.t with tmYear := num - 1900 } }
  let (num, s) ← scanTo nextNum 47 0 s
  let r := { r with t := { r.t with tmMon := num - 1 } }
  let (num, s) ← scanTo nextNum 44 0 s
  let r := { r with t := { r.t with tmMday := num } }
  let (num, s) ← scanTo nextNum 58 0 s
  let r := { r with t := { r.t with tmHour := num } }
  let (num, s) ← scanTo nextNum 58 0 s
  let r := { r with t := { r.t with tmMin := num } }
  let (num, s) ← scanSec len (str.length - s.length) 0 s
  some ({ r with t := { r.t with tmSec := num } }, s)

/-! ## `get_timer_message` -/

/-- `j` and `send_buf.timer_message`. -/
structure TimerMessages where
  j : Nat
  timerMessage : List TimerRecord
  deriving DecidableEq

/-- A turn of the loop. There is no entry behind the last one of `timer_message`. -/
def timerTurn (s : TimerMessages) (line : List UInt8) : Option TimerMessages := do
  let r ← s.timerMessage[s.j]?
  let (r, _) ← scanLine line r
  some ⟨s.j + 1, s.timerMessage.set s.j r⟩

/-- `get_timer_message`: the number of records it returns, with `send_buf.timer_message`. -/
def getTimerMessage (file : List UInt8) (timerMessage : List TimerRecord) : Option TimerMessages :=
  eachLine 1024 timerTurn (file.length + 1) file ⟨0, timerMessage⟩

theorem getTimerMessage_eq {file : List UInt8} (hfile : file ≠ []) (recs : List TimerRecord) :
    getTimerMessage file recs = (fgetsAll 1024 file).foldlM timerTurn ⟨0, recs⟩ :=
  eachLine_eq (by omega) timerTurn hfile (Nat.le_succ _) _

/-! ## What the loops do -/

/-- The digits of a number are read back. -/
theorem nextNum_ofNat (n : Nat) {d : UInt8} (hd : isDigit d = true) :
    nextNum (Int32.ofNat n) d = Int32.ofNat (10 * n + (d.toNat - 48)) := by
  simp only [isDigit, Bool.and_eq_true, decide_eq_true_eq, UInt8.le_iff_toNat_le] at hd
  have hlow : 48 ≤ d.toNat := hd.1
  have hhigh : d.toNat ≤ 57 := hd.2
  have hdigit : d.toInt8.toInt32 - 48 = Int32.ofNat (d.toNat - 48) := by
    have hd' : d = UInt8.ofNat d.toNat := UInt8.ofNat_toNat.symm
    generalize d.toNat = m at *
    subst hd'
    interval_cases m <;> rfl
  unfold nextNum
  rw [Int32.ofNat_add, Int32.ofNat_mul, ← hdigit, Int32.sub_eq_add_neg, Int32.sub_eq_add_neg,
    Int32.add_assoc, Int32.mul_comm]
  rfl

theorem foldl_nextNum {ds : List UInt8} (hds : ∀ d ∈ ds, isDigit d = true) :
    ds.foldl nextNum 0 = Int32.ofNat (digitsValue ds) := by
  induction ds using List.reverseRecOn with
  | nil => rfl
  | append_singleton ds d ih =>
      rw [List.forall_mem_append] at hds
      rw [List.foldl_append, ih hds.1, digitsValue_concat]
      exact nextNum_ofNat _ (hds.2 d List.mem_cons_self)

/-- The address after `a` and a NUL were stored from position `i` of the line on. -/
def TimerRecord.setIp (r : TimerRecord) (i : Nat) : List UInt8 → TimerRecord
  | [] => { r with ip := r.ip.set (i - 2) 0, ip_length := (List.length_set ..).trans r.ip_length }
  | b :: a =>
      let r := { r with ip := r.ip.set (i - 2) b
                        ip_length := (List.length_set ..).trans r.ip_length }
      r.setIp (i + 1) a

theorem TimerRecord.storeIp_eq_some_iff {r r' : TimerRecord} {i : Nat} {c : UInt8} :
    r.storeIp i c = some r' ↔ (2 ≤ i ∧ i < 2 + ipSize) ∧
      { r with ip := r.ip.set (i - 2) c, ip_length := (List.length_set ..).trans r.ip_length } =
        r' := by
  unfold TimerRecord.storeIp
  split
  · rename_i hi
    rw [Option.some.injEq, and_iff_right hi]
  · rename_i hi
    exact ⟨fun h => absurd h (Option.some_ne_none _).symm, fun h => absurd h.1 hi⟩

/-- **The loop over the address** stops within its 16 bytes if the address is short enough, and
does not start in front of them. -/
theorem scanIp_eq_some_iff {i : Nat} {r r' : TimerRecord} {str rest : List UInt8} :
    scanIp i r str = some (r', rest) ↔
      ∃ a, 32 ∉ a ∧ str = a ++ 32 :: rest ∧ 2 ≤ i ∧ i + a.length < 2 + ipSize ∧
        r' = r.setIp i a := by
  -- induction on the string, with the position that the loop has reached
  induction str generalizing i r with
  | nil => simp [scanIp]
  | cons b bs ih =>
      rw [scanIp]
      by_cases hb : b = 32
      · subst hb
        rw [if_pos rfl]
        constructor
        · intro h
          obtain ⟨r₁, hstore, hpair⟩ := Option.map_eq_some_iff.mp h
          obtain ⟨⟨hi, hlt⟩, hr₁⟩ := TimerRecord.storeIp_eq_some_iff.mp hstore
          obtain ⟨rfl, rfl⟩ := Prod.mk.inj hpair
          exact ⟨[], List.not_mem_nil, rfl, hi, hlt, hr₁.symm⟩
        · rintro ⟨a, h32, hstr, hi, hlt, rfl⟩
          obtain ⟨rfl, rfl⟩ := field_sep_iff.mp ⟨h32, hstr⟩
          rw [TimerRecord.storeIp_eq_some_iff.mpr ⟨⟨hi, hlt⟩, rfl⟩]
          rfl
      · rw [if_neg hb]
        constructor
        · intro h
          obtain ⟨r₁, hstore, hscan⟩ := Option.bind_eq_some_iff.mp h
          obtain ⟨⟨hi, -⟩, rfl⟩ := TimerRecord.storeIp_eq_some_iff.mp hstore
          obtain ⟨a, h32, hstr, -, hlt, rfl⟩ := ih.mp hscan
          obtain ⟨h32, hstr⟩ := (field_cons_iff hb).mpr ⟨a, rfl, h32, hstr⟩
          refine ⟨b :: a, h32, hstr, hi, ?_, rfl⟩
          rw [List.length_cons]
          omega
        · rintro ⟨a, h32, hstr, hi, hlt, rfl⟩
          obtain ⟨a, rfl, h32, hstr⟩ := (field_cons_iff hb).mp ⟨h32, hstr⟩
          rw [List.length_cons] at hlt
          rw [TimerRecord.storeIp_eq_some_iff.mpr ⟨⟨hi, by omega⟩, rfl⟩, Option.bind_some]
          exact ih.mpr ⟨a, h32, hstr, by omega, by omega, rfl⟩

theorem TimerRecord.setIp_t (r : TimerRecord) (i : Nat) (a : List UInt8) :
    (r.setIp i a).t = r.t := by
  induction a generalizing r i with
  | nil => rfl
  | cons b a ih => exact ih _ _

theorem TimerRecord.setIp_flag (r : TimerRecord) (i : Nat) (a : List UInt8) :
    (r.setIp i a).flag = r.flag := by
  induction a generalizing r i with
  | nil => rfl
  | cons b a ih => exact ih _ _

/-- The bytes of the address. -/
theorem TimerRecord.setIp_ip (r : TimerRecord) {k : Nat} {a : List UInt8}
    (hk : k + a.length < ipSize) :
    (r.setIp (k + 2) a).ip = r.ip.take k ++ a ++ 0 :: r.ip.drop (k + a.length + 1) := by
  have hlen := r.ip_length
  induction a generalizing r k with
  | nil =>
      show r.ip.set k 0 = _
      rw [List.length_nil, Nat.add_zero] at *
      rw [List.append_nil, List.set_eq_take_append_cons_drop, if_pos (by omega)]
  | cons b a ih =>
      rw [List.length_cons] at hk
      show (TimerRecord.setIp _ (k + 1 + 2) a).ip = _
      rw [ih _ (by omega) ((List.length_set ..).trans hlen)]
      show (r.ip.set k b).take (k + 1) ++ a ++ 0 :: (r.ip.set k b).drop (k + 1 + a.length + 1) = _
      have hset : (r.ip.set k b).take (k + 1) = r.ip.take k ++ [b] := by
        rw [List.take_set, List.set_eq_take_append_cons_drop,
          if_pos (by rw [List.length_take]; omega), List.take_take, List.drop_take, Nat.sub_self,
          List.take_zero, Nat.min_eq_left (Nat.le_succ k)]
      have hdrop : k + 1 + a.length + 1 = k + (b :: a).length + 1 := by
        rw [List.length_cons]
        omega
      rw [hset, hdrop, List.drop_set_of_lt (by omega), List.append_assoc _ [b] a,
        List.singleton_append]

theorem scanSec_line {sec : List UInt8} (hsec : 10 ∉ sec) (i : Nat) (num : Int32)
    (rest : List UInt8) :
    scanSec (i + sec.length + 1) i num (sec ++ 10 :: rest) =
      some (sec.foldl nextNum num, 10 :: rest) := by
  induction sec generalizing i num with
  | nil => rw [List.nil_append, scanSec, if_pos rfl]; rfl
  | cons b sec ih =>
      obtain ⟨hb, hsec⟩ := List.ne_and_not_mem_of_not_mem_cons hsec
      have hlt : ¬ i + (sec.length + 1) + 1 ≤ i + 1 := by omega
      have hlen : i + (sec.length + 1) + 1 = i + 1 + sec.length + 1 := by omega
      rw [List.cons_append, List.length_cons, scanSec, if_neg (Ne.symm hb), if_neg hlt, hlen,
        ih hsec]
      rfl

theorem scanSec_last {sec : List UInt8} (hsec : 10 ∉ sec) (hne : sec ≠ []) (i : Nat) (num : Int32)
    (rest : List UInt8) :
    scanSec (i + sec.length) i num (sec ++ rest) = some (sec.foldl nextNum num, rest) := by
  induction sec generalizing i num with
  | nil => exact absurd rfl hne
  | cons b sec ih =>
      obtain ⟨hb, hsec⟩ := List.ne_and_not_mem_of_not_mem_cons hsec
      rw [List.cons_append, List.length_cons, scanSec, if_neg (Ne.symm hb)]
      cases sec with
      | nil =>
          rw [if_pos (by rw [List.length_nil])]
          rfl
      | cons c sec =>
          have hlt : ¬ i + ((c :: sec).length + 1) ≤ i + 1 := by
            rw [List.length_cons]
            omega
          have hlen : i + ((c :: sec).length + 1) = i + 1 + (c :: sec).length := by omega
          rw [if_neg hlt, hlen, ih hsec (List.cons_ne_nil c sec)]
          rfl

/-! ## A line and its fields -/

/-- The fields of a line, as its separators cut it. -/
structure LineFields where
  flag : List UInt8
  ip : List UInt8
  year : List UInt8
  mon : List UInt8
  mday : List UInt8
  hour : List UInt8
  min : List UInt8
  sec : List UInt8

namespace LineFields

/-- The fields with the separators between them. -/
def text (f : LineFields) : List UInt8 :=
  f.flag ++ 32 :: (f.ip ++ 32 :: (f.year ++ 47 :: (f.mon ++ 47 :: (f.mday ++ 44 ::
    (f.hour ++ 58 :: (f.min ++ 58 :: f.sec))))))

/-- No field has the separator that ends it, and the flag and the address fit. -/
structure Ok (f : LineFields) : Prop where
  flag : 32 ∉ f.flag
  ip : 32 ∉ f.ip
  year : 47 ∉ f.year
  mon : 47 ∉ f.mon
  mday : 44 ∉ f.mday
  hour : 58 ∉ f.hour
  min : 58 ∉ f.min
  flag_ne_nil : f.flag ≠ []
  fits : f.flag.length + f.ip.length ≤ ipSize

/-- The record that the fields are stored in. -/
def fill (f : LineFields) (sec : Int32) (r : TimerRecord) : TimerRecord :=
  let r := { r with flag := f.flag.foldl nextNum 0 }.setIp (f.flag.length + 1) f.ip
  { r with t := { r.t with
      tmYear := f.year.foldl nextNum 0 - 1900
      tmMon := f.mon.foldl nextNum 0 - 1
      tmMday := f.mday.foldl nextNum 0
      tmHour := f.hour.foldl nextNum 0
      tmMin := f.min.foldl nextNum 0
      tmSec := sec } }

/-- The position where the seconds begin. -/
def secPos (f : LineFields) : Nat := f.text.length - f.sec.length

end LineFields

theorem length_append_zero_sub (line tail : List UInt8) :
    (line ++ [0]).length - (tail ++ [0]).length = line.length - tail.length := by
  rw [List.length_append, List.length_append]
  omega

/-- Where the address begins. -/
theorem ipPos_eq {line flag tail : List UInt8} (h : line = flag ++ 32 :: tail) :
    (line ++ [0]).length - (tail ++ [0]).length = flag.length + 1 := by
  rw [length_append_zero_sub, h, List.length_append, List.length_cons]
  omega

/-- The loop over the address, on a string and its NUL. -/
theorem scanIp_terminated_iff {i : Nat} {r r' : TimerRecord} {line rest : List UInt8} :
    scanIp i r (line ++ [0]) = some (r', rest) ↔
      ∃ a tail, 32 ∉ a ∧ line = a ++ 32 :: tail ∧ rest = tail ++ [0] ∧ 2 ≤ i ∧
        i + a.length < 2 + ipSize ∧ r' = r.setIp i a := by
  rw [scanIp_eq_some_iff]
  constructor
  · rintro ⟨a, h32, hline, hi, hlt, hr⟩
    obtain ⟨tail, hline, hrest⟩ := (append_zero_eq_iff (by decide)).mp hline
    exact ⟨a, tail, h32, hline, hrest, hi, hlt, hr⟩
  · rintro ⟨a, tail, h32, hline, hrest, hi, hlt, hr⟩
    exact ⟨a, h32, (append_zero_eq_iff (by decide)).mpr ⟨tail, hline, hrest⟩, hi, hlt, hr⟩

/-- **What is done with a line** depends on its fields. -/
theorem scanLine_eq_some_iff {line rest : List UInt8} {r r' : TimerRecord} :
    scanLine line r = some (r', rest) ↔
      ∃ f : LineFields, f.Ok ∧ line = f.text ∧
        ∃ sec, scanSec (cstr (line ++ [0])).length f.secPos 0 (f.sec ++ [0]) = some (sec, rest) ∧
          r' = f.fill sec r := by
  have hsp : (32 : UInt8) ≠ 0 := by decide
  have hslash : (47 : UInt8) ≠ 0 := by decide
  have hcomma : (44 : UInt8) ≠ 0 := by decide
  have hcolon : (58 : UInt8) ≠ 0 := by decide
  unfold scanLine
  simp only [Option.bind_eq_bind, Option.bind_eq_some_iff, Prod.exists]
  constructor
  · rintro ⟨_, _, h₁, _, _, h₂, _, _, h₃, _, _, h₄, _, _, h₅, _, _, h₆, _, _, h₇, sec, _, h₈, h⟩
    obtain ⟨flag, t₁, hflag, hline, rfl, rfl⟩ := (scanTo_terminated_iff hsp).mp h₁
    rw [ipPos_eq hline] at h₂
    obtain ⟨ip, t₂, hip, rfl, rfl, hi, hfits, rfl⟩ := scanIp_terminated_iff.mp h₂
    obtain ⟨year, t₃, hyear, rfl, rfl, rfl⟩ := (scanTo_terminated_iff hslash).mp h₃
    obtain ⟨mon, t₄, hmon, rfl, rfl, rfl⟩ := (scanTo_terminated_iff hslash).mp h₄
    obtain ⟨mday, t₅, hmday, rfl, rfl, rfl⟩ := (scanTo_terminated_iff hcomma).mp h₅
    obtain ⟨hour, t₆, hhour, rfl, rfl, rfl⟩ := (scanTo_terminated_iff hcolon).mp h₆
    obtain ⟨min, t₇, hmin, rfl, rfl, rfl⟩ := (scanTo_terminated_iff hcolon).mp h₇
    obtain ⟨rfl, rfl⟩ := Prod.mk.inj (Option.some.inj h)
    have hne : flag ≠ [] := by
      rintro rfl
      exact absurd hi (by decide)
    have hle : flag.length + ip.length ≤ ipSize := by omega
    rw [length_append_zero_sub, hline] at h₈
    exact ⟨⟨flag, ip, year, mon, mday, hour, min, t₇⟩,
      ⟨hflag, hip, hyear, hmon, hmday, hhour, hmin, hne, hle⟩, hline, sec, hline ▸ h₈, rfl⟩
  · rintro ⟨f, hf, rfl, sec, hsec, rfl⟩
    have hpos := List.length_pos_of_ne_nil hf.flag_ne_nil
    have hfits := hf.fits
    have hip := @ipPos_eq f.text f.flag _ rfl
    refine ⟨_, _, (scanTo_terminated_iff hsp).mpr ⟨f.flag, _, hf.flag, rfl, rfl, rfl⟩, _, _,
      scanIp_terminated_iff.mpr ⟨f.ip, _, hf.ip, rfl, rfl, ?_, ?_, rfl⟩, _, _,
      (scanTo_terminated_iff hslash).mpr ⟨f.year, _, hf.year, rfl, rfl, rfl⟩, _, _,
      (scanTo_terminated_iff hslash).mpr ⟨f.mon, _, hf.mon, rfl, rfl, rfl⟩, _, _,
      (scanTo_terminated_iff hcomma).mpr ⟨f.mday, _, hf.mday, rfl, rfl, rfl⟩, _, _,
      (scanTo_terminated_iff hcolon).mpr ⟨f.hour, _, hf.hour, rfl, rfl, rfl⟩, _, _,
      (scanTo_terminated_iff hcolon).mpr ⟨f.min, _, hf.min, rfl, rfl, rfl⟩, sec, rest, ?_, ?_⟩
    · rw [hip]
      omega
    · rw [hip]
      omega
    · rw [length_append_zero_sub]
      exact hsec
    · rw [hip]
      rfl

/-! ## The format -/

/-- A number in decimal that fits an `int`. -/
structure Numeral extends Digits where
  lt : toDigits.value < 2 ^ 31

theorem Numeral.foldl (n : Numeral) : n.text.foldl nextNum 0 = Int32.ofNat n.value :=
  foldl_nextNum n.isDigit

theorem Numeral.toInt (n : Numeral) : (Int32.ofNat n.value).toInt = n.value :=
  Int32.toInt_ofNat_of_lt n.lt

/-- A number less a small one. -/
theorem Numeral.toInt_sub (n : Numeral) {k : Nat} (hk : k < 2 ^ 31) :
    (Int32.ofNat n.value - Int32.ofNat k).toInt = (n.value : Int) - k := by
  have hn : n.value < 2 ^ 31 := n.lt
  rw [Int32.toInt_sub, n.toInt, Int32.toInt_ofNat_of_lt hk]
  apply Int.bmod_eq_of_le <;> omega

/-- What a line says. -/
structure TimerLine where
  flag : Bool
  ip : List UInt8
  year : Numeral
  mon : Numeral
  mday : Numeral
  hour : Numeral
  min : Numeral
  sec : Numeral
  ip_pos : 1 ≤ ip.length
  ip_le : ip.length ≤ 15
  ip_no_space : 32 ∉ ip
  ip_no_newline : 10 ∉ ip
  ip_no_nul : 0 ∉ ip

namespace TimerLine

/-- The fields of the line. -/
def fields (l : TimerLine) : LineFields where
  flag := [if l.flag then 49 else 48]
  ip := l.ip
  year := l.year.text
  mon := l.mon.text
  mday := l.mday.text
  hour := l.hour.text
  min := l.min.text
  sec := l.sec.text

/-- The line, without a newline. -/
def text (l : TimerLine) : List UInt8 := l.fields.text

/-- The record of the line. -/
def fill (l : TimerLine) (r : TimerRecord) : TimerRecord :=
  l.fields.fill (Int32.ofNat l.sec.value) r

/-- `r'` is what the line says, written over `r`. -/
structure Filled (l : TimerLine) (r r' : TimerRecord) : Prop where
  ip : cstr r'.ip = l.ip
  flag : r'.flag.toInt = if l.flag then 1 else 0
  year : r'.t.tmYear.toInt = l.year.value - 1900
  mon : r'.t.tmMon.toInt = l.mon.value - 1
  mday : r'.t.tmMday.toInt = l.mday.value
  hour : r'.t.tmHour.toInt = l.hour.value
  min : r'.t.tmMin.toInt = l.min.value
  sec : r'.t.tmSec.toInt = l.sec.value
  rest : r'.t.tmWday = r.t.tmWday ∧ r'.t.tmYday = r.t.tmYday ∧ r'.t.tmIsdst = r.t.tmIsdst ∧
    r'.t.tmGmtoff = r.t.tmGmtoff ∧ r'.t.tmZone = r.t.tmZone

theorem filled_fill (l : TimerLine) (r : TimerRecord) : l.Filled r (l.fill r) := by
  have hle := l.ip_le
  have hfits : 0 + l.ip.length < ipSize := by
    rw [ipSize]
    omega
  have hset := TimerRecord.setIp_ip { r with flag := l.fields.flag.foldl nextNum 0 } hfits
  refine
    { ip := ?_
      flag := ?_
      year := ?_
      mon := ?_
      mday := (congrArg Int32.toInt l.mday.foldl).trans l.mday.toInt
      hour := (congrArg Int32.toInt l.hour.foldl).trans l.hour.toInt
      min := (congrArg Int32.toInt l.min.foldl).trans l.min.toInt
      sec := l.sec.toInt
      rest := ?_ }
  · show cstr (TimerRecord.setIp _ (0 + 2) l.ip).ip = l.ip
    rw [hset, List.take_zero, List.nil_append, cstr_append_zero, cstr_eq_self l.ip_no_nul]
  · show (TimerRecord.setIp _ 2 l.ip).flag.toInt = _
    rw [TimerRecord.setIp_flag, fields]
    cases l.flag <;> rfl
  · show (l.year.text.foldl nextNum 0 - Int32.ofNat 1900).toInt = _
    rw [l.year.foldl, l.year.toInt_sub (by omega)]
    rfl
  · show (l.mon.text.foldl nextNum 0 - Int32.ofNat 1).toInt = _
    rw [l.mon.foldl, l.mon.toInt_sub (by omega)]
    rfl
  · unfold fill LineFields.fill
    simp only [TimerRecord.setIp_t, and_self]

/-- The flag is a digit. -/
theorem not_mem_flag (l : TimerLine) {b : UInt8} (hb : Bytes.isDigit b = false) :
    b ∉ l.fields.flag := by
  intro hmem
  have hflag : b = if l.flag then 49 else 48 := List.mem_singleton.mp hmem
  cases hl : l.flag <;> simp only [hl, if_true, Bool.false_eq_true, if_false] at hflag <;>
    exact absurd hb (by rw [hflag]; decide)

theorem fields_ok (l : TimerLine) : l.fields.Ok where
  flag := l.not_mem_flag rfl
  ip := l.ip_no_space
  year := l.year.not_mem rfl
  mon := l.mon.not_mem rfl
  mday := l.mday.not_mem rfl
  hour := l.hour.not_mem rfl
  min := l.min.not_mem rfl
  flag_ne_nil := List.cons_ne_nil _ _
  fits := by
    have hle := l.ip_le
    show 1 + l.ip.length ≤ 16
    omega

/-- A byte that is no digit, no separator and not in the address is not in the line. -/
theorem not_mem_text (l : TimerLine) {b : UInt8} (hdigit : Bytes.isDigit b = false)
    (hsep : b ∉ [32, 47, 44, 58]) (hip : b ∉ l.ip) : b ∉ l.text := by
  have hflag := l.not_mem_flag hdigit
  simp only [List.mem_cons, List.not_mem_nil, or_false, not_or] at hsep
  obtain ⟨h32, h47, h44, h58⟩ := hsep
  have hyear := l.year.not_mem hdigit
  have hmon := l.mon.not_mem hdigit
  have hmday := l.mday.not_mem hdigit
  have hhour := l.hour.not_mem hdigit
  have hmin := l.min.not_mem hdigit
  have hsec := l.sec.not_mem hdigit
  unfold text LineFields.text
  simp only [List.mem_append, List.mem_cons, not_or]
  exact ⟨hflag, h32, hip, h32, hyear, h47, hmon, h47, hmday, h44, hhour, h58, hmin, h58, hsec⟩

theorem newline_not_mem_text (l : TimerLine) : 10 ∉ l.text :=
  l.not_mem_text rfl (by decide) l.ip_no_newline

theorem zero_not_mem_text (l : TimerLine) : 0 ∉ l.text :=
  l.not_mem_text rfl (by decide) l.ip_no_nul

theorem text_length (l : TimerLine) :
    l.text.length = l.fields.secPos + l.sec.text.length := by
  have hle : l.fields.sec.length ≤ l.fields.text.length := by
    rw [LineFields.text]
    simp only [List.length_append, List.length_cons]
    omega
  show l.fields.text.length = l.fields.text.length - l.fields.sec.length + l.fields.sec.length
  omega

/-- A line that ends with a newline. -/
theorem scanLine_newline (l : TimerLine) (r : TimerRecord) :
    scanLine (l.text ++ [10]) r = some (l.fill r, [10, 0]) := by
  have hok := l.fields_ok
  have hzero : 0 ∉ l.text ++ [10] := by
    intro hmem
    rcases List.mem_append.mp hmem with hmem | hmem
    · exact l.zero_not_mem_text hmem
    · cases List.mem_singleton.mp hmem
  have hstr : cstr (l.text ++ [10] ++ [0]) = l.text ++ [10] := by
    rw [cstr_append_zero, cstr_eq_self hzero]
  -- the newline belongs to the last field
  let f : LineFields := { l.fields with sec := l.sec.text ++ [10] }
  have hf : f.Ok := ⟨hok.flag, hok.ip, hok.year, hok.mon, hok.mday, hok.hour, hok.min,
    hok.flag_ne_nil, hok.fits⟩
  have htext : l.text ++ [10] = f.text := by
    unfold text LineFields.text
    simp only [List.append_assoc, List.cons_append]
    rfl
  have hpos : f.secPos = l.fields.secPos := by
    have hlen := l.text_length
    rw [LineFields.secPos, ← htext]
    show (l.text ++ [10]).length - (l.sec.text ++ [10]).length = _
    rw [List.length_append, List.length_append, hlen]
    omega
  refine scanLine_eq_some_iff.mpr ⟨f, hf, htext, _, ?_, rfl⟩
  show scanSec _ _ 0 (l.sec.text ++ [10] ++ [0]) = some (Int32.ofNat l.sec.value, _)
  rw [hstr, hpos, List.length_append, l.text_length, List.length_singleton, ← l.sec.foldl,
    List.append_assoc]
  exact scanSec_line (l.sec.not_mem rfl) _ 0 [0]

/-- A line without a newline. -/
theorem scanLine_text (l : TimerLine) (r : TimerRecord) :
    scanLine l.text r = some (l.fill r, [0]) := by
  have hstr : cstr (l.text ++ [0]) = l.text := by
    rw [cstr_append_zero, cstr_eq_self l.zero_not_mem_text]
  refine scanLine_eq_some_iff.mpr ⟨l.fields, l.fields_ok, rfl, _, ?_, rfl⟩
  rw [hstr, l.text_length, ← l.sec.foldl]
  exact scanSec_last (l.sec.not_mem rfl) l.sec.ne_nil _ 0 [0]

/-- The line as it stands in a file. -/
def Spells (l : TimerLine) (line : List UInt8) : Prop := line = l.text ∨ line = l.text ++ [10]

theorem Spells.scanLine {l : TimerLine} {line : List UInt8} (h : l.Spells line)
    (r : TimerRecord) : ∃ rest, Monitor.scanLine line r = some (l.fill r, rest) := by
  rcases h with rfl | rfl
  · exact ⟨_, l.scanLine_text r⟩
  · exact ⟨_, l.scanLine_newline r⟩

end TimerLine

/-! ## Reading a file back -/

/-- A turn of the loop on the line of a record. -/
theorem timerTurn_spells {l : TimerLine} {line : List UInt8} (h : l.Spells line)
    (pre xs : List TimerRecord) (r : TimerRecord) :
    timerTurn ⟨pre.length, pre ++ r :: xs⟩ line =
      some ⟨(pre ++ [l.fill r]).length, pre ++ [l.fill r] ++ xs⟩ := by
  obtain ⟨rest, hscan⟩ := h.scanLine r
  have hget : (pre ++ r :: xs)[pre.length]? = some r := by simp
  have hset : (pre ++ r :: xs).set pre.length (l.fill r) = pre ++ [l.fill r] ++ xs := by simp
  rw [timerTurn]
  simp only [hget, hscan, hset, Option.bind_eq_bind, Option.bind_some, List.length_append,
    List.length_singleton]

/-- **The lines of a file**, one after another. -/
theorem foldlM_timerTurn {ls : List TimerLine} {lines : List (List UInt8)}
    (h : List.Forall₂ TimerLine.Spells ls lines) (pre : List TimerRecord) {xs : List TimerRecord}
    (hle : ls.length ≤ xs.length) :
    lines.foldlM timerTurn ⟨pre.length, pre ++ xs⟩ =
      some ⟨pre.length + ls.length,
        pre ++ (List.zipWith TimerLine.fill ls xs ++ xs.drop ls.length)⟩ := by
  induction h generalizing pre xs with
  | nil => rfl
  | cons hl hrest ih =>
      rename_i l line ls lines
      cases xs with
      | nil => cases hle
      | cons r xs =>
          rw [List.foldlM_cons, timerTurn_spells hl]
          show lines.foldlM timerTurn _ = _
          rw [ih (pre ++ [l.fill r]) (Nat.le_of_succ_le_succ hle)]
          simp only [List.length_append, List.length_cons, List.length_nil, List.zipWith_cons_cons,
            List.drop_succ_cons, List.append_assoc, List.cons_append, List.nil_append,
            Option.some.injEq, TimerMessages.mk.injEq, and_true]
          omega

/-- A `timer.lst`. -/
structure TimerFile where
  lines : List TimerLine
  newline : Bool
  ne_nil : lines ≠ []
  length_le : lines.length ≤ 64
  short : ∀ l ∈ lines, l.text.length < 1023

/-- The bytes of the file. The newline of the last line may be missing. -/
def TimerFile.bytes (file : TimerFile) : List UInt8 :=
  let text := (file.lines.map TimerLine.text).flatMap (· ++ [10])
  if file.newline then text else text.dropLast

theorem TimerFile.fgetsAll_bytes (file : TimerFile) :
    List.Forall₂ TimerLine.Spells file.lines (fgetsAll 1024 file.bytes) := by
  obtain ⟨init, last, hlines⟩ := List.eq_nil_or_concat file.lines |>.resolve_left file.ne_nil
  rw [List.concat_eq_append] at hlines
  have hnewline : ∀ t ∈ file.lines.map TimerLine.text, (10 : UInt8) ∉ t := by
    intro t ht
    obtain ⟨l, -, rfl⟩ := List.mem_map.mp ht
    exact l.newline_not_mem_text
  have hshort : ∀ t ∈ file.lines.map TimerLine.text, t.length + 1 < 1024 := by
    intro t ht
    obtain ⟨l, hl, rfl⟩ := List.mem_map.mp ht
    exact Nat.succ_lt_succ (file.short l hl)
  have hspells (ls : List TimerLine) :
      List.Forall₂ TimerLine.Spells ls ((ls.map TimerLine.text).map (· ++ [10])) := by
    rw [List.map_map, List.forall₂_map_right_iff, List.forall₂_same]
    exact fun l _ => Or.inr rfl
  unfold bytes
  by_cases hend : file.newline = true
  · simp only [if_pos hend]
    rw [fgetsAll_flatMap hnewline hshort]
    exact hspells file.lines
  · simp only [if_neg hend]
    rw [hlines, List.map_append, List.map_singleton] at hnewline hshort ⊢
    obtain ⟨hinit, hlast⟩ := List.forall_mem_append.mp hnewline
    obtain ⟨hinit', hlast'⟩ := List.forall_mem_append.mp hshort
    have hne : last.text ≠ [] := by
      rw [TimerLine.text, LineFields.text]
      simp
    have hdrop : ((init.map TimerLine.text ++ [last.text]).flatMap (· ++ [10])).dropLast =
        (init.map TimerLine.text).flatMap (· ++ [10]) ++ last.text := by
      rw [List.flatMap_append, List.flatMap_singleton, ← List.append_assoc, List.dropLast_concat]
    rw [hdrop, fgetsAll_flatMap_last hinit hinit' (hlast _ List.mem_cons_self)
      (hlast' _ List.mem_cons_self) hne]
    exact List.rel_append (hspells init) (List.Forall₂.cons (Or.inl rfl) List.Forall₂.nil)

theorem TimerFile.bytes_ne_nil (file : TimerFile) : file.bytes ≠ [] := by
  intro hnil
  have hspells := file.fgetsAll_bytes
  rw [hnil, fgetsAll_nil] at hspells
  exact file.ne_nil (List.forall₂_nil_right_iff.mp hspells)

/-- **A file in the format is read back**: the number of its records is returned, and they are what
is in `send_buf.timer_message`. -/
theorem getTimerMessage_text (file : TimerFile) {recs : List TimerRecord}
    (hrecs : recs.length = 64) :
    ∃ recs', getTimerMessage file.bytes recs = some ⟨file.lines.length, recs'⟩ ∧
      (∀ (i : Nat) (l : TimerLine), file.lines[i]? = some l →
        ∃ r r', recs[i]? = some r ∧ recs'[i]? = some r' ∧ l.Filled r r') ∧
      ∀ i, file.lines.length ≤ i → recs'[i]? = recs[i]? := by
  have hle : file.lines.length ≤ recs.length := by
    rw [hrecs]
    exact file.length_le
  have hrun := foldlM_timerTurn file.fgetsAll_bytes [] hle
  rw [List.nil_append, List.nil_append, List.length_nil, Nat.zero_add] at hrun
  have hzip : (List.zipWith TimerLine.fill file.lines recs).length = file.lines.length := by
    rw [List.length_zipWith]
    omega
  refine ⟨_, (getTimerMessage_eq file.bytes_ne_nil recs).trans hrun, ?_, ?_⟩
  · intro i l hi
    obtain ⟨hlt, -⟩ := List.getElem?_eq_some_iff.mp hi
    have hr : recs[i]? = some recs[i] := List.getElem?_eq_getElem (by omega)
    refine ⟨recs[i], l.fill recs[i], hr, ?_, l.filled_fill _⟩
    rw [List.getElem?_append_left (by omega), List.getElem?_zipWith, hi, hr]
  · intro i hi
    rw [List.getElem?_append_right (by omega), hzip, List.getElem?_drop]
    congr 1
    omega

/-- A number of one digit. -/
def oneDigit (d : UInt8) (hd : Bytes.isDigit d = true) (hlt : (Digits.single d hd).value < 2 ^ 31) :
    Numeral where
  toDigits := Digits.single d hd
  lt := hlt

/-- `1 10.0.0.1 7/6/9,9:5:0` -/
def sampleLine : TimerLine where
  flag := true
  ip := [49, 48, 46, 48, 46, 48, 46, 49]
  year := oneDigit 55 rfl (by decide)
  mon := oneDigit 54 rfl (by decide)
  mday := oneDigit 57 rfl (by decide)
  hour := oneDigit 57 rfl (by decide)
  min := oneDigit 53 rfl (by decide)
  sec := oneDigit 48 rfl (by decide)
  ip_pos := by decide
  ip_le := by decide
  ip_no_space := by decide
  ip_no_newline := by decide
  ip_no_nul := by decide

/-- A file of one line without a newline. -/
def sampleFile : TimerFile where
  lines := [sampleLine]
  newline := false
  ne_nil := List.cons_ne_nil _ _
  length_le := by decide
  short := List.forall_mem_singleton.mpr (by decide)

theorem getTimerMessage_text_sample :
    (List.replicate 64 SendBuf.blank).length = 64 ∧
    ∃ recs', getTimerMessage sampleFile.bytes (List.replicate 64 SendBuf.blank) = some ⟨1, recs'⟩ ∧
      ∃ r', recs'[0]? = some r' ∧ sampleLine.Filled SendBuf.blank r' := by
  have hlen : (List.replicate 64 SendBuf.blank).length = 64 := List.length_replicate
  obtain ⟨recs', hrun, hfilled, -⟩ := getTimerMessage_text sampleFile hlen
  obtain ⟨r, r', hr, hr', hline⟩ := hfilled 0 sampleLine rfl
  obtain rfl : SendBuf.blank = r := Option.some.inj hr
  exact ⟨hlen, recs', hrun, r', hr', hline⟩

end Monitor
