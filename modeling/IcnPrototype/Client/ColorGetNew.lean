import IcnPrototype.Host
import IcnPrototype.Lib.OnesComplement
import IcnPrototype.Lib.Words

set_option autoImplicit false

/-! # The Get packets of the client

`color_get_new` puts the headers of a Get packet in front of every packet that it is given. A line
of the flow file, which is read from its beginning to its end, says how many packets to ask for and
how large the flow is. A line of the prefix file, which is picked at random, is the beginning of
the addresses.

Both lines are copied into arrays of their own and split with `strtok`, but no NUL is written behind
them, so that the last word goes on with what was in the array before. `followsFiles_iff` says for
which contents of the arrays the packets are as the files say. Of the flow's line the last word is
not used; of the prefix it is the third byte of the addresses.

`long` has 64 bits.
-/

namespace Client

open Bytes Host

/-! ## `smaction` -/

/-- The size of `buf` and of `buf2` -/
def bufSize : Nat := 1000

/-- The lines of the prefix file that are picked from. -/
def prefixLines : Nat := 97375

/-- The fields of `struct get_header_new` that come from the flow file. -/
structure FlowFields where
  ccPackets : UInt32
  ccFlowSize : UInt32
  ccFlowTime : UInt32
  deriving DecidableEq

/-- A call of `smaction`: the packet, the two values of `rand()`, which are not negative, and what
is in the local variables before anything is stored in them. -/
structure Call where
  packet : List UInt8
  randHang : Nat
  randHost : Nat
  buf : List UInt8
  buf2 : List UInt8
  ipSs : List UInt8
  cc : FlowFields
  buf_length : buf.length = bufSize
  buf2_length : buf2.length = bufSize
  ipSs_length : ipSs.length = 4

/-- `for(i=0;*p!='\n';i++,p++) { array[i]=*p; }`: the array, and what `p` points to behind the loop.
What is read behind the end of the file is undefined, and so is what happens when something is
stored behind the end of the array. -/
def copyLine : Nat → List UInt8 → List UInt8 → Option (List UInt8 × List UInt8)
  | _, [], _ => none
  | i, b :: bs, array =>
      if b = 10 then some (array, b :: bs)
      else if i < array.length then copyLine (i + 1) bs (array.set i b)
      else none

/-- `while(*middle!='\n') { middle++; }` -/
def skipLine : List UInt8 → Option (List UInt8)
  | [] => none
  | b :: bs => if b = 10 then some (b :: bs) else skipLine bs

/-- `if(*p=='\n') p++;` -/
def skipNewline (p : List UInt8) : List UInt8 := if p.head? = some 10 then p.tail else p

/-- `while(hang!=1)`. `hang` is not 0. -/
def skipLines : Nat → List UInt8 → Option (List UInt8)
  | 0, _ => none
  | 1, middle => some middle
  | hang + 1, middle => (skipLine middle).bind fun middle => skipLines hang (skipNewline middle)

/-- `for(i=0,word=strtok(buf," ");word!=NULL;word=strtok(NULL," "),i++)` -/
def wordLoop {σ : Type} (work : Nat → List UInt8 → σ → σ) : Nat → List (List UInt8) → σ → σ
  | _, [], s => s
  | i, word :: rest, s => wordLoop work (i + 1) rest (work i word s)

/-- What is done with a word of the flow's line. -/
def flowWord (i : Nat) (word : List UInt8) (h : FlowFields) : FlowFields :=
  match i with
  | 0 => { h with ccPackets := (strtoll word).toUInt64.toUInt32 }
  | 1 => { h with ccFlowSize := (strtoll word).toUInt64.toUInt32 }
  | 2 => { h with ccFlowTime := 10 }
  | _ => h

/-- `atoi`, which is `strtol`, in a byte. -/
def atoi (word : List UInt8) : UInt8 := (strtoll word).toUInt64.toUInt8

/-- What is done with a word of the prefix. -/
def prefixWord (i : Nat) (word : List UInt8) (ipSs : List UInt8) : List UInt8 :=
  match i with
  | 0 => ipSs.set 0 (atoi word)
  | 1 => ipSs.set 1 (atoi word)
  | 2 => ipSs.set 2 (atoi word)
  | _ => ipSs

/-- The flow's fields, and `buffer` behind its line. -/
def readFlow (buffer buf : List UInt8) (h : FlowFields) : Option (FlowFields × List UInt8) := do
  let (buf, buffer) ← copyLine 0 buffer buf
  let words ← strtok 32 buf
  some (wordLoop flowWord 0 words h, skipNewline buffer)

/-- `ip_ss` with the prefix in line `hang`. -/
def readPrefix (buffer2 buf2 ipSs : List UInt8) (hang : Nat) : Option (List UInt8) := do
  let (buf2, _) ←
    -- the first line is copied by a loop of its own
    if hang = 1 then copyLine 0 buffer2 buf2
    else (skipLines hang buffer2).bind fun middle => copyLine 0 middle buf2
  let words ← strtok 32 buf2
  some (wordLoop prefixWord 0 words ipSs)

/-- `struct get_header_new` up to `cc_packets` -/
def headerFront : List UInt8 :=
  -- `version_type`, `ttl`, `total_len`, `port_src`, `port_dst`
  [0xa0, 255] ++ le16 (htons 96) ++ le16 0 ++ le16 0
    -- `minimal_PID_CP`, `PIDs`, `offsets_RES`, `offset`, `length`
    ++ le16 (htons 10) ++ [0, 0] ++ le32 0 ++ le32 0
    -- `content_len`, `mtu`, `publickey_len`, `checksum`
    ++ le16 0 ++ le16 (htons 1500) ++ le16 0 ++ le16 0
    -- `nid_EID`, `l_EID`, `nid`
    ++ [0, 0, 0, 0, 0, 0, 0, 0, 0, 0, 0, 0, 0, 0, 0, 10]
    ++ [0, 0, 0, 0, 0, 0, 0, 0, 0, 0, 0, 0, 0, 0, 0, 0, 0, 0, 0, 100]
    ++ [0, 0, 0, 0, 0, 0, 0, 0, 0, 0, 0, 0, 0, 0, 0, 10]

/-- `struct get_header_new` -/
def getHeader (h : FlowFields) : List UInt8 :=
  headerFront ++ (le32 h.ccPackets ++ (le32 h.ccFlowSize ++ (le32 h.ccFlowTime ++ [0, 0, 0, 0])))

/-- `struct click_ip` up to `ip_src` -/
def ipFront (sum : UInt16) : List UInt8 :=
  -- `ip_v` and `ip_hl`, `ip_tos`, `ip_len`, `ip_id`, `ip_off`, `ip_ttl`, `ip_p`, `ip_sum`
  [0x45, 0] ++ le16 (htons 116) ++ le16 0 ++ le16 0 ++ [255, 10] ++ le16 sum

/-- `struct click_ip`. Both addresses are the four bytes of `ip_ss`. -/
def ipHeader (sum : UInt16) (ipSs : List UInt8) : List UInt8 := ipFront sum ++ (ipSs ++ ipSs)

/-- The packet that leaves. -/
def getPacket (clickInCksum : List UInt8 → UInt16) (h : FlowFields) (ipSs packet : List UInt8) :
    List UInt8 :=
  ipHeader (clickInCksum (ipHeader 0 ipSs)) ipSs ++ (getHeader h ++ packet)

/-- `smaction`: the packet that leaves, and the new `buffer`. -/
def smaction (clickInCksum : List UInt8 → UInt16) (buffer2 buffer : List UInt8) (c : Call) :
    Option (List UInt8 × List UInt8) := do
  let (h, buffer) ← readFlow buffer c.buf c.cc
  let hang := c.randHang % prefixLines + 1
  let ipSs ← readPrefix buffer2 c.buf2 c.ipSs hang
  -- the last byte of the addresses is not in the prefix
  let ipSs := ipSs.set 3 (UInt8.ofNat (c.randHost % 256))
  some (getPacket clickInCksum h ipSs c.packet, buffer)

/-- One call after another: the packets that leave. -/
def run (clickInCksum : List UInt8 → UInt16) (buffer2 : List UInt8) :
    List UInt8 → List Call → Option (List (List UInt8))
  | _, [] => some []
  | buffer, c :: calls => do
      let (packet, buffer) ← smaction clickInCksum buffer2 buffer c
      let packets ← run clickInCksum buffer2 buffer calls
      some (packet :: packets)

/-! ## The files -/

/-- The bytes of a text file. The newline of its last line may be missing. -/
def fileText (newline : Bool) : List (List UInt8) → List UInt8
  | [] => []
  | line :: rest =>
      line ++ ((if rest ≠ [] ∨ newline then [10] else []) ++ fileText newline rest)

/-- A line of two numbers and a word, without a newline. -/
def lineText (first second : Digits) (third : List UInt8) : List UInt8 :=
  first.text ++ 32 :: (second.text ++ 32 :: third)

/-- A line of the flow file. The third number may have a fraction: nothing reads it. -/
structure FlowLine where
  packets : Digits
  flowSize : Digits
  flowTime : List UInt8
  flowTime_no_space : ∀ b ∈ flowTime, b ≠ 0 ∧ b ≠ 10 ∧ b ≠ 32

def FlowLine.text (l : FlowLine) : List UInt8 := lineText l.packets l.flowSize l.flowTime

/-- A line of the prefix file: three octets. -/
structure PrefixLine where
  first : Digits
  second : Digits
  third : Digits
  first_lt : first.value < 256
  second_lt : second.value < 256
  third_lt : third.value < 256

def PrefixLine.text (l : PrefixLine) : List UInt8 := lineText l.first l.second l.third.text

/-- The octets of a prefix. -/
def PrefixLine.octets (l : PrefixLine) : List Nat := [l.first.value, l.second.value, l.third.value]

structure FlowFile where
  lines : List FlowLine
  newline : Bool

def FlowFile.text (f : FlowFile) : List UInt8 := fileText f.newline (f.lines.map FlowLine.text)

structure PrefixFile where
  lines : List PrefixLine
  newline : Bool
  enough : prefixLines ≤ lines.length

def PrefixFile.text (f : PrefixFile) : List UInt8 :=
  fileText f.newline (f.lines.map PrefixLine.text)

theorem PrefixFile.picked_lt (f : PrefixFile) (c : Call) :
    c.randHang % prefixLines < f.lines.length :=
  Nat.lt_of_lt_of_le (Nat.mod_lt _ (by decide)) f.enough

/-- The line that is picked. -/
def PrefixFile.picked (f : PrefixFile) (c : Call) : PrefixLine :=
  f.lines.get ⟨c.randHang % prefixLines, f.picked_lt c⟩

/-! ## The property -/

/-- A packet says what a line of the flow file and a prefix say. The two numbers are 20 bytes behind
their places in the Get header; the addresses are in front of it. -/
def Follows (flow : FlowLine) (pre : PrefixLine) (packet : List UInt8) : Prop :=
  ofLe ((packet.drop 100).take 4) = flow.packets.value ∧
    ofLe ((packet.drop 104).take 4) = flow.flowSize.value ∧
    ((packet.drop 12).take 3).map UInt8.toNat = pre.octets ∧
    ((packet.drop 16).take 3).map UInt8.toNat = pre.octets

/-- Every call produces a packet, and the packet says what the files say. -/
def FollowsFiles (clickInCksum : List UInt8 → UInt16) (flow : FlowFile) (pre : PrefixFile)
    (calls : List Call) : Prop :=
  ∃ packets, run clickInCksum pre.text flow.text calls = some packets ∧
    packets.length = calls.length ∧
    ∀ (k : Nat) (line : FlowLine) (c : Call) (packet : List UInt8), flow.lines[k]? = some line →
      calls[k]? = some c → packets[k]? = some packet → Follows line (pre.picked c) packet

/-- **The condition on a call**: both lines end with a newline, both arrays hold a NUL behind the
line, the numbers fit their fields, and the digits that stand in the array behind the prefix leave
the low byte of its third number as it is. -/
structure Unspoiled (flow : FlowFile) (pre : PrefixFile) (k : Nat) (line : FlowLine) (c : Call) :
    Prop where
  flow_newline : k + 1 < flow.lines.length ∨ flow.newline = true
  pre_newline : c.randHang % prefixLines + 1 < pre.lines.length ∨ pre.newline = true
  buf_nul : 0 ∈ c.buf.drop line.text.length
  buf2_nul : 0 ∈ c.buf2.drop (pre.picked c).text.length
  packets_lt : line.packets.value < 2 ^ 32
  flowSize_lt : line.flowSize.value < 2 ^ 32
  third : readDigits (pre.picked c).third.value
    ((c.buf2.drop (pre.picked c).text.length).takeWhile isDigit) % 256 = (pre.picked c).third.value

/-! ## The loops -/

theorem skipNewline_cons (rest : List UInt8) : skipNewline (10 :: rest) = rest :=
  if_pos List.head?_cons

/-- A line that fits is copied, and the rest of the array stays as it is. -/
theorem copyLine_newline {line : List UInt8} (hline : 10 ∉ line) (rest : List UInt8) {i : Nat}
    {array : List UInt8} (hfit : i + line.length ≤ array.length) :
    copyLine i (line ++ 10 :: rest) array =
      some (array.take i ++ line ++ array.drop (i + line.length), 10 :: rest) := by
  -- induction on the line; what is copied is the front of the array, which grows by a byte
  induction line generalizing i array with
  | nil =>
      rw [List.nil_append, copyLine, if_pos rfl, List.append_nil, List.length_nil, Nat.add_zero,
        List.take_append_drop]
  | cons b bs ih =>
      obtain ⟨hb, hbs⟩ := not_or.mp (mt List.mem_cons.mpr hline)
      rw [List.length_cons] at hfit ⊢
      have hi : i < array.length := by omega
      have htake : (array.set i b).take (i + 1) = array.take i ++ [b] := by
        rw [List.take_succ_eq_append_getElem (by rw [List.length_set]; exact hi),
          List.getElem_set_self, List.take_set_of_le (Nat.le_refl i)]
      have hdrop : (array.set i b).drop (i + 1 + bs.length) =
          array.drop (i + (bs.length + 1)) := by
        rw [List.drop_set_of_lt (by omega)]
        congr 1
        omega
      rw [List.cons_append, copyLine, if_neg (Ne.symm hb), if_pos hi,
        ih hbs (by rw [List.length_set]; omega), htake, hdrop, List.append_assoc _ [b]]
      rfl

/-- A line that does not fit, or does not end. -/
theorem copyLine_eq_none {line rest : List UInt8} (hline : 10 ∉ line) {i : Nat}
    {array : List UInt8} (hi : i ≤ array.length)
    (h : array.length < i + line.length ∨ rest = []) :
    copyLine i (line ++ rest) array = none := by
  induction line generalizing i array with
  | nil =>
      rcases h with h | rfl
      · rw [List.length_nil] at h
        omega
      · rfl
  | cons b bs ih =>
      obtain ⟨hb, hbs⟩ := not_or.mp (mt List.mem_cons.mpr hline)
      rw [List.length_cons] at h
      rw [List.cons_append, copyLine, if_neg (Ne.symm hb)]
      split
      · rename_i hlt
        apply ih hbs
        · rwa [List.length_set]
        · rw [List.length_set]
          exact h.imp_left fun h => by omega
      · rfl

/-- A line is followed by a newline. -/
def Ended (newline : Bool) (rest : List (List UInt8)) : Prop := rest ≠ [] ∨ newline = true

theorem fileText_cons {newline : Bool} {rest : List (List UInt8)} (hend : Ended newline rest)
    (line : List UInt8) :
    fileText newline (line :: rest) = line ++ 10 :: fileText newline rest := by
  unfold Ended at hend
  rw [fileText, if_pos hend, List.singleton_append]

/-- The last line, where its newline is missing. -/
theorem fileText_last {newline : Bool} {rest : List (List UInt8)} (hend : ¬ Ended newline rest)
    (line : List UInt8) : fileText newline (line :: rest) = line ++ [] := by
  have hrest : rest = [] := by_contra fun hne => hend (Or.inl hne)
  subst hrest
  unfold Ended at hend
  rw [fileText, if_neg hend, List.nil_append, fileText]

/-- **The line that is copied** out of a file. -/
theorem copyLine_fileText {newline : Bool} {line : List UInt8} (hline : 10 ∉ line)
    {rest : List (List UInt8)} (hend : Ended newline rest) {array : List UInt8}
    (hfit : line.length ≤ array.length) :
    copyLine 0 (fileText newline (line :: rest)) array =
      some (line ++ array.drop line.length, 10 :: fileText newline rest) := by
  rw [fileText_cons hend, copyLine_newline hline _ (by omega), List.take_zero, List.nil_append,
    Nat.zero_add]

theorem copyLine_fileText_eq_none {newline : Bool} {line : List UInt8} (hline : 10 ∉ line)
    {rest : List (List UInt8)} {array : List UInt8}
    (h : ¬ (Ended newline rest ∧ line.length ≤ array.length)) :
    copyLine 0 (fileText newline (line :: rest)) array = none := by
  by_cases hend : Ended newline rest
  · have hlong : ¬ line.length ≤ array.length := fun hfit => h ⟨hend, hfit⟩
    rw [fileText_cons hend]
    exact copyLine_eq_none hline (Nat.zero_le _) (Or.inl (by omega))
  · rw [fileText_last hend]
    exact copyLine_eq_none hline (Nat.zero_le _) (Or.inr rfl)

theorem skipLine_newline {line : List UInt8} (hline : 10 ∉ line) (rest : List UInt8) :
    skipLine (line ++ 10 :: rest) = some (10 :: rest) := by
  induction line with
  | nil => rfl
  | cons b bs ih =>
      obtain ⟨hb, hbs⟩ := not_or.mp (mt List.mem_cons.mpr hline)
      rw [List.cons_append, skipLine, if_neg (Ne.symm hb), ih hbs]

/-- **The line that is looked for**, which has to be in the file. -/
theorem skipLines_fileText {newline : Bool} {lines : List (List UInt8)}
    (hlines : ∀ l ∈ lines, 10 ∉ l) {k : Nat} (hk : k < lines.length) :
    skipLines (k + 1) (fileText newline lines) = some (fileText newline (lines.drop k)) := by
  -- induction on the lines in front of it, each of which has a newline
  induction k generalizing lines with
  | zero => rfl
  | succ k ih =>
      cases lines with
      | nil => exact absurd hk (Nat.not_lt_zero _)
      | cons line rest =>
          obtain ⟨hline, hrest⟩ := List.forall_mem_cons.mp hlines
          have hlt : k < rest.length := Nat.lt_of_succ_lt_succ hk
          have hend : Ended newline rest := Or.inl (List.ne_nil_of_length_pos (by omega))
          rw [skipLines, fileText_cons hend, skipLine_newline hline, Option.bind_some,
            skipNewline_cons, ih hrest hlt, List.drop_succ_cons]
          exact fun h => absurd h (Nat.succ_ne_zero k)

/-! ## The words -/

/-- A line, and behind it what was in the array. -/
theorem strtok_append {line left : List UInt8} (hline : 0 ∉ line) (hleft : 0 ∈ left) :
    strtok 32 (line ++ left) = some (words 32 (line ++ cstr left)) := by
  unfold strtok
  rw [if_pos (List.mem_append_right line hleft), cstr_append_of_not_mem hline]

theorem strtok_append_eq_none {line left : List UInt8} (hline : 0 ∉ line) (hleft : 0 ∉ left) :
    strtok 32 (line ++ left) = none :=
  if_neg fun h => (List.mem_append.mp h).elim hline hleft

theorem strtoll_toUInt64 (n : Digits) (s : List UInt8) :
    (strtoll (n.text ++ s)).toUInt64 =
      UInt64.ofNat (readDigits n.value (s.takeWhile isDigit)) := by
  rw [strtoll_append, Int64.toUInt64_ofNat']

/-- `strtol` in a field of the header. -/
theorem toNat_field (n : Digits) : (strtoll n.text).toUInt64.toUInt32.toNat =
    min (2 ^ 63 - 1) n.value % 2 ^ 32 := by
  have h := strtoll_toUInt64 n []
  rw [List.append_nil, List.takeWhile_nil, readDigits_nil] at h
  rw [h, UInt64.toNat_toUInt32, UInt64.toNat_ofNat']
  exact Nat.mod_mod_of_dvd _ (by decide)

theorem toNat_atoi (n : Digits) (s : List UInt8) : (atoi (n.text ++ s)).toNat =
    readDigits n.value (s.takeWhile isDigit) % 256 := by
  rw [atoi, strtoll_toUInt64, UInt64.toNat_toUInt8, UInt64.toNat_ofNat']
  exact Nat.mod_mod_of_dvd _ (by decide)

theorem not_mem_lineText {first second : Digits} {third : List UInt8} {b : UInt8}
    (hb : isDigit b = false) (hspace : b ≠ 32) (hthird : b ∉ third) :
    b ∉ lineText first second third := by
  unfold lineText
  intro h
  rcases List.mem_append.mp h with h | h
  · exact first.not_mem hb h
  · rcases List.mem_cons.mp h with h | h
    · exact hspace h
    · rcases List.mem_append.mp h with h | h
      · exact second.not_mem hb h
      · exact (List.mem_cons.mp h).elim hspace hthird

theorem FlowLine.newline_not_mem (l : FlowLine) : 10 ∉ l.text :=
  not_mem_lineText rfl (by decide) fun h => (l.flowTime_no_space 10 h).2.1 rfl

theorem FlowLine.nul_not_mem (l : FlowLine) : 0 ∉ l.text :=
  not_mem_lineText rfl (by decide) fun h => (l.flowTime_no_space 0 h).1 rfl

theorem PrefixLine.newline_not_mem (l : PrefixLine) : 10 ∉ l.text :=
  not_mem_lineText rfl (by decide) (l.third.not_mem rfl)

theorem PrefixLine.nul_not_mem (l : PrefixLine) : 0 ∉ l.text :=
  not_mem_lineText rfl (by decide) (l.third.not_mem rfl)

/-- The words of a line, and of what stands behind it. -/
theorem words_lineText (first second : Digits) (third left : List UInt8) :
    words 32 (lineText first second third ++ left) =
      first.text :: second.text :: words 32 (third ++ left) := by
  unfold lineText
  rw [List.append_assoc, List.cons_append, words_cons first.ne_nil (first.not_mem rfl),
    List.append_assoc, List.cons_append, words_cons second.ne_nil (second.not_mem rfl)]

/-! ## Reading a line -/

/-- A line that ends, and leaves a NUL in the array. -/
def Readable (newline : Bool) (rest : List (List UInt8)) (line array : List UInt8) : Prop :=
  Ended newline rest ∧ 0 ∈ array.drop line.length

theorem Readable.length_le {newline : Bool} {rest : List (List UInt8)} {line array : List UInt8}
    (h : Readable newline rest line array) : line.length ≤ array.length := by
  by_contra hlong
  have hnul := h.2
  rw [List.drop_eq_nil_of_le (by omega)] at hnul
  cases hnul

/-- Without one of the two, `strtok` is not reached or runs out of the array. -/
theorem strtok_eq_none {newline : Bool} {rest : List (List UInt8)} {line array : List UInt8}
    (h10 : 10 ∉ line) (h0 : 0 ∉ line) (h : ¬ Readable newline rest line array)
    {copied behind : List UInt8}
    (hcopy : copyLine 0 (fileText newline (line :: rest)) array = some (copied, behind)) :
    strtok 32 copied = none := by
  by_cases hfit : Ended newline rest ∧ line.length ≤ array.length
  · -- the line is copied, but no NUL is left
    rw [copyLine_fileText h10 hfit.1 hfit.2] at hcopy
    obtain ⟨rfl, -⟩ := Prod.mk.inj (Option.some.inj hcopy)
    exact strtok_append_eq_none h0 fun hnul => h ⟨hfit.1, hnul⟩
  · rw [copyLine_fileText_eq_none h10 hfit] at hcopy
    cases hcopy

/-- From the third word on the two numbers stay. -/
theorem wordLoop_flowWord {i : Nat} (hi : 2 ≤ i) (words : List (List UInt8)) (h : FlowFields) :
    (wordLoop flowWord i words h).ccPackets = h.ccPackets ∧
      (wordLoop flowWord i words h).ccFlowSize = h.ccFlowSize := by
  induction words generalizing i h with
  | nil => exact ⟨rfl, rfl⟩
  | cons word rest ih =>
      obtain ⟨hpackets, hsize⟩ := ih (Nat.le_succ_of_le hi) (flowWord i word h)
      rw [wordLoop, hpackets, hsize]
      match i, hi with
      | 2, _ => exact ⟨rfl, rfl⟩
      | _ + 3, _ => exact ⟨rfl, rfl⟩

/-- From the fourth word on the octets stay. -/
theorem wordLoop_prefixWord (i : Nat) (words : List (List UInt8)) (ipSs : List UInt8) :
    wordLoop prefixWord (i + 3) words ipSs = ipSs := by
  induction words generalizing i with
  | nil => rfl
  | cons word rest ih => exact ih (i + 1)

/-- **The flow's line.** -/
theorem readFlow_eq (l : FlowLine) {newline : Bool} {rest : List (List UInt8)} {buf : List UInt8}
    (hread : Readable newline rest l.text buf) (cc : FlowFields) :
    ∃ h, readFlow (fileText newline (l.text :: rest)) buf cc =
        some (h, fileText newline rest) ∧
      h.ccPackets = (strtoll l.packets.text).toUInt64.toUInt32 ∧
      h.ccFlowSize = (strtoll l.flowSize.text).toUInt64.toUInt32 := by
  have hwords : words 32 (l.text ++ cstr (buf.drop l.text.length)) = _ :=
    words_lineText l.packets l.flowSize l.flowTime (cstr (buf.drop l.text.length))
  have hrun : readFlow (fileText newline (l.text :: rest)) buf cc =
      some (wordLoop flowWord 0 (words 32 (l.text ++ cstr (buf.drop l.text.length))) cc,
        fileText newline rest) := by
    simp only [readFlow, copyLine_fileText l.newline_not_mem hread.1 hread.length_le,
      strtok_append l.nul_not_mem hread.2, Option.bind_eq_bind, Option.bind_some, skipNewline_cons]
  rw [hwords, wordLoop, wordLoop] at hrun
  obtain ⟨hpackets, hsize⟩ := wordLoop_flowWord (Nat.le_refl 2)
    (words 32 (l.flowTime ++ cstr (buf.drop l.text.length)))
    (flowWord 1 l.flowSize.text (flowWord 0 l.packets.text cc))
  exact ⟨_, hrun, hpackets, hsize⟩

theorem readFlow_eq_none (l : FlowLine) {newline : Bool} {rest : List (List UInt8)}
    {buf : List UInt8} (hread : ¬ Readable newline rest l.text buf) (cc : FlowFields) :
    readFlow (fileText newline (l.text :: rest)) buf cc = none := by
  unfold readFlow
  cases hcopy : copyLine 0 (fileText newline (l.text :: rest)) buf with
  | none => rfl
  | some copied =>
      have hwords := strtok_eq_none l.newline_not_mem l.nul_not_mem hread hcopy
      simp only [Option.bind_eq_bind, Option.bind_some, hwords, Option.bind_none]

/-- The first line is not a special case. -/
theorem readPrefix_eq_bind (buffer2 buf2 ipSs : List UInt8) (k : Nat) :
    readPrefix buffer2 buf2 ipSs (k + 1) =
      (skipLines (k + 1) buffer2).bind fun middle => (copyLine 0 middle buf2).bind fun copied =>
        (strtok 32 copied.1).bind fun words => some (wordLoop prefixWord 0 words ipSs) := by
  unfold readPrefix
  cases k with
  | zero => rfl
  | succ k =>
      rw [if_neg (by omega), Option.bind_eq_bind, Option.bind_assoc]
      rfl

/-- The line that is picked can be read. -/
def PrefixRead (f : PrefixFile) (c : Call) : Prop :=
  Readable f.newline ((f.lines.drop (c.randHang % prefixLines + 1)).map PrefixLine.text)
    (f.picked c).text c.buf2

/-- Up to where the prefix file is skipped. -/
theorem skipLines_picked (f : PrefixFile) (c : Call) :
    skipLines (c.randHang % prefixLines + 1) f.text =
      some (fileText f.newline ((f.picked c).text ::
        (f.lines.drop (c.randHang % prefixLines + 1)).map PrefixLine.text)) := by
  have hlines : ∀ l ∈ f.lines.map PrefixLine.text, (10 : UInt8) ∉ l := by
    intro l hl
    obtain ⟨pre, -, rfl⟩ := List.mem_map.mp hl
    exact pre.newline_not_mem
  have hlt := f.picked_lt c
  rw [PrefixFile.text, skipLines_fileText hlines (by rwa [List.length_map]), ← List.map_drop,
    List.drop_eq_getElem_cons hlt, List.map_cons]
  rfl

/-- **The prefix that is picked.** The third word goes on with what is in the array. -/
theorem readPrefix_eq {f : PrefixFile} {c : Call} (hread : PrefixRead f c) :
    ∃ d, readPrefix f.text c.buf2 c.ipSs (c.randHang % prefixLines + 1) =
      some [atoi (f.picked c).first.text, atoi (f.picked c).second.text,
        atoi ((f.picked c).third.text ++
          (cstr (c.buf2.drop (f.picked c).text.length)).takeWhile (· ≠ 32)), d] := by
  match hipSs : c.ipSs, c.ipSs_length with
  | [a, b, b', d], _ =>
      refine ⟨d, ?_⟩
      have hspace : (32 : UInt8) ∉ (f.picked c).third.text := (f.picked c).third.not_mem rfl
      have hthird := words_append (f.picked c).third.ne_nil hspace
        (cstr (c.buf2.drop (f.picked c).text.length))
      have hwords : words 32 ((f.picked c).text ++ cstr (c.buf2.drop (f.picked c).text.length)) =
          _ := words_lineText _ _ _ _
      rw [readPrefix_eq_bind, skipLines_picked, Option.bind_some,
        copyLine_fileText (f.picked c).newline_not_mem hread.1 hread.length_le, Option.bind_some,
        strtok_append (f.picked c).nul_not_mem hread.2, Option.bind_some, hwords, hthird, wordLoop,
        wordLoop, wordLoop, wordLoop_prefixWord]
      rfl

theorem readPrefix_eq_none {f : PrefixFile} {c : Call} (hread : ¬ PrefixRead f c) :
    readPrefix f.text c.buf2 c.ipSs (c.randHang % prefixLines + 1) = none := by
  rw [readPrefix_eq_bind, skipLines_picked, Option.bind_some]
  cases hcopy : copyLine 0 (fileText f.newline ((f.picked c).text ::
      (f.lines.drop (c.randHang % prefixLines + 1)).map PrefixLine.text)) c.buf2 with
  | none => rfl
  | some copied =>
      rw [Option.bind_some,
        strtok_eq_none (f.picked c).newline_not_mem (f.picked c).nul_not_mem hread hcopy,
        Option.bind_none]

/-! ## One call -/

theorem ipHeader_length (sum : UInt16) {ipSs : List UInt8} (h : ipSs.length = 4) :
    (ipHeader sum ipSs).length = 20 := by
  rw [ipHeader, List.length_append, List.length_append, h]
  rfl

theorem take_drop_append {front field : List UInt8} {n k : Nat} (hn : front.length = n)
    (hk : k ≤ field.length) (behind : List UInt8) :
    ((front ++ (field ++ behind)).drop n).take k = field.take k := by
  rw [List.drop_left' hn, List.take_append_of_le_length hk]

theorem ofLe_le32 (x : UInt32) : ofLe ((le32 x).take 4) = x.toNat := by
  rw [List.take_of_length_le (le32_length x).le, le32, ofLe_leBytes]
  exact Nat.mod_eq_of_lt x.toNat_lt

section fields

variable (clickInCksum : List UInt8 → UInt16) (h : FlowFields) {ipSs : List UInt8}
  (hipSs : ipSs.length = 4) (packet : List UInt8)

include hipSs

theorem getPacket_src :
    ((getPacket clickInCksum h ipSs packet).drop 12).take 3 = ipSs.take 3 := by
  rw [getPacket, ipHeader, List.append_assoc, List.append_assoc]
  exact take_drop_append (by rfl) (by rw [hipSs]; decide) _

theorem getPacket_dst :
    ((getPacket clickInCksum h ipSs packet).drop 16).take 3 = ipSs.take 3 := by
  have hfront (sum : UInt16) : (ipFront sum ++ ipSs).length = 16 := by
    rw [List.length_append, hipSs]
    rfl
  rw [getPacket, ipHeader, ← List.append_assoc (ipFront _), List.append_assoc,
    take_drop_append (hfront _) (by omega)]

theorem getPacket_ccPackets :
    ofLe (((getPacket clickInCksum h ipSs packet).drop 100).take 4) = h.ccPackets.toNat := by
  have hfront (sum : UInt16) : (ipHeader sum ipSs ++ headerFront).length = 100 := by
    rw [List.length_append, ipHeader_length sum hipSs]
    rfl
  rw [getPacket, getHeader, List.append_assoc headerFront, ← List.append_assoc (ipHeader _ _),
    List.append_assoc (le32 _), take_drop_append (hfront _) (le32_length _).ge, ofLe_le32]

theorem getPacket_ccFlowSize :
    ofLe (((getPacket clickInCksum h ipSs packet).drop 104).take 4) = h.ccFlowSize.toNat := by
  have hfront (sum : UInt16) :
      (ipHeader sum ipSs ++ (headerFront ++ le32 h.ccPackets)).length = 104 := by
    rw [List.length_append, ipHeader_length sum hipSs]
    rfl
  rw [getPacket, getHeader, ← List.append_assoc headerFront, List.append_assoc (_ ++ _),
    ← List.append_assoc (ipHeader _ _), List.append_assoc (le32 _),
    take_drop_append (hfront _) (le32_length _).ge, ofLe_le32]

/-- The fields of a packet. -/
theorem follows_getPacket_iff (flow : FlowLine) (pre : PrefixLine) :
    Follows flow pre (getPacket clickInCksum h ipSs packet) ↔
      h.ccPackets.toNat = flow.packets.value ∧ h.ccFlowSize.toNat = flow.flowSize.value ∧
        (ipSs.take 3).map UInt8.toNat = pre.octets := by
  unfold Follows
  rw [getPacket_src _ h hipSs, getPacket_dst _ h hipSs, getPacket_ccPackets _ h hipSs,
    getPacket_ccFlowSize _ h hipSs, and_self]

end fields

/-- What `strtol` makes of a number that fits. -/
theorem min_mod_eq_iff (n : Nat) : min (2 ^ 63 - 1) n % 2 ^ 32 = n ↔ n < 2 ^ 32 := by
  constructor
  · intro h
    rw [← h]
    exact Nat.mod_lt _ (by decide)
  · intro h
    rw [Nat.min_eq_right (by omega), Nat.mod_eq_of_lt h]

theorem toNat_atoi_octet {n : Digits} (h : n.value < 256) : (atoi n.text).toNat = n.value := by
  have hatoi := toNat_atoi n []
  rw [List.append_nil, List.takeWhile_nil, readDigits_nil, Nat.min_eq_right (by omega),
    Nat.mod_eq_of_lt h] at hatoi
  exact hatoi

/-- A space, like a NUL, is not a digit. -/
theorem takeWhile_isDigit_word (left : List UInt8) :
    ((cstr left).takeWhile (· ≠ 32)).takeWhile isDigit = left.takeWhile isDigit := by
  rw [← takeWhile_isDigit_cstr left, List.takeWhile_takeWhile]
  congr 1
  funext b
  by_cases hb : b = 32
  · subst hb
    rfl
  · simp [hb]

/-- What the octets of the addresses become, when some bytes are left behind the prefix. -/
def octetsRead (p : PrefixLine) (left : List UInt8) : List Nat :=
  [p.first.value, p.second.value, readDigits p.third.value (left.takeWhile isDigit) % 256]

theorem octetsRead_eq (p : PrefixLine) (left : List UInt8) :
    [(atoi p.first.text).toNat, (atoi p.second.text).toNat,
      (atoi (p.third.text ++ (cstr left).takeWhile (· ≠ 32))).toNat] = octetsRead p left := by
  rw [toNat_atoi_octet p.first_lt, toNat_atoi_octet p.second_lt, toNat_atoi,
    takeWhile_isDigit_word, octetsRead]

/-- What the numbers of a call have to be for its packet to follow the files. -/
def NumbersRead (flow : FlowLine) (p : PrefixLine) (c : Call) : Prop :=
  flow.packets.value < 2 ^ 32 ∧ flow.flowSize.value < 2 ^ 32 ∧
    octetsRead p (c.buf2.drop p.text.length) = p.octets

/-- **A call whose lines can be read** produces a packet. -/
theorem smaction_eq (clickInCksum : List UInt8 → UInt16) {newline : Bool}
    {rest : List (List UInt8)} {flow : FlowLine} {f : PrefixFile} {c : Call}
    (hflow : Readable newline rest flow.text c.buf) (hpicked : PrefixRead f c) :
    ∃ packet, smaction clickInCksum f.text (fileText newline (flow.text :: rest)) c =
        some (packet, fileText newline rest) ∧
      ((packet.drop 12).take 3).map UInt8.toNat =
        octetsRead (f.picked c) (c.buf2.drop (f.picked c).text.length) ∧
      (Follows flow (f.picked c) packet ↔ NumbersRead flow (f.picked c) c) := by
  obtain ⟨h, hrun, hpackets, hsize⟩ := readFlow_eq flow hflow c.cc
  obtain ⟨d, hpicked⟩ := readPrefix_eq hpicked
  have hcall : smaction clickInCksum f.text (fileText newline (flow.text :: rest)) c =
      some (getPacket clickInCksum h [atoi (f.picked c).first.text, atoi (f.picked c).second.text,
        atoi ((f.picked c).third.text ++
          (cstr (c.buf2.drop (f.picked c).text.length)).takeWhile (· ≠ 32)),
        UInt8.ofNat (c.randHost % 256)] c.packet, fileText newline rest) := by
    simp only [smaction, hrun, hpicked, Option.bind_eq_bind, Option.bind_some]
    rfl
  refine ⟨_, hcall, ?_, ?_⟩
  · rw [getPacket_src _ _ rfl, ← octetsRead_eq]
    rfl
  · rw [follows_getPacket_iff _ _ rfl, hpackets, hsize, toNat_field, toNat_field, NumbersRead,
      min_mod_eq_iff, min_mod_eq_iff, ← octetsRead_eq]
    rfl

theorem smaction_eq_none (clickInCksum : List UInt8 → UInt16) {newline : Bool}
    {rest : List (List UInt8)} {flow : FlowLine} {f : PrefixFile} {c : Call}
    (hread : ¬ (Readable newline rest flow.text c.buf ∧ PrefixRead f c)) :
    smaction clickInCksum f.text (fileText newline (flow.text :: rest)) c = none := by
  unfold smaction
  by_cases hflow : Readable newline rest flow.text c.buf
  · obtain ⟨h, hrun, -⟩ := readFlow_eq flow hflow c.cc
    have hpicked := readPrefix_eq_none fun hpre => hread ⟨hflow, hpre⟩
    simp only [hrun, hpicked, Option.bind_eq_bind, Option.bind_some, Option.bind_none]
  · rw [readFlow_eq_none flow hflow]
    rfl

/-! ## All calls -/

theorem ended_map_iff {α : Type} (newline : Bool) (text : α → List UInt8) (rest : List α) :
    Ended newline (rest.map text) ↔ 0 < rest.length ∨ newline = true := by
  rw [Ended, Ne, List.map_eq_nil_iff, List.length_pos_iff]

theorem octetsRead_eq_octets_iff (p : PrefixLine) (left : List UInt8) :
    octetsRead p left = p.octets ↔
      readDigits p.third.value (left.takeWhile isDigit) % 256 = p.third.value := by
  rw [octetsRead, PrefixLine.octets]
  simp only [List.cons.injEq, and_true, true_and]

/-- The condition on the call that reads the first line that is left. -/
theorem unspoiled_zero_iff {line : FlowLine} {lines : List FlowLine} {newline : Bool}
    {pre : PrefixFile} {c : Call} : Unspoiled ⟨line :: lines, newline⟩ pre 0 line c ↔
      (Readable newline (lines.map FlowLine.text) line.text c.buf ∧ PrefixRead pre c) ∧
        NumbersRead line (pre.picked c) c := by
  unfold PrefixRead Readable NumbersRead
  rw [ended_map_iff, ended_map_iff, List.length_drop, Nat.sub_pos_iff_lt, octetsRead_eq_octets_iff]
  constructor
  · intro h
    exact ⟨⟨⟨h.flow_newline.imp_left Nat.lt_of_succ_lt_succ, h.buf_nul⟩, h.pre_newline,
      h.buf2_nul⟩, h.packets_lt, h.flowSize_lt, h.third⟩
  · rintro ⟨⟨⟨hflow, hbuf⟩, hpre, hbuf2⟩, hpackets, hsize, hthird⟩
    exact ⟨hflow.imp_left Nat.succ_lt_succ, hpre, hbuf, hbuf2, hpackets, hsize, hthird⟩

theorem unspoiled_succ_iff {first line : FlowLine} {lines : List FlowLine} {newline : Bool}
    {pre : PrefixFile} {k : Nat} {c : Call} :
    Unspoiled ⟨first :: lines, newline⟩ pre (k + 1) line c ↔
      Unspoiled ⟨lines, newline⟩ pre k line c := by
  constructor
  · intro h
    exact { h with flow_newline := h.flow_newline.imp_left Nat.lt_of_succ_lt_succ }
  · intro h
    exact { h with flow_newline := h.flow_newline.imp_left Nat.succ_lt_succ }

theorem run_cons {clickInCksum : List UInt8 → UInt16} {buffer2 buffer behind packet : List UInt8}
    {c : Call} (h : smaction clickInCksum buffer2 buffer c = some (packet, behind))
    (calls : List Call) : run clickInCksum buffer2 buffer (c :: calls) =
      (run clickInCksum buffer2 behind calls).bind fun packets => some (packet :: packets) := by
  rw [run, h]
  rfl

theorem run_cons_eq_none {clickInCksum : List UInt8 → UInt16} {buffer2 buffer : List UInt8}
    {c : Call} (h : smaction clickInCksum buffer2 buffer c = none) (calls : List Call) :
    run clickInCksum buffer2 buffer (c :: calls) = none := by
  rw [run, h]
  rfl

/-- The first call, and the calls after it. -/
theorem followsFiles_cons_iff (clickInCksum : List UInt8 → UInt16) {line : FlowLine}
    {lines : List FlowLine} {newline : Bool} {pre : PrefixFile} {c : Call} {calls : List Call} :
    FollowsFiles clickInCksum ⟨line :: lines, newline⟩ pre (c :: calls) ↔
      Unspoiled ⟨line :: lines, newline⟩ pre 0 line c ∧
        FollowsFiles clickInCksum ⟨lines, newline⟩ pre calls := by
  rw [unspoiled_zero_iff]
  unfold FollowsFiles
  rw [FlowFile.text, List.map_cons]
  by_cases hread :
      Readable newline (lines.map FlowLine.text) line.text c.buf ∧ PrefixRead pre c
  · obtain ⟨packet, hcall, -, hfollows⟩ := smaction_eq clickInCksum hread.1 hread.2
    rw [run_cons hcall, and_iff_right hread, ← hfollows]
    constructor
    · rintro ⟨packets, hrun, hlen, hall⟩
      obtain ⟨behind, hbehind, hcons⟩ := Option.bind_eq_some_iff.mp hrun
      obtain rfl : packet :: behind = packets := Option.some.inj hcons
      refine ⟨hall 0 line c packet rfl rfl rfl, behind, hbehind, Nat.succ_inj.mp hlen, ?_⟩
      intro k line' c' packet' hline hc hpacket
      exact hall (k + 1) line' c' packet' hline hc hpacket
    · rintro ⟨hfirst, behind, hbehind, hlen, hall⟩
      refine ⟨packet :: behind, ?_, congrArg Nat.succ hlen, ?_⟩
      · exact Option.bind_eq_some_iff.mpr ⟨behind, hbehind, rfl⟩
      · intro k line' c' packet' hline hc hpacket
        cases k with
        | zero =>
            obtain rfl : line = line' := Option.some.inj hline
            obtain rfl : c = c' := Option.some.inj hc
            obtain rfl : packet = packet' := Option.some.inj hpacket
            exact hfirst
        | succ k => exact hall k line' c' packet' hline hc hpacket
  · rw [run_cons_eq_none (smaction_eq_none clickInCksum hread)]
    constructor
    · rintro ⟨packets, hrun, -⟩
      cases hrun
    · rintro ⟨⟨h, -⟩, -⟩
      exact absurd h hread

/-- **The packets follow the files** exactly if every call meets the condition. -/
theorem followsFiles_iff (clickInCksum : List UInt8 → UInt16) (flow : FlowFile) (pre : PrefixFile)
    (calls : List Call) (hcalls : calls.length ≤ flow.lines.length) :
    FollowsFiles clickInCksum flow pre calls ↔
      ∀ (k : Nat) (line : FlowLine) (c : Call), flow.lines[k]? = some line →
        calls[k]? = some c → Unspoiled flow pre k line c := by
  obtain ⟨lines, newline⟩ := flow
  -- induction on the calls: each of them takes a line off the flow file
  induction calls generalizing lines with
  | nil =>
      constructor
      · intro _ k line c _ hc
        cases hc
      · intro _
        refine ⟨[], rfl, rfl, ?_⟩
        intro k line c packet _ hc
        cases hc
  | cons c calls ih =>
      cases lines with
      | nil => exact absurd hcalls (Nat.not_succ_le_zero _)
      | cons line lines =>
          rw [followsFiles_cons_iff, ih lines (Nat.le_of_succ_le_succ hcalls)]
          constructor
          · rintro ⟨hfirst, hall⟩ k line' c' hline hc
            cases k with
            | zero =>
                obtain rfl : line = line' := Option.some.inj hline
                obtain rfl : c = c' := Option.some.inj hc
                exact hfirst
            | succ k => exact unspoiled_succ_iff.mpr (hall k line' c' hline hc)
          · intro hall
            refine ⟨hall 0 line c rfl rfl, ?_⟩
            intro k line' c' hline hc
            exact unspoiled_succ_iff.mp (hall (k + 1) line' c' hline hc)

/-! ## A prefix that goes on -/

/-- The half words of a header. -/
def halfWords : List UInt8 → List Nat
  | b :: b' :: bs => (b.toNat + 256 * b'.toNat) :: halfWords bs
  | _ => []

/-- What `click_in_cksum` computes. -/
def inCksum (header : List UInt8) : UInt16 :=
  UInt16.ofNat (OnesComplement.checksum 65535 (halfWords header))

/-- `1 2 3` in the flow file, with a newline. -/
def shortFlow : FlowFile where
  lines := [⟨.single 49 rfl, .single 50 rfl, [51], List.forall_mem_singleton.mpr (by decide)⟩]
  newline := true

/-- `1 2 3` -/
def shortPrefix : PrefixLine where
  first := .single 49 rfl
  second := .single 50 rfl
  third := .single 51 rfl
  first_lt := by decide
  second_lt := by decide
  third_lt := by decide

/-- `1 2 3` in all lines of the prefix file. -/
def shortPrefixes : PrefixFile where
  lines := List.replicate prefixLines shortPrefix
  newline := true
  enough := by rw [List.length_replicate]

/-- A call that finds a byte and a NUL in `buf2` behind where the prefix `1 2 3` goes. -/
def shortCall (left : UInt8) : Call where
  packet := []
  randHang := 0
  randHost := 7
  buf := List.replicate bufSize 0
  buf2 := List.replicate 5 32 ++ left :: List.replicate 994 0
  ipSs := [0, 0, 0, 0]
  cc := ⟨0, 0, 0⟩
  buf_length := List.length_replicate
  buf2_length := by
    rw [List.length_append, List.length_cons, List.length_replicate, List.length_replicate]
    rfl
  ipSs_length := rfl

theorem shortPrefixes_picked (c : Call) : shortPrefixes.picked c = shortPrefix :=
  List.getElem_replicate _

theorem shortCall_buf_nul (left : UInt8) (line : FlowLine) (h : line.text.length < bufSize) :
    0 ∈ (shortCall left).buf.drop line.text.length := by
  show 0 ∈ (List.replicate bufSize (0 : UInt8)).drop line.text.length
  rw [List.drop_replicate, List.mem_replicate]
  exact ⟨Nat.sub_ne_zero_of_lt h, rfl⟩

/-- What stands behind the prefix. -/
theorem shortCall_left (left : UInt8) :
    (shortCall left).buf2.drop (shortPrefixes.picked (shortCall left)).text.length =
      left :: List.replicate 994 0 := by
  rw [shortPrefixes_picked]
  rfl

theorem shortCall_prefixRead (left : UInt8) : PrefixRead shortPrefixes (shortCall left) := by
  refine ⟨Or.inr rfl, ?_⟩
  rw [shortCall_left]
  exact List.mem_cons_of_mem _ (List.mem_replicate.mpr ⟨by decide, rfl⟩)

/-- Where a NUL follows, all is well. -/
theorem followsFiles_iff_short :
    FollowsFiles inCksum shortFlow shortPrefixes [shortCall 0] := by
  apply (followsFiles_iff inCksum shortFlow shortPrefixes [shortCall 0] (Nat.le_refl 1)).mpr
  intro k line c hline hc
  cases k with
  | zero =>
      obtain rfl : shortCall 0 = c := Option.some.inj hc
      obtain rfl : shortFlow.lines[0] = line := Option.some.inj hline
      exact {
        flow_newline := Or.inr rfl
        pre_newline := Or.inr rfl
        buf_nul := shortCall_buf_nul 0 _ (by decide)
        buf2_nul := (shortCall_prefixRead 0).2
        packets_lt := by decide
        flowSize_lt := by decide
        third := by
          rw [shortCall_left, shortPrefixes_picked]
          rfl }
  | succ k => cases hc

/-- Where the digit 4 follows, the third octet is 34. -/
theorem not_followsFiles_short :
    (∃ packet, run inCksum shortPrefixes.text shortFlow.text [shortCall 52] = some [packet] ∧
      ((packet.drop 12).take 3).map UInt8.toNat = [1, 2, 34]) ∧
    ¬ FollowsFiles inCksum shortFlow shortPrefixes [shortCall 52] := by
  have hflow : Readable true [] shortFlow.lines[0].text (shortCall 52).buf :=
    ⟨Or.inr rfl, shortCall_buf_nul 52 _ (by decide)⟩
  obtain ⟨packet, hcall, hoctets, -⟩ :=
    smaction_eq inCksum hflow (shortCall_prefixRead 52)
  rw [shortCall_left, shortPrefixes_picked] at hoctets
  constructor
  · exact ⟨packet, run_cons hcall [], hoctets⟩
  · intro h
    have hthird := (followsFiles_cons_iff inCksum |>.mp h).1.third
    rw [shortCall_left, shortPrefixes_picked] at hthird
    exact absurd hthird (by decide)

end Client
