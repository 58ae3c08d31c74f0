import IcnPrototype.Lib.Lines
import IcnPrototype.Monitor.LocalComm

set_option autoImplicit false

/-! # The elements of a query

For a port `local_inform` takes a string of names, sets a bit of `request` for each of them and
counts them; it then writes as many records as it counted. `parse_inform_message` goes over as many
records as `request` has bits.

`set_request` does not set a bit but inverts it, so a name that stands in the string twice is
counted twice and leaves no bit. `encodes_iff` says on which strings the two numbers agree.
-/

namespace Monitor

open Bytes

/-! ## `set_request` -/

/-- `TOTAL_PACKETS`, `RX_PACKETS`, `TX_PACKETS`, `TOTAL_BYTES`, `RX_BYTES`, `TX_BYTES`, `RTT_AVG`
and `PACKETS_LOSS`. The bits are `1 << 0`, `1 << 1` and so on, in this order. -/
def elementNames : List (List UInt8) :=
  [[84, 79, 84, 65, 76, 95, 80, 65, 67, 75, 69, 84, 83],
   [82, 88, 95, 80, 65, 67, 75, 69, 84, 83],
   [84, 88, 95, 80, 65, 67, 75, 69, 84, 83],
   [84, 79, 84, 65, 76, 95, 66, 89, 84, 69, 83],
   [82, 88, 95, 66, 89, 84, 69, 83],
   [84, 88, 95, 66, 89, 84, 69, 83],
   [82, 84, 84, 95, 65, 86, 71],
   [80, 65, 67, 75, 69, 84, 83, 95, 76, 79, 83, 83]]

/-- `tolower` -/
def toLower (b : UInt8) : UInt8 := if 65 ≤ b ∧ b ≤ 90 then b + 32 else b

/-- `strcasecmp(s, t) == 0` -/
def sameCase (s t : List UInt8) : Bool := s.map toLower == t.map toLower

/-- Which of the names an element is, if it is one. -/
def bitOf (element : List UInt8) : Option Nat :=
  elementNames.findIdx? fun name => sameCase element name

/-- The bit of a name. -/
def elementBit (k : Nat) : UInt32 := UInt32.ofNat (2 ^ k)

/-- `set_request`: the new `*request`, and what is returned. -/
def setRequest (request : UInt32) (element : List UInt8) : UInt32 × Nat :=
  match bitOf element with
  | some k => (request ^^^ elementBit k, 1)
  | none => (request, 0)

/-! ## The element loop -/

/-- The size of `element` -/
def elementSize : Nat := 16

/-- The size of `itstr` -/
def itstrSize : Nat := 1024

/-- What the loop works on. `element` is what is stored in the array, from its first byte up to
position `i`. -/
structure ElementState where
  element : List UInt8
  request : UInt32
  count : Nat
  deriving DecidableEq

/-- `element[i++] = c` -/
def ElementState.store (s : ElementState) (c : UInt8) : Option ElementState :=
  if s.element.length < elementSize then some { s with element := s.element ++ [c] } else none

/-- `element[i] = '\0'`, and `set_request` on the element. -/
def ElementState.finish (s : ElementState) : Option ElementState :=
  if s.element.length < elementSize then
    let (request, ret) := setRequest s.request s.element
    some ⟨[], request, s.count + ret⟩
  else none

/-- `while(itstr[j] != '\0')` -/
def elementLoop : List UInt8 → ElementState → Option ElementState
  | [], s => some s
  | b :: bs, s =>
      if b = 32 then s.finish.bind (elementLoop bs) else (s.store b).bind (elementLoop bs)

/-- The elements of one port, up to `count += ret` behind the loop: a string that does not fit
`itstr`, or an element that does not fit `element`, is undefined. -/
def portElements (information : List UInt8) : Option ElementState :=
  if (cstr information).length < itstrSize then
    (elementLoop (cstr information) ⟨[], 0, 0⟩).bind ElementState.finish
  else none

/-! ## The pieces of the string -/

/-- The names that a string is made of. -/
def pieces (information : List UInt8) : List (List UInt8) := (cstr information).splitOn 32

/-- The bits of the names, one for each time a name stands in the string. -/
def pieceBits (information : List UInt8) : List Nat := (pieces information).filterMap bitOf

/-- One piece. -/
def takePiece (s : ElementState) (piece : List UInt8) : Option ElementState :=
  ElementState.finish { s with element := piece }

theorem takePiece_eq_none {s : ElementState} {piece : List UInt8}
    (h : elementSize ≤ piece.length) : takePiece s piece = none :=
  if_neg (Nat.not_lt.mpr h)

theorem finish_eq_some_iff {s s' : ElementState} : s.finish = some s' ↔
    s.element.length < elementSize ∧
      s' = ⟨[], (setRequest s.request s.element).1,
        s.count + (setRequest s.request s.element).2⟩ := by
  unfold ElementState.finish
  split
  · rename_i hsize
    rw [Option.some.injEq, eq_comm]
    exact (and_iff_right hsize).symm
  · rename_i hsize
    exact ⟨fun h => absurd h (Option.some_ne_none s').symm, fun h => absurd h.1 hsize⟩

theorem element_of_finish {s s' : ElementState} (h : s.finish = some s') : s'.element = [] := by
  rw [(finish_eq_some_iff.mp h).2]

theorem splitOn_cons (b : UInt8) (bs : List UInt8) : (b :: bs).splitOn 32 =
    if b = 32 then [] :: bs.splitOn 32 else (bs.splitOn 32).modifyHead (List.cons b) := by
  rw [List.splitOn, List.splitOnP_cons_eq_if_modifyHead]
  simp only [beq_iff_eq]
  rfl

/-- The bytes that come next belong to the piece that is being stored. -/
theorem elementLoop_eq {str p : List UInt8} {ps : List (List UInt8)}
    (h : str.splitOn 32 = p :: ps) (s : ElementState) :
    (elementLoop str s).bind ElementState.finish =
      ((s.element ++ p) :: ps).foldlM takePiece s := by
  induction str generalizing p ps s with
  | nil =>
      obtain ⟨hp, rfl⟩ := List.cons.inj h
      obtain rfl : p = [] := hp.symm
      rw [List.append_nil, List.foldlM_cons, elementLoop, Option.bind_some]
      exact (Option.bind_fun_some s.finish).symm
  | cons b bs ih =>
      rw [splitOn_cons] at h
      obtain ⟨q, qs, hq⟩ := List.exists_cons_of_ne_nil (List.splitOn_ne_nil 32 bs)
      rw [elementLoop]
      by_cases hb : b = 32
      · -- the piece is complete
        rw [if_pos hb] at h ⊢
        obtain ⟨rfl, rfl⟩ := List.cons.inj h
        rw [List.append_nil, List.foldlM_cons, Option.bind_assoc]
        show s.finish.bind _ = s.finish.bind _
        cases hfinish : s.finish with
        | none => rfl
        | some s' =>
            rw [Option.bind_some, Option.bind_some, ih hq, hq, element_of_finish hfinish,
              List.nil_append]
      · rw [if_neg hb, hq, List.modifyHead_cons] at h
        obtain ⟨rfl, rfl⟩ := List.cons.inj h
        rw [if_neg hb, ElementState.store]
        split
        · rw [Option.bind_some, ih hq, List.append_assoc, List.singleton_append,
            List.foldlM_cons, List.foldlM_cons]
          rfl
        · rename_i hsize
          have hlong : elementSize ≤ (s.element ++ b :: q).length := by
            rw [List.length_append]
            omega
          rw [List.foldlM_cons, takePiece_eq_none hlong]
          rfl

/-- **The loop does one piece after another.** -/
theorem portElements_eq (information : List UInt8) :
    portElements information =
      if (cstr information).length < itstrSize then
        (pieces information).foldlM takePiece ⟨[], 0, 0⟩
      else none := by
  obtain ⟨q, qs, hq⟩ := List.exists_cons_of_ne_nil (List.splitOn_ne_nil 32 (cstr information))
  rw [portElements, elementLoop_eq hq, pieces, hq, List.nil_append]

/-! ## What the mask is -/

/-- After some pieces: how often each name was among them. -/
structure Took (bits : List Nat) (s : ElementState) : Prop where
  count_eq : s.count = bits.length
  testBit_eq : ∀ i, s.request.toNat.testBit i = decide (bits.count i % 2 = 1)

theorem took_nil : Took [] ⟨[], 0, 0⟩ := by
  refine ⟨rfl, ?_⟩
  intro i
  exact Nat.zero_testBit i

theorem bitOf_lt {element : List UInt8} {k : Nat} (h : bitOf element = some k) : k < 8 :=
  (List.findIdx?_eq_some_iff_getElem.mp h).1

theorem testBit_xor_elementBit (request : UInt32) {k : Nat} (hk : k < 8) (i : Nat) :
    (request ^^^ elementBit k).toNat.testBit i = (request.toNat.testBit i ^^ decide (k = i)) := by
  have hpow : 2 ^ k < 2 ^ 32 := Nat.pow_lt_pow_right (by omega) (by omega)
  rw [UInt32.toNat_xor, Nat.testBit_xor, elementBit, UInt32.toNat_ofNat_of_lt' hpow,
    Nat.testBit_two_pow]

theorem Took.takePiece {bits : List Nat} {s s' : ElementState} (hs : Took bits s)
    {piece : List UInt8} (h : Monitor.takePiece s piece = some s') :
    Took (bits ++ (bitOf piece).toList) s' := by
  obtain ⟨-, rfl⟩ := finish_eq_some_iff.mp h
  show Took _ ⟨[], (setRequest s.request piece).1, s.count + (setRequest s.request piece).2⟩
  unfold setRequest
  cases hbit : bitOf piece with
  | none =>
      rw [Option.toList_none, List.append_nil]
      exact ⟨hs.count_eq, hs.testBit_eq⟩
  | some k =>
      refine ⟨?_, ?_⟩
      · rw [Option.toList_some, List.length_append, ← hs.count_eq]
        rfl
      · intro i
        show (s.request ^^^ elementBit k).toNat.testBit i = _
        rw [testBit_xor_elementBit _ (bitOf_lt hbit), hs.testBit_eq, Option.toList_some,
          List.count_append, List.count_singleton, beq_eq_decide]
        by_cases hki : k = i
        · rw [decide_eq_true hki, Bool.xor_true, if_pos rfl, ← decide_not]
          exact decide_eq_decide.mpr (by omega)
        · rw [decide_eq_false hki, Bool.xor_false, if_neg Bool.false_ne_true, Nat.add_zero]

/-- **After all pieces.** -/
theorem foldlM_takePiece {ps : List (List UInt8)} {s s' : ElementState} {bits : List Nat}
    (hs : Took bits s) (h : ps.foldlM takePiece s = some s') :
    Took (bits ++ ps.filterMap bitOf) s' := by
  induction ps generalizing s bits with
  | nil =>
      rw [List.filterMap_nil, List.append_nil, ← Option.some.inj h]
      exact hs
  | cons p ps ih =>
      rw [List.foldlM_cons] at h
      obtain ⟨s₁, h₁, h⟩ := Option.bind_eq_some_iff.mp h
      have htook := ih (hs.takePiece h₁) h
      have hcons : (bitOf p).toList ++ ps.filterMap bitOf = (p :: ps).filterMap bitOf := by
        rw [List.filterMap_cons]
        cases bitOf p <;> rfl
      rwa [List.append_assoc, hcons] at htook

theorem isSome_foldlM_takePiece_iff (ps : List (List UInt8)) (s : ElementState) :
    (ps.foldlM takePiece s).isSome = true ↔ ∀ p ∈ ps, p.length < elementSize := by
  have hok (k : Nat) (s : ElementState) (p : List UInt8) (_ : True) :
      (takePiece s p).isSome = true ↔ p.length < elementSize := by
    unfold takePiece ElementState.finish
    split <;> simp_all
  rw [isSome_foldlM_iff (k := 0) hok (fun _ _ _ _ _ _ => trivial) trivial]
  constructor
  · intro h p hp
    obtain ⟨i, hi⟩ := List.getElem?_of_mem hp
    exact h i p hi
  · intro h i p hi
    exact h p (List.mem_of_getElem? hi)

/-- The bits that are set are counted one by one. -/
theorem bitCount_eq_countP (bits n : Nat) :
    bitCount bits n = (List.range bits).countP fun i => n.testBit i := by
  induction bits generalizing n with
  | zero => rfl
  | succ bits ih =>
      rw [bitCount, ih, List.range_succ_eq_map, List.countP_cons, List.countP_map]
      have hshift : (fun i => n.testBit i) ∘ Nat.succ = fun i => (n / 2).testBit i := by
        funext i
        exact Nat.testBit_succ n i
      have hlow : (if n.testBit 0 = true then 1 else 0) = n % 2 := by
        simp only [Nat.testBit_zero, decide_eq_true_eq]
        split <;> omega
      rw [hshift, hlow, Nat.add_comm]

/-- How many different numbers are in a list. -/
theorem countP_mem_range {l : List Nat} {n : Nat} (hlt : ∀ k ∈ l, k < n) :
    ((List.range n).countP fun i => decide (i ∈ l)) = l.dedup.length := by
  rw [List.countP_eq_length_filter]
  apply List.Perm.length_eq
  apply (List.perm_ext_iff_of_nodup (List.nodup_range.filter _) (List.nodup_dedup l)).mpr
  intro i
  rw [List.mem_filter, List.mem_range, List.mem_dedup, decide_eq_true_eq]
  exact and_iff_right_of_imp (hlt i)

theorem dedup_length_eq_iff {l : List Nat} : l.dedup.length = l.length ↔ l.Nodup := by
  constructor
  · intro h
    rw [← (List.dedup_sublist l).eq_of_length h]
    exact List.nodup_dedup l
  · intro h
    rw [h.dedup]

/-! ## When encoder and decoder agree -/

/-- The encoder's count of records is the decoder's, the bits are those of the names in the string,
and where `parse_inform_message` goes from this port's `INFORM_GET_MIDDLE` is behind as many records
as were written. -/
def Encodes (information : List UInt8) : Prop :=
  ∃ s, portElements information = some s ∧
    s.count = bitCount 32 s.request.toNat ∧
    (∀ i, s.request.toNat.testBit i = true ↔ ∃ name ∈ pieces information, bitOf name = some i) ∧
    ∀ (m : Mem) (middle : Nat), load32 m (middle + 16) = s.request →
      nextMiddle m middle = middle + informGetMiddleSize + s.count * informGetTailSize

theorem mem_pieceBits {information : List UInt8} {i : Nat} :
    i ∈ pieceBits information ↔ ∃ name ∈ pieces information, bitOf name = some i :=
  List.mem_filterMap

theorem lt_of_mem_pieceBits {information : List UInt8} {i : Nat} (h : i ∈ pieceBits information) :
    i < 32 := by
  obtain ⟨name, -, hbit⟩ := mem_pieceBits.mp h
  exact Nat.lt_trans (bitOf_lt hbit) (by omega)

/-- Where the bits are those of the names, the decoder counts the different names. -/
theorem bitCount_request {information : List UInt8} {request : UInt32}
    (hbits : ∀ i, request.toNat.testBit i = true ↔ i ∈ pieceBits information) :
    bitCount 32 request.toNat = (pieceBits information).dedup.length := by
  rw [bitCount_eq_countP, ← countP_mem_range fun _ => lt_of_mem_pieceBits]
  apply List.countP_congr
  intro i _
  rw [hbits, decide_eq_true_eq]

/-- **Encoder and decoder agree** exactly on the strings that fit the arrays and have no name
twice. -/
theorem encodes_iff (information : List UInt8) :
    Encodes information ↔
      (cstr information).length < itstrSize ∧
        (∀ name ∈ pieces information, name.length < elementSize) ∧
        (pieceBits information).Nodup := by
  unfold Encodes
  rw [portElements_eq]
  simp only [← mem_pieceBits]
  constructor
  · rintro ⟨s, hs, hcount, hbits, -⟩
    split at hs
    · rename_i hsize
      have hfit := (isSome_foldlM_takePiece_iff _ _).mp (Option.isSome_iff_exists.mpr ⟨s, hs⟩)
      have htook := foldlM_takePiece took_nil hs
      rw [htook.count_eq, bitCount_request hbits] at hcount
      exact ⟨hsize, hfit, dedup_length_eq_iff.mp hcount.symm⟩
    · cases hs
  · rintro ⟨hsize, hfit, hnd⟩
    obtain ⟨s, hs⟩ := Option.isSome_iff_exists.mp
      ((isSome_foldlM_takePiece_iff (pieces information) ⟨[], 0, 0⟩).mpr hfit)
    have htook : Took (pieceBits information) s := foldlM_takePiece took_nil hs
    have hbits (i : Nat) : s.request.toNat.testBit i = true ↔ i ∈ pieceBits information := by
      rw [htook.testBit_eq, decide_eq_true_eq, ← List.count_pos_iff]
      have hle := List.nodup_iff_count_le_one.mp hnd i
      omega
    have hcount : s.count = bitCount 32 s.request.toNat := by
      rw [htook.count_eq, bitCount_request hbits, dedup_length_eq_iff.mpr hnd]
    refine ⟨s, ?_, hcount, hbits, ?_⟩
    · rw [if_pos hsize]
      exact hs
    · intro m middle hload
      rw [nextMiddle, requestAt, hload, ← hcount, Nat.mul_comm informGetTailSize]

/-- `rtt_avg rtt_avg`: two records are counted, and no bit is left. -/
def rttAvgTwice : List UInt8 :=
  [114, 116, 116, 95, 97, 118, 103, 32, 114, 116, 116, 95, 97, 118, 103]

theorem not_encodes_rttAvgTwice :
    portElements rttAvgTwice = some ⟨[], 0, 2⟩ ∧ bitCount 32 0 = 0 ∧ ¬ Encodes rttAvgTwice := by
  have hrun : portElements rttAvgTwice = some ⟨[], 0, 2⟩ := by decide
  refine ⟨hrun, rfl, ?_⟩
  rintro ⟨s, hs, hcount, -⟩
  rw [hrun] at hs
  rw [← Option.some.inj hs] at hcount
  exact absurd hcount (by decide)

/-! ## Strings of known names -/

/-- The names separated by spaces. -/
def elementString (names : List (List UInt8)) : List UInt8 := [32].intercalate names

theorem bitOf_eq_some {element : List UInt8} {k : Nat} (h : bitOf element = some k) :
    ∃ name ∈ elementNames, element.map toLower = name.map toLower := by
  obtain ⟨hk, hsame, -⟩ := List.findIdx?_eq_some_iff_getElem.mp h
  exact ⟨_, List.getElem_mem hk, eq_of_beq hsame⟩

/-- A known name is short. -/
theorem length_of_bitOf {element : List UInt8} {k : Nat} (h : bitOf element = some k) :
    element.length ≤ 13 := by
  obtain ⟨name, hname, hmap⟩ := bitOf_eq_some h
  have hlen := congrArg List.length hmap
  rw [List.length_map, List.length_map] at hlen
  rw [hlen]
  exact (by decide : ∀ name ∈ elementNames, name.length ≤ 13) name hname

/-- A known name has no space and no NUL. -/
theorem not_mem_of_bitOf {element : List UInt8} {k : Nat} (h : bitOf element = some k) :
    32 ∉ element ∧ 0 ∉ element := by
  obtain ⟨name, hname, hmap⟩ := bitOf_eq_some h
  have hnames : ∀ name ∈ elementNames, 32 ∉ name.map toLower ∧ 0 ∉ name.map toLower := by decide
  obtain ⟨h32, h0⟩ := hnames name hname
  rw [← hmap] at h32 h0
  exact ⟨fun hmem => h32 (List.mem_map_of_mem (f := toLower) hmem),
    fun hmem => h0 (List.mem_map_of_mem (f := toLower) hmem)⟩

theorem mem_elementString {names : List (List UInt8)} {b : UInt8}
    (h : b ∈ elementString names) : b = 32 ∨ ∃ name ∈ names, b ∈ name := by
  induction names with
  | nil => cases h
  | cons name names ih =>
      cases names with
      | nil =>
          rw [elementString, List.intercalate_singleton] at h
          exact Or.inr ⟨name, List.mem_cons_self, h⟩
      | cons next names =>
          rw [elementString, List.intercalate_cons_cons] at h
          rcases List.mem_append.mp h with h | h
          · rcases List.mem_append.mp h with h | h
            · exact Or.inr ⟨name, List.mem_cons_self, h⟩
            · exact Or.inl (List.mem_singleton.mp h)
          · rcases ih h with h | ⟨n, hn, hb⟩
            · exact Or.inl h
            · exact Or.inr ⟨n, List.mem_cons_of_mem _ hn, hb⟩

theorem length_elementString_le {names : List (List UInt8)} {m : Nat}
    (hlen : ∀ name ∈ names, name.length ≤ m) :
    (elementString names).length ≤ names.length * (m + 1) := by
  induction names with
  | nil => exact Nat.zero_le _
  | cons name names ih =>
      obtain ⟨hname, hlen⟩ := List.forall_mem_cons.mp hlen
      have ih := ih hlen
      rw [List.length_cons, Nat.succ_mul]
      cases names with
      | nil =>
          rw [elementString, List.intercalate_singleton]
          omega
      | cons next names =>
          rw [elementString] at ih ⊢
          rw [List.intercalate_cons_cons, List.length_append, List.length_append,
            List.length_singleton]
          omega

/-- **The elements of a string of known names** are counted, one for each. -/
theorem portElements_elementString {names : List (List UInt8)} (hlen : names.length ≤ 8)
    (hknown : ∀ name ∈ names, (bitOf name).isSome = true) :
    ∃ e, portElements (elementString names) = some e ∧ e.count = names.length := by
  have hbit (name : List UInt8) (hname : name ∈ names) : ∃ k, bitOf name = some k :=
    Option.isSome_iff_exists.mp (hknown name hname)
  have hshort : ∀ name ∈ names, name.length ≤ 13 := by
    intro name hname
    obtain ⟨k, hk⟩ := hbit name hname
    exact length_of_bitOf hk
  have hcstr : cstr (elementString names) = elementString names := by
    apply cstr_eq_self
    intro hmem
    rcases mem_elementString hmem with h | ⟨name, hname, h0⟩
    · cases h
    · obtain ⟨k, hk⟩ := hbit name hname
      exact (not_mem_of_bitOf hk).2 h0
  have hsize : (cstr (elementString names)).length < itstrSize := by
    have hle := length_elementString_le hshort
    rw [hcstr, itstrSize]
    omega
  have hpieces : (∀ name ∈ pieces (elementString names), name.length < elementSize) ∧
      (pieceBits (elementString names)).length = names.length := by
    rw [pieceBits, pieces, hcstr]
    by_cases hne : names = []
    · subst hne
      decide
    · rw [elementString, List.splitOn_intercalate 32 ?_ hne]
      · refine ⟨fun name hname => ?_, List.filterMap_length_eq_length.mpr hknown⟩
        exact Nat.lt_of_le_of_lt (hshort name hname) (by decide)
      · intro name hname
        obtain ⟨k, hk⟩ := hbit name hname
        exact (not_mem_of_bitOf hk).1
  obtain ⟨e, he⟩ := Option.isSome_iff_exists.mp
    ((isSome_foldlM_takePiece_iff (pieces (elementString names)) ⟨[], 0, 0⟩).mpr hpieces.1)
  refine ⟨e, ?_, ?_⟩
  · rw [portElements_eq, if_pos hsize]
    exact he
  · rw [(foldlM_takePiece took_nil he).count_eq, List.nil_append]
    exact hpieces.2

end Monitor
