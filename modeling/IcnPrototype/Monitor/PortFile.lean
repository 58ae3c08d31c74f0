import IcnPrototype.Lib.Lines
import IcnPrototype.Monitor.ListHandle

set_option autoImplicit false

/-! # `port.lst`

`get_dest_ip` reads `port.lst`: a line has the type of a port, its name and a tab, and the address
of a destination. The name goes to a local array, and if it is that of a port, the address to
another one, each of 16 bytes. An access outside of the line and its NUL, or of one of the arrays,
is undefined (`none`).

The lists of the ports and of the destinations are sequences of nodes here; `addNode_eq` is what
makes them that (`map_snd_addLast`).
-/

namespace Monitor

open Bytes Sll

/-! ## The lists -/

/-- A list with a new node, which is cleared, unless one of the nodes is the same. -/
def withNode {α : Type} (same : α → α → Bool) (clear : α → α) (L : List α) (new : α) : List α :=
  if L.any fun v => same v new then L else L ++ [clear new]

/-- It is what `addNode` does to the nodes. -/
theorem map_snd_addLast {α : Type} {same : α → α → Bool} {clear : α → α}
    (hclear : ∀ v w, same v (clear w) = same v w) (L : List (Addr × α)) (a : Addr) (new : α) :
    (addLast same L (a, clear new)).map Prod.snd = withNode same clear (L.map Prod.snd) new := by
  unfold addLast withNode
  simp only [hclear, List.any_map, Function.comp_def]
  split
  · rfl
  · rw [List.map_append, List.map_singleton]

/-! ## Ports -/

/-- A `struct PORT_INFO`, as far as `get_dest_ip` goes. -/
structure DestPort where
  devName : Name
  portType : Int
  destInfo : List DestInfo

/-- `port_info` up to `host_info->port_count`. It has 64 entries. -/
structure PortTable where
  ports : List DestPort
  length_le : ports.length ≤ 64

/-- What `get_dest_ip` keeps from line to line. -/
structure DestState where
  ports : List DestPort
  flagList : List Int
  portStateIndex : List PortStateIndex

/-- A `char [16]` after `strcpy`. What is behind the NUL does not matter. -/
def Name.copy (t : List UInt8) : Name where
  bytes := strncpy 15 t ++ [0]
  size_eq := by rw [List.length_append, strncpy_length, List.length_singleton]
  terminated := List.mem_append_right _ List.mem_cons_self

/-! ## A line -/

/-- The loops `while(string[i] != sep)` that store into an array of 16 bytes, from its position
`k` on, with the NUL behind what they store. -/
def scanField (sep : UInt8) : Nat → List UInt8 → Option (List UInt8 × List UInt8)
  | _, [] => none
  | k, b :: bs =>
      if k < 16 then
        if b = sep then some ([], bs)
        else (scanField sep (k + 1) bs).map fun r => (b :: r.1, r.2)
      else none

/-- What is done when `dev_name` is that of port `j`. -/
def matchPort (linkStats : List UInt8) (s : DestState) (j : Nat) (p : DestPort) (ch : UInt8)
    (devName rest : List UInt8) : Option DestState := do
  let portType := ch.toInt8.toInt - 48
  let portStateIndex :=
    if portType = 1 then withNode sameDev clearState s.portStateIndex ⟨Name.copy devName, 0, 0⟩
    else s.portStateIndex
  let (destIp, _) ← scanField 10 0 rest
  let flag ← s.flagList[j]?
  let destInfo := if flag = 0 then [] else p.destInfo
  let new : DestInfo := ⟨0, 0, Name.copy destIp, linkStats⟩
  some
    { ports := s.ports.set j ⟨p.devName, portType, withNode sameIp clearDest destInfo new⟩
      flagList := s.flagList.set j 1
      portStateIndex := portStateIndex }

/-- The loop over the ports, which ends at the first one with the name. -/
def searchPort (linkStats : List UInt8) (s : DestState) (ch : UInt8)
    (devName rest : List UInt8) : Option DestState :=
  match s.ports.findIdx? fun p => p.devName.text == cstr devName with
  | none => some s
  | some j => do
      let p ← s.ports[j]?
      matchPort linkStats s j p ch devName rest

/-- A turn of the loop over the lines. `linkStats` is what `malloc` left in the new node. -/
def destTurn (linkStats : List UInt8) (s : DestState) (line : List UInt8) : Option DestState := do
  let string := line ++ [0]
  let ch ← string[0]?
  let (devName, rest) ← scanField 9 0 (string.drop 2)
  searchPort linkStats s ch devName rest

/-- `get_dest_ip`: what it returns, with `port_info`. -/
def getDestIp (linkStats : List UInt8) (file : List UInt8) (T : PortTable) : Option DestState :=
  eachLine 1024 (destTurn linkStats) (file.length + 1) file
    ⟨T.ports, List.replicate 64 0, []⟩

/-! ## When it is defined -/

/-- **A loop that stores stops exactly if there is a separator in time.** -/
theorem scanField_eq_some_iff {sep : UInt8} {k : Nat} {str field rest : List UInt8} :
    scanField sep k str = some (field, rest) ↔
      sep ∉ field ∧ str = field ++ sep :: rest ∧ k + field.length < 16 := by
  induction str generalizing k field with
  | nil => simp [scanField]
  | cons b bs ih =>
      rw [scanField, ← and_assoc]
      by_cases hk : k < 16
      · rw [if_pos hk]
        by_cases hb : b = sep
        · subst hb
          rw [if_pos rfl, field_sep_iff, Option.some.injEq, Prod.mk.injEq]
          constructor
          · rintro ⟨rfl, rfl⟩
            exact ⟨⟨rfl, rfl⟩, hk⟩
          · rintro ⟨⟨rfl, rfl⟩, -⟩
            exact ⟨rfl, rfl⟩
        · rw [if_neg hb, field_cons_iff hb]
          constructor
          · intro h
            obtain ⟨⟨f, r⟩, hscan, hpair⟩ := Option.map_eq_some_iff.mp h
            obtain ⟨rfl, rfl⟩ := Prod.mk.inj hpair
            obtain ⟨hsep, hbs, hlt⟩ := ih.mp hscan
            refine ⟨⟨f, rfl, hsep, hbs⟩, ?_⟩
            show k + (f.length + 1) < 16
            omega
          · rintro ⟨⟨f, rfl, hsep, hbs⟩, hlt⟩
            rw [List.length_cons] at hlt
            have hlt' : k + 1 + f.length < 16 := by omega
            rw [ih.mpr ⟨hsep, hbs, hlt'⟩]
            rfl
      · rw [if_neg hk]
        constructor
        · intro h
          cases h
        · rintro ⟨-, hlt⟩
          omega

/-- The names of the ports. -/
def portNames (ports : List DestPort) : List (List UInt8) := ports.map fun p => p.devName.text

/-- A line of `port.lst` on which nothing goes wrong: a short name and a tab behind the first two
bytes, and, if the name is that of a port, a short address and a newline. -/
def PortLine (names : List (List UInt8)) (line : List UInt8) : Prop :=
  ∃ name rest, line.drop 2 = name ++ 9 :: rest ∧ 9 ∉ name ∧ name.length ≤ 15 ∧
    (cstr name ∈ names → ∃ ip tail, rest = ip ++ 10 :: tail ∧ 10 ∉ ip ∧ ip.length ≤ 15)

/-- The loop on a string and its NUL. -/
theorem scanField_terminated_iff {sep : UInt8} (hsep : sep ≠ 0) {k : Nat}
    {line field rest : List UInt8} : scanField sep k (line ++ [0]) = some (field, rest) ↔
      ∃ tail, sep ∉ field ∧ line = field ++ sep :: tail ∧ rest = tail ++ [0] ∧
        k + field.length < 16 := by
  rw [scanField_eq_some_iff]
  constructor
  · rintro ⟨hmem, hline, hlt⟩
    obtain ⟨tail, hline, hrest⟩ := (append_zero_eq_iff hsep).mp hline
    exact ⟨tail, hmem, hline, hrest, hlt⟩
  · rintro ⟨tail, hmem, hline, hrest, hlt⟩
    exact ⟨hmem, (append_zero_eq_iff hsep).mpr ⟨tail, hline, hrest⟩, hlt⟩

/-- What holds of the state after any number of lines. -/
structure DestState.Inv (names : List (List UInt8)) (s : DestState) : Prop where
  names_eq : portNames s.ports = names
  length_le : s.ports.length ≤ 64
  flags : s.flagList.length = 64

/-- The address behind the name of a port. -/
theorem isSome_matchPort_iff {linkStats : List UInt8} {s : DestState} {j : Nat}
    (hj : j < s.flagList.length) (p : DestPort) (ch : UInt8) (devName tail : List UInt8) :
    (matchPort linkStats s j p ch devName (tail ++ [0])).isSome = true ↔
      ∃ ip rest, tail = ip ++ 10 :: rest ∧ 10 ∉ ip ∧ ip.length ≤ 15 := by
  have hflag : s.flagList[j]? = some s.flagList[j] := List.getElem?_eq_getElem hj
  have hiff (r : List UInt8 × List UInt8) : scanField 10 0 (tail ++ [0]) = some r ↔ _ :=
    scanField_terminated_iff (by decide)
  unfold matchPort
  simp only [Option.bind_eq_bind, Option.isSome_iff_exists, Option.bind_eq_some_iff, hiff, hflag]
  constructor
  · rintro ⟨_, ⟨ip, _⟩, ⟨rest, hmem, htail, -, hlt⟩, -⟩
    rw [Nat.zero_add] at hlt
    exact ⟨ip, rest, htail, hmem, Nat.lt_succ_iff.mp hlt⟩
  · rintro ⟨ip, rest, htail, hmem, hle⟩
    have hlt : 0 + ip.length < 16 := by omega
    exact ⟨_, ⟨ip, rest ++ [0]⟩, ⟨rest, hmem, htail, rfl, hlt⟩, _, rfl, rfl⟩

/-- A port keeps its name. -/
theorem portNames_set {ports : List DestPort} {j : Nat} {p q : DestPort} (hp : ports[j]? = some p)
    (hq : q.devName = p.devName) : portNames (ports.set j q) = portNames ports := by
  obtain ⟨hlt, rfl⟩ := List.getElem?_eq_some_iff.mp hp
  calc portNames (ports.set j q)
      = (portNames ports).set j q.devName.text := List.map_set
    _ = (portNames ports).set j ports[j].devName.text := by rw [hq]
    _ = portNames (ports.set j ports[j]) := List.map_set.symm
    _ = portNames ports := by rw [List.set_getElem_self]

theorem matchPort_inv {names : List (List UInt8)} {linkStats : List UInt8} {s s' : DestState}
    {j : Nat} {p : DestPort} {ch : UInt8} {devName rest : List UInt8} (hs : s.Inv names)
    (hp : s.ports[j]? = some p) (h : matchPort linkStats s j p ch devName rest = some s') :
    s'.Inv names := by
  unfold matchPort at h
  simp only [Option.bind_eq_bind, Option.bind_eq_some_iff] at h
  obtain ⟨_, -, flag, -, hs'⟩ := h
  rw [← Option.some.inj hs']
  refine ⟨?_, ?_, ?_⟩
  · refine Eq.trans (portNames_set hp ?_) hs.names_eq
    rfl
  · rw [List.length_set]
    exact hs.length_le
  · rw [List.length_set]
    exact hs.flags

theorem isSome_searchPort_iff {names : List (List UInt8)} {linkStats : List UInt8} {s : DestState}
    (hs : s.Inv names) (ch : UInt8) (devName tail : List UInt8) :
    (searchPort linkStats s ch devName (tail ++ [0])).isSome = true ↔
      (cstr devName ∈ names → ∃ ip rest, tail = ip ++ 10 :: rest ∧ 10 ∉ ip ∧ ip.length ≤ 15) := by
  unfold searchPort
  split
  · rename_i hnone
    rw [List.findIdx?_eq_none_iff] at hnone
    have hnot : cstr devName ∉ names := by
      rw [← hs.names_eq]
      intro hmem
      obtain ⟨p, hp, hname⟩ := List.mem_map.mp hmem
      exact beq_eq_false_iff_ne.mp (hnone p hp) hname
    exact ⟨fun _ hmem => absurd hmem hnot, fun _ => rfl⟩
  · rename_i j hsome
    obtain ⟨hlt, hname, -⟩ := List.findIdx?_eq_some_iff_getElem.mp hsome
    have hmem : cstr devName ∈ names := by
      rw [← hs.names_eq, ← eq_of_beq hname]
      exact List.mem_map_of_mem (List.getElem_mem hlt)
    have hj : j < s.flagList.length := by
      rw [hs.flags]
      exact Nat.lt_of_lt_of_le hlt hs.length_le
    rw [List.getElem?_eq_getElem hlt, Option.bind_eq_bind, Option.bind_some,
      isSome_matchPort_iff hj]
    exact ⟨fun h _ => h, fun h => h hmem⟩

theorem searchPort_inv {names : List (List UInt8)} {linkStats : List UInt8} {s s' : DestState}
    {ch : UInt8} {devName rest : List UInt8} (hs : s.Inv names)
    (h : searchPort linkStats s ch devName rest = some s') : s'.Inv names := by
  unfold searchPort at h
  split at h
  · rwa [← Option.some.inj h]
  · obtain ⟨p, hp, h⟩ := Option.bind_eq_some_iff.mp h
    exact matchPort_inv hs hp h

/-- The name begins behind the type and one more byte, if the line is that long. -/
theorem scanField_drop_iff {line name rest : List UInt8} :
    scanField 9 0 ((line ++ [0]).drop 2) = some (name, rest) ↔
      ∃ tail, 9 ∉ name ∧ line.drop 2 = name ++ 9 :: tail ∧ rest = tail ++ [0] ∧
        0 + name.length < 16 := by
  by_cases hlen : 2 ≤ line.length
  · rw [List.drop_append_of_le_length hlen]
    exact scanField_terminated_iff (by decide)
  · have hline : line.drop 2 = [] := List.drop_eq_nil_of_le (by omega)
    have hstr : (line ++ [0]).drop 2 = [] := by
      apply List.drop_eq_nil_of_le
      rw [List.length_append, List.length_singleton]
      omega
    rw [hline, hstr, scanField]
    simp

theorem isSome_destTurn_iff {names : List (List UInt8)} {linkStats : List UInt8} {s : DestState}
    (hs : s.Inv names) (line : List UInt8) :
    (destTurn linkStats s line).isSome = true ↔ PortLine names line := by
  obtain ⟨ch, hch⟩ : ∃ ch, (line ++ [0])[0]? = some ch := by cases line <;> exact ⟨_, rfl⟩
  unfold destTurn PortLine
  simp only [Option.bind_eq_bind, hch, Option.bind_some]
  constructor
  · intro h
    obtain ⟨s', h⟩ := Option.isSome_iff_exists.mp h
    obtain ⟨⟨name, _⟩, hname, h⟩ := Option.bind_eq_some_iff.mp h
    obtain ⟨tail, hmem, hline, rfl, hlt⟩ := scanField_drop_iff.mp hname
    refine ⟨name, tail, hline, hmem, by rwa [Nat.zero_add, Nat.lt_succ_iff] at hlt, ?_⟩
    exact (isSome_searchPort_iff hs ch name tail).mp (Option.isSome_iff_exists.mpr ⟨s', h⟩)
  · rintro ⟨name, tail, hline, hmem, hle, hsearch⟩
    have hlt : 0 + name.length < 16 := by omega
    rw [scanField_drop_iff.mpr ⟨tail, hmem, hline, rfl, hlt⟩, Option.bind_some]
    exact (isSome_searchPort_iff hs ch name tail).mpr hsearch

theorem destTurn_inv {names : List (List UInt8)} {linkStats : List UInt8} {s s' : DestState}
    {line : List UInt8} (hs : s.Inv names) (h : destTurn linkStats s line = some s') :
    s'.Inv names := by
  unfold destTurn at h
  simp only [Option.bind_eq_bind, Option.bind_eq_some_iff] at h
  obtain ⟨ch, -, ⟨devName, rest⟩, -, h⟩ := h
  exact searchPort_inv hs h

/-- **`get_dest_ip` is defined** exactly on the files all of whose lines are in order. -/
theorem isSome_getDestIp_iff (linkStats file : List UInt8) (T : PortTable) :
    (getDestIp linkStats file T).isSome = true ↔
      file ≠ [] ∧ ∀ line ∈ fgetsAll 1024 file, PortLine (portNames T.ports) line := by
  have hinit : DestState.Inv (portNames T.ports) ⟨T.ports, List.replicate 64 0, []⟩ :=
    ⟨rfl, T.length_le, List.length_replicate⟩
  have hok (k : Nat) (s : DestState) (line : List UInt8) (hs : s.Inv (portNames T.ports)) :
      (destTurn linkStats s line).isSome = true ↔ PortLine (portNames T.ports) line :=
    isSome_destTurn_iff hs line
  unfold getDestIp
  rw [isSome_eachLine_iff (by omega) hok (fun _ _ _ _ hs h => destTurn_inv hs h) file hinit]
  refine and_congr_right fun _ => ?_
  constructor
  · intro h line hline
    obtain ⟨i, hi⟩ := List.getElem?_of_mem hline
    exact h i line hi
  · intro h i line hi
    exact h line (List.mem_of_getElem? hi)

end Monitor
