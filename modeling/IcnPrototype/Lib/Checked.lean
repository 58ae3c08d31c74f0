import IcnPrototype.Lib.Bytes

set_option autoImplicit false

/-! # Checked accesses

A program that walks over a buffer is safe when every access stays inside. Here the accesses are
checked: a `Window` is a buffer of which the first `limit` bytes may be read, and a `Sink` one
that is written from the front and has room for `capacity` bytes. An access outside is a `Fault`,
and the program ends with it.

The value of a checked program is what the unchecked one computes, and `isOk` says that the latter
makes no access outside. The lemmas say for each access when it is inside, and `bind_isOk` takes a
program apart.
-/

namespace Bytes

/-- An access outside of a buffer or an array. -/
inductive Fault where
  | read
  | index
  | write
  deriving DecidableEq

/-- A program goes on only after what comes before it. -/
theorem bind_isOk {ε α β : Type} {x : Except ε α} {f : α → Except ε β} :
    (x >>= f).isOk = true ↔ ∃ a, x = .ok a ∧ (f a).isOk = true := by
  cases x with
  | error e =>
      constructor
      · intro h
        cases h
      · rintro ⟨a, h, -⟩
        cases h
  | ok a =>
      constructor
      · intro h
        exact ⟨a, rfl, h⟩
      · rintro ⟨b, h, hb⟩
        cases h
        exact hb

theorem isOk_iff {ε α : Type} {x : Except ε α} : x.isOk = true ↔ ∃ a, x = .ok a := by
  cases x with
  | error e =>
      constructor
      · intro h
        cases h
      · rintro ⟨a, h⟩
        cases h
  | ok a => exact ⟨fun _ => ⟨a, rfl⟩, fun _ => rfl⟩

/-- A program whose value is not looked at by what follows. -/
theorem bind_isOk_and {ε α β : Type} {x : Except ε α} {f : α → Except ε β} {p : Prop}
    (h : ∀ a, (f a).isOk = true ↔ p) : (x >>= f).isOk = true ↔ x.isOk = true ∧ p := by
  rw [bind_isOk, isOk_iff]
  constructor
  · rintro ⟨a, ha, hf⟩
    exact ⟨⟨a, ha⟩, (h a).mp hf⟩
  · rintro ⟨⟨a, ha⟩, hp⟩
    exact ⟨a, ha, (h a).mpr hp⟩

theorem bind_eq_ok {ε α β : Type} {x : Except ε α} {f : α → Except ε β} {b : β} :
    x >>= f = .ok b ↔ ∃ a, x = .ok a ∧ f a = .ok b := by
  cases x with
  | error e =>
      constructor
      · intro h
        cases h
      · rintro ⟨a, h, -⟩
        cases h
  | ok a =>
      constructor
      · intro h
        exact ⟨a, rfl, h⟩
      · rintro ⟨a', h, hb⟩
        cases h
        exact hb

@[simp] theorem pure_isOk {ε α : Type} (a : α) : (pure a : Except ε α).isOk = true := rfl

/-! ## Reading -/

/-- A buffer whose first `limit` bytes may be read. -/
structure Window where
  mem : Mem
  limit : Nat

namespace Window

/-- Read the `n` bytes at `off`. -/
def read (w : Window) (off n : Nat) : Except Fault (List UInt8) :=
  if off + n ≤ w.limit then .ok (peek w.mem off n) else .error .read

/-- There is a NUL at `off` or behind it. -/
def Terminated (w : Window) (off : Nat) : Prop := 0 ∈ peek w.mem off (w.limit - off)

instance (w : Window) (off : Nat) : Decidable (w.Terminated off) :=
  inferInstanceAs (Decidable (0 ∈ _))

/-- Read the C string at `off`, up to and including its NUL. -/
def str (w : Window) (off : Nat) : Except Fault (List UInt8) :=
  if w.Terminated off then .ok (cstr (peek w.mem off (w.limit - off))) else .error .read

theorem read_eq_ok {w : Window} {off n : Nat} {bs : List UInt8} :
    w.read off n = .ok bs ↔ off + n ≤ w.limit ∧ peek w.mem off n = bs := by
  rw [read]
  split
  · next h => simp [h]
  · next h => simp [h]

theorem str_eq_ok {w : Window} {off : Nat} {bs : List UInt8} :
    w.str off = .ok bs ↔ w.Terminated off ∧ cstr (peek w.mem off (w.limit - off)) = bs := by
  rw [str]
  split
  · next h => simp [h]
  · next h => simp [h]

theorem read_bind_isOk {β : Type} {w : Window} {off n : Nat} {f : List UInt8 → Except Fault β} :
    (w.read off n >>= f).isOk = true
      ↔ off + n ≤ w.limit ∧ (f (peek w.mem off n)).isOk = true := by
  simp only [bind_isOk, read_eq_ok, and_assoc, exists_eq_left', exists_and_left]

theorem str_bind_isOk {β : Type} {w : Window} {off : Nat} {f : List UInt8 → Except Fault β} :
    (w.str off >>= f).isOk = true
      ↔ w.Terminated off ∧ (f (cstr (peek w.mem off (w.limit - off)))).isOk = true := by
  simp only [bind_isOk, str_eq_ok, and_assoc, exists_eq_left', exists_and_left]

end Window

/-! ## Writing -/

/-- A buffer with room for `capacity` bytes, written up to `ptr`. -/
structure Sink where
  mem : Mem
  ptr : Nat
  capacity : Nat

namespace Sink

/-- `memcpy(ptr, bs, n); ptr += n;` -/
def write (s : Sink) (bs : List UInt8) : Except Fault Sink :=
  if s.ptr + bs.length ≤ s.capacity then
    .ok { s with mem := poke s.mem s.ptr bs, ptr := s.ptr + bs.length }
  else .error .write

theorem write_eq_ok {s s' : Sink} {bs : List UInt8} :
    s.write bs = .ok s' ↔ s.ptr + bs.length ≤ s.capacity
      ∧ { s with mem := poke s.mem s.ptr bs, ptr := s.ptr + bs.length } = s' := by
  rw [write]
  split
  · next h => simp [h]
  · next h => simp [h]

theorem write_bind_isOk {β : Type} {s : Sink} {bs : List UInt8} {f : Sink → Except Fault β} :
    (s.write bs >>= f).isOk = true
      ↔ s.ptr + bs.length ≤ s.capacity
        ∧ (f { s with mem := poke s.mem s.ptr bs, ptr := s.ptr + bs.length }).isOk = true := by
  simp only [bind_isOk, write_eq_ok, and_assoc, exists_eq_left', exists_and_left]

end Sink

end Bytes
