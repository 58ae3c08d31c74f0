import IcnPrototype.Lib.Bytes
import IcnPrototype.Lib.Run

set_option autoImplicit false

/-! # The requests of the flow generator

`flow_generator2.c` answers every Get packet with a flow of Data packets, which a thread of its
own sends. `main` reads the number of packets, the size and the time of the flow from the packet
into its variable `A` and starts the thread with the address of `A`; the thread begins by copying
what the address points to. Between the start and the copy `main` may receive the next packet and
overwrite `A`.

The steps are those of `main`, from one `recvfrom` to the next, and the copies. A started thread
has only the address, so of the threads that have not copied yet the number is all there is to
know. What a thread does after its copy is not part of this file.
-/

namespace FlowGenerator

open Bytes

/-- `Rec_Bufsize` -/
def recBufsize : Nat := 1024

/-- `struct argc`, without the pointer to the header that all flows share. -/
structure Argc where
  flowPackets : UInt32
  flowSize : UInt32
  flowTime : UInt32
  deriving DecidableEq

/-- `version_type` of the `struct get_header` behind the Ethernet and the IP header. -/
def versionType (rbuf : Mem) : UInt8 := rbuf 34

/-- `cc_flow_packets`, `cc_flow_size` and `cc_flow_time` of the header, in the byte order of the
host. -/
def request (rbuf : Mem) : Argc where
  flowPackets := load32 rbuf 114
  flowSize := load32 rbuf 118
  flowTime := load32 rbuf 122

/-- `rbuf`, `A` and the number of threads that have been started and have not copied `A`. The two
lists are the requests of the Get packets that started a thread, and the requests that threads
have copied. -/
structure State where
  rbuf : Mem
  A : Argc
  pending : Nat
  accepted : List Argc
  used : List Argc

/-- Before the first packet. `A` is not initialised. -/
def State.start (A : Argc) : State where
  rbuf _ := 0
  A := A
  pending := 0
  accepted := []
  used := []

inductive Event where
  /-- `main` receives a packet and deals with it. -/
  | receive (frame : List UInt8)
  /-- A thread makes its copy. -/
  | copy
  deriving DecidableEq

/-- The buffer after `recvfrom`: a longer packet is cut off, behind a shorter one the bytes of
earlier packets remain. -/
def recvfrom (s : State) (frame : List UInt8) : Mem := poke s.rbuf 0 (frame.take recBufsize)

/-- `if((get_h->cc_flow_time==0) && (get_h->cc_flow_packets>10))`: the program exits. The test
`cc_flow_time<0` is about an unsigned number. -/
def dataError (a : Argc) : Bool := a.flowTime == 0 && a.flowPackets > 10

/-- One step. `none` is the end of the program. -/
def step (s : State) : Event → Option State
  | .receive frame =>
      let rbuf := recvfrom s frame
      if versionType rbuf = 0xa0 then
        let A := request rbuf
        if dataError A then none
        else some { s with
          rbuf := rbuf
          A := A
          pending := s.pending + 1
          accepted := s.accepted ++ [A] }
      else some { s with rbuf := rbuf }
  | .copy =>
      match s.pending with
      | 0 => none
      | pending + 1 => some { s with pending := pending, used := s.used ++ [s.A] }

/-! ## The property -/

/-- **Every request has its flow**: when every thread has copied, the requests that the threads use
are the accepted ones, each as often. -/
def Served (s : State) : Prop := s.pending = 0 → s.used.Perm s.accepted

/-- **The condition.** A Get packet is dealt with when every thread has copied, or it carries the
same request as the last one. -/
def Undisturbed (s : State) : Event → Prop
  | .receive frame =>
      versionType (recvfrom s frame) = 0xa0 → s.pending = 0 ∨ request (recvfrom s frame) = s.A
  | .copy => True

instance decidableUndisturbed (s : State) : (a : Event) → Decidable (Undisturbed s a)
  | .receive frame => inferInstanceAs (Decidable (versionType (recvfrom s frame) = 0xa0 →
      s.pending = 0 ∨ request (recvfrom s frame) = s.A))
  | .copy => isTrue trivial

/-- The flows would be right if all threads copied now. -/
def Balanced (s : State) : Prop :=
  (s.used ++ List.replicate s.pending s.A).Perm s.accepted

theorem Balanced.served {s : State} (h : Balanced s) : Served s := by
  intro h0
  rwa [Balanced, h0, List.replicate_zero, List.append_nil] at h

/-- What a received packet does: a Get packet starts a thread, another one only fills the buffer. -/
theorem step_receive {s s' : State} {frame : List UInt8} (h : step s (.receive frame) = some s') :
    (versionType (recvfrom s frame) = 0xa0
        ∧ s' = { s with
            rbuf := recvfrom s frame
            A := request (recvfrom s frame)
            pending := s.pending + 1
            accepted := s.accepted ++ [request (recvfrom s frame)] })
      ∨ (versionType (recvfrom s frame) ≠ 0xa0 ∧ s' = { s with rbuf := recvfrom s frame }) := by
  simp only [step] at h
  split at h
  · next hget =>
      split at h
      · cases h
      · exact Or.inl ⟨hget, (Option.some.inj h).symm⟩
  · next hother => exact Or.inr ⟨hother, (Option.some.inj h).symm⟩

theorem step_copy {s s' : State} (h : step s .copy = some s') :
    s.pending = s'.pending + 1 ∧ s' = { s with pending := s'.pending, used := s.used ++ [s.A] } := by
  simp only [step] at h
  split at h
  · cases h
  · next pending heq =>
      obtain rfl := Option.some.inj h
      exact ⟨heq, rfl⟩

theorem step_copy_of_pending {s : State} {n : Nat} (h : s.pending = n + 1) :
    step s .copy = some { s with pending := n, used := s.used ++ [s.A] } := by
  simp only [step, h]

/-- A copy moves one request from the threads to come to those that have copied. -/
theorem Balanced.copy {s s' : State} (h : Balanced s) (hstep : step s .copy = some s') :
    Balanced s' := by
  obtain ⟨hpending, heq⟩ := step_copy hstep
  rw [Balanced, hpending, List.replicate_succ] at h
  rw [heq, Balanced]
  simpa only [List.append_assoc, List.singleton_append] using h

/-- **The step lemma.** A Get packet keeps the balance exactly when the condition holds. -/
theorem balanced_receive_iff {s s' : State} {frame : List UInt8} (h : Balanced s)
    (hstep : step s (.receive frame) = some s') :
    Balanced s' ↔ Undisturbed s (.receive frame) := by
  rcases step_receive hstep with ⟨hget, rfl⟩ | ⟨hother, rfl⟩
  · set A := request (recvfrom s frame) with hA
    have hsplit : Balanced { s with
        rbuf := recvfrom s frame, A := A, pending := s.pending + 1, accepted := s.accepted ++ [A] }
        ↔ (List.replicate s.pending A).Perm (List.replicate s.pending s.A) := by
      rw [Balanced, List.replicate_succ', ← List.append_assoc, List.perm_append_right_iff]
      constructor
      · intro hperm
        exact (List.perm_append_left_iff s.used).mp (hperm.trans h.symm)
      · intro hperm
        exact (hperm.append_left s.used).trans h
    rw [hsplit, List.replicate_perm, List.replicate_inj]
    constructor
    · rintro ⟨-, hsame⟩ _
      exact hsame
    · intro hsame
      exact ⟨rfl, hsame hget⟩
  · exact iff_of_true h fun hget => absurd hget hother

/-! ## Runs -/

theorem start_balanced (A : Argc) : Balanced (State.start A) := List.Perm.nil

theorem Balanced.step {s s' : State} {a : Event} (h : Balanced s) (hstep : step s a = some s')
    (hC : Undisturbed s a) : Balanced s' := by
  cases a with
  | receive frame => exact (balanced_receive_iff h hstep).mpr hC
  | copy => exact h.copy hstep

/-- The balance is kept exactly along the runs that meet the condition. -/
theorem always_balanced_iff {A : Argc} {events : List Event} :
    Lts.Always step Balanced (State.start A) events
      ↔ Lts.Along step Undisturbed (State.start A) events := by
  refine Lts.always_iff_along (fun _ h => h) (fun _ _ _ h hstep hC => h.step hstep hC) ?_
    (start_balanced A)
  intro s a s' h hstep hno
  cases a with
  | receive frame => exact fun h' => hno ((balanced_receive_iff h hstep).mp h')
  | copy => exact absurd trivial hno

/-- Since a state `s`, in which `n` threads had not copied and `A` was `a`: the first `n` copies are of
`a`, and until they are made, `A` is. -/
def Copies (s : State) (n : Nat) (a : Argc) (t : State) : Prop :=
  ∃ copies, t.used = s.used ++ copies ∧ n ≤ copies.length + t.pending
    ∧ (∀ b ∈ copies.take n, b = a) ∧ (copies.length < n → t.A = a)

theorem Copies.step {s t t' : State} {n : Nat} {a : Argc} {e : Event} (h : Copies s n a t)
    (hstep : step t e = some t') (hC : Undisturbed t e) : Copies s n a t' := by
  obtain ⟨copies, hused, hle, hfirst, hA⟩ := h
  cases e with
  | receive frame =>
      rcases step_receive hstep with ⟨hget, rfl⟩ | ⟨-, rfl⟩
      · refine ⟨copies, hused, Nat.le_succ_of_le hle, hfirst, fun hlt => ?_⟩
        -- a thread is left that has not copied, so the request is the same
        have hsame := (hC hget).resolve_left (by omega)
        exact hsame.trans (hA hlt)
      · exact ⟨copies, hused, hle, hfirst, hA⟩
  | copy =>
      obtain ⟨hpending, heq⟩ := step_copy hstep
      rw [heq]
      refine ⟨copies ++ [t.A], ?_, ?_, ?_, ?_⟩
      · rw [hused, List.append_assoc]
      · rw [List.length_append, List.length_singleton]
        dsimp only
        omega
      · intro b hb
        by_cases hlt : copies.length < n
        · rcases List.mem_append.mp (List.mem_of_mem_take hb) with hold | hnew
          · exact hfirst b ((List.take_of_length_le hlt.le).symm ▸ hold)
          · exact (List.mem_singleton.mp hnew).trans (hA hlt)
        · rw [List.take_append_of_le_length (by omega)] at hb
          exact hfirst b hb
      · intro hlt
        rw [List.length_append, List.length_singleton] at hlt
        exact hA (by omega)

/-- **Until the threads have copied**, a run that meets the condition leaves them their request. -/
theorem exec_copies_of_along {s t t' : State} {n : Nat} {a : Argc} {es : List Event}
    (h : Copies s n a t) (hcond : Lts.Along step Undisturbed t es)
    (hrun : Lts.exec step t es = some t') : Copies s n a t' :=
  (Lts.always_of_along (fun _ hc => hc) (fun _ _ _ hc hstep hC => hc.step hstep hC) h hcond).last
    hrun

/-- All threads that have been started copy, one after the other. -/
theorem exec_copies {n : Nat} {s : State} (h : s.pending = n) :
    Lts.exec step s (List.replicate n .copy)
      = some { s with pending := 0, used := s.used ++ List.replicate n s.A } := by
  induction n generalizing s with
  | zero =>
      rw [List.replicate_zero, Lts.exec_nil, List.replicate_zero, List.append_nil, ← h]
  | succ n ih =>
      rw [List.replicate_succ, Lts.exec_cons, step_copy_of_pending h, Option.bind_some, ih rfl]
      simp [List.replicate_succ]

/-- **The exact condition.** Take a run, cut it off anywhere, and let some of the threads started
so far copy. Every request has its flow in all states of all these runs if and only if every step
of the run meets the condition. -/
theorem served_iff (A : Argc) (events : List Event) :
    (∀ run, run <+: events → ∀ n,
        Lts.Always step Served (State.start A) (run ++ List.replicate n .copy))
      ↔ Lts.Along step Undisturbed (State.start A) events := by
  rw [← always_balanced_iff]
  constructor
  · -- when all threads that were started have copied, nothing hides a lost request
    intro h
    apply Lts.always_iff_prefix.mpr
    intro run rest s heq hexec
    have hprefix : run <+: events := ⟨rest, heq.symm⟩
    have hserved := (h run hprefix s.pending).last
      (Lts.exec_append_eq_some.mpr ⟨s, hexec, exec_copies rfl⟩)
    exact hserved rfl
  · -- a copy is always undisturbed, so the copies may follow any part of the run
    rintro h run ⟨rest, rfl⟩ n
    have hrun : Lts.Along step Undisturbed (State.start A) (run ++ List.replicate n .copy) := by
      refine Lts.along_append.mpr ⟨(Lts.along_append.mp (always_balanced_iff.mp h)).1, ?_⟩
      intro s' _
      refine Lts.along_of_invariant (I := fun _ => True) (U := (· = .copy)) ?_ ?_ trivial ?_
      · exact fun _ _ _ _ _ _ => trivial
      · rintro s a - rfl
        exact trivial
      · exact fun a ha => List.eq_of_mem_replicate ha
    exact Lts.always_of_along (fun _ hb => hb.served) (fun _ _ _ hb hstep hC => hb.step hstep hC)
      (start_balanced A) hrun

/-- The Get packet of a request. -/
def getFrame (a : Argc) : List UInt8 :=
  List.replicate 34 0 ++ [0xa0] ++ List.replicate 79 0 ++ le32 a.flowPackets ++ le32 a.flowSize
    ++ le32 a.flowTime

/-- Two Get packets come before the first thread has made its copy. Both threads copy the second
request, and nobody the first. -/
theorem request_lost :
    ¬ Lts.Always step Served (State.start ⟨0, 0, 0⟩)
      [.receive (getFrame ⟨1, 100, 1⟩), .receive (getFrame ⟨2, 200, 1⟩), .copy, .copy] := by
  intro h
  obtain ⟨s, hs⟩ : ∃ s, Lts.exec step (State.start ⟨0, 0, 0⟩)
      [.receive (getFrame ⟨1, 100, 1⟩), .receive (getFrame ⟨2, 200, 1⟩), .copy, .copy] = some s :=
    ⟨_, rfl⟩
  have hrun : (Lts.exec step (State.start ⟨0, 0, 0⟩)
      [.receive (getFrame ⟨1, 100, 1⟩), .receive (getFrame ⟨2, 200, 1⟩), .copy, .copy]).map
      (fun s => (s.pending, s.used, s.accepted))
        = some (0, [⟨2, 200, 1⟩, ⟨2, 200, 1⟩], [⟨1, 100, 1⟩, ⟨2, 200, 1⟩]) := by
    decide
  rw [hs, Option.map_some, Option.some.injEq, Prod.mk.injEq, Prod.mk.injEq] at hrun
  obtain ⟨hpending, hused, haccepted⟩ := hrun
  have hserved := h.last hs hpending
  rw [hused, haccepted] at hserved
  exact absurd hserved (by decide)

end FlowGenerator
