import Mathlib.Tactic

set_option autoImplicit false

/-! # Agreement by a four-message handshake with overlapping rounds

Two parties keep one value each and change it together over two FIFO channels. The *initiator*
sends a `request`, the *responder* answers with a `propose v`, the initiator stores a value `w`
of its choice in a cache and sends `offer w`, and the responder either commits `w` and sends
`ack`, or refuses it with a new `propose`. On `ack` the initiator commits the content of its
cache. Rounds may overlap: the initiator may send requests at any time, and one cache serves
all rounds.

`agree` states what the handshake is for: whenever both channels are empty, the two committed
values are equal. The invariant `Inv` that carries it says what the newest offer in flight is
(the content of the cache), and that once the last offer has been accepted the responder holds
the content of the cache.

An `ack` step is allowed to commit another value than the cache, as long as something is still
in flight after it: such a commit is always followed by another one.
-/

namespace Handshake

variable {V : Type*}

/-- The messages of the handshake. -/
inductive Msg (V : Type*) where
  | request
  | propose (v : V)
  | offer (v : V)
  | ack

/-- Both parties and both channels: `up` leads to the responder, `down` to the initiator. The
head of a channel is its oldest message. -/
structure State (V : Type*) where
  own : V
  cache : V
  peer : V
  up : List (Msg V)
  down : List (Msg V)

/-- One step of one of the parties. -/
inductive Step : State V → State V → Prop
  | request (s : State V) : Step s { s with up := s.up ++ [.request] }
  | answer (s : State V) (v : V) {up : List (Msg V)} (h : s.up = .request :: up) :
      Step s { s with up := up, down := s.down ++ [.propose v] }
  | store (s : State V) (v w : V) {down : List (Msg V)} (h : s.down = .propose v :: down) :
      Step s { s with down := down, cache := w, up := s.up ++ [.offer w] }
  | accept (s : State V) (v : V) {up : List (Msg V)} (h : s.up = .offer v :: up) :
      Step s { s with up := up, peer := v, down := s.down ++ [.ack] }
  | refuse (s : State V) (v w : V) {up : List (Msg V)} (h : s.up = .offer v :: up) :
      Step s { s with up := up, down := s.down ++ [.propose w] }
  | commit (s : State V) (x : V) {down : List (Msg V)} (h : s.down = .ack :: down)
      (hx : s.up = [] → down = [] → x = s.cache) :
      Step s { s with down := down, own := x }

/-- The values offered in a channel, oldest first. -/
def offers : List (Msg V) → List V
  | [] => []
  | .offer v :: l => v :: offers l
  | _ :: l => offers l

/-- The values proposed in a channel, oldest first. -/
def proposals : List (Msg V) → List V
  | [] => []
  | .propose v :: l => v :: proposals l
  | _ :: l => proposals l

@[simp] theorem offers_append (l l' : List (Msg V)) :
    offers (l ++ l') = offers l ++ offers l' := by
  induction l with
  | nil => rfl
  | cons m l ih => cases m <;> simp [offers, ih]

@[simp] theorem proposals_append (l l' : List (Msg V)) :
    proposals (l ++ l') = proposals l ++ proposals l' := by
  induction l with
  | nil => rfl
  | cons m l ih => cases m <;> simp [proposals, ih]

/-- A message the initiator may send. -/
def Msg.Upward : Msg V → Prop
  | .request => True
  | .offer _ => True
  | _ => False

/-- A message the responder may send. -/
def Msg.Downward : Msg V → Prop
  | .propose _ => True
  | .ack => True
  | _ => False

/-- **The invariant of overlapping rounds.** -/
structure Inv (s : State V) : Prop where
  upward : ∀ m ∈ s.up, m.Upward
  downward : ∀ m ∈ s.down, m.Downward
  /-- The newest offer in flight is the content of the cache. -/
  newest : ∀ v, (offers s.up).getLast? = some v → v = s.cache
  /-- When nothing but requests and acknowledgements is in flight, the acknowledged value is
  the content of the cache. -/
  acked : offers s.up = [] → proposals s.down = [] → s.down ≠ [] → s.peer = s.cache
  /-- When nothing is in flight, the parties agree. -/
  quiet : s.up = [] → s.down = [] → s.own = s.peer

theorem inv_init (v c : V) : Inv ({ own := v, cache := c, peer := v, up := [], down := [] } : State V) where
  upward := by simp
  downward := by simp
  newest := by simp [offers]
  acked := by simp
  quiet := fun _ _ => rfl

/-- **Every step keeps the invariant.** -/
theorem Inv.step {s s' : State V} (hi : Inv s) (hs : Step s s') : Inv s' := by
  have hup := hi.upward
  have hdown := hi.downward
  have hnewest := hi.newest
  have hacked := hi.acked
  cases hs with
  | request =>
      refine ⟨?_, hdown, ?_, ?_, by simp⟩
      · simpa [or_imp, forall_and, Msg.Upward] using hup
      · simpa [offers] using hnewest
      · simpa [offers] using hacked
  | answer v h =>
      rw [h] at hup hnewest
      refine ⟨fun m hm => hup m (List.mem_cons_of_mem _ hm), ?_, hnewest, by simp [proposals], by simp⟩
      simpa [or_imp, forall_and, Msg.Downward] using hdown
  | store v w h =>
      -- the offer that is sent is the new content of the cache, and the newest
      rw [h] at hdown
      refine ⟨?_, fun m hm => hdown m (List.mem_cons_of_mem _ hm), ?_, by simp [offers], by simp⟩
      · simpa [or_imp, forall_and, Msg.Upward] using hup
      · simp [offers]
  | @accept v up h =>
      rw [h] at hup hnewest hacked
      refine ⟨fun m hm => hup m (List.mem_cons_of_mem _ hm), ?_, ?_, ?_, by simp⟩
      · simpa [or_imp, forall_and, Msg.Downward] using hdown
      · intro w hw
        refine hnewest w ?_
        rw [offers, List.getLast?_cons, hw]
        rfl
      · intro hno _ _
        -- the accepted offer was the newest one, so it is the content of the cache
        have hno' : offers up = [] := hno
        exact hnewest v (by simp [offers, hno'])
  | refuse v w h =>
      rw [h] at hup hnewest
      refine ⟨fun m hm => hup m (List.mem_cons_of_mem _ hm), ?_, ?_, by simp [proposals], by simp⟩
      · simpa [or_imp, forall_and, Msg.Downward] using hdown
      · intro x hx
        refine hnewest x ?_
        rw [offers, List.getLast?_cons, hx]
        rfl
  | @commit x down h hx =>
      rw [h] at hdown hacked
      refine ⟨hup, fun m hm => hdown m (List.mem_cons_of_mem _ hm), hnewest, ?_, ?_⟩
      · intro hno hnp _
        exact hacked hno hnp (List.cons_ne_nil _ _)
      · -- the last message in flight
        intro hu hd
        have hu' : s.up = [] := hu
        have hd' : down = [] := hd
        have hpeer : s.peer = s.cache := by
          refine hacked ?_ ?_ (List.cons_ne_nil _ _)
          · rw [hu']; rfl
          · rw [hd']; rfl
        exact (hx hu' hd').trans hpeer.symm

/-- Just before the last acknowledgement the responder holds the content of the cache. -/
theorem Inv.peer_eq_cache {s : State V} (hi : Inv s) (hu : s.up = []) (hd : s.down = [.ack]) :
    s.peer = s.cache := by
  refine hi.acked ?_ ?_ ?_
  · rw [hu]; rfl
  · rw [hd]; rfl
  · rw [hd]; exact List.cons_ne_nil _ _

/-- **Agreement.** When nothing is in flight, both parties have committed the same value. -/
theorem Inv.agree {s : State V} (hi : Inv s) (hu : s.up = []) (hd : s.down = []) :
    s.own = s.peer :=
  hi.quiet hu hd

end Handshake
