import IcnPrototype.Lib.Run

set_option autoImplicit false

/-! # The supervisor of the port processes

The monitor runs one child process per port (`main.c`). `port_child_pid` has the process of each
port and `child_count` their number. Both are changed in two places: by the timer callbacks,
which launch and kill children with `port_child_proc` and `port_kill_proc`, and by the loop of
`main`, which waits for children that end or stop.

A child that ends stays in the process table until `waitpid` has reported it, and in between any
callback may run. So the state has the children that live, those that ended on their own, and
those that `port_kill_proc` killed; the last two are what `waitpid` still has to report.

In the functions `none` stands for what the supervisor does not survive: an index outside of
`port_child_pid`, `kill(0, SIGKILL)`, which kills the supervisor with its process group, and the loop
of `port_kill_proc` around a `kill` that fails forever. A timer may ask for either of the last two
(`Supervisor`).
-/

namespace Monitor.Supervision

/-! ## Processes -/

/-- A process of a port. -/
structure Child where
  pid : Nat
  port : Nat
  deriving DecidableEq

/-- How a child ended, as the macros of `sys/wait.h` tell it. -/
inductive Status where
  | exited
  | signaled (sig : Nat)
  deriving DecidableEq

/-- `SIGKILL` -/
def sigkill : Nat := 9

/-- `port_child_pid`, `child_count`, whether `main` is in `waitpid`, and the children: those that
live, those that ended on their own, and those that `port_kill_proc` killed. -/
structure State where
  portChildPid : Nat → Nat
  childCount : Int
  waiting : Bool
  live : List Child
  dead : List (Child × Status)
  killed : List (Child × Status)

/-- The processes that are in the process table. -/
def State.children (s : State) : List Child :=
  s.live ++ (s.dead.map Prod.fst ++ s.killed.map Prod.fst)

/-- The process ids that are in use. -/
def State.pids (s : State) : List Nat := s.children.map Child.pid

/-- Before the first child. -/
def State.start : State where
  portChildPid _ := 0
  childCount := 0
  waiting := false
  live := []
  dead := []
  killed := []

/-! ## The two functions -/

/-- `port_child_proc`, where `fork` returns `pid`. -/
def portChildProc (s : State) (i pid : Nat) : Option State :=
  if i < 64 ∧ pid ≠ 0 ∧ pid ∉ s.pids then
    some { s with
      portChildPid := Function.update s.portChildPid i pid
      childCount := s.childCount + 1
      live := s.live ++ [⟨pid, i⟩] }
  else none

/-- `kill(pid, SIGKILL)`, which also succeeds on a child that has ended but was not reported. -/
def kill (s : State) (pid : Nat) : Option State :=
  match s.live.find? (·.pid = pid) with
  | some c => some { s with live := s.live.erase c, killed := s.killed ++ [(c, .signaled sigkill)] }
  | none =>
      match s.dead.find? (·.1.pid = pid) with
      | some z => some { s with dead := s.dead.erase z, killed := s.killed ++ [z] }
      | none => if pid ∈ s.killed.map (·.1.pid) then some s else none

/-- `port_kill_proc` -/
def portKillProc (s : State) (i : Nat) : Option State :=
  if i < 64 ∧ s.portChildPid i ≠ 0 then
    (kill s (s.portChildPid i)).map fun s' =>
      { s' with
        portChildPid := Function.update s'.portChildPid i 0
        childCount := s'.childCount - 1 }
  else none

/-! ## The loop of `main` -/

/-- `for (i = 0; i < 64; i++) if (port_child_pid[i]) if (port_child_pid[i] == pid_child)` -/
def entryOf (s : State) (pid : Nat) : Option Nat :=
  (List.range 64).find? fun i => s.portChildPid i ≠ 0 && s.portChildPid i == pid

/-- `waitpid` reports a child that has ended, and it leaves the process table. -/
def reap (s : State) (z : Child × Status) : Option State :=
  if z ∈ s.dead then some { s with dead := s.dead.erase z }
  else if z ∈ s.killed then some { s with killed := s.killed.erase z }
  else none

/-- The branches of the loop for a child that has ended: after a normal exit its entry is
cleared, after `SIGKILL` nothing is done, after another signal it is launched again. -/
def onEnded (s : State) (z : Child × Status) (fresh : Nat) : Option State :=
  match z.2 with
  | .exited =>
      match entryOf s z.1.pid with
      | some i => some { s with portChildPid := Function.update s.portChildPid i 0 }
      | none => some s
  | .signaled sig =>
      if sig = sigkill then some s
      else
        match entryOf s z.1.pid with
        | some i => portChildProc s i fresh
        | none => some s

/-- The branch of the loop for a child that was stopped: it is killed, some child is waited for
(the entry is 0 by then, which stands for any child), and it is launched again. -/
def onStopped (s : State) (c : Child) (z : Child × Status) (fresh : Nat) : Option State :=
  match entryOf s c.pid with
  | some i => (portKillProc s i).bind fun s => (reap s z).bind fun s => portChildProc s i fresh
  | none => some s

/-- What happens next. `pid` and `fresh` are what `fork` returns. -/
inductive Event where
  /-- `timer_proc_launch`, or the start of the program. -/
  | launch (i pid : Nat)
  /-- `timer_proc_end` -/
  | kill (i : Nat)
  /-- A child ends. -/
  | ends (c : Child) (status : Status)
  /-- `main` passes `while(!child_count);` and calls `waitpid`. -/
  | waits
  /-- `waitpid` reports a child that has ended, and the loop deals with it. -/
  | reports (z : Child × Status) (fresh : Nat)
  /-- `waitpid` reports a child that was stopped, and the loop deals with it. -/
  | reportsStopped (c : Child) (z : Child × Status) (fresh : Nat)
  /-- `waitpid` fails because there is no child; no entry is -1. -/
  | fails
  deriving DecidableEq

/-- `pid_child = waitpid(…); child_count--;` -/
def State.returned (s : State) : State :=
  { s with waiting := false, childCount := s.childCount - 1 }

/-- One event. Callbacks and iterations of the loop run to their end. -/
def step (s : State) : Event → Option State
  | .launch i pid => portChildProc s i pid
  | .kill i => portKillProc s i
  | .ends c status =>
      if c ∈ s.live then some { s with live := s.live.erase c, dead := s.dead ++ [(c, status)] }
      else none
  | .waits => if s.waiting = false ∧ s.childCount ≠ 0 then some { s with waiting := true } else none
  | .reports z fresh =>
      if s.waiting then (reap s.returned z).bind fun s => onEnded s z fresh else none
  | .reportsStopped c z fresh =>
      if s.waiting ∧ c ∈ s.live then onStopped s.returned c z fresh else none
  | .fails => if s.waiting ∧ s.pids = [] then some s.returned else none

/-- The supervisor, which is lost when it kills its own process group, or never gets out of the loop
of `port_kill_proc`. -/
inductive Supervisor where
  | running (s : State)
  | lost

/-- A timer may end any of the 64 ports. -/
def Event.isKill : Event → Bool
  | .kill i => decide (i < 64)
  | _ => false

/-- One event. -/
def Supervisor.step (p : Supervisor) (a : Event) : Option Supervisor :=
  match p with
  | .running s =>
      match Supervision.step s a with
      | some s' => some (.running s')
      | none => if a.isKill then some .lost else none
  | .lost => none

/-! ## The property -/

/-- **The books are right** whenever no child's end is still to be dealt with: `child_count` is the
number of live children, each port has at most one, and the entry of a port is nonzero exactly
when it has one, and then it is its process id. -/
def Kept (s : State) : Prop :=
  s.dead = [] →
    s.childCount = s.live.length
      ∧ (s.live.map Child.port).Nodup
      ∧ (∀ i, s.portChildPid i ≠ 0 ↔ ∃ c ∈ s.live, c.port = i)
      ∧ ∀ c ∈ s.live, s.portChildPid c.port = c.pid

/-- The same of the supervisor. One that is lost never finishes the event. -/
def Supervisor.Kept : Supervisor → Prop
  | .running s => Supervision.Kept s
  | .lost => False

/-- **The condition.** A launch is for a port without a live child, a timer ends only a port with an
entry, no child is stopped, and of the children that have ended only those are reported that nobody
killed: by `port_kill_proc`, or by another process while the port still has them as its child. -/
def Accountable (s : State) : Event → Prop
  | .launch i _ => ∀ c ∈ s.live, c.port ≠ i
  | .kill i => s.portChildPid i ≠ 0
  | .reports z _ =>
      z ∈ s.dead ∧ (z.2 = .signaled sigkill → s.portChildPid z.1.port ≠ z.1.pid)
  | .reportsStopped .. => False
  | _ => True

instance decidableAccountable (s : State) : (a : Event) → Decidable (Accountable s a)
  | .launch i _ => inferInstanceAs (Decidable (∀ c ∈ s.live, c.port ≠ i))
  | .reports z _ => inferInstanceAs (Decidable
      (z ∈ s.dead ∧ (z.2 = .signaled sigkill → s.portChildPid z.1.port ≠ z.1.pid)))
  | .kill i => inferInstanceAs (Decidable (s.portChildPid i ≠ 0))
  | .reportsStopped .. => isFalse id
  | .ends _ _ | .waits | .fails => isTrue trivial

/-- The same of the supervisor. -/
def Supervisor.Accountable : Supervisor → Event → Prop
  | .running s, a => Supervision.Accountable s a
  | .lost, _ => True

instance decidableSupervisorAccountable (p : Supervisor) (a : Event) : Decidable (p.Accountable a) :=
  match p with
  | .running s => decidableAccountable s a
  | .lost => isTrue trivial

/-! ## The invariant -/

/-- What holds in every state of a run that meets the condition. A child that has ended counts
until it is reported. The children `gone` have been reported, but may still have an entry. -/
structure Books (gone : List Child) (s : State) : Prop where
  count : s.childCount = s.live.length + s.dead.length
  pids_nodup : ((gone ++ s.children).map Child.pid).Nodup
  live_pos : ∀ c ∈ s.live, c.pid ≠ 0
  entry_lt : ∀ i, s.portChildPid i ≠ 0 → i < 64
  entry_live : ∀ c ∈ s.live, s.portChildPid c.port = c.pid
  entry : ∀ i, s.portChildPid i ≠ 0 →
    ⟨s.portChildPid i, i⟩ ∈ gone ++ (s.live ++ s.dead.map Prod.fst)
  waiting : s.waiting = true → s.children ≠ []

namespace Books

variable {gone : List Child} {s s' : State}

/-- A process id stands for one child. -/
theorem eq_of_pid (hb : Books gone s) {c c' : Child} (hc : c ∈ gone ++ s.children)
    (hc' : c' ∈ gone ++ s.children) (h : c.pid = c'.pid) : c = c' :=
  List.inj_on_of_nodup_map hb.pids_nodup hc hc' h

theorem mem_children_of_live {c : Child} (h : c ∈ s.live) : c ∈ gone ++ s.children :=
  List.mem_append_right _ (List.mem_append_left _ h)

theorem mem_children_of_dead {z : Child × Status} (h : z ∈ s.dead) : z.1 ∈ gone ++ s.children :=
  List.mem_append_right _ (List.mem_append_right _ (List.mem_append_left _ (List.mem_map_of_mem h)))

/-- The child an entry stands for. -/
theorem entry_mem (hb : Books gone s) {i : Nat} (h : s.portChildPid i ≠ 0) :
    ⟨s.portChildPid i, i⟩ ∈ gone ++ s.children := by
  have hmem := hb.entry i h
  rw [List.mem_append, List.mem_append] at hmem
  rcases hmem with hgone | hlive | hdead
  · exact List.mem_append_left _ hgone
  · exact mem_children_of_live hlive
  · obtain ⟨z, hz, heq⟩ := List.mem_map.mp hdead
    exact heq ▸ mem_children_of_dead hz

theorem mem_children_of_killed {z : Child × Status} (h : z ∈ s.killed) :
    z.1 ∈ gone ++ s.children :=
  List.mem_append_right _ (List.mem_append_right _ (List.mem_append_right _ (List.mem_map_of_mem h)))

/-- An entry with the process id of a child is the entry of its port. -/
theorem eq_of_entry (hb : Books gone s) {c : Child} (hc : c ∈ gone ++ s.children) {i : Nat}
    (h0 : s.portChildPid i ≠ 0) (h : s.portChildPid i = c.pid) : c = ⟨s.portChildPid i, i⟩ :=
  hb.eq_of_pid hc (hb.entry_mem h0) h.symm

/-- The property follows when no child's end is still to be dealt with. -/
theorem kept (hb : Books [] s) : Kept s := by
  intro hdead
  have hcount := hb.count
  rw [hdead] at hcount
  refine ⟨by simpa using hcount, ?_, fun i => ⟨fun h0 => ?_, ?_⟩, hb.entry_live⟩
  · -- different children have different process ids, which are the entries of their ports
    have hpids : (s.live.map Child.pid).Nodup := by
      have h := hb.pids_nodup
      rw [List.nil_append, State.children, List.map_append] at h
      exact h.of_append_left
    have hentries : s.live.map Child.pid = (s.live.map Child.port).map s.portChildPid := by
      rw [List.map_map]
      exact List.map_congr_left fun c hc => (hb.entry_live c hc).symm
    rw [hentries] at hpids
    exact hpids.of_map
  · have hmem := hb.entry i h0
    rw [hdead, List.nil_append, List.map_nil, List.append_nil] at hmem
    exact ⟨_, hmem, rfl⟩
  · rintro ⟨c, hc, rfl⟩
    rw [hb.entry_live c hc]
    exact hb.live_pos c hc

/-! ## The two functions -/

/-- A child that is launched for a port without a live one counts and gets the entry. -/
theorem launched (hb : Books [] s) {i pid : Nat} (hno : ∀ c ∈ s.live, c.port ≠ i) (hi : i < 64)
    (hpid : pid ≠ 0) (hfresh : pid ∉ s.pids) :
    Books [] { s with
      portChildPid := Function.update s.portChildPid i pid
      childCount := s.childCount + 1
      live := s.live ++ [⟨pid, i⟩] } where
  count := by
    have hcount := hb.count
    simp only [List.length_append, List.length_singleton, Nat.cast_add, Nat.cast_one]
    omega
  pids_nodup := by
    -- the kernel gives the child a process id that no other one has
    have hperm : List.Perm (s.live ++ [⟨pid, i⟩] ++ (s.dead.map Prod.fst ++ s.killed.map Prod.fst))
        (⟨pid, i⟩ :: s.children) := by
      rw [List.append_assoc]
      exact List.perm_middle
    refine (hperm.map Child.pid).nodup_iff.mpr ?_
    rw [List.map_cons, List.nodup_cons]
    exact ⟨hfresh, hb.pids_nodup⟩
  live_pos c hc := by
    rcases List.mem_append.mp hc with hc | hc
    · exact hb.live_pos c hc
    · rw [List.mem_singleton] at hc
      exact hc ▸ hpid
  entry_lt j hj := by
    by_cases hji : j = i
    · exact hji ▸ hi
    · dsimp only at hj
      rw [Function.update_of_ne hji] at hj
      exact hb.entry_lt j hj
  entry_live c hc := by
    rcases List.mem_append.mp hc with hc | hc
    · dsimp only
      rw [Function.update_of_ne (hno c hc)]
      exact hb.entry_live c hc
    · rw [List.mem_singleton] at hc
      subst hc
      exact Function.update_self _ _ _
  entry j hj := by
    by_cases hji : j = i
    · subst hji
      simp
    · dsimp only at hj ⊢
      rw [Function.update_of_ne hji] at hj ⊢
      have hmem := hb.entry j hj
      simp only [List.nil_append, List.mem_append, List.mem_singleton] at hmem ⊢
      tauto
  waiting _ := by simp [State.children]

/-- A launch for a port without a live child. -/
theorem portChildProc (hb : Books [] s) {i pid : Nat} (hno : ∀ c ∈ s.live, c.port ≠ i)
    (h : portChildProc s i pid = some s') : Books [] s' := by
  rw [Supervision.portChildProc] at h
  split at h
  · next hguard =>
      obtain ⟨hi, hpid, hfresh⟩ := hguard
      exact Option.some.inj h ▸ hb.launched hno hi hpid hfresh
  · cases h

/-- A child that has an entry, or had one, is settled by clearing it: it may have left the process
table, or be one that was killed. -/
theorem clear (hb : Books gone s) {c : Child} {i : Nat} (h0 : s.portChildPid i ≠ 0)
    (hpid : s.portChildPid i = c.pid) (hc : c ∈ gone ++ s.children) {j : Nat}
    (hj : Function.update s.portChildPid i 0 j ≠ 0) :
    s.portChildPid j ≠ 0 ∧ Function.update s.portChildPid i 0 j = s.portChildPid j
      ∧ (⟨s.portChildPid j, j⟩ : Child) ≠ c := by
  have hji : j ≠ i := by
    rintro rfl
    exact hj (Function.update_self _ _ _)
  rw [Function.update_of_ne hji] at hj ⊢
  refine ⟨hj, rfl, fun heq => hji ?_⟩
  have hport := hb.eq_of_entry hc h0 hpid
  rw [← heq] at hport
  exact congrArg Child.port hport

/-- The live children are different. -/
theorem live_nodup (hb : Books gone s) : s.live.Nodup := by
  have h := hb.pids_nodup.of_map
  exact h.of_append_right.of_append_left

/-- No child is both alive and dead. -/
theorem live_ne_dead (hb : Books gone s) {c : Child} {z : Child × Status} (hc : c ∈ s.live)
    (hz : z ∈ s.dead) : c ≠ z.1 := by
  rintro rfl
  have h := hb.pids_nodup.of_map.of_append_right
  exact List.disjoint_of_nodup_append h hc
    (List.mem_append_left _ (List.mem_map_of_mem hz))

/-- A child that was killed is none of those that count, or could still have an entry. -/
theorem ne_killed (hb : Books gone s) {c : Child} {z : Child × Status}
    (hc : c ∈ gone ++ (s.live ++ s.dead.map Prod.fst)) (hz : z ∈ s.killed) : c ≠ z.1 := by
  rintro rfl
  have h := hb.pids_nodup.of_map
  rw [State.children, ← List.append_assoc s.live, ← List.append_assoc gone] at h
  exact List.disjoint_of_nodup_append h hc (List.mem_map_of_mem hz)

/-- `port_kill_proc` settles the child `c` of the entry: it no longer counts as alive or dead. -/
theorem settle (hb : Books [] s) {c : Child} {i : Nat} (h0 : s.portChildPid i ≠ 0)
    (hpid : s.portChildPid i = c.pid) (hc : c ∈ s.children)
    (hentry : s'.portChildPid = Function.update s.portChildPid i 0)
    (hcount : s'.childCount = s.childCount - 1) (hwaiting : s'.waiting = s.waiting)
    (hperm : s'.children.Perm s.children)
    (hlen : s'.live.length + s'.dead.length + 1 = s.live.length + s.dead.length)
    (hlive : ∀ x ∈ s'.live, x ∈ s.live ∧ x ≠ c)
    (hkeep : ∀ x ∈ s.live ++ s.dead.map Prod.fst, x ≠ c →
      x ∈ s'.live ++ s'.dead.map Prod.fst) : Books [] s' where
  count := by
    have h := hb.count
    omega
  pids_nodup := (hperm.map Child.pid).nodup_iff.mpr hb.pids_nodup
  live_pos x hx := hb.live_pos x (hlive x hx).1
  entry_lt j hj := by
    rw [hentry] at hj
    exact hb.entry_lt j (hb.clear h0 hpid hc hj).1
  entry_live x hx := by
    -- the entry that was cleared is that of `c`, and `x` is another child
    obtain ⟨hx', hne⟩ := hlive x hx
    have hport : x.port ≠ i := by
      rintro rfl
      refine hne (hb.eq_of_pid (mem_children_of_live hx') hc ?_)
      rw [← hpid, hb.entry_live x hx']
    rw [hentry, Function.update_of_ne hport]
    exact hb.entry_live x hx'
  entry j hj := by
    rw [hentry] at hj
    obtain ⟨hj0, heq, hne⟩ := hb.clear h0 hpid hc hj
    rw [hentry, heq]
    exact hkeep _ (hb.entry j hj0) hne
  waiting hw hnil := by
    rw [hnil] at hperm
    exact hb.waiting (hwaiting ▸ hw) hperm.nil_eq.symm

end Books

/-- What `kill` does to a child. -/
theorem kill_cases {s s' : State} {pid : Nat} (h : kill s pid = some s') :
    (∃ c ∈ s.live, c.pid = pid
        ∧ s' = { s with live := s.live.erase c, killed := s.killed ++ [(c, .signaled sigkill)] })
      ∨ (∃ z ∈ s.dead, z.1.pid = pid
        ∧ s' = { s with dead := s.dead.erase z, killed := s.killed ++ [z] })
      ∨ (∃ z ∈ s.killed, z.1.pid = pid ∧ s' = s) := by
  rw [kill] at h
  split at h
  · next c hfind =>
      exact Or.inl ⟨c, List.mem_of_find?_eq_some hfind, by simpa using List.find?_some hfind,
        (Option.some.inj h).symm⟩
  · split at h
    · next z hfind =>
        exact Or.inr (Or.inl ⟨z, List.mem_of_find?_eq_some hfind, by simpa using List.find?_some hfind,
          (Option.some.inj h).symm⟩)
    · split at h
      · next hmem =>
          obtain ⟨z, hz, hpid⟩ := List.mem_map.mp hmem
          exact Or.inr (Or.inr ⟨z, hz, hpid, (Option.some.inj h).symm⟩)
      · cases h

/-- Taking an element out of a list and appending it behind the next. -/
theorem perm_erase_append {α : Type*} [BEq α] [LawfulBEq α] {x : α} {l : List α} (h : x ∈ l)
    (m : List α) : List.Perm (l.erase x ++ (m ++ [x])) (l ++ m) := by
  rw [← List.append_assoc]
  calc List.Perm (l.erase x ++ m ++ [x]) (x :: l.erase x ++ m) := List.perm_append_singleton _ _
    List.Perm _ (l ++ m) := (List.perm_cons_erase h).symm.append_right m

namespace Books

variable {s s' : State}

/-- A live child is killed through its entry. -/
theorem killed_live (hb : Books [] s) {c : Child} {i : Nat} (hc : c ∈ s.live)
    (h0 : s.portChildPid i ≠ 0) (hpid : c.pid = s.portChildPid i) (status : Status) :
    Books [] { s with
      portChildPid := Function.update s.portChildPid i 0
      childCount := s.childCount - 1
      live := s.live.erase c
      killed := s.killed ++ [(c, status)] } := by
  have hchild : c ∈ [] ++ s.children := mem_children_of_live hc
  refine hb.settle h0 hpid.symm hchild rfl rfl rfl ?_ ?_ ?_ ?_
  · show List.Perm (s.live.erase c
      ++ (s.dead.map Prod.fst ++ (s.killed ++ [(c, status)]).map Prod.fst)) s.children
    rw [List.map_append, ← List.append_assoc (s.dead.map Prod.fst)]
    exact perm_erase_append hc _
  · have hpos := List.length_pos_of_mem hc
    have hlen := List.length_erase_of_mem hc
    show (s.live.erase c).length + s.dead.length + 1 = s.live.length + s.dead.length
    omega
  · intro x hx
    rw [hb.live_nodup.mem_erase_iff] at hx
    exact hx.symm
  · intro x hx hne
    show x ∈ s.live.erase c ++ s.dead.map Prod.fst
    rw [List.mem_append, hb.live_nodup.mem_erase_iff]
    exact (List.mem_append.mp hx).imp_left fun hx => ⟨hne, hx⟩

/-- A child that has ended and was not reported is killed through its entry. -/
theorem killed_dead (hb : Books [] s) {z : Child × Status} {i : Nat} (hz : z ∈ s.dead)
    (h0 : s.portChildPid i ≠ 0) (hpid : z.1.pid = s.portChildPid i) :
    Books [] { s with
      portChildPid := Function.update s.portChildPid i 0
      childCount := s.childCount - 1
      dead := s.dead.erase z
      killed := s.killed ++ [z] } := by
  have hchild : z.1 ∈ [] ++ s.children := mem_children_of_dead hz
  refine hb.settle h0 hpid.symm hchild rfl rfl rfl ?_ ?_ ?_ ?_
  · refine List.Perm.append_left s.live ?_
    show List.Perm ((s.dead.erase z).map Prod.fst ++ (s.killed ++ [z]).map Prod.fst)
      (s.dead.map Prod.fst ++ s.killed.map Prod.fst)
    rw [← List.map_append, ← List.map_append]
    exact (perm_erase_append hz _).map _
  · have hpos := List.length_pos_of_mem hz
    have hlen := List.length_erase_of_mem hz
    show s.live.length + (s.dead.erase z).length + 1 = s.live.length + s.dead.length
    omega
  · exact fun x hx => ⟨hx, hb.live_ne_dead hx hz⟩
  · intro x hx hne
    rcases List.mem_append.mp hx with hx | hx
    · exact List.mem_append_left _ hx
    · obtain ⟨w, hw, rfl⟩ := List.mem_map.mp hx
      have hwz : w ≠ z := fun e => hne (congrArg Prod.fst e)
      exact List.mem_append_right _ (List.mem_map_of_mem ((List.mem_erase_of_ne hwz).mpr hw))

/-- **A kill keeps the books.** -/
theorem portKillProc (hb : Books [] s) {i : Nat} (h : portKillProc s i = some s') :
    Books [] s' := by
  rw [Supervision.portKillProc] at h
  split at h
  · next hguard =>
      obtain ⟨-, h0⟩ := hguard
      obtain ⟨s₁, hkill, rfl⟩ := Option.map_eq_some_iff.mp h
      rcases kill_cases hkill with ⟨c, hc, hpid, rfl⟩ | ⟨z, hz, hpid, rfl⟩ | ⟨z, hz, hpid, -⟩
      · exact hb.killed_live hc h0 hpid _
      · exact hb.killed_dead hz h0 hpid
      · -- a child that was killed before has no entry any more
        have hmem := hb.entry i h0
        have hchild : z.1 ∈ [] ++ s.children := mem_children_of_killed hz
        have heq := hb.eq_of_entry hchild h0 hpid.symm
        rw [← heq] at hmem
        exact absurd rfl (hb.ne_killed hmem hz)
  · cases h

/-- The child of an entry can be killed. -/
theorem portKillProc_isSome (hb : Books [] s) {i : Nat} (h0 : s.portChildPid i ≠ 0) :
    (Supervision.portKillProc s i).isSome = true := by
  have hkill : (kill s (s.portChildPid i)).isSome = true := by
    rw [kill]
    cases hlive : s.live.find? (·.pid = s.portChildPid i) with
    | some c => rfl
    | none =>
        cases hdead : s.dead.find? (·.1.pid = s.portChildPid i) with
        | some z => rfl
        | none =>
            -- an entry stands for a child that lives, or was not reported
            exfalso
            rcases List.mem_append.mp (hb.entry i h0) with hmem | hmem
            · exact absurd hmem List.not_mem_nil
            · rcases List.mem_append.mp hmem with hmem | hmem
              · have hno := List.find?_eq_none.mp hlive _ hmem
                simp at hno
              · obtain ⟨z, hz, heq⟩ := List.mem_map.mp hmem
                have hno := List.find?_eq_none.mp hdead z hz
                rw [heq] at hno
                simp at hno
  rw [Supervision.portKillProc, if_pos ⟨hb.entry_lt i h0, h0⟩, Option.isSome_map]
  exact hkill

/-- A child that ends goes on to count until it is reported. -/
theorem ends (hb : Books [] s) {c : Child} (hc : c ∈ s.live) (status : Status) :
    Books [] { s with live := s.live.erase c, dead := s.dead ++ [(c, status)] } where
  count := by
    have hcount := hb.count
    have hpos := List.length_pos_of_mem hc
    have hlen := List.length_erase_of_mem hc
    simp only [List.length_append, List.length_singleton, Nat.cast_add, Nat.cast_one]
    omega
  pids_nodup := by
    have hperm : List.Perm (s.live.erase c ++ ((s.dead ++ [(c, status)]).map Prod.fst
        ++ s.killed.map Prod.fst)) s.children := by
      have h := (perm_erase_append hc (s.dead.map Prod.fst)).append_right (s.killed.map Prod.fst)
      simpa only [State.children, List.map_append, List.map_cons, List.map_nil, List.append_assoc]
        using h
    exact (hperm.map Child.pid).nodup_iff.mpr hb.pids_nodup
  live_pos x hx := hb.live_pos x (List.mem_of_mem_erase hx)
  entry_lt := hb.entry_lt
  entry_live x hx := hb.entry_live x (List.mem_of_mem_erase hx)
  entry j hj := by
    have hmem := hb.entry j hj
    simp only [List.nil_append, List.map_append, List.map_cons, List.map_nil, List.mem_append,
      List.mem_singleton, hb.live_nodup.mem_erase_iff] at hmem ⊢
    tauto
  waiting _ := by simp [State.children]

/-! ## The loop -/

/-- A dead child that is reported no longer counts, but may still have an entry. -/
theorem reported (hb : Books [] s) {z : Child × Status} (hz : z ∈ s.dead) :
    Books [z.1] { s.returned with dead := s.dead.erase z } where
  count := by
    have hcount := hb.count
    have hpos := List.length_pos_of_mem hz
    have hlen := List.length_erase_of_mem hz
    simp only [State.returned]
    omega
  pids_nodup := by
    have hperm : List.Perm ([z.1] ++ (s.live ++ ((s.dead.erase z).map Prod.fst
        ++ s.killed.map Prod.fst))) s.children := by
      have hmiddle : List.Perm (z.1 :: (s.live ++ ((s.dead.erase z).map Prod.fst
          ++ s.killed.map Prod.fst))) (s.live ++ z.1 :: ((s.dead.erase z).map Prod.fst
          ++ s.killed.map Prod.fst)) := List.perm_middle.symm
      have hz' := ((List.perm_cons_erase hz).symm.map Prod.fst).append_right (s.killed.map Prod.fst)
      exact hmiddle.trans (hz'.append_left s.live)
    exact (hperm.map Child.pid).nodup_iff.mpr hb.pids_nodup
  live_pos := hb.live_pos
  entry_lt := hb.entry_lt
  entry_live := hb.entry_live
  entry j hj := by
    have hmem := hb.entry j hj
    simp only [List.nil_append, List.mem_append, List.mem_singleton, List.mem_map] at hmem ⊢
    rcases hmem with hmem | ⟨w, hw, heq⟩
    · exact Or.inr (Or.inl hmem)
    · by_cases hwz : w = z
      · exact Or.inl (heq ▸ congrArg Prod.fst hwz)
      · exact Or.inr (Or.inr ⟨w, (List.mem_erase_of_ne hwz).mpr hw, heq⟩)
  waiting h := by cases h

/-- A reported child without an entry is forgotten. -/
theorem forget {c : Child} (hb : Books [c] s)
    (hno : ∀ i, s.portChildPid i ≠ 0 → s.portChildPid i ≠ c.pid) : Books [] s where
  count := hb.count
  pids_nodup := by
    have h := hb.pids_nodup
    rw [List.map_append] at h
    exact h.of_append_right
  live_pos := hb.live_pos
  entry_lt := hb.entry_lt
  entry_live := hb.entry_live
  entry j hj := by
    rcases List.mem_append.mp (hb.entry j hj) with hmem | hmem
    · rw [List.mem_singleton] at hmem
      exact absurd (congrArg Child.pid hmem) (hno j hj)
    · exact hmem
  waiting := hb.waiting

/-- Clearing the entry of a reported child. -/
theorem cleared {c : Child} (hb : Books [c] s) {i : Nat} (h0 : s.portChildPid i ≠ 0)
    (hpid : s.portChildPid i = c.pid) :
    Books [] { s with portChildPid := Function.update s.portChildPid i 0 } := by
  have hc : c ∈ [c] ++ s.children := List.mem_append_left _ List.mem_cons_self
  refine forget (c := c) ?_ ?_
  · refine ⟨hb.count, hb.pids_nodup, hb.live_pos, ?_, ?_, ?_, hb.waiting⟩
    · exact fun j hj => hb.entry_lt j (hb.clear h0 hpid hc hj).1
    · intro x hx
      have hport : x.port ≠ i := by
        rintro rfl
        have heq : x = c := by
          refine hb.eq_of_pid (mem_children_of_live hx) hc ?_
          rw [← hpid, hb.entry_live x hx]
        have h := hb.pids_nodup.of_map
        exact List.disjoint_of_nodup_append h (List.mem_singleton.mpr heq)
          (List.mem_append_left _ hx)
      dsimp only
      rw [Function.update_of_ne hport]
      exact hb.entry_live x hx
    · intro j hj
      obtain ⟨hj0, heq, -⟩ := hb.clear h0 hpid hc hj
      dsimp only
      rw [heq]
      exact hb.entry j hj0
  · intro j hj heq
    obtain ⟨hj0, hsame, hne⟩ := hb.clear h0 hpid hc hj
    dsimp only at heq
    rw [hsame] at heq
    exact hne (hb.eq_of_entry hc hj0 heq).symm

end Books

theorem entryOf_eq_some {s : State} {pid i : Nat} (h : entryOf s pid = some i) :
    s.portChildPid i ≠ 0 ∧ s.portChildPid i = pid := by
  have hfound := List.find?_some h
  simpa using hfound

theorem entryOf_eq_none {s : State} {pid : Nat} (hlt : ∀ i, s.portChildPid i ≠ 0 → i < 64)
    (h : entryOf s pid = none) : ∀ i, s.portChildPid i ≠ 0 → s.portChildPid i ≠ pid := by
  intro i h0 heq
  have hno := List.find?_eq_none.mp h i (List.mem_range.mpr (hlt i h0))
  rw [heq] at h0 hno
  simp [h0] at hno

/-- A launch overwrites the entry of its port. -/
theorem portChildProc_clear (s : State) (i pid : Nat) :
    portChildProc { s with portChildPid := Function.update s.portChildPid i 0 } i pid
      = portChildProc s i pid := by
  simp only [portChildProc, Function.update_idem]
  rfl

namespace Books

variable {s s' : State}

/-- The iteration for a child that ended on its own keeps the books, unless the child was killed
by another process while it had its entry. -/
theorem onEnded {z : Child × Status} (hb : Books [z.1] s)
    (hkill : z.2 = .signaled sigkill → s.portChildPid z.1.port ≠ z.1.pid) {fresh : Nat}
    (h : onEnded s z fresh = some s') : Books [] s' := by
  have hz : z.1 ∈ [z.1] ++ s.children := List.mem_append_left _ List.mem_cons_self
  unfold Supervision.onEnded at h
  split at h
  · -- a normal exit
    split at h
    · next i hentry =>
        obtain ⟨h0, hpid⟩ := entryOf_eq_some hentry
        exact Option.some.inj h ▸ hb.cleared h0 hpid
    · next hnone => exact Option.some.inj h ▸ hb.forget (entryOf_eq_none hb.entry_lt hnone)
  · next sig hsig =>
      split at h
      · next hsigkill =>
          subst hsigkill
          refine Option.some.inj h ▸ hb.forget fun i h0 hpid => hkill hsig ?_
          have heq := hb.eq_of_entry hz h0 hpid
          rw [heq]
      · -- another signal: the child is launched again
        split at h
        · next i hentry =>
            obtain ⟨h0, hpid⟩ := entryOf_eq_some hentry
            have hcleared := hb.cleared h0 hpid
            rw [← portChildProc_clear] at h
            refine hcleared.portChildProc (fun c hc hport => ?_) h
            subst hport
            have hself := hcleared.entry_live c hc
            exact hcleared.live_pos c hc (hself.symm.trans (Function.update_self _ _ _))
        · next hnone => exact Option.some.inj h ▸ hb.forget (entryOf_eq_none hb.entry_lt hnone)

/-- **The step lemma.** -/
theorem step (hb : Books [] s) {a : Event} (h : step s a = some s') (hC : Accountable s a) :
    Books [] s' := by
  cases a with
  | launch i pid => exact hb.portChildProc hC h
  | kill i => exact hb.portKillProc h
  | ends c status =>
      simp only [Supervision.step] at h
      split at h
      · next hc => exact Option.some.inj h ▸ hb.ends hc status
      · cases h
  | waits =>
      simp only [Supervision.step] at h
      split at h
      · next hguard =>
          obtain rfl := Option.some.inj h
          refine ⟨hb.count, hb.pids_nodup, hb.live_pos, hb.entry_lt, hb.entry_live, hb.entry, ?_⟩
          -- the counter is not 0, so there is a child to wait for
          intro _ hnil
          have hcount := hb.count
          obtain ⟨hlive, hrest⟩ := List.append_eq_nil_iff.mp hnil
          obtain ⟨hdead, -⟩ := List.append_eq_nil_iff.mp hrest
          have hlive' : s.live = [] := hlive
          have hdead' : s.dead = [] := List.map_eq_nil_iff.mp hdead
          rw [hlive', hdead'] at hcount
          exact hguard.2 (by simpa using hcount)
      · cases h
  | reports z fresh =>
      obtain ⟨hz, hkill⟩ := hC
      simp only [Supervision.step] at h
      split at h
      · obtain ⟨s₁, hreap, hended⟩ := Option.bind_eq_some_iff.mp h
        have hz' : z ∈ s.returned.dead := hz
        rw [reap, if_pos hz', Option.some.injEq] at hreap
        subst hreap
        exact (hb.reported hz).onEnded hkill hended
      · cases h
  | reportsStopped c z fresh => exact hC.elim
  | fails =>
      simp only [Supervision.step] at h
      split at h
      · next hguard =>
          exact absurd (List.map_eq_nil_iff.mp hguard.2) (hb.waiting (by simpa using hguard.1))
      · cases h

theorem start : Books [] State.start where
  count := rfl
  pids_nodup := List.nodup_nil
  live_pos := by simp [State.start]
  entry_lt := by simp [State.start]
  entry_live := by simp [State.start]
  entry := by simp [State.start]
  waiting h := by cases h

end Books

/-! ## Runs -/

/-- The invariant of the supervisor. -/
def Supervisor.Books : Supervisor → Prop
  | .running s => Supervision.Books [] s
  | .lost => False

/-- The supervisor survives the events that meet the condition. -/
theorem Supervisor.Books.step {p p' : Supervisor} {a : Event} (hb : p.Books) (h : p.step a = some p')
    (hC : p.Accountable a) : p'.Books := by
  cases p with
  | lost => exact hb.elim
  | running s =>
      rw [Supervisor.step] at h
      cases hs : Supervision.step s a with
      | some s' =>
          rw [hs] at h
          exact Option.some.inj h ▸ Supervision.Books.step hb hs hC
      | none =>
          exfalso
          rw [hs] at h
          cases a with
          | kill i =>
              have hsome := Supervision.Books.portKillProc_isSome hb hC
              have hnone : Supervision.portKillProc s i = none := hs
              rw [hnone] at hsome
              cases hsome
          | launch _ _ | ends _ _ | waits | reports _ _ | reportsStopped _ _ _ | fails => cases h

/-- **The books are kept in every run that meets the condition**, whatever the order of callbacks,
ends of children and iterations of the loop, and the supervisor survives it. -/
theorem books_kept (events : List Event)
    (h : Lts.Along Supervisor.step Supervisor.Accountable (.running State.start) events) :
    Lts.Always Supervisor.step Supervisor.Kept (.running State.start) events := by
  refine Lts.always_of_along (I := Supervisor.Books) ?_ (fun _ _ _ hb hstep hC => hb.step hstep hC)
    Books.start h
  intro p hb
  cases p with
  | running s => exact Books.kept hb
  | lost => exact hb

/-- Two children are launched; one crashes and is launched again, then its port is killed and
launched by timers while the other child exits. -/
def accountableRun : List Event :=
  [.launch 0 100, .launch 1 101, .waits, .ends ⟨100, 0⟩ (.signaled 11),
    .reports (⟨100, 0⟩, .signaled 11) 102, .kill 0, .launch 0 103, .waits, .ends ⟨101, 1⟩ .exited,
    .reports (⟨101, 1⟩, .exited) 0]

theorem books_kept_accountableRun :
    (Lts.exec Supervisor.step (.running State.start) accountableRun).isSome = true
      ∧ Lts.Always Supervisor.step Supervisor.Kept (.running State.start) accountableRun :=
  ⟨by decide, books_kept accountableRun (by decide)⟩

/-- Five runs after which the books are wrong: a child that a timer killed is reported; a child is
stopped; a port is launched twice; a child is killed from outside; a timer ends a port without a
child. -/
theorem books_wrong :
    ¬ Lts.Always Supervisor.step Supervisor.Kept (.running State.start)
        [.launch 0 100, .launch 1 101, .waits, .kill 0, .reports (⟨100, 0⟩, .signaled 9) 0]
      ∧ ¬ Lts.Always Supervisor.step Supervisor.Kept (.running State.start)
        [.launch 0 100, .waits, .reportsStopped ⟨100, 0⟩ (⟨100, 0⟩, .signaled 9) 101]
      ∧ ¬ Lts.Always Supervisor.step Supervisor.Kept (.running State.start)
        [.launch 0 100, .launch 0 101]
      ∧ ¬ Lts.Always Supervisor.step Supervisor.Kept (.running State.start)
        [.launch 0 100, .launch 1 101, .waits, .ends ⟨100, 0⟩ (.signaled 9),
          .reports (⟨100, 0⟩, .signaled 9) 0]
      ∧ ¬ Lts.Always Supervisor.step Supervisor.Kept (.running State.start) [.kill 0] := by
  refine ⟨fun h => ?_, fun h => ?_, fun h => ?_, fun h => ?_, fun h => ?_⟩
  · obtain ⟨hcount, -⟩ := h.last rfl rfl
    exact absurd hcount (by decide)
  · obtain ⟨hcount, -⟩ := h.last rfl rfl
    exact absurd hcount (by decide)
  · obtain ⟨-, hports, -⟩ := h.last rfl rfl
    exact absurd hports (by decide)
  · obtain ⟨-, -, hentries, -⟩ := h.last rfl rfl
    exact absurd ((hentries 0).mp (by decide)) (by decide)
  · exact h.last rfl

end Monitor.Supervision
