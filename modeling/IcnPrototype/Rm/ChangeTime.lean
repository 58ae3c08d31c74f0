import IcnPrototype.Rm.Agreement

set_option autoImplicit false

/-! # When a pair agrees on the time of the next change

The timer of a `pid_a` reaches the `ack` handler through `time_huancun_pid_a`. Unlike
`pid_huancun_pid_a`, which has a row per neighbour, this is one variable for all of them: a
`pid_a` of another neighbour that arrives between the `pid_a` and the `ack` of `R` overwrites
it, and the `ack` commits the timer of the other negotiation.

`times_agree_iff` is the exact condition: the pair agrees on `pid_change_time` in every quiet
state of a run if and only if, at every `ack` of `R` after which nothing is in flight, the last
`pid_a` that `I` handled at all carries the timer of the last `pid_a` it handled from `R`.
-/

namespace Rm

open Host

/-- The timer of the last `pid_a` that `I` handled, whoever sent it. -/
def lastTimerAt (I : Nid) (delivered : List Delivery) : Option UInt32 :=
  delivered.findSome? fun d => if d.dst = I then d.timer else none

/-- In a quiet state after at least one `ack` of `R`, both nodes have the same
`pid_change_time`. -/
def TimesAgree (I R : Nid) (n : Net) : Prop :=
  n.chan I R = [] → n.chan R I = [] → ⟨R, I, .ack⟩ ∈ n.delivered →
    nodeTime (n.rm I).headWxb R = nodeTime (n.rm R).headWxb I

/-- The step is not the last `ack` of a negotiation whose timer the `pid_a` of another
negotiation has overwritten. -/
def Undisturbed (I R : Nid) (n : Net) (a : Action) : Prop :=
  ∀ rand room, a = .deliver R I rand room → n.chan I R = [] → n.chan R I = [.ack] →
    lastTimerAt I n.delivered = lastTimerFrom R I n.delivered

/-! ## `time_huancun_pid_a` -/

/-- Only a `pid_a` writes `time_huancun_pid_a`, with its own timer. -/
theorem negotiate_time {host : Nid} {rand : Nat} {st st' : State} {m : Msg} {src : Nid}
    {room : Nat → UInt32} {sent : List Send}
    (h : negotiate host rand st (m.packet src room) = some (st', sent)) :
    st'.timeHuancunPidA = ((⟨src, host, m⟩ : Delivery).timer).getD st.timeHuancunPidA := by
  rw [negotiate_packet] at h
  cases m with
  | request =>
      obtain ⟨rfl, -⟩ := onPidChangeRequest_eq_some h
      rfl
  | pidA t pids =>
      obtain ⟨AS, j, -, -, -, -, -, rfl, -⟩ := onPidA_eq_some h
      exact Msg.packet_timer rfl src room
  | pidB t pids =>
      rcases onPidB_eq_some h with ⟨-, rfl, -⟩ | ⟨AS, announced, -, -, -, -, hc, -⟩
        | ⟨-, -, -, -, -, rfl, -⟩
      · rfl
      · exact (commit_eq_some hc).2.2.2.1
      · rfl
  | ack =>
      obtain ⟨AS, announced, -, -, hc, -⟩ := onAck_eq_some h
      exact (commit_eq_some hc).2.2.2.1

/-- `time_huancun_pid_a` holds the timer of the last `pid_a`. -/
def TimeCached (I : Nid) (n : Net) : Prop :=
  ∀ t, lastTimerAt I n.delivered = some t → (n.rm I).timeHuancunPidA = t

theorem TimeCached.step {I : Nid} {n n' : Net} {a : Action} (hi : TimeCached I n)
    (h : n.step a = some n') : TimeCached I n' := by
  cases a with
  | request src dst =>
      obtain ⟨-, rfl⟩ := Net.step_request h
      exact hi
  | deliver src dst rand room =>
      obtain ⟨m, rest, st', sent, -, hneg, rfl⟩ := Net.step_deliver h
      intro t ht
      by_cases hd : dst = I
      · subst hd
        show (Function.update n.rm dst st' dst).timeHuancunPidA = t
        rw [Function.update_self, negotiate_time hneg]
        cases htimer : (⟨src, dst, m⟩ : Delivery).timer with
        | none =>
            refine hi t ?_
            simpa [lastTimerAt, htimer] using ht
        | some t' => simpa [lastTimerAt, htimer] using ht
      · show (Function.update n.rm dst st' I).timeHuancunPidA = t
        rw [Function.update_of_ne (Ne.symm hd)]
        exact hi t (by simpa [lastTimerAt, hd] using ht)

/-- What was handled from `R` was handled. -/
theorem lastTimerAt_isSome {R I : Nid} {delivered : List Delivery} {t : UInt32}
    (h : lastTimerFrom R I delivered = some t) : ∃ t', lastTimerAt I delivered = some t' := by
  rw [← Option.isSome_iff_exists, lastTimerAt, List.findSome?_isSome_iff]
  have h' : (lastTimerFrom R I delivered).isSome = true := by rw [h]; rfl
  rw [lastTimerFrom, List.findSome?_isSome_iff] at h'
  obtain ⟨d, hd, hsome⟩ := h'
  refine ⟨d, hd, ?_⟩
  by_cases hcond : d.src = R ∧ d.dst = I
  · rw [if_pos hcond] at hsome
    rw [if_pos hcond.2]
    exact hsome
  · rw [if_neg hcond] at hsome
    cases hsome

/-! ## The exact condition -/

section Times

variable {I R : Nid} {k : Nat} {n n' : Net}

/-- Just before the last `ack` the responder holds the timer of the last `pid_a` from it. -/
theorem responder_time (hi : Handshake.Inv (view (fun t _ => t) I R n))
    (hup : n.chan I R = []) (hdown : n.chan R I = [.ack]) :
    nodeTime (n.rm R).headWxb I = lastTimerFrom R I n.delivered :=
  hi.peer_eq_cache (by rw [view, hup]; rfl) (by rw [view, hdown]; rfl)

theorem nodeTime_responder (hl : Linked I R k n) : ∃ t, nodeTime (n.rm R).headWxb I = some t := by
  obtain ⟨AS, hs, -⟩ := hl.responder
  exact ⟨AS.pidChangeTime, by simp [nodeTime, hs]⟩

/-- At the last `ack`, `time_huancun_pid_a` is what the responder has committed if and only if
the step is undisturbed. -/
theorem timeHuancun_eq_iff (hl : Linked I R k n)
    (hi : Handshake.Inv (view (fun t _ => t) I R n)) (hcached : TimeCached I n)
    (hup : n.chan I R = []) (hdown : n.chan R I = [.ack]) :
    some (n.rm I).timeHuancunPidA = nodeTime (n.rm R).headWxb I
      ↔ lastTimerAt I n.delivered = lastTimerFrom R I n.delivered := by
  obtain ⟨t, ht⟩ := nodeTime_responder hl
  have hfrom : lastTimerFrom R I n.delivered = some t := (responder_time hi hup hdown).symm.trans ht
  obtain ⟨t', ht'⟩ := lastTimerAt_isSome hfrom
  rw [ht, hfrom, ht', hcached t' ht']

/-- **The exact condition.** In a network in which every RM runs this program, the sponsor and
the responder agree on `pid_change_time` in every quiet state of a run after a completed
negotiation if and only if every step of the run is undisturbed. The sponsor may have any number of
neighbours; a run ends where the `pid_a` or `ack` of one with an `ID` of 10 or more would leave the
rows of `pid_huancun_pid_a`. -/
theorem times_agree_iff {n₀ : Net} (hc : Paired I R n₀) (hno : n₀.delivered = [])
    (actions : List Action) :
    Lts.Always Net.step (TimesAgree I R) n₀ actions
      ↔ Lts.Along Net.step (Undisturbed I R) n₀ actions := by
  obtain ⟨k, hl₀⟩ := hc.linked
  have hcached₀ : TimeCached I n₀ := by
    intro t ht
    rw [hno] at ht
    cases ht
  refine Lts.always_iff_along
    (I := fun n => Linked I R k n ∧ Handshake.Inv (view (fun t _ => t) I R n) ∧ TimeCached I n)
    ?_ ?_ ?_ ⟨hl₀, hc.inv _, hcached₀⟩
  · rintro n ⟨-, hi, -⟩ hup hdown -
    exact hi.agree (by rw [view, hup]; rfl) (by rw [view, hdown]; rfl)
  · rintro n a n' ⟨hl, hi, hcached⟩ h hundisturbed
    refine ⟨hl.step hc.ne h, ?_, hcached.step h⟩
    have hlast : ∀ rand room, a = .deliver R I rand room → n.chan I R = [] → n.chan R I = [.ack] →
        some (n.rm I).timeHuancunPidA = (view (fun t _ => t) I R n).cache := by
      intro rand room ha hup hdown
      rw [(timeHuancun_eq_iff hl hi hcached hup hdown).mpr (hundisturbed rand room ha hup hdown)]
      exact responder_time hi hup hdown
    have hr : RowsApart (fun (t : Option UInt32) (_ : List UInt32) => t) I n :=
      Or.inr fun _ _ _ => rfl
    rcases simulation hc.ne hc.sponsor hl hr hi h hlast with heq | hstep
    · rw [heq]
      exact hi
    · exact hi.step hstep
  · rintro n a n' ⟨hl, hi, hcached⟩ h hdisturbed hagree
    refine hdisturbed ?_
    rintro rand room rfl hup hdown
    refine (timeHuancun_eq_iff hl hi hcached hup hdown).mp ?_
    obtain ⟨m, rest, st', sent, hchan, hneg, rfl⟩ := Net.step_deliver h
    rw [hdown, List.cons.injEq] at hchan
    obtain ⟨rfl, rfl⟩ := hchan
    rw [negotiate_packet] at hneg
    -- the state after the `ack` is quiet, and the node of the sponsor has the cached timer
    have hview := @view_ack_eq _ (fun t _ => t) I R n hc.ne _ [] _ _ hneg
    have hquiet := congrArg Handshake.State.up hview
    have hown := congrArg Handshake.State.own hview
    have hpeer := congrArg Handshake.State.peer hview
    simp only [view, hup, List.map_nil, List.map_eq_nil_iff] at hquiet hown hpeer
    have htimes := hagree hquiet (chan_deliver_self (Ne.symm hc.ne)) List.mem_cons_self
    exact hown.symm.trans (htimes.trans hpeer)

end Times

/-- Two negotiations of the RM 1: the `pid_a` of the RM 3 arrives between the `pid_a` and the
`ack` of the RM 2. -/
def disturbedRun : List Action :=
  [.request (.ofByte 1) (.ofByte 2),
   .request (.ofByte 1) (.ofByte 3),
   .deliver (.ofByte 1) (.ofByte 2) 0 fun _ => 0,
   .deliver (.ofByte 1) (.ofByte 3) 5 fun _ => 0,
   .deliver (.ofByte 2) (.ofByte 1) 0 fun _ => 0,
   .deliver (.ofByte 3) (.ofByte 1) 0 fun _ => 0,
   .deliver (.ofByte 1) (.ofByte 2) 0 fun _ => 0,
   .deliver (.ofByte 2) (.ofByte 1) 0 fun _ => 0]

theorem times_agree_iff_disturbedRun :
    Lts.Always Net.step (TimesAgree (.ofByte 1) (.ofByte 2)) (Net.start threeRms) disturbedRun
      ↔ Lts.Along Net.step (Undisturbed (.ofByte 1) (.ofByte 2)) (Net.start threeRms) disturbedRun :=
  times_agree_iff configured_threeRms.toPaired rfl disturbedRun

/-- After this run the RM 1 has the time 35 for the RM 2, which has 30 for the RM 1. -/
theorem times_disagree :
    Paired (.ofByte 1) (.ofByte 2) (Net.start threeRms)
      ∧ ∃ n, Lts.exec Net.step (Net.start threeRms) disturbedRun = some n
        ∧ n.chan (.ofByte 1) (.ofByte 2) = [] ∧ n.chan (.ofByte 2) (.ofByte 1) = []
        ∧ ⟨.ofByte 2, .ofByte 1, .ack⟩ ∈ n.delivered
        ∧ nodeTime (n.rm (.ofByte 1)).headWxb (.ofByte 2) = some 35
        ∧ nodeTime (n.rm (.ofByte 2)).headWxb (.ofByte 1) = some 30 := by
  refine ⟨configured_threeRms.toPaired, ?_⟩
  have hrun : (Lts.exec Net.step (Net.start threeRms) disturbedRun).map
      (fun n => (n.chan (.ofByte 1) (.ofByte 2), n.chan (.ofByte 2) (.ofByte 1),
        decide (⟨.ofByte 2, .ofByte 1, .ack⟩ ∈ n.delivered),
        nodeTime (n.rm (.ofByte 1)).headWxb (.ofByte 2),
        nodeTime (n.rm (.ofByte 2)).headWxb (.ofByte 1))) = some ([], [], true, some 35, some 30) := by
    decide
  obtain ⟨n, hn, hshown⟩ := Option.map_eq_some_iff.mp hrun
  simp only [Prod.mk.injEq, decide_eq_true_eq] at hshown
  exact ⟨n, hn, hshown⟩

end Rm
