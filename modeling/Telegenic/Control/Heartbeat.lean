import Telegenic.Control.Order

/-! What becomes of the heartbeats. As long as the socket takes their commands
and the device answers them with an acknowledge of the kind asked for, every
heartbeat that is queued is confirmed, or control is lost over it, or the worker
shuts down first. -/

set_option autoImplicit false

namespace Telegenic.Control

open Library Proto Proto.Gvcp

def heartbeatMarks (journal : List ControlEvent) : List HeartbeatMark :=
  journal.filterMap fun
    | .heartbeat mark => some mark
    | _ => none

/-- The marks of heartbeats that were queued and settled, one after the other. -/
def settledMarks (outcomes : List HeartbeatMark) : List HeartbeatMark :=
  outcomes.flatMap fun outcome => [.queued, outcome]

def Docket.pending (d : Docket) : List Op :=
  d.inflight.toList ++ d.queue

/-- Every heartbeat but the one that is pending was confirmed, or control was
lost over it. -/
structure Docket.Kept (d : Docket) (outcomes : List HeartbeatMark) : Prop where
  marks : heartbeatMarks d.journal =
    settledMarks outcomes ++ if d.pending.any Op.isHeartbeat then [.queued] else []
  known : ∀ outcome ∈ outcomes, outcome = .confirmed ∨ outcome = .lost
  lost : .lost ∈ outcomes ↔ d.controlLost = true

section Marks

theorem heartbeatMarks_append (journal rest : List ControlEvent) :
    heartbeatMarks (journal ++ rest) = heartbeatMarks journal ++ heartbeatMarks rest :=
  List.filterMap_append

theorem heartbeatMarks_note {events : List ControlEvent} (isNote : ∀ event ∈ events, event.IsNote) :
    heartbeatMarks events = [] := by
  refine List.filterMap_eq_nil_iff.mpr fun event present => ?_
  have note := isNote event present
  cases event with
  | sent => rfl
  | _ => exact note.elim

theorem heartbeatMarks_failure {op : Op} (user : op.isHeartbeat = false) (error : CameraError) :
    heartbeatMarks [failure op error] = [] := by
  cases op with
  | heartbeat => cases user
  | _ => rfl

variable {d later : Docket} {outcomes : List HeartbeatMark}

theorem Docket.Kept.unmoved {events : List ControlEvent} (kept : d.Kept outcomes)
    (journal : later.journal = d.journal ++ events) (silent : heartbeatMarks events = [])
    (pending : later.pending.any Op.isHeartbeat = d.pending.any Op.isHeartbeat)
    (lost : later.controlLost = d.controlLost) : later.Kept outcomes := by
  refine ⟨?_, kept.known, ?_⟩
  · rw [journal, heartbeatMarks_append, silent, List.append_nil, pending]
    exact kept.marks
  · rw [lost]
    exact kept.lost

theorem Docket.Kept.settled {events : List ControlEvent} {outcome : HeartbeatMark} (kept : d.Kept outcomes)
    (journal : later.journal = d.journal ++ events) (mark : heartbeatMarks events = [outcome])
    (was : d.pending.any Op.isHeartbeat = true) (gone : later.pending.any Op.isHeartbeat = false)
    (known : outcome = .confirmed ∨ outcome = .lost)
    (lost : later.controlLost = (d.controlLost || decide (outcome = .lost))) :
    later.Kept (outcomes ++ [outcome]) := by
  refine ⟨?_, ?_, ?_⟩
  · rw [journal, heartbeatMarks_append, kept.marks, mark, if_pos was, gone, if_neg Bool.false_ne_true, List.append_nil,
      settledMarks, settledMarks, List.flatMap_append, List.append_assoc]
    rfl
  · intro other present
    rcases List.mem_append.mp present with old | new
    · exact kept.known other old
    · rw [List.mem_singleton.mp new]
      exact known
  · rw [List.mem_append, kept.lost, lost, Bool.or_eq_true, decide_eq_true_iff, List.mem_singleton]
    exact or_congr_right eq_comm

theorem any_isHeartbeat_eq_false {queue : List Op} (none : ∀ op ∈ queue, op.isHeartbeat = false) :
    queue.any Op.isHeartbeat = false := by
  rw [List.any_eq_false]
  intro op present isHeartbeat
  rw [none op present] at isHeartbeat
  cases isHeartbeat

theorem resumeQueue_any {op next : Op} {queue : List Op} (user : op.isHeartbeat = false)
    (same : next.isHeartbeat = false) :
    (resumeQueue next queue).any Op.isHeartbeat = (op :: queue).any Op.isHeartbeat := by
  rw [resumeQueue.eq_def]
  split <;> simp [user, same]

theorem Docket.Step.kept (step : Docket.Step True d later) (ordered : d.Ordered) (kept : d.Kept outcomes) :
    ∃ outcomes, later.Kept outcomes := by
  cases step with
  | note isNote => exact ⟨outcomes, kept.unmoved rfl (heartbeatMarks_note isNote) rfl rfl⟩
  | enter => exact ⟨outcomes, kept.unmoved rfl rfl rfl rfl⟩
  | post => exact ⟨outcomes, kept.marks, kept.known, kept.lost⟩
  | skip => exact ⟨outcomes, kept.marks, kept.known, kept.lost⟩
  | take isUser next owner =>
    refine ⟨outcomes, kept.unmoved rfl rfl ?_ rfl⟩
    simp [Docket.pending, Op.isHeartbeat_eq_false owner]
  | due notInflight notQueued =>
    have idle : d.pending.any Op.isHeartbeat = false := by
      refine any_isHeartbeat_eq_false fun op present => ?_
      rcases List.mem_append.mp present with inflight | queued
      · cases isHeartbeat : op.isHeartbeat with
        | false => rfl
        | true =>
          rw [Op.eq_heartbeat isHeartbeat] at inflight
          exact absurd (Option.mem_toList.mp inflight) notInflight
      · exact notQueued op queued
    refine ⟨outcomes, ?_, kept.known, kept.lost⟩
    rw [heartbeatMarks_append, kept.marks, idle]
    simp [Docket.pending, Op.isHeartbeat, heartbeatMarks]
  | resume inflight isUser same =>
    refine ⟨outcomes, kept.unmoved rfl rfl ?_ rfl⟩
    rw [Docket.pending, Docket.pending, inflight]
    exact resumeQueue_any (Op.isHeartbeat_eq_false isUser) (Op.isHeartbeat_eq_false same)
  | launch idle first =>
    refine ⟨outcomes, kept.unmoved rfl rfl ?_ rfl⟩
    rw [Docket.pending, Docket.pending, idle, first]
    rfl
  | @refuse op send queue payloads datagram idle first payload unreliable =>
    have user : op.isHeartbeat = false := Bool.eq_false_iff.mpr fun isHeartbeat => unreliable isHeartbeat trivial
    refine ⟨outcomes, kept.unmoved rfl (heartbeatMarks_failure user _) ?_ rfl⟩
    rw [Docket.pending, Docket.pending, idle, first]
    simp [user]
  | settle inflight settles =>
    cases settles with
    | user isUser =>
      refine ⟨outcomes, kept.unmoved rfl rfl ?_ (Bool.or_false _)⟩
      rw [Docket.pending, Docket.pending, inflight]
      simp [Op.isHeartbeat_eq_false isUser]
    | confirmed =>
      have was : d.pending.any Op.isHeartbeat = true := by rw [Docket.pending, inflight]; rfl
      exact ⟨_, kept.settled rfl rfl was (any_isHeartbeat_eq_false (ordered.single inflight)) (.inl rfl) rfl⟩
    | lost =>
      have was : d.pending.any Op.isHeartbeat = true := by rw [Docket.pending, inflight]; rfl
      exact ⟨_, kept.settled rfl rfl was (any_isHeartbeat_eq_false (ordered.single inflight)) (.inr rfl) rfl⟩
    | failed unreliable => exact absurd trivial unreliable

end Marks

namespace ControlWorld

variable {w : ControlWorld}

def failedMarks (ops : List Op) (error : CameraError) : List HeartbeatMark :=
  (ops.filter Op.isHeartbeat).map fun _ => .failed error

theorem failure_marks (error : CameraError) (ops : List Op) :
    heartbeatMarks (ops.map (failure · error)) = failedMarks ops error := by
  induction ops with
  | nil => rfl
  | cons op rest ih =>
    cases op with
    | heartbeat => exact congrArg (HeartbeatMark.failed error :: ·) ih
    | _ => exact ih

theorem shutdown_marks (answers : Answers) (arriving : List ToWorker) (w : ControlWorld) :
    heartbeatMarks (w.shutdown answers arriving).journal =
      heartbeatMarks w.journal ++ failedMarks w.docket.pending w.shutdownError := by
  have inflight : heartbeatMarks (w.runner.inflight.toList.flatMap fun inflight =>
      [.ended inflight.id, failure inflight.op w.shutdownError]) = failedMarks w.docket.inflight.toList w.shutdownError := by
    rw [docket]
    cases w.runner.inflight with
    | none => rfl
    | some inflight => exact failure_marks w.shutdownError [inflight.op]
  have entered : heartbeatMarks (entries arriving) = [] :=
    List.filterMap_eq_nil_iff.mpr fun event present => by
      obtain ⟨handle, rfl⟩ := mem_entries present
      rfl
  have refused : heartbeatMarks (refusals w.shutdownError (w.channel ++ arriving)) = [] :=
    List.filterMap_eq_nil_iff.mpr fun event present => by
      obtain ⟨handle, rfl | rfl⟩ := mem_refusals present <;> rfl
  have released : heartbeatMarks (w.parting answers) = failedMarks w.docket.pending w.shutdownError := by
    rw [parting, heartbeatMarks_append, heartbeatMarks_append, inflight, failure_marks, Docket.pending, failedMarks,
      failedMarks, failedMarks, List.filter_append, List.map_append]
    split <;> exact List.append_nil _
  rw [shutdown_journal]
  simp only [heartbeatMarks_append, entered, refused, released, List.append_nil]

theorem failedMarks_pending {error : CameraError} (ordered : w.docket.Ordered) :
    failedMarks w.docket.pending error = if w.docket.pending.any Op.isHeartbeat then [.failed error] else [] := by
  have few : (w.docket.pending.filter Op.isHeartbeat).length ≤ 1 := by
    rw [← List.countP_eq_length_filter]
    exact ordered.countP_le_one
  rw [failedMarks]
  cases heartbeats : w.docket.pending.filter Op.isHeartbeat with
  | nil =>
    have none : w.docket.pending.any Op.isHeartbeat = false :=
      List.any_eq_false.mpr (List.filter_eq_nil_iff.mp heartbeats)
    rw [none]
    rfl
  | cons op rest =>
    rw [heartbeats] at few
    have present : op ∈ w.docket.pending.filter Op.isHeartbeat := by
      rw [heartbeats]
      exact List.mem_cons_self ..
    have some : w.docket.pending.any Op.isHeartbeat = true :=
      List.any_eq_true.mpr ⟨op, (List.mem_filter.mp present).1, (List.mem_filter.mp present).2⟩
    rw [some, if_pos rfl, List.length_eq_zero_iff.mp (Nat.le_zero.mp (Nat.le_of_succ_le_succ few))]
    rfl

theorem loop_kept (cfg : GigeConfig) (now : Nat) (turns : List Turn)
    (served : Along cfg HeartbeatServed ((spawn cfg now).loopHandlers cfg turns) (spawn cfg now)) :
    ∃ w outcomes, (spawn cfg now).loop cfg turns = .ok w ∧ w.docket.Ordered ∧ w.docket.Kept outcomes := by
  obtain ⟨w, result, steps⟩ := handleAll_steps cfg ((spawn cfg now).loopHandlers cfg turns) (spawn cfg now)
    (spawn_ordered cfg now) (fun (_ : True) => served)
  have initial : (spawn cfg now).docket.Kept [] := by
    refine ⟨rfl, ?_, ?_⟩
    · intro outcome present
      cases present
    · exact ⟨(fun lost => by cases lost), fun lost => by cases lost⟩
  obtain ⟨ordered, outcomes, kept⟩ := steps.preserve (fun d => ∃ outcomes, d.Kept outcomes)
    (fun step ordered ⟨outcomes, kept⟩ => step.kept ordered kept) (spawn_ordered cfg now) ⟨[], initial⟩
  exact ⟨w, outcomes, (loop_eq turns _).trans result, ordered, kept⟩

end ControlWorld

end Telegenic.Control
