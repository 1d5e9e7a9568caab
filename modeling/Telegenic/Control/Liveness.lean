import Telegenic.Control.Vigil

/-! Whole runs. A worker whose heartbeats are no longer confirmed finds out that
it lost control. -/

set_option autoImplicit false

namespace Telegenic.Control

open Library Proto Proto.Gvcp

namespace ControlWorld

variable {cfg : GigeConfig} {cap : Nat} {rank : ℕ ×ₗ ℕ} {w later : ControlWorld}

section Due

theorem Sends.due {answers : Answers} {op : Op} {send : PendingSend} (sends : Sends cfg answers op send w later) :
    later.runner.heartbeatDue = w.runner.heartbeatDue := by
  cases sends <;> rfl

theorem Deed.due {handler : Handler} (deed : Deed cfg w handler later)
    (other : ∀ answers, handler ≠ .heartbeat answers) : later.runner.heartbeatDue = w.runner.heartbeatDue := by
  cases deed with
  | resumed _ _ _ _ sends => exact sends.due
  | pumped _ _ _ sends => exact sends.due
  | pushed message =>
    unfold push
    cases message.handle <;> rfl
  | postponed | queued => exact absurd rfl (other _)
  | _ => rfl

theorem Deed.heartbeat_due {answers : Answers} (deed : Deed cfg w (.heartbeat answers) later) :
    later.runner.heartbeatDue =
      if answers.now < w.runner.heartbeatDue then w.runner.heartbeatDue else answers.later + heartbeatPeriod cfg := by
  cases deed with
  | idles early => exact (if_pos early).symm
  | postponed due _ isNext | queued due _ isNext => exact isNext.trans (if_neg (not_lt.mpr due)).symm

theorem handleAll_due {handlers : List Handler} : ∀ {w : ControlWorld}, w.docket.Ordered →
    (∀ handler ∈ handlers, handler.IsArrival) → w.handleAll cfg handlers = .ok later →
      later.runner.heartbeatDue = w.runner.heartbeatDue := by
  induction handlers with
  | nil =>
    intro w _ _ result
    cases result
    rfl
  | cons handler rest ih =>
    intro w ordered arrivals result
    obtain ⟨next, first, others⟩ := Checked.bind_eq_ok result
    have deed := Deed.of_handle ordered first
    have kept : next.runner.heartbeatDue = w.runner.heartbeatDue := deed.due fun answers isHeartbeat => by
      have arrival := arrivals handler List.mem_cons_self
      rw [isHeartbeat] at arrival
      exact arrival
    exact (ih (deed.ordered ordered) (fun other present => arrivals other (List.mem_cons_of_mem _ present)) others).trans
      kept

theorem front_due {turn : Turn} {channel : List ToWorker} {last : ControlWorld}
    (ordered : w.docket.Ordered)
    (front : w.handleAll cfg (arrivalHandlers turn ++ messageHandlers channel) = .ok last) (answers : Answers) :
    (last.checkInflightDeadline cfg answers).docket.Ordered ∧
      (last.checkInflightDeadline cfg answers).runner.heartbeatDue = w.runner.heartbeatDue := by
  obtain ⟨last', again, steps⟩ := handleAll_steps cfg (arrivalHandlers turn ++ messageHandlers channel) w ordered
    fun (impossible : False) => impossible.elim
  cases front.symm.trans again
  have deadline := checkInflightDeadline_deed cfg answers last
  exact ⟨deadline.ordered (steps.ordered ordered),
    (deadline.due nofun).trans (handleAll_due ordered front_isArrival front)⟩

theorem turn_due {turn : Turn} (ordered : w.docket.Ordered) (running : w.runner.controlLost = false)
    (result : w.turn cfg turn = .ok (later, false)) :
    later.runner.heartbeatDue =
      if turn.heartbeat.now < w.runner.heartbeatDue then
        w.runner.heartbeatDue
      else
        turn.heartbeat.later + heartbeatPeriod cfg := by
  obtain ⟨channel, last, -, front, checked⟩ := turn_parts running result
  obtain ⟨ordered, kept⟩ := front_due ordered front turn.deadline
  have beats := checkHeartbeat_deed cfg turn.heartbeat (last.checkInflightDeadline cfg turn.deadline)
  have sent : Deed cfg _ (.pump turn.pump) later := .of_handle (beats.ordered ordered) checked
  rw [sent.due nofun, beats.heartbeat_due, kept]

end Due

section Turn

theorem front_vigil (front : w.runner.queue.head? = some .heartbeat) : ∃ cap rank, Vigil cap rank w := by
  cases busy : w.runner.inflight with
  | none => exact ⟨0, _, .next busy front⟩
  | some inflight =>
    cases isHeartbeat : inflight.op.isHeartbeat with
    | true => exact ⟨_, _, .flying busy (Op.eq_heartbeat isHeartbeat) le_rfl⟩
    | false => exact ⟨_, _, .behind busy isHeartbeat front le_rfl⟩

theorem pending_vigil (ordered : w.docket.Ordered) (pending : w.heartbeatPending = true) :
    ∃ cap rank, Vigil cap rank w := by
  rw [heartbeatPending, Bool.or_eq_true] at pending
  rcases pending with inflight | queued
  · cases busy : w.runner.inflight with
    | none =>
      rw [busy] at inflight
      cases inflight
    | some current =>
      rw [busy, Option.any_some] at inflight
      exact ⟨_, _, .flying busy (Op.eq_heartbeat inflight) le_rfl⟩
  · obtain ⟨op, present, isHeartbeat⟩ := List.any_eq_true.mp queued
    have others : ∀ other ∈ w.runner.queue.tail, other.isHeartbeat = false := ordered.front
    refine front_vigil ?_
    cases queue : w.runner.queue with
    | nil =>
      rw [queue] at present
      cases present
    | cons first rest =>
      rw [queue] at present others
      rcases List.mem_cons.mp present with rfl | inRest
      · rw [Op.eq_heartbeat isHeartbeat]
        rfl
      · rw [others op inRest] at isHeartbeat
        cases isHeartbeat

theorem Deed.begins {answers : Answers} (deed : Deed cfg w (.heartbeat answers) later) (ordered : w.docket.Ordered)
    (due : w.runner.heartbeatDue ≤ answers.now) : ∃ cap rank, Vigil cap rank later := by
  cases deed with
  | idles early => exact absurd early (not_lt.mpr due)
  | postponed _ pending =>
    obtain ⟨cap, rank, vigil⟩ := pending_vigil ordered pending
    exact ⟨cap, rank, vigil.congr rfl id⟩
  | queued => exact front_vigil rfl

variable {turn : Turn}

theorem finish_steps (ordered : w.docket.Ordered)
    (result : (w.checkHeartbeat cfg turn.heartbeat).pump cfg turn.pump = .ok later) :
    Docket.Steps False w.docket later.docket := by
  have queued := (checkHeartbeat_deed cfg turn.heartbeat w).moves ordered
  have sent : Deed cfg _ (.pump turn.pump) later := .of_handle (queued.ordered ordered) result
  exact queued.trans (sent.moves (queued.ordered ordered))

/-- A turn with a heartbeat pending settles it or brings it closer to its end,
unless the deadline of what is in flight is still to come. -/
theorem turn_advances (ordered : w.docket.Ordered) (running : w.runner.controlLost = false)
    (served : Along cfg HeartbeatServed (w.loopHandlers cfg [turn]) w) (result : w.turn cfg turn = .ok (later, false))
    (vigil : Vigil cap rank w) (busy : rank ≠ toLex (1, 0)) :
    Resolves w later ∨ ∃ cap' rank', Vigil cap' rank' later ∧ rank' ≠ toLex (1, 0) ∧
      (rank' < rank ∨ rank' = rank ∧ cap' = cap ∧ turn.deadline.now < cap) := by
  obtain ⟨channel, last, handlers, front, checked⟩ := turn_parts running result
  rw [handlers] at served
  obtain ⟨servedFront, servedChecks⟩ := along_append _ served front
  obtain ⟨last', again, steps⟩ := handleAll_steps cfg _ w ordered (fun (_ : True) => servedFront)
  rw [front] at again
  cases again
  obtain ⟨later', again, checks⟩ := handleAll_steps cfg (checkHandlers turn) last (steps.ordered ordered)
    (fun (_ : True) => servedChecks)
  rw [check_eq, checked] at again
  cases again
  rcases handleAll_advances front_isArrival ordered servedFront vigil front with
    resolves | ⟨cap₁, rank₁, vigil₁, lower₁⟩
  · exact .inl (resolves.after checks)
  have waits := checkInflightDeadline_deed cfg turn.deadline last
  have deadline := waits.steps (steps.ordered ordered) fun (_ : True) => trivial
  obtain ⟨-, -, sent, -⟩ := servedChecks
  rcases waits.expires vigil₁ with resolves | ⟨cap₂, rank₂, vigil₂, lower₂⟩
  · have finish := finish_steps (deadline.ordered (steps.ordered ordered)) checked
    exact .inl ((resolves.after finish).before steps)
  rcases finish_advances (deadline.ordered (steps.ordered ordered)) sent checked
    ((checkHeartbeat_deed ..).vigil vigil₂) with
    resolves | ⟨cap₃, rank₃, vigil₃, busy₃, lower₃⟩
  · exact .inl (resolves.before (steps.trans deadline))
  refine .inr ⟨cap₃, rank₃, vigil₃, busy₃, ?_⟩
  rcases lower₃ with less₃ | ⟨rfl, rfl⟩
  · rcases lower₂ with less₂ | ⟨rfl, rfl, -⟩
    · rcases lower₁ with less₁ | ⟨rfl, rfl⟩
      · exact .inl (less₃.trans (less₂.trans less₁))
      · exact .inl (less₃.trans less₂)
    · rcases lower₁ with less₁ | ⟨rfl, rfl⟩
      · exact .inl (less₃.trans less₁)
      · exact .inl less₃
  · rcases lower₂ with less₂ | ⟨rfl, rfl, expires⟩
    · rcases lower₁ with less₁ | ⟨rfl, rfl⟩
      · exact .inl (less₂.trans less₁)
      · exact .inl less₂
    · rcases lower₁ with less₁ | ⟨rfl, rfl⟩
      · exact .inl less₁
      · exact .inr ⟨rfl, rfl, expires fun idle => busy (vigil₁.inflight_eq_none.mp idle)⟩

theorem turn_begins (ordered : w.docket.Ordered) (running : w.runner.controlLost = false)
    (served : Along cfg HeartbeatServed (w.loopHandlers cfg [turn]) w) (result : w.turn cfg turn = .ok (later, false))
    (due : w.runner.heartbeatDue ≤ turn.heartbeat.now) :
    Resolves w later ∨ ∃ cap rank, Vigil cap rank later ∧ rank ≠ toLex (1, 0) := by
  obtain ⟨channel, last, handlers, front, checked⟩ := turn_parts running result
  rw [handlers] at served
  obtain ⟨servedFront, servedChecks⟩ := along_append _ served front
  obtain ⟨last', again, steps⟩ := handleAll_steps cfg _ w ordered (fun (_ : True) => servedFront)
  rw [front] at again
  cases again
  have waits := checkInflightDeadline_deed cfg turn.deadline last
  have deadline := waits.steps (steps.ordered ordered) fun (_ : True) => trivial
  have ordered' := deadline.ordered (steps.ordered ordered)
  have isDue : (last.checkInflightDeadline cfg turn.deadline).runner.heartbeatDue ≤ turn.heartbeat.now :=
    (front_due ordered front turn.deadline).2.trans_le due
  obtain ⟨-, -, sent, -⟩ := servedChecks
  obtain ⟨cap, rank, vigil⟩ := (checkHeartbeat_deed cfg turn.heartbeat _).begins ordered' isDue
  rcases finish_advances ordered' sent checked vigil with resolves | ⟨cap', rank', vigil', busy, -⟩
  · exact .inl (resolves.before (steps.trans deadline))
  · exact .inr ⟨cap', rank', vigil', busy⟩

end Turn

theorem turn_steps {turn : Turn} (ordered : w.docket.Ordered) (running : w.runner.controlLost = false)
    (result : w.turn cfg turn = .ok (later, false)) : Docket.Steps False w.docket later.docket := by
  obtain ⟨channel, last, -, front, checked⟩ := turn_parts running result
  have whole : w.handleAll cfg (arrivalHandlers turn ++ messageHandlers channel ++ checkHandlers turn) = .ok later := by
    rw [handleAll_append, front, Checked.ok_bind, check_eq, checked]
  obtain ⟨later', again, steps⟩ := handleAll_steps cfg
    (arrivalHandlers turn ++ messageHandlers channel ++ checkHandlers turn) w ordered
    (fun (impossible : False) => impossible.elim)
  rw [whole] at again
  cases again
  exact steps

structure EndlessRun (cfg : GigeConfig) (now : Nat) (turns : Nat → Turn) (states : Nat → ControlWorld) : Prop where
  start : states 0 = spawn cfg now
  step : ∀ n, (states n).runner.controlLost = false → (states n).turn cfg (turns n) = .ok (states (n + 1), false)

structure MonotoneClock (turns : Nat → Turn) : Prop where
  check : ∀ n, (turns n).deadline.now ≤ (turns n).heartbeat.now
  look : ∀ n, (turns n).heartbeat.now ≤ (turns n).heartbeat.later
  pass : ∀ n, (turns n).heartbeat.later ≤ (turns (n + 1)).deadline.now

theorem heartbeatPeriod_pos (cfg : GigeConfig) : 0 < heartbeatPeriod cfg := by
  unfold heartbeatPeriod millis
  omega

section Endless

variable {now : Nat} {turns : Nat → Turn} {states : Nat → ControlWorld}

theorem EndlessRun.ordered (run : EndlessRun cfg now turns states)
    (running : ∀ n, (states n).runner.controlLost = false) (n : Nat) : (states n).docket.Ordered := by
  induction n with
  | zero =>
    rw [run.start]
    exact spawn_ordered cfg now
  | succ n ih => exact (turn_steps ih (running n) (run.step n (running n))).ordered ih

theorem EndlessRun.due_succ (run : EndlessRun cfg now turns states) (clock : MonotoneClock turns)
    (running : ∀ n, (states n).runner.controlLost = false) (n : Nat) :
    (states n).runner.heartbeatDue ≤ (states (n + 1)).runner.heartbeatDue ∧
      ((states n).runner.heartbeatDue ≤ (turns n).heartbeat.now →
        (states n).runner.heartbeatDue < (states (n + 1)).runner.heartbeatDue) := by
  have next := turn_due (run.ordered running n) (running n) (run.step n (running n))
  have positive := heartbeatPeriod_pos cfg
  have look := clock.look n
  generalize heartbeatPeriod cfg = period at next positive
  split at next <;> omega

theorem EndlessRun.due_mono (run : EndlessRun cfg now turns states) (clock : MonotoneClock turns)
    (running : ∀ n, (states n).runner.controlLost = false) :
    Monotone fun n => (states n).runner.heartbeatDue :=
  monotone_nat_of_le_succ fun n => (run.due_succ clock running n).1

theorem EndlessRun.time_passes (run : EndlessRun cfg now turns states) (clock : MonotoneClock turns)
    (running : ∀ n, (states n).runner.controlLost = false)
    (due : ∀ n, ∃ m, n ≤ m ∧ (states m).runner.heartbeatDue ≤ (turns m).heartbeat.now) (time start : Nat) :
    ∃ n, start ≤ n ∧ time ≤ (turns n).deadline.now := by
  have mono := run.due_mono clock running
  have later : ∃ n, time ≤ (states n).runner.heartbeatDue := by
    induction time with
    | zero => exact ⟨0, Nat.zero_le _⟩
    | succ time ih =>
      obtain ⟨n, reached⟩ := ih
      obtain ⟨m, after, isDue⟩ := due n
      have before : (states n).runner.heartbeatDue ≤ (states m).runner.heartbeatDue := mono after
      have passed := (run.due_succ clock running m).2 isDue
      exact ⟨m + 1, by omega⟩
  obtain ⟨n, reached⟩ := later
  obtain ⟨m, after, isDue⟩ := due (max n start)
  have before : (states n).runner.heartbeatDue ≤ (states m).runner.heartbeatDue := mono (le_of_max_le_left after)
  have look := clock.look m
  have pass := clock.pass m
  exact ⟨m + 1, by omega, by omega⟩

theorem EndlessRun.eventually_lost (run : EndlessRun cfg now turns states) (clock : MonotoneClock turns)
    (served : ∀ n, (states n).runner.controlLost = false →
      Along cfg HeartbeatServed ((states n).loopHandlers cfg [turns n]) (states n))
    (due : ∀ n, ∃ m, n ≤ m ∧ (states m).runner.heartbeatDue ≤ (turns m).heartbeat.now) {start : Nat}
    (unconfirmed : ∀ n, start ≤ n → (states n).confirmations = (states start).confirmations) :
    ∃ n, (states n).runner.controlLost = true := by
  by_contra never
  have running : ∀ n, (states n).runner.controlLost = false := fun n =>
    Bool.eq_false_iff.mpr fun lost => never ⟨n, lost⟩
  have ordered := run.ordered running
  have unresolved : ∀ n, start ≤ n → ¬ Resolves (states n) (states (n + 1)) := by
    rintro n after (lost | confirmed)
    · exact never ⟨n + 1, lost⟩
    · rw [unconfirmed n after, unconfirmed (n + 1) (by omega)] at confirmed
      exact lt_irrefl _ confirmed
  -- However long it may still take, a pending heartbeat comes to its end.
  have ends : ∀ (rank : ℕ ×ₗ ℕ) (cap n : Nat), start ≤ n → Vigil cap rank (states n) → rank ≠ toLex (1, 0) → False := by
    intro rank
    induction rank using WellFoundedLT.induction with
    | ind rank ih =>
      intro cap n after vigil busy
      have advance : ∀ k, n ≤ k → Vigil cap rank (states k) →
          Vigil cap rank (states (k + 1)) ∧ (turns k).deadline.now < cap := by
        intro k later vigil
        rcases turn_advances (ordered k) (running k) (served k (running k)) (run.step k (running k)) vigil busy with
          resolves | ⟨cap', rank', vigil', busy', less | ⟨rfl, rfl, early⟩⟩
        · exact absurd resolves (unresolved k (by omega))
        · exact (ih rank' less cap' (k + 1) (by omega) vigil' busy').elim
        · exact ⟨vigil', early⟩
      have waits : ∀ k, n ≤ k → Vigil cap rank (states k) := by
        intro k later
        induction k, later using Nat.le_induction with
        | base => exact vigil
        | succ k later ih => exact (advance k later ih).1
      obtain ⟨k, later, expired⟩ := run.time_passes clock running due cap n
      have early := (advance k later (waits k later)).2
      omega
  obtain ⟨m, after, isDue⟩ := due start
  rcases turn_begins (ordered m) (running m) (served m (running m)) (run.step m (running m)) isDue with
    resolves | ⟨cap, rank, vigil, busy⟩
  · exact unresolved m after resolves
  · exact ends rank cap (m + 1) (by omega) vigil busy

end Endless

end ControlWorld

open ControlWorld

/-- In a run whose heartbeats are served, each that was queued was confirmed,
had control lost over it, or was pending when the worker shut down; and when
from some turn on none is confirmed any more, control is lost in the end. -/
theorem heartbeats_settled_or_control_lost (cfg : GigeConfig) (now : Nat) :
    (∀ (turns : List Turn) (answers : Answers) (arriving : List ToWorker),
      Along cfg HeartbeatServed ((spawn cfg now).loopHandlers cfg turns) (spawn cfg now) →
      ∃ w v outcomes waiting stopped,
        (spawn cfg now).loop cfg turns = .ok w ∧ (spawn cfg now).run cfg turns answers arriving = .ok v ∧
        heartbeatMarks w.journal = settledMarks outcomes ++ waiting ∧
        heartbeatMarks v.journal = settledMarks outcomes ++ waiting ++ stopped ∧
        (∀ outcome ∈ outcomes, outcome = .confirmed ∨ outcome = .lost) ∧
        (.lost ∈ outcomes ↔ w.runner.controlLost = true) ∧
        (waiting = [] ∧ stopped = [] ∨ waiting = [.queued] ∧ stopped = [.failed w.shutdownError])) ∧
    ∀ (turns : Nat → Turn) (states : Nat → ControlWorld) (start : Nat),
      EndlessRun cfg now turns states → MonotoneClock turns →
      (∀ n, (states n).runner.controlLost = false →
        Along cfg HeartbeatServed ((states n).loopHandlers cfg [turns n]) (states n)) →
      (∀ n, ∃ m, n ≤ m ∧ (states m).runner.heartbeatDue ≤ (turns m).heartbeat.now) →
      (∀ n, start ≤ n → (states n).confirmations = (states start).confirmations) →
      ∃ n, (states n).runner.controlLost = true := by
  refine ⟨?_, fun turns states start run clock served due => run.eventually_lost clock served due⟩
  intro turns answers arriving served
  obtain ⟨w, outcomes, result, ordered, kept⟩ := loop_kept cfg now turns served
  refine ⟨w, w.shutdown answers arriving, outcomes, if w.docket.pending.any Op.isHeartbeat then [.queued] else [],
    failedMarks w.docket.pending w.shutdownError, result, ?_, kept.marks, ?_, kept.known, kept.lost, ?_⟩
  · rw [run, result]
    rfl
  · rw [shutdown_marks]
    exact congrArg (· ++ _) kept.marks
  · rw [failedMarks_pending ordered]
    split
    · exact .inr ⟨rfl, rfl⟩
    · exact .inl ⟨rfl, rfl⟩

/-- A device that never answers, and a clock that shows every tenth
millisecond. -/
def silentTurn (n : Nat) : Turn :=
  let answers : Answers := ⟨(n + 1) * millis 10, (n + 1) * millis 10, true, false, false, []⟩
  { datagrams := [], arriving := [], deadline := answers, heartbeat := answers, pump := answers }

def afterSilentTurn (n : Nat) (w : ControlWorld) : ControlWorld :=
  match w.turn ⟨1, 0, 30⟩ (silentTurn n) with
  | .ok (next, _) => next
  | .error _ => w

/-- The first heartbeat is sent in the first turn and times out in the next. -/
def silentStates : Nat → ControlWorld
  | 0 => spawn ⟨1, 0, 30⟩ 0
  | 1 => afterSilentTurn 0 (spawn ⟨1, 0, 30⟩ 0)
  | _ => afterSilentTurn 1 (afterSilentTurn 0 (spawn ⟨1, 0, 30⟩ 0))

theorem silent_device_loses_control :
    (∃ w v outcomes waiting stopped,
      (spawn ⟨1, 0, 30⟩ 0).loop ⟨1, 0, 30⟩ [silentTurn 0] = .ok w ∧
      (spawn ⟨1, 0, 30⟩ 0).run ⟨1, 0, 30⟩ [silentTurn 0] ⟨0, 0, true, false, false, []⟩ [] = .ok v ∧
      heartbeatMarks w.journal = settledMarks outcomes ++ waiting ∧
      heartbeatMarks v.journal = settledMarks outcomes ++ waiting ++ stopped ∧
      (∀ outcome ∈ outcomes, outcome = .confirmed ∨ outcome = .lost) ∧
      (.lost ∈ outcomes ↔ w.runner.controlLost = true) ∧
      (waiting = [] ∧ stopped = [] ∨ waiting = [.queued] ∧ stopped = [.failed w.shutdownError])) ∧
    ∃ n, (silentStates n).runner.controlLost = true := by
  have both := heartbeats_settled_or_control_lost ⟨1, 0, 30⟩ 0
  have lost : (silentStates 2).runner.controlLost = true := by decide +kernel
  refine ⟨both.1 [silentTurn 0] _ _ ⟨trivial, trivial, fun _ _ => rfl, trivial⟩,
    both.2 silentTurn silentStates 0 ⟨rfl, ?_⟩ ⟨?_, ?_, ?_⟩ ?_ ?_ ?_⟩
  · intro n running
    match n with
    | 0 => rfl
    | 1 => rfl
    | n + 2 => cases lost.symm.trans running
  · exact fun n => le_rfl
  · exact fun n => le_rfl
  · exact fun n => Nat.mul_le_mul_right _ (Nat.le_succ _)
  · intro n running
    match n with
    | 0 => exact ⟨trivial, trivial, fun _ _ => rfl, trivial⟩
    | 1 => exact ⟨trivial, trivial, fun _ _ => rfl, trivial⟩
    | n + 2 => cases lost.symm.trans running
  · intro n
    have due : (silentStates 2).runner.heartbeatDue ≤ 3 * millis 10 := by decide +kernel
    exact ⟨n + 2, Nat.le_add_right .., due.trans (Nat.mul_le_mul_right _ (by omega))⟩
  · intro n _
    match n with
    | 0 => rfl
    | 1 => decide +kernel
    | n + 2 =>
        show (silentStates 2).confirmations = (silentStates 0).confirmations
        decide +kernel

/-- The socket refuses the command of a heartbeat, and nothing comes of it: the
worker goes on with control in hand. -/
theorem refused_heartbeat_given_up :
    ∃ w, (spawn ⟨1, 0, 30⟩ 0).loop ⟨1, 0, 30⟩
        [{ silentTurn 0 with pump := ⟨millis 10, millis 10, false, false, false, []⟩ }] = .ok w ∧
      heartbeatMarks w.journal = [.queued, .failed .io] ∧ w.runner.controlLost = false ∧
      w.runner.inflight = none ∧ w.runner.queue = [] :=
  ⟨_, rfl, by decide +kernel, by decide +kernel, by decide +kernel, by decide +kernel⟩

end Telegenic.Control
