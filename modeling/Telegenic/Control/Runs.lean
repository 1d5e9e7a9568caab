import Telegenic.Control.Handlers

/-! Runs of the control worker. The loop is a sequence of handler calls, and
every such sequence succeeds and keeps the docket. -/

set_option autoImplicit false

namespace Telegenic.Control

open Library Proto Proto.Gvcp

namespace ControlWorld

def handleAll (cfg : GigeConfig) : List Handler → ControlWorld → Checked ControlWorld
  | [], w => .ok w
  | handler :: rest, w => do
      let w ← w.handle cfg handler
      handleAll cfg rest w

/-- The calls that take messages until the channel is empty or asks for the
worker to stop. -/
def messageHandlers (channel : List ToWorker) : List Handler :=
  (channel.takeWhile (· ≠ .shutdown)).map (fun _ => .message) ++
    (if .shutdown ∈ channel then [.message] else [])

def loopHandlers (cfg : GigeConfig) : List Turn → ControlWorld → List Handler
  | [], _ => []
  | turn :: rest, w =>
      if w.runner.controlLost then
        []
      else
        let arrivals := turn.datagrams.map .datagram ++ turn.arriving.map .push
        match w.handleAll cfg arrivals with
        | .error _ => arrivals
        | .ok next =>
            let taken := arrivals ++ messageHandlers next.channel
            if .shutdown ∈ next.channel then
              taken
            else
              let whole := taken ++ [.deadline turn.deadline, .heartbeat turn.heartbeat, .pump turn.pump]
              match w.handleAll cfg whole with
              | .error _ => whole
              | .ok last => whole ++ loopHandlers cfg rest last

variable {cfg : GigeConfig} {w : ControlWorld}

theorem handleAll_append (first second : List Handler) : ∀ (w : ControlWorld),
    w.handleAll cfg (first ++ second) = (w.handleAll cfg first >>= fun w => w.handleAll cfg second) := by
  induction first with
  | nil => exact fun w => rfl
  | cons handler rest ih =>
    intro w
    rw [List.cons_append, handleAll, handleAll]
    cases w.handle cfg handler with
    | ok next => exact ih next
    | error fault => rfl

theorem drainSocket_eq (datagrams : List Inbound) : ∀ (w : ControlWorld),
    drainSocket cfg datagrams w = w.handleAll cfg (datagrams.map .datagram) := by
  induction datagrams with
  | nil => exact fun w => rfl
  | cons inbound rest ih =>
    intro w
    rw [drainSocket, List.map_cons, handleAll, handle]
    cases w.recvFrom cfg inbound with
    | ok next => exact ih next
    | error fault => rfl

theorem push_eq (messages : List ToWorker) : ∀ (w : ControlWorld),
    w.handleAll cfg (messages.map .push) = .ok (messages.foldl push w) := by
  induction messages with
  | nil => exact fun w => rfl
  | cons message rest ih => exact fun w => ih (w.push message)

theorem receive_channel (message : ToWorker) (w : ControlWorld) : (w.receive message).channel = w.channel := by
  cases message <;> rfl

theorem takeMessages_eq (cfg : GigeConfig) (messages : List ToWorker) : ∀ (w : ControlWorld), w.channel = messages →
    w.handleAll cfg (messageHandlers messages) = .ok (takeMessages messages w).1 ∧
      (takeMessages messages w).2 = decide (.shutdown ∈ messages) := by
  induction messages with
  | nil => exact fun w _ => ⟨rfl, rfl⟩
  | cons message rest ih =>
    intro w channel
    by_cases stop : message = .shutdown
    · subst stop
      refine ⟨?_, by simp [takeMessages]⟩
      simp only [messageHandlers, ne_eq, not_true_eq_false, decide_false, Bool.false_eq_true, not_false_eq_true,
        List.takeWhile_cons_of_neg, List.map_nil, List.nil_append, List.mem_cons, true_or, if_true, handleAll, handle,
        takeMessage, channel, takeMessages]
      rfl
    · have popped : takeMessages (message :: rest) w =
          takeMessages rest ({ w with channel := rest }.receive message) := by
        cases message with
        | shutdown => exact absurd rfl stop
        | _ => rfl
      have handlers : messageHandlers (message :: rest) = .message :: messageHandlers rest := by
        have other : ¬ ToWorker.shutdown = message := fun same => stop same.symm
        simp only [messageHandlers, ne_eq, stop, not_false_eq_true, decide_true, List.takeWhile_cons_of_pos,
          List.map_cons, List.mem_cons, other, false_or, List.cons_append]
      obtain ⟨result, stops⟩ := ih ({ w with channel := rest }.receive message) (receive_channel _ _)
      rw [popped, handlers]
      refine ⟨?_, ?_⟩
      · rw [handleAll, handle, takeMessage, channel]
        exact result
      · have other : ¬ ToWorker.shutdown = message := fun same => stop same.symm
        rw [stops]
        simp [other]

def arrivalHandlers (turn : Turn) : List Handler :=
  turn.datagrams.map .datagram ++ turn.arriving.map .push

def checkHandlers (turn : Turn) : List Handler :=
  [.deadline turn.deadline, .heartbeat turn.heartbeat, .pump turn.pump]

theorem arrivals_eq (cfg : GigeConfig) (turn : Turn) (w : ControlWorld) : w.handleAll cfg (arrivalHandlers turn) =
    (drainSocket cfg turn.datagrams w >>= fun w => .ok (turn.arriving.foldl push w)) := by
  rw [arrivalHandlers, handleAll_append, ← drainSocket_eq]
  exact congrArg _ (funext fun next => push_eq turn.arriving next)

theorem check_eq (turn : Turn) : w.handleAll cfg (checkHandlers turn) = w.check cfg turn := by
  simp only [checkHandlers, handleAll, handle, Checked.ok_bind, check]
  cases ((w.checkInflightDeadline cfg turn.deadline).checkHeartbeat cfg turn.heartbeat).pump cfg turn.pump with
  | ok done => rfl
  | error fault => rfl

theorem front_eq {turn : Turn} {next : ControlWorld} (drained : drainSocket cfg turn.datagrams w = .ok next) :
    let pushed := turn.arriving.foldl push next
    w.handleAll cfg (arrivalHandlers turn) = .ok pushed ∧
      w.handleAll cfg (arrivalHandlers turn ++ messageHandlers pushed.channel) = .ok pushed.drainCommands.1 ∧
      pushed.drainCommands.2 = decide (.shutdown ∈ pushed.channel) := by
  have arrivals := arrivals_eq cfg turn w
  rw [drained, Checked.ok_bind] at arrivals
  obtain ⟨taken, stops⟩ := takeMessages_eq cfg (turn.arriving.foldl push next).channel (turn.arriving.foldl push next) rfl
  refine ⟨arrivals, ?_, stops⟩
  rw [handleAll_append, arrivals, Checked.ok_bind]
  exact taken

theorem loop_eq (turns : List Turn) : ∀ (w : ControlWorld),
    w.loop cfg turns = w.handleAll cfg (w.loopHandlers cfg turns) := by
  induction turns with
  | nil => exact fun w => rfl
  | cons first rest ih =>
    intro w
    rw [loop, loopHandlers]
    by_cases lost : w.runner.controlLost = true
    · rw [if_pos lost, if_pos lost]
      rfl
    rw [if_neg lost, if_neg lost]
    simp only [turn]
    cases drained : drainSocket cfg first.datagrams w with
    | error fault =>
      have arrivals := arrivals_eq cfg first w
      rw [drained] at arrivals
      simp only [arrivalHandlers] at arrivals
      simp only [arrivals]
      exact arrivals.symm
    | ok next =>
      obtain ⟨arrivals, taken, stops⟩ := front_eq drained
      simp only [arrivalHandlers] at arrivals taken
      simp only [arrivals, Checked.ok_bind]
      rcases outcome : (first.arriving.foldl push next).drainCommands with ⟨last, stop⟩
      rw [outcome] at taken stops
      cases stop with
      | true =>
        rw [if_pos (of_decide_eq_true stops.symm)]
        exact taken.symm
      | false =>
        have whole : w.handleAll cfg (first.datagrams.map .datagram ++ first.arriving.map .push ++
            messageHandlers (first.arriving.foldl push next).channel ++ checkHandlers first) =
              last.check cfg first := by
          rw [handleAll_append, taken, Checked.ok_bind]
          exact check_eq first
        simp only [checkHandlers] at whole
        rw [if_neg (of_decide_eq_false stops.symm), whole]
        simp only
        cases checked : last.check cfg first with
        | error fault =>
          rw [checked] at whole
          exact whole.symm
        | ok done =>
          rw [checked] at whole
          simp only [Checked.ok_bind, Checked.pure_eq]
          rw [handleAll_append, whole, Checked.ok_bind]
          exact ih done

theorem turn_parts {turn : Turn} {next : ControlWorld} (running : w.runner.controlLost = false)
    (result : w.turn cfg turn = .ok (next, false)) :
    ∃ channel last, w.loopHandlers cfg [turn] = arrivalHandlers turn ++ messageHandlers channel ++ checkHandlers turn ∧
      w.handleAll cfg (arrivalHandlers turn ++ messageHandlers channel) = .ok last ∧
      last.check cfg turn = .ok next := by
  rw [ControlWorld.turn] at result
  cases drained : drainSocket cfg turn.datagrams w with
  | error fault =>
    rw [drained] at result
    cases result
  | ok first =>
    obtain ⟨arrivals, taken, stops⟩ := front_eq drained
    rw [drained, Checked.ok_bind] at result
    rcases outcome : (turn.arriving.foldl push first).drainCommands with ⟨last, stop⟩
    rw [outcome] at result taken stops
    cases stop with
    | true => cases result
    | false =>
      obtain ⟨done, checked, rest⟩ := Checked.bind_eq_ok result
      cases rest
      refine ⟨(turn.arriving.foldl push first).channel, last, ?_, taken, checked⟩
      have whole : w.handleAll cfg (arrivalHandlers turn ++
          messageHandlers (turn.arriving.foldl push first).channel ++ checkHandlers turn) = .ok next := by
        rw [handleAll_append, taken, Checked.ok_bind, check_eq, checked]
      rw [loopHandlers, running, if_neg Bool.false_ne_true]
      simp only [arrivalHandlers, checkHandlers] at arrivals whole ⊢
      simp only [arrivals, if_neg (of_decide_eq_false stops.symm), whole, loopHandlers, List.append_nil]

def Along (cfg : GigeConfig) (allowed : ControlWorld → Handler → Prop) : List Handler → ControlWorld → Prop
  | [], _ => True
  | handler :: rest, w =>
      allowed w handler ∧
        match w.handle cfg handler with
        | .ok next => Along cfg allowed rest next
        | .error _ => True

theorem along_append {allowed : ControlWorld → Handler → Prop} {second : List Handler} {middle : ControlWorld}
    (first : List Handler) : ∀ {w : ControlWorld}, Along cfg allowed (first ++ second) w →
      w.handleAll cfg first = .ok middle → Along cfg allowed first w ∧ Along cfg allowed second middle := by
  induction first with
  | nil =>
    intro w along result
    cases result
    exact ⟨trivial, along⟩
  | cons handler rest ih =>
    intro w along result
    cases handled : w.handle cfg handler with
    | error fault =>
      rw [handleAll, handled] at result
      cases result
    | ok next =>
      rw [handleAll, handled, Checked.ok_bind] at result
      have later := along.2
      rw [handled] at later
      obtain ⟨before, after⟩ := ih later result
      exact ⟨⟨along.1, by rw [handled]; exact before⟩, after⟩

theorem handleAll_steps {reliable : Prop} (cfg : GigeConfig) (handlers : List Handler) : ∀ (w : ControlWorld),
    w.docket.Ordered → (reliable → Along cfg HeartbeatServed handlers w) →
    ∃ later, w.handleAll cfg handlers = .ok later ∧ Docket.Steps reliable w.docket later.docket := by
  induction handlers with
  | nil => exact fun w _ _ => ⟨w, rfl, .refl⟩
  | cons handler rest ih =>
    intro w ordered served
    obtain ⟨next, result, steps⟩ := handle_steps cfg handler ordered fun isReliable => (served isReliable).1
    obtain ⟨later, rest_result, rest_steps⟩ := ih next (steps.ordered ordered) fun isReliable => by
      have along := (served isReliable).2
      rw [result] at along
      exact along
    exact ⟨later, by rw [handleAll, result]; exact rest_result, steps.trans rest_steps⟩

theorem spawn_ordered (cfg : GigeConfig) (now : Nat) : (spawn cfg now).docket.Ordered := by
  refine ⟨.nil, ?_, ?_, ?_⟩
  · intro op present
    cases present
  · intro op present
    cases present
  · intro inflight
    cases inflight

theorem handleAll_preserve (property : Docket → Prop)
    (keeps : ∀ {before after : Docket}, Docket.Step False before after → before.Ordered → property before →
      property after)
    (cfg : GigeConfig) (now : Nat) (initial : property (spawn cfg now).docket) (handlers : List Handler) :
    ∃ later, (spawn cfg now).handleAll cfg handlers = .ok later ∧ later.docket.Ordered ∧ property later.docket := by
  obtain ⟨later, result, steps⟩ := handleAll_steps cfg handlers (spawn cfg now) (spawn_ordered cfg now)
    (fun (impossible : False) => impossible.elim)
  exact ⟨later, result, steps.preserve property keeps (spawn_ordered cfg now) initial⟩

end ControlWorld

end Telegenic.Control
