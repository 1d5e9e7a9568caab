import Telegenic.Control.Heartbeat

/-! A heartbeat that is pending does not stay pending: whatever is in flight
ends by its deadline, and then the heartbeat goes next. -/

set_option autoImplicit false

namespace Telegenic.Control

open Library Proto Proto.Gvcp

def Handler.IsArrival : Handler → Prop
  | datagram _ | push _ | message => True
  | _ => False

namespace ControlWorld

def confirmations (w : ControlWorld) : Nat :=
  (heartbeatMarks w.journal).count .confirmed

def Resolves (w later : ControlWorld) : Prop :=
  later.runner.controlLost = true ∨ w.confirmations < later.confirmations

/-- A heartbeat is pending. Its rank says how much can still come before its
end: it is in flight with so many tries left, it goes next, or a user's
transaction with so many tries left is in flight before it. What is in flight
expires by `cap`, unless it is sent again. -/
inductive Vigil (cap : Nat) : ℕ ×ₗ ℕ → ControlWorld → Prop where
  | flying {w : ControlWorld} {inflight : Inflight} (busy : w.runner.inflight = some inflight)
      (heartbeat : inflight.op = .heartbeat) (bounded : max inflight.pendingLimit inflight.deadline ≤ cap) :
      Vigil cap (toLex (0, inflight.triesLeft)) w
  | next {w : ControlWorld} (idle : w.runner.inflight = none) (front : w.runner.queue.head? = some .heartbeat) :
      Vigil cap (toLex (1, 0)) w
  | behind {w : ControlWorld} {inflight : Inflight} (busy : w.runner.inflight = some inflight)
      (user : inflight.op.isHeartbeat = false) (front : w.runner.queue.head? = some .heartbeat)
      (bounded : max inflight.pendingLimit inflight.deadline ≤ cap) :
      Vigil cap (toLex (2, inflight.triesLeft)) w

def Advances (cap : Nat) (rank : ℕ ×ₗ ℕ) (w later : ControlWorld) : Prop :=
  Resolves w later ∨ ∃ cap' rank', Vigil cap' rank' later ∧ (rank' < rank ∨ rank' = rank ∧ cap' = cap)

section Vigil

variable {cfg : GigeConfig} {cap : Nat} {rank : ℕ ×ₗ ℕ} {w later : ControlWorld}

theorem Vigil.congr (vigil : Vigil cap rank w) (inflight : later.runner.inflight = w.runner.inflight)
    (front : w.runner.queue.head? = some .heartbeat → later.runner.queue.head? = some .heartbeat) :
    Vigil cap rank later := by
  cases vigil with
  | flying busy heartbeat bounded => exact .flying (inflight.trans busy) heartbeat bounded
  | next idle atFront => exact .next (inflight.trans idle) (front atFront)
  | behind busy user atFront bounded => exact .behind (inflight.trans busy) user (front atFront) bounded

theorem Vigil.waits (vigil : Vigil cap rank later) : Advances cap rank w later :=
  .inr ⟨cap, rank, vigil, .inr ⟨rfl, rfl⟩⟩

theorem Vigil.keeps (vigil : Vigil cap rank w) (inflight : later.runner.inflight = w.runner.inflight)
    (front : w.runner.queue.head? = some .heartbeat → later.runner.queue.head? = some .heartbeat) :
    Advances cap rank w later :=
  (vigil.congr inflight front).waits

theorem toLex_lt_of_fst {phase phase' tries tries' : Nat} (less : phase' < phase) :
    (toLex (phase', tries') : ℕ ×ₗ ℕ) < toLex (phase, tries) :=
  Prod.Lex.toLex_lt_toLex.mpr (.inl less)

theorem toLex_lt_of_snd {phase tries tries' : Nat} (less : tries' < tries) :
    (toLex (phase, tries') : ℕ ×ₗ ℕ) < toLex (phase, tries) :=
  Prod.Lex.toLex_lt_toLex.mpr (.inr ⟨rfl, less⟩)

theorem Vigil.extend {inflight : Inflight} {ms now : Nat} (vigil : Vigil cap rank w)
    (busy : w.runner.inflight = some inflight) : Advances cap rank w (w.extend ms now inflight) := by
  have bound : max inflight.pendingLimit inflight.deadline ≤ cap →
      max inflight.pendingLimit (min (now + millis ms) (max inflight.pendingLimit inflight.deadline)) ≤ cap := by
    omega
  cases vigil with
  | next idle =>
    rw [busy] at idle
    cases idle
  | flying busy' heartbeat bounded =>
    rw [busy] at busy'
    cases busy'
    exact .inr ⟨cap, _, .flying rfl heartbeat (bound bounded), .inr ⟨rfl, rfl⟩⟩
  | behind busy' user front bounded =>
    rw [busy] at busy'
    cases busy'
    exact .inr ⟨cap, _, .behind rfl user front (bound bounded), .inr ⟨rfl, rfl⟩⟩

theorem Vigil.behind_of_user {inflight : Inflight} (vigil : Vigil cap rank w)
    (busy : w.runner.inflight = some inflight) (user : inflight.op.isHeartbeat = false) :
    w.runner.queue.head? = some .heartbeat ∧ (toLex (1, 0) : ℕ ×ₗ ℕ) < rank := by
  cases vigil with
  | next idle => cases idle.symm.trans busy
  | flying busy' heartbeat =>
    cases busy'.symm.trans busy
    rw [heartbeat] at user
    cases user
  | behind _ _ front => exact ⟨front, toLex_lt_of_fst (by decide)⟩

theorem head?_snoc {queue : List Op} {first op : Op} (front : queue.head? = some first) :
    (queue ++ [op]).head? = some first := by
  rw [List.head?_append, front]
  rfl

theorem confirmed_resolves {inflight : Inflight} {stats : LinkStats} :
    Resolves w (((w.takeInflight inflight).setStats stats).record (.heartbeat .confirmed)) := by
  refine .inr ?_
  have marks : heartbeatMarks (w.journal ++ [.ended inflight.id] ++ [.heartbeat .confirmed]) =
      heartbeatMarks w.journal ++ [.confirmed] := by
    rw [heartbeatMarks_append, heartbeatMarks_append]
    exact congrArg (· ++ _) (List.append_nil _)
  show (heartbeatMarks w.journal).count .confirmed < (heartbeatMarks (w.journal ++ _ ++ _)).count .confirmed
  rw [marks, List.count_append]
  exact Nat.lt_succ_self _

theorem Deed.advances {handler : Handler} (deed : Deed cfg w handler later) (arrival : handler.IsArrival)
    (served : w.HeartbeatServed handler) (vigil : Vigil cap rank w) : Advances cap rank w later := by
  cases deed with
  | idles => exact vigil.waits
  | noted | skipped => exact vigil.keeps rfl id
  | extended busy => exact vigil.extend busy
  | settled busy isUser =>
    obtain ⟨front, lower⟩ := vigil.behind_of_user busy (Op.isHeartbeat_eq_false isUser)
    exact .inr ⟨cap, _, .next rfl front, .inl lower⟩
  | parked busy _ more =>
    obtain ⟨handle, isUser, -⟩ := (Op.answered_more more).2.isUser
    obtain ⟨-, lower⟩ := vigil.behind_of_user busy (Op.isHeartbeat_eq_false isUser)
    exact .inr ⟨cap, _, .next rfl rfl, .inl lower⟩
  | resumed busy _ more alone =>
    obtain ⟨handle, isUser, -⟩ := (Op.answered_more more).2.isUser
    exact absurd (vigil.behind_of_user busy (Op.isHeartbeat_eq_false isUser)).1 alone
  | confirmed => exact .inl confirmed_resolves
  | lost => exact .inl (.inl rfl)
  | failed busy heartbeat answered noError unexpected =>
    exact absurd (served answered.fromDevice _ _ busy heartbeat answered.notCommand answered.parsed answered.matching
      answered.final noError) unexpected
  | pushed message =>
    unfold push
    cases message.handle <;> exact vigil.keeps rfl id
  | took => exact vigil.keeps rfl head?_snoc
  | retried | timedOut | expired | postponed | queued | pumped => exact arrival.elim

theorem Deed.expires {answers : Answers} (deed : Deed cfg w (.deadline answers) later) (vigil : Vigil cap rank w) :
    Resolves w later ∨ ∃ cap' rank', Vigil cap' rank' later ∧
      (rank' < rank ∨ rank' = rank ∧ cap' = cap ∧ (w.runner.inflight ≠ none → answers.now < cap)) := by
  cases deed with
  | idles early =>
    refine .inr ⟨cap, rank, vigil, .inr ⟨rfl, rfl, fun isBusy => ?_⟩⟩
    cases vigil with
    | next idle => exact absurd idle isBusy
    | flying busy _ bounded | behind busy _ _ bounded =>
      have soon := early _ busy
      omega
  | @retried _ inflight busy due left =>
    cases vigil with
    | next idle => cases idle.symm.trans busy
    | flying busy' heartbeat bounded =>
      cases busy'.symm.trans busy
      exact .inr ⟨_, _, .flying rfl heartbeat le_rfl, .inl (toLex_lt_of_snd (Nat.sub_lt left Nat.one_pos))⟩
    | behind busy' user front bounded =>
      cases busy'.symm.trans busy
      exact .inr ⟨_, _, .behind rfl user front le_rfl, .inl (toLex_lt_of_snd (Nat.sub_lt left Nat.one_pos))⟩
  | timedOut busy isUser =>
    obtain ⟨front, lower⟩ := vigil.behind_of_user busy (Op.isHeartbeat_eq_false isUser)
    exact .inr ⟨cap, _, .next rfl front, .inl lower⟩
  | expired => exact .inl (.inl rfl)

theorem Deed.vigil {answers : Answers} (deed : Deed cfg w (.heartbeat answers) later) (vigil : Vigil cap rank w) :
    Vigil cap rank later := by
  cases deed with
  | idles => exact vigil
  | postponed => exact vigil.congr rfl id
  | queued => exact vigil.congr rfl fun _ => rfl

theorem Deed.launches {answers : Answers} (deed : Deed cfg w (.pump answers) later) (sent : HeartbeatSent answers w)
    (vigil : Vigil cap rank w) : Advances cap rank w later ∧ later.runner.inflight ≠ none := by
  cases deed with
  | idles nothing =>
    refine ⟨vigil.waits, fun idle => ?_⟩
    cases vigil with
    | next _ front =>
      rcases nothing with busy | empty
      · exact busy idle
      · rw [empty] at front
        cases front
    | flying busy | behind busy => cases idle.symm.trans busy
  | pumped idle isQueue isPayloads sends =>
    cases vigil with
    | flying busy | behind busy => cases idle.symm.trans busy
    | next _ front =>
      have taken := sent idle front
      rw [isQueue] at front
      cases front
      cases sends with
      | launched => exact ⟨.inr ⟨_, _, .flying rfl rfl le_rfl, .inl (toLex_lt_of_fst (by decide))⟩,
          Option.some_ne_none _⟩
      | refused refused => cases refused.symm.trans taken

end Vigil

section Turns

variable {cfg : GigeConfig} {cap : Nat} {rank : ℕ ×ₗ ℕ} {w later : ControlWorld}

theorem confirmations_mono {reliable : Prop} (steps : Docket.Steps reliable w.docket later.docket) :
    w.confirmations ≤ later.confirmations := by
  obtain ⟨rest, journal⟩ := steps.grows.1
  have same : later.journal = w.journal ++ rest := journal.symm
  rw [confirmations, confirmations, same, heartbeatMarks_append, List.count_append]
  exact Nat.le_add_right ..

theorem Resolves.before {start : ControlWorld} {reliable : Prop} (steps : Docket.Steps reliable start.docket w.docket)
    (resolves : Resolves w later) : Resolves start later := by
  rcases resolves with lost | confirmed
  · exact .inl lost
  · exact .inr ((confirmations_mono steps).trans_lt confirmed)

theorem Resolves.after {start : ControlWorld} {reliable : Prop} (steps : Docket.Steps reliable w.docket later.docket)
    (resolves : Resolves start w) : Resolves start later := by
  rcases resolves with lost | confirmed
  · exact .inl (steps.grows.2 lost)
  · exact .inr (confirmed.trans_le (confirmations_mono steps))

theorem handleAll_advances {handlers : List Handler} : ∀ {cap : Nat} {rank : ℕ ×ₗ ℕ} {w : ControlWorld},
    (∀ handler ∈ handlers, handler.IsArrival) → w.docket.Ordered → Along cfg HeartbeatServed handlers w →
      Vigil cap rank w → w.handleAll cfg handlers = .ok later → Advances cap rank w later := by
  induction handlers with
  | nil =>
    intro cap rank w _ _ _ vigil result
    cases result
    exact vigil.waits
  | cons handler rest ih =>
    intro cap rank w arrivals ordered along vigil result
    obtain ⟨next, first, steps⟩ := handle_steps cfg handler ordered (fun (_ : True) => along.1)
    have served := along.2
    rw [first] at served
    rw [handleAll, first, Checked.ok_bind] at result
    obtain ⟨last, again, restSteps⟩ := handleAll_steps cfg rest next (steps.ordered ordered) (fun (_ : True) => served)
    rw [result] at again
    cases again
    rcases (Deed.of_handle ordered first).advances (arrivals handler (List.mem_cons_self ..)) along.1 vigil with
      resolves | ⟨cap', rank', vigil', lower⟩
    · exact .inl (resolves.after restSteps)
    · rcases ih (fun other present => arrivals other (List.mem_cons_of_mem _ present)) (steps.ordered ordered) served
        vigil' result with resolves | ⟨cap'', rank'', vigil'', lower'⟩
      · exact .inl (resolves.before steps)
      · refine .inr ⟨cap'', rank'', vigil'', ?_⟩
        rcases lower' with less | ⟨rfl, rfl⟩
        · rcases lower with less' | ⟨rfl, rfl⟩
          · exact .inl (less.trans less')
          · exact .inl less
        · exact lower

theorem Vigil.inflight_eq_none (vigil : Vigil cap rank w) : w.runner.inflight = none ↔ rank = toLex (1, 0) := by
  cases vigil with
  | next idle => exact ⟨fun _ => rfl, fun _ => idle⟩
  | flying busy | behind busy =>
    constructor
    · intro idle
      rw [busy] at idle
      cases idle
    · intro same
      cases congrArg Prod.fst (toLex.injective same)

theorem front_isArrival {turn : Turn} {channel : List ToWorker} :
    ∀ handler ∈ arrivalHandlers turn ++ messageHandlers channel, handler.IsArrival := by
  intro handler present
  simp only [arrivalHandlers, messageHandlers, List.mem_append, List.mem_map] at present
  rcases present with (⟨_, _, rfl⟩ | ⟨_, _, rfl⟩) | ⟨_, _, rfl⟩ | asked
  · trivial
  · trivial
  · trivial
  · split at asked
    · rw [List.mem_singleton.mp asked]
      trivial
    · cases asked

theorem finish_advances {turn : Turn} (ordered : w.docket.Ordered)
    (sent : HeartbeatSent turn.pump (w.checkHeartbeat cfg turn.heartbeat))
    (result : (w.checkHeartbeat cfg turn.heartbeat).pump cfg turn.pump = .ok later)
    (vigil : Vigil cap rank (w.checkHeartbeat cfg turn.heartbeat)) :
    Resolves w later ∨ ∃ cap' rank', Vigil cap' rank' later ∧ rank' ≠ toLex (1, 0) ∧
      (rank' < rank ∨ rank' = rank ∧ cap' = cap) := by
  have steps : Docket.Steps False w.docket (w.checkHeartbeat cfg turn.heartbeat).docket :=
    (checkHeartbeat_deed ..).moves ordered
  have deed : Deed cfg _ (.pump turn.pump) later := .of_handle (steps.ordered ordered) result
  obtain ⟨advances, busy⟩ := deed.launches sent vigil
  rcases advances with resolves | ⟨cap', rank', vigil', lower⟩
  · exact .inl (resolves.before steps)
  · exact .inr ⟨cap', rank', vigil', fun idle => busy (vigil'.inflight_eq_none.mpr idle), lower⟩

end Turns

end ControlWorld

end Telegenic.Control
