import Telegenic.Control.Runs

/-! What a handler call does to the transaction in flight, and how long
PENDING_ACKs and retries can keep one there. -/

set_option autoImplicit false

namespace Telegenic.Control

open Library Proto Proto.Gvcp

def ControlEvent.Plain : ControlEvent → Prop
  | sent _ (.command _) true | sent _ .retry _ | ended _ => False
  | _ => True

def Inflight.launched (cfg : GigeConfig) (now id : Nat) (op : Op) (datagram : List UInt8) : Inflight :=
  { sent := datagram
    id := id
    deadline := now + cfg.gvcpTimeout
    pendingLimit := now + pendingAckBudget
    triesLeft := cfg.retries
    op := op }

inductive Passage (cfg : GigeConfig) (answers : Answers) : Option Inflight → List ControlEvent → Option Inflight → Prop where
  | stays {inflight : Option Inflight} {events : List ControlEvent} (plain : ∀ event ∈ events, event.Plain) :
      Passage cfg answers inflight events inflight
  | extended (inflight : Inflight) (ms : Nat) :
      Passage cfg answers (some inflight) []
        (some { inflight with deadline := min (answers.now + millis ms) (max inflight.pendingLimit inflight.deadline) })
  | retried {inflight : Inflight} (due : inflight.deadline ≤ answers.now) (left : 0 < inflight.triesLeft) :
      Passage cfg answers (some inflight) [.sent inflight.sent .retry answers.sends]
        (some { inflight with
          triesLeft := inflight.triesLeft - 1
          deadline := answers.later + cfg.gvcpTimeout })
  | finished (inflight : Inflight) {events : List ControlEvent} (plain : ∀ event ∈ events, event.Plain) :
      Passage cfg answers (some inflight) (.ended inflight.id :: events) none
  | launched (before : Option Inflight) (id : Nat) (op : Op) (datagram : List UInt8) :
      Passage cfg answers before
        ((before.toList.map fun inflight => .ended inflight.id) ++ [.sent datagram (.command op.handle) true])
        (some (.launched cfg answers.now id op datagram))

namespace ControlWorld

variable {cfg : GigeConfig} {answers : Answers} {w later : ControlWorld}

theorem failure_plain (op : Op) (error : CameraError) : (failure op error).Plain := by
  rw [failure]
  cases op.handle <;> trivial

/-- What the deed of a handler does to the transaction in flight. -/
def Passes (cfg : GigeConfig) (answers : Answers) (w later : ControlWorld) : Prop :=
  ∃ events, later.journal = w.journal ++ events ∧ Passage cfg answers w.runner.inflight events later.runner.inflight

theorem Passes.plain (events : List ControlEvent) (plain : ∀ event ∈ events, event.Plain)
    (journal : later.journal = w.journal ++ events) (inflight : later.runner.inflight = w.runner.inflight) :
    Passes cfg answers w later :=
  ⟨events, journal, inflight ▸ .stays plain⟩

theorem Passes.silent (journal : later.journal = w.journal) (inflight : later.runner.inflight = w.runner.inflight) :
    Passes cfg answers w later :=
  .plain [] nofun (journal.trans (List.append_nil _).symm) inflight

theorem Passes.finished {inflight : Inflight} {event : ControlEvent} (busy : w.runner.inflight = some inflight)
    (journal : later.journal = w.journal ++ [.ended inflight.id] ++ [event]) (idle : later.runner.inflight = none)
    (plain : event.Plain) : Passes cfg answers w later := by
  refine ⟨[.ended inflight.id, event], journal.trans (List.append_assoc ..), ?_⟩
  rw [busy, idle]
  exact .finished inflight fun other present => List.mem_singleton.mp present ▸ plain

/-- A command that is sent right after what was in flight has ended. -/
theorem Sends.passage {op : Op} {send : PendingSend} (sends : Sends cfg answers op send w later)
    (idle : w.runner.inflight = none) (before : Option Inflight) :
    ∃ events, later.journal = w.journal ++ events ∧ Passage cfg answers before
      ((before.toList.map fun inflight => .ended inflight.id) ++ events) later.runner.inflight := by
  cases sends with
  | @launched datagram => exact ⟨_, rfl, .launched before _ op datagram⟩
  | @refused datagram =>
    have plain : ∀ event ∈ [.sent datagram (.command op.handle) false, failure op .io], event.Plain :=
      List.forall_mem_cons.mpr ⟨trivial, fun event present => List.mem_singleton.mp present ▸ failure_plain op .io⟩
    refine ⟨[.sent datagram (.command op.handle) false, failure op .io], List.append_assoc .., ?_⟩
    have none_left : (w.takeId.record (.sent datagram (.command op.handle) false) |>.record
        (failure op .io)).runner.inflight = none := idle
    rw [none_left]
    cases before with
    | none => exact .stays plain
    | some inflight => exact .finished inflight plain

theorem Deed.passes {handler : Handler} (deed : Deed cfg w handler later) : Passes cfg handler.answers w later := by
  cases deed with
  | idles => exact .silent rfl rfl
  | @noted _ _ _ events acks =>
    refine .plain events (fun event present => ?_) rfl rfl
    obtain ⟨command, reqId, taken, rfl⟩ := acks event present
    trivial
  | @extended inbound inflight ms busy =>
    refine ⟨[], (List.append_nil _).symm, ?_⟩
    rw [busy]
    exact .extended inflight ms
  | @parked _ inflight _ _ _ _ _ _ _ busy =>
    refine ⟨[.ended inflight.id], rfl, ?_⟩
    rw [busy]
    exact .finished inflight nofun
  | @resumed _ inflight _ _ _ _ _ busy _ _ _ sends =>
    obtain ⟨events, journal, passage⟩ := sends.passage rfl (some inflight)
    refine ⟨.ended inflight.id :: events, journal.trans (List.append_assoc ..), ?_⟩
    rw [busy]
    exact passage
  | settled busy | timedOut busy | confirmed busy | lost busy | expired busy | failed busy =>
    exact .finished busy rfl rfl trivial
  | pushed message =>
    unfold push
    cases message.handle with
    | some handle => exact .plain [.entered handle] (by simp [ControlEvent.Plain]) rfl rfl
    | none => exact .silent rfl rfl
  | skipped => exact .silent rfl rfl
  | @took _ _ handle => exact .plain [.took handle] (by simp [ControlEvent.Plain]) rfl rfl
  | @retried answers inflight busy due left =>
    refine ⟨[.sent inflight.sent .retry answers.sends], rfl, ?_⟩
    rw [busy]
    exact .retried due left
  | postponed => exact .silent rfl rfl
  | queued => exact .plain [.heartbeat .queued] (by simp [ControlEvent.Plain]) rfl rfl
  | pumped idle _ _ sends =>
    obtain ⟨events, journal, passage⟩ := sends.passage idle none
    refine ⟨events, journal, ?_⟩
    rw [idle]
    exact passage

/-! ## The time a transaction takes -/

structure Flight where
  first : Nat
  last : Nat
  sends : Nat
  deriving DecidableEq, Repr

def Flight.note (answers : Answers) (flight : Option Flight) : ControlEvent → Option Flight
  | .sent _ (.command _) true => some ⟨answers.now, answers.now, 1⟩
  | .sent _ .retry _ => flight.map fun flight => { flight with last := answers.later, sends := flight.sends + 1 }
  | .ended _ => none
  | _ => flight

def handleFlights (cfg : GigeConfig) : List Handler → ControlWorld → Option Flight → Checked (ControlWorld × Option Flight)
  | [], w, flight => .ok (w, flight)
  | handler :: rest, w, flight => do
      let later ← w.handle cfg handler
      handleFlights cfg rest later ((later.journal.drop w.journal.length).foldl (Flight.note handler.answers) flight)

inductive Tracks (cfg : GigeConfig) : Option Inflight → Option Flight → Prop where
  | idle : Tracks cfg none none
  | flying {inflight : Inflight} {flight : Flight}
      (deadline : inflight.deadline ≤ max (flight.first + pendingAckBudget) (flight.last + cfg.gvcpTimeout))
      (pendingLimit : inflight.pendingLimit = flight.first + pendingAckBudget)
      (sent : 1 ≤ flight.sends) (sends : flight.sends + inflight.triesLeft = cfg.retries + 1) :
      Tracks cfg (some inflight) (some flight)

theorem foldl_plain {events : List ControlEvent} (plain : ∀ event ∈ events, event.Plain) (answers : Answers)
    (flight : Option Flight) : events.foldl (Flight.note answers) flight = flight := by
  induction events with
  | nil => rfl
  | cons event rest ih =>
    have here : Flight.note answers flight event = flight := by
      have isPlain := plain event List.mem_cons_self
      cases event with
      | sent datagram purpose taken =>
        cases purpose with
        | command handle =>
          cases taken with
          | true => exact isPlain.elim
          | false => rfl
        | retry => exact isPlain.elim
        | _ => rfl
      | ended id => exact isPlain.elim
      | _ => rfl
    rw [List.foldl_cons, here]
    exact ih fun other present => plain other (List.mem_cons_of_mem _ present)

theorem Tracks.passage {before after : Option Inflight} {events : List ControlEvent} {flight : Option Flight}
    (tracks : Tracks cfg before flight) (passage : Passage cfg answers before events after) :
    Tracks cfg after (events.foldl (Flight.note answers) flight) := by
  cases passage with
  | stays plain =>
    rw [foldl_plain plain]
    exact tracks
  | extended inflight ms =>
    cases tracks with
    | flying deadline pendingLimit sent sends =>
      refine .flying ?_ pendingLimit sent sends
      exact (min_le_right _ _).trans (max_le (pendingLimit ▸ le_max_left _ _) deadline)
  | retried due left =>
    cases tracks with
    | flying deadline pendingLimit sent sends =>
      exact .flying (le_max_right _ _) pendingLimit (Nat.le_add_left _ _) (by simp only; omega)
  | finished inflight plain =>
    rw [List.foldl_cons, foldl_plain plain]
    exact .idle
  | launched before id op datagram =>
    have fresh : Tracks cfg (some (.launched cfg answers.now id op datagram)) (some ⟨answers.now, answers.now, 1⟩) :=
      .flying (le_max_right _ _) rfl le_rfl (Nat.add_comm _ _)
    cases before with
    | none => exact fresh
    | some inflight => exact fresh

/-- The deadline is checked within `delta`: no clock reads more than that past
the deadline while the transaction is still in flight. -/
def Prompt (delta : Nat) (w : ControlWorld) (handler : Handler) : Prop :=
  ∀ inflight ∈ w.runner.inflight, handler.answers.now ≤ inflight.deadline + delta ∧
    handler.answers.later ≤ inflight.deadline + delta

def Timely (cfg : GigeConfig) (delta : Nat) (flight : Flight) : Prop :=
  flight.last ≤ flight.first + pendingAckBudget + (flight.sends - 1) * (cfg.gvcpTimeout + delta)

theorem Timely.deadline {delta : Nat} {inflight : Inflight} {flight : Flight} (timely : Timely cfg delta flight)
    (tracks : Tracks cfg (some inflight) (some flight)) :
    inflight.deadline + delta ≤ flight.first + pendingAckBudget + flight.sends * (cfg.gvcpTimeout + delta) := by
  cases tracks with
  | flying deadline pendingLimit sent sends =>
    obtain ⟨again, isAgain⟩ := Nat.exists_eq_add_of_le' sent
    simp only [Timely, isAgain, Nat.add_sub_cancel] at timely
    rw [isAgain, Nat.succ_mul]
    omega

theorem Timely.passage {delta : Nat} {before after : Option Inflight} {events : List ControlEvent}
    {flight : Option Flight} (tracks : Tracks cfg before flight) (passage : Passage cfg answers before events after)
    (prompt : ∀ inflight ∈ before, answers.later ≤ inflight.deadline + delta)
    (timely : ∀ f ∈ flight, Timely cfg delta f) :
    ∀ f ∈ events.foldl (Flight.note answers) flight, Timely cfg delta f := by
  have launched : Timely cfg delta ⟨answers.now, answers.now, 1⟩ := by
    simp only [Timely]
    omega
  cases passage with
  | stays plain =>
    rw [foldl_plain plain]
    exact timely
  | extended inflight ms => exact timely
  | @retried inflight due left =>
    cases tracks with
    | @flying _ flight deadline pendingLimit sent sends =>
      have bound := (timely flight rfl).deadline (.flying deadline pendingLimit sent sends)
      have soon := prompt inflight rfl
      rintro _ ⟨⟩
      simp only [Timely, Nat.add_sub_cancel]
      omega
  | finished inflight plain =>
    rw [List.foldl_cons, foldl_plain plain]
    exact fun _ isSome => by cases isSome
  | launched before id op datagram =>
    cases before with
    | none =>
      rintro _ ⟨⟩
      exact launched
    | some inflight =>
      rintro _ ⟨⟩
      exact launched

theorem handleFlights_tracks (delta : Nat) (handlers : List Handler) :
    ∀ {w later : ControlWorld} {flight after : Option Flight}, w.docket.Ordered → Tracks cfg w.runner.inflight flight →
      w.handleFlights cfg handlers flight = .ok (later, after) → Tracks cfg later.runner.inflight after ∧
        ((∀ f ∈ flight, Timely cfg delta f) → Along cfg (Prompt delta) handlers w → ∀ f ∈ after, Timely cfg delta f) := by
  induction handlers with
  | nil =>
    intro w later flight after _ tracks result
    cases result
    exact ⟨tracks, fun timely _ => timely⟩
  | cons handler rest ih =>
    intro w later flight after ordered tracks result
    obtain ⟨next, handled, result⟩ := Checked.bind_eq_ok result
    have deed := Deed.of_handle ordered handled
    obtain ⟨events, journal, passage⟩ := deed.passes
    rw [journal, List.drop_left] at result
    obtain ⟨tracks_rest, timely_rest⟩ := ih (deed.ordered ordered) (tracks.passage passage) result
    refine ⟨tracks_rest, fun timely along => ?_⟩
    have along_rest := along.2
    rw [handled] at along_rest
    exact timely_rest (Timely.passage tracks passage (fun inflight present => (along.1 inflight present).2) timely)
      along_rest

theorem handleFlights_run (handlers : List Handler) : ∀ {w later : ControlWorld} (flight : Option Flight),
    w.handleAll cfg handlers = .ok later → ∃ after, w.handleFlights cfg handlers flight = .ok (later, after) := by
  induction handlers with
  | nil =>
    intro w later flight result
    cases result
    exact ⟨flight, rfl⟩
  | cons handler rest ih =>
    intro w later flight result
    obtain ⟨next, handled, result⟩ := Checked.bind_eq_ok result
    obtain ⟨after, found⟩ := ih ((next.journal.drop w.journal.length).foldl (Flight.note handler.answers) flight) result
    exact ⟨after, by rw [handleFlights, handled]; exact found⟩

end ControlWorld

/-- After any run, the deadline of the transaction in flight is bounded by when
its command was first and last sent, and that was sent at most as often as
retries allow. When deadlines are checked within `delta`, whatever the worker
does next with the transaction still in flight happens before the given
time. -/
theorem pending_acks_are_bounded (cfg : GigeConfig) (now delta : Nat) (handlers : List Handler) (next : Handler) :
    ∃ w flight, (ControlWorld.spawn cfg now).handleFlights cfg handlers none = .ok (w, flight) ∧
      ∀ inflight, w.runner.inflight = some inflight → ∃ f, flight = some f ∧
        inflight.deadline ≤ max (f.first + millis 120000) (f.last + cfg.gvcpTimeout) ∧ f.sends ≤ cfg.retries + 1 ∧
        (ControlWorld.Along cfg (ControlWorld.Prompt delta) (handlers ++ [next]) (.spawn cfg now) →
          next.answers.now ≤ f.first + millis 120000 + (cfg.retries + 1) * (cfg.gvcpTimeout + delta)) := by
  obtain ⟨w, runs, _⟩ := ControlWorld.handleAll_steps cfg handlers (.spawn cfg now) (ControlWorld.spawn_ordered cfg now)
    fun (impossible : False) => impossible.elim
  have grounded : ControlWorld.Tracks cfg (ControlWorld.spawn cfg now).runner.inflight none := .idle
  obtain ⟨flight, flies⟩ := ControlWorld.handleFlights_run handlers none runs
  obtain ⟨tracks, timely⟩ := ControlWorld.handleFlights_tracks delta handlers (ControlWorld.spawn_ordered cfg now)
    grounded flies
  refine ⟨w, flight, flies, fun inflight isInflight => ?_⟩
  rw [isInflight] at tracks
  cases flight with
  | none => cases tracks
  | some f =>
      cases tracks with
      | flying deadline pendingLimit sent sends =>
          refine ⟨f, rfl, deadline, by omega, fun along => ?_⟩
          obtain ⟨before, last⟩ := ControlWorld.along_append handlers along runs
          have bound := (timely nofun before f rfl).deadline (.flying deadline pendingLimit sent sends)
          have soon := (last.1 inflight isInflight).1
          have few : f.sends * (cfg.gvcpTimeout + delta) ≤ (cfg.retries + 1) * (cfg.gvcpTimeout + delta) :=
            Nat.mul_le_mul_right _ (by omega)
          have budget : pendingAckBudget = millis 120000 := rfl
          omega

end Telegenic.Control
