import Telegenic.Control.Runs

/-! The two queues of the worker go in lockstep, and a heartbeat that has been
queued is the next command. -/

set_option autoImplicit false

namespace Telegenic.Control

open Library Proto Proto.Gvcp

/-- The handles of the new commands that were offered to the socket; a
heartbeat's command has none. -/
def commands (journal : List ControlEvent) : List (Option Nat) :=
  journal.filterMap fun
    | .sent _ (.command handle) _ => some handle
    | _ => none

def wireCommands (journal : List ControlEvent) : List Purpose :=
  journal.filterMap fun
    | .sent _ (.command handle) true => some (.command handle)
    | .sent _ .release true => some .release
    | _ => none

def ControlEvent.Aside : ControlEvent → Prop
  | sent _ (.command _) _ => False
  | heartbeat .queued => False
  | _ => True

/-- After a heartbeat was queued the first command is that heartbeat, and until
there is one the heartbeat `waits`. -/
def HeartbeatNext (journal : List ControlEvent) (waits : Prop) : Prop :=
  ∀ before after, journal = before ++ .heartbeat .queued :: after →
    (commands after = [] → waits) ∧ ∀ handle, (commands after).head? = some handle → handle = none

section Splits

theorem snoc_eq_append_cons {journal before after : List ControlEvent} {last middle : ControlEvent}
    (split : journal ++ [last] = before ++ middle :: after) :
    (after = [] ∧ middle = last) ∨ ∃ front, after = front ++ [last] ∧ journal = before ++ middle :: front := by
  rcases List.eq_nil_or_concat after with rfl | ⟨front, event, rfl⟩
  · exact .inl ⟨rfl, (List.append_inj_right' split rfl |> List.singleton_inj.mp).symm⟩
  · rw [List.concat_eq_append, ← List.cons_append, ← List.append_assoc] at split
    have same := List.append_inj' split rfl
    cases same.2
    exact .inr ⟨front, List.concat_eq_append, same.1⟩

theorem commands_append (journal rest : List ControlEvent) :
    commands (journal ++ rest) = commands journal ++ commands rest :=
  List.filterMap_append

theorem commands_aside {event : ControlEvent} (aside : event.Aside) : commands [event] = [] := by
  cases event with
  | sent datagram purpose taken =>
    cases purpose with
    | command => exact aside.elim
    | _ => rfl
  | _ => rfl

variable {journal : List ControlEvent} {waits still : Prop}

theorem HeartbeatNext.aside {event : ControlEvent} (next : HeartbeatNext journal waits) (aside : event.Aside)
    (keeps : waits → still) : HeartbeatNext (journal ++ [event]) still := by
  intro before after split
  rcases snoc_eq_append_cons split with ⟨rfl, rfl⟩ | ⟨front, rfl, old⟩
  · exact aside.elim
  · rw [commands_append, commands_aside aside, List.append_nil]
    exact ⟨fun empty => keeps ((next before front old).1 empty), (next before front old).2⟩

theorem HeartbeatNext.asides {events : List ControlEvent} : ∀ {journal : List ControlEvent},
    HeartbeatNext journal waits → (∀ event ∈ events, event.Aside) → HeartbeatNext (journal ++ events) waits := by
  induction events with
  | nil => exact fun next _ => by rwa [List.append_nil]
  | cons event rest ih =>
    intro journal next aside
    have first := next.aside (aside event (List.mem_cons_self ..)) id
    have whole := ih first fun other present => aside other (List.mem_cons_of_mem _ present)
    rwa [List.append_assoc] at whole

theorem HeartbeatNext.queued (next : HeartbeatNext journal waits) (waiting : still) :
    HeartbeatNext (journal ++ [.heartbeat .queued]) still := by
  intro before after split
  rcases snoc_eq_append_cons split with ⟨rfl, -⟩ | ⟨front, rfl, old⟩
  · exact ⟨fun _ => waiting, fun handle first => by cases first⟩
  · rw [commands_append, show commands [.heartbeat .queued] = [] from rfl, List.append_nil]
    exact ⟨fun _ => waiting, (next before front old).2⟩

theorem HeartbeatNext.command {handle : Option Nat} {datagram : List UInt8} {taken : Bool}
    (next : HeartbeatNext journal waits) (goes : waits → handle = none) :
    HeartbeatNext (journal ++ [.sent datagram (.command handle) taken]) still := by
  intro before after split
  rcases snoc_eq_append_cons split with ⟨-, different⟩ | ⟨front, rfl, old⟩
  · cases different
  · rw [commands_append, show commands [.sent datagram (.command handle) taken] = [handle] from rfl]
    refine ⟨fun empty => ?_, fun other first => ?_⟩
    · cases (List.append_eq_nil_iff.mp empty).2
    · cases earlier : commands front with
      | nil =>
        rw [earlier] at first
        cases first
        exact goes ((next before front old).1 earlier)
      | cons sent rest =>
        rw [earlier] at first
        exact (next before front old).2 other (by rw [earlier]; exact first)

end Splits

def ControlEvent.IsMismatch : ControlEvent → Prop
  | resolved _ (.error error) => error = mismatch
  | heartbeat (.failed error) => error = mismatch
  | _ => False

def NoMismatch (journal : List ControlEvent) : Prop :=
  ∀ event ∈ journal, ¬ event.IsMismatch

theorem NoMismatch.append {journal rest : List ControlEvent} (clean : NoMismatch journal) (added : NoMismatch rest) :
    NoMismatch (journal ++ rest) := by
  intro event present
  rcases List.mem_append.mp present with old | new
  · exact clean event old
  · exact added event new

theorem Settles.noMismatch {reliable : Prop} {op : Op} {event : ControlEvent} {lost : Bool}
    (settles : Settles reliable op event lost) : ¬ event.IsMismatch := by
  cases settles with
  | @user op handle isUser response other =>
    cases response with
    | ok value => exact id
    | error error => exact fun same => other (congrArg Response.error same)
  | confirmed => exact id
  | lost => exact id
  | failed unreliable other => exact other

theorem failure_aside (op : Op) (error : CameraError) : (failure op error).Aside := by
  rw [failure]
  cases op.handle <;> trivial

theorem failure_noMismatch (op : Op) {error : CameraError} (expected : error ≠ mismatch) :
    ¬ (failure op error).IsMismatch := by
  rw [failure]
  cases op.handle <;> exact expected

theorem Settles.aside {reliable : Prop} {op : Op} {event : ControlEvent} {lost : Bool}
    (settles : Settles reliable op event lost) : event.Aside := by
  cases settles <;> trivial

theorem ControlEvent.IsNote.aside {event : ControlEvent} (isNote : event.IsNote) : event.Aside := by
  cases event with
  | sent datagram purpose taken =>
    cases purpose with
    | command => exact isNote.elim
    | _ => trivial
  | _ => exact isNote.elim

theorem resumeQueue_head {op : Op} {queue : List Op} (waits : queue.head? = some .heartbeat) :
    (resumeQueue op queue).head? = some .heartbeat := by
  cases queue with
  | nil => cases waits
  | cons first rest =>
    cases waits
    rfl

theorem Docket.Step.heartbeatNext {reliable : Prop} {d later : Docket} (step : Docket.Step reliable d later)
    (next : HeartbeatNext d.journal (d.queue.head? = some .heartbeat)) :
    HeartbeatNext later.journal (later.queue.head? = some .heartbeat) := by
  cases step with
  | note isNote => exact next.asides fun event present => (isNote event present).aside
  | enter => exact next.aside trivial id
  | post => exact next
  | skip => exact next
  | take =>
    refine next.aside trivial fun waits => ?_
    rw [List.head?_append, waits]
    rfl
  | due => exact next.queued rfl
  | resume => exact next.aside trivial resumeQueue_head
  | launch idle first =>
    refine next.command fun waits => ?_
    rw [first] at waits
    cases waits
    rfl
  | @refuse op send queue payloads datagram idle first =>
    have sent : HeartbeatNext (d.journal ++ [.sent datagram (.command op.handle) false])
        (queue.head? = some .heartbeat) := by
      refine next.command fun waits => ?_
      rw [first] at waits
      cases waits
      rfl
    have whole := sent.aside (failure_aside op .io) id
    rwa [List.append_assoc] at whole
  | @settle op id event lost inflight settles =>
    have ended : HeartbeatNext (d.journal ++ [.ended id]) (d.queue.head? = some .heartbeat) :=
      next.aside trivial fun waits => waits
    have whole := ended.aside settles.aside fun waits => waits
    rwa [List.append_assoc] at whole

theorem Docket.Step.noMismatch {reliable : Prop} {d later : Docket} (step : Docket.Step reliable d later)
    (clean : NoMismatch d.journal) : NoMismatch later.journal := by
  cases step with
  | note isNote =>
    refine clean.append fun event present isMismatch => ?_
    have note := isNote event present
    cases event with
    | sent => exact isMismatch
    | _ => exact note
  | post => exact clean
  | skip => exact clean
  | @refuse op send queue payloads datagram idle first =>
    refine clean.append fun event present => ?_
    rcases List.mem_cons.mp present with rfl | present
    · exact id
    · rw [List.mem_singleton.mp present]
      exact failure_noMismatch op fun same => by cases same
  | settle inflight settles =>
    refine clean.append fun event present => ?_
    rcases List.mem_cons.mp present with rfl | present
    · exact fun isMismatch => isMismatch
    · rw [List.mem_singleton.mp present]
      exact settles.noMismatch
  | enter | take | due | resume | launch =>
    refine clean.append fun event present => ?_
    rw [List.mem_singleton.mp present]
    exact fun isMismatch => isMismatch

section HeartbeatCount

theorem countP_isHeartbeat_eq_zero {queue : List Op} (none : ∀ op ∈ queue, op.isHeartbeat = false) :
    queue.countP Op.isHeartbeat = 0 := by
  rw [List.countP_eq_zero]
  intro op present isHeartbeat
  rw [none op present] at isHeartbeat
  cases isHeartbeat

theorem Docket.Ordered.countP_le_one {d : Docket} (ordered : d.Ordered) :
    (d.inflight.toList ++ d.queue).countP Op.isHeartbeat ≤ 1 := by
  have queued : d.queue.countP Op.isHeartbeat ≤ 1 := by
    cases queue : d.queue with
    | nil => exact Nat.zero_le 1
    | cons first rest =>
      have front := ordered.front
      rw [queue, List.tail_cons] at front
      rw [List.countP_cons, countP_isHeartbeat_eq_zero front]
      cases first.isHeartbeat <;> decide
  rw [List.countP_append]
  cases inflight : d.inflight with
  | none => exact (Nat.zero_add _).trans_le queued
  | some op =>
    cases op with
    | heartbeat => rw [countP_isHeartbeat_eq_zero (ordered.single inflight)]; decide
    | _ => exact (Nat.zero_add _).trans_le queued

end HeartbeatCount

open ControlWorld

end Telegenic.Control
