import Telegenic.Control.Vigil

/-! What the worker still sends once control of the device is lost. -/

set_option autoImplicit false

namespace Telegenic.Control

open Library Proto Proto.Gvcp

def ControlEvent.Harmless : ControlEvent → Prop
  | sent datagram purpose _ => purpose = .eventAck ∧ isCmd datagram = false
  | _ => True

def Records (allowed : ControlEvent → Prop) (journal further : List ControlEvent) : Prop :=
  ∃ events, further = journal ++ events ∧ ∀ event ∈ events, allowed event

def SilentAfterLoss (journal : List ControlEvent) : Prop :=
  ∀ before after, journal = before ++ .heartbeat .lost :: after → ∀ event ∈ after, event.Harmless

theorem encodeEventAck_isCmd (command reqId : Nat) : isCmd (encodeEventAck command reqId) = false := rfl

section Journals

variable {allowed : ControlEvent → Prop} {journal further : List ControlEvent} {event : ControlEvent}

theorem Records.refl : Records allowed journal journal :=
  ⟨[], (List.append_nil _).symm, fun _ present => by cases present⟩

theorem Records.snoc (isAllowed : allowed event) : Records allowed journal (journal ++ [event]) :=
  ⟨[event], rfl, fun _ present => List.mem_singleton.mp present ▸ isAllowed⟩

theorem Records.trans {last : List ControlEvent} (first : Records allowed journal further)
    (second : Records allowed further last) : Records allowed journal last := by
  obtain ⟨events, rfl, eventsAllowed⟩ := first
  obtain ⟨more, rfl, moreAllowed⟩ := second
  refine ⟨events ++ more, List.append_assoc .., fun event present => ?_⟩
  rcases List.mem_append.mp present with old | new
  · exact eventsAllowed event old
  · exact moreAllowed event new

theorem Records.mono {wider : ControlEvent → Prop} (records : Records allowed journal further)
    (weaken : ∀ event, allowed event → wider event) : Records wider journal further := by
  obtain ⟨events, split, eventsAllowed⟩ := records
  exact ⟨events, split, fun event present => weaken event (eventsAllowed event present)⟩

theorem SilentAfterLoss.of_absent (absent : ControlEvent.heartbeat .lost ∉ journal) : SilentAfterLoss journal := by
  intro before after split
  exact absurd (split ▸ List.mem_append_right _ List.mem_cons_self) absent

theorem SilentAfterLoss.records (silent : SilentAfterLoss journal)
    (records : Records ControlEvent.Harmless journal further) : SilentAfterLoss further := by
  obtain ⟨events, rfl, harmless⟩ := records
  intro before after split event present
  rcases List.append_eq_append_iff.mp split with ⟨rest, rfl, tail⟩ | ⟨rest, rfl, tail⟩
  · exact harmless event (tail ▸ List.mem_append_right _ (List.mem_cons_of_mem _ present))
  · cases rest with
    | nil =>
      rw [List.nil_append] at tail
      exact harmless event (tail ▸ List.mem_cons_of_mem _ present)
    | cons first rest =>
      obtain ⟨rfl, rfl⟩ := List.cons.inj tail
      rcases List.mem_append.mp present with old | new
      · exact silent before rest rfl event old
      · exact harmless event new

theorem SilentAfterLoss.lost (absent : ControlEvent.heartbeat .lost ∉ journal) (id : Nat) :
    SilentAfterLoss (journal ++ [.ended id, .heartbeat .lost]) := by
  rw [List.append_cons]
  intro before after split event present
  rcases snoc_eq_append_cons split with ⟨rfl, _⟩ | ⟨rest, rfl, earlier⟩
  · cases present
  · have recorded : ControlEvent.heartbeat .lost ∈ journal ++ [.ended id] :=
      earlier ▸ List.mem_append_right _ List.mem_cons_self
    rcases List.mem_append.mp recorded with old | new
    · exact absurd old absent
    · cases List.mem_singleton.mp new

end Journals

namespace ControlWorld

variable {cfg : GigeConfig} {answers : Answers} {w later : ControlWorld}

structure Silenced (w : ControlWorld) : Prop where
  lost : w.runner.controlLost = true
  idle : w.runner.inflight = none

def IdleWhenLost (w : ControlWorld) : Handler → Prop
  | .pump _ => w.runner.controlLost = true → w.runner.queue = []
  | _ => True

structure Quiet (w later : ControlWorld) : Prop where
  controlLost : later.runner.controlLost = w.runner.controlLost
  inflight : later.runner.inflight = w.runner.inflight
  journal : Records ControlEvent.Harmless w.journal later.journal

theorem Quiet.refl : Quiet w w := ⟨rfl, rfl, .refl⟩

theorem Quiet.records {event : ControlEvent} (controlLost : later.runner.controlLost = w.runner.controlLost)
    (inflight : later.runner.inflight = w.runner.inflight) (journal : later.journal = w.journal ++ [event])
    (harmless : event.Harmless) : Quiet w later :=
  ⟨controlLost, inflight, journal ▸ .snoc harmless⟩

theorem Quiet.plain (controlLost : later.runner.controlLost = w.runner.controlLost)
    (inflight : later.runner.inflight = w.runner.inflight) (journal : later.journal = w.journal) : Quiet w later :=
  ⟨controlLost, inflight, journal ▸ .refl⟩

/-- With nothing in flight and nothing queued only acknowledges of events are
sent. -/
theorem Silenced.quiet {handler : Handler} (silenced : w.Silenced) (idle : w.IdleWhenLost handler)
    (deed : Deed cfg w handler later) : Quiet w later := by
  cases deed with
  | idles => exact .refl
  | @noted _ _ _ events acks =>
    refine ⟨rfl, rfl, events, rfl, fun event present => ?_⟩
    obtain ⟨command, reqId, taken, rfl⟩ := acks event present
    exact ⟨rfl, encodeEventAck_isCmd _ _⟩
  | extended busy | settled busy | parked busy | resumed busy | confirmed busy | lost busy | failed busy | retried busy
  | timedOut busy | expired busy => cases silenced.idle.symm.trans busy
  | pushed message =>
    unfold push
    cases message.handle with
    | some handle => exact .records rfl rfl rfl trivial
    | none => exact .plain rfl rfl rfl
  | skipped | postponed => exact .plain rfl rfl rfl
  | took | queued => exact .records rfl rfl rfl trivial
  | pumped _ isQueue => cases (idle silenced.lost).symm.trans isQueue

end ControlWorld

theorem failure_ne_lost (op : Op) (error : CameraError) : failure op error ≠ .heartbeat .lost := by
  rw [failure]
  cases op.handle <;> exact fun same => by cases same

namespace ControlWorld

variable {cfg : GigeConfig} {w later : ControlWorld}

inductive Hushed (w : ControlWorld) : Prop where
  | running (running : w.runner.controlLost = false) (absent : ControlEvent.heartbeat .lost ∉ w.journal)
  | silenced (silenced : w.Silenced) (silent : SilentAfterLoss w.journal)

theorem Sends.unlost {answers : Answers} {op : Op} {send : PendingSend} (sends : Sends cfg answers op send w later) :
    later.runner.controlLost = w.runner.controlLost ∧ Records (· ≠ .heartbeat .lost) w.journal later.journal := by
  cases sends with
  | launched => exact ⟨rfl, .snoc nofun⟩
  | refused => exact ⟨rfl, (Records.snoc nofun).trans (.snoc (failure_ne_lost op .io))⟩

theorem Deed.loses {handler : Handler} (deed : Deed cfg w handler later) :
    (later.runner.controlLost = w.runner.controlLost ∧ Records (· ≠ .heartbeat .lost) w.journal later.journal) ∨
      later.Silenced ∧ ∃ id, later.journal = w.journal ++ [.ended id, .heartbeat .lost] := by
  cases deed with
  | idles | extended | skipped | postponed => exact .inl ⟨rfl, .refl⟩
  | @noted _ _ _ events acks =>
    refine .inl ⟨rfl, events, rfl, fun event present => ?_⟩
    obtain ⟨command, reqId, taken, rfl⟩ := acks event present
    exact nofun
  | settled | timedOut | confirmed | failed => exact .inl ⟨rfl, (Records.snoc nofun).trans (.snoc nofun)⟩
  | parked | took | retried | queued => exact .inl ⟨rfl, .snoc nofun⟩
  | resumed _ _ _ _ sends => exact .inl ⟨sends.unlost.1, (Records.snoc nofun).trans sends.unlost.2⟩
  | pumped _ _ _ sends => exact .inl sends.unlost
  | lost | expired => exact .inr ⟨⟨rfl, rfl⟩, _, List.append_assoc ..⟩
  | pushed message =>
    unfold push
    cases message.handle with
    | some handle => exact .inl ⟨rfl, .snoc nofun⟩
    | none => exact .inl ⟨rfl, .refl⟩

theorem Deed.hushed {handler : Handler} (deed : Deed cfg w handler later) (hushed : w.Hushed)
    (idle : w.IdleWhenLost handler) : later.Hushed := by
  cases hushed with
  | running running absent =>
    rcases deed.loses with ⟨same, events, journal, others⟩ | ⟨silenced, id, journal⟩
    · refine .running (same.trans running) fun recorded => ?_
      rcases List.mem_append.mp (journal ▸ recorded) with old | new
      · exact absent old
      · exact others _ new rfl
    · exact .silenced silenced (journal ▸ .lost absent id)
  | silenced silenced silent =>
    have quiet := silenced.quiet idle deed
    exact .silenced ⟨quiet.controlLost.trans silenced.lost, quiet.inflight.trans silenced.idle⟩
      (silent.records quiet.journal)

theorem handleAll_hushed (handlers : List Handler) : ∀ {w later : ControlWorld}, w.docket.Ordered → w.Hushed →
    Along cfg IdleWhenLost handlers w → w.handleAll cfg handlers = .ok later → later.Hushed := by
  induction handlers with
  | nil =>
    intro w later _ hushed _ result
    cases result
    exact hushed
  | cons handler rest ih =>
    intro w later ordered hushed along result
    obtain ⟨next, handled, deed⟩ := handle_deed cfg handler ordered
    obtain ⟨idle, along⟩ := along
    rw [handled] at along
    rw [handleAll, handled, Checked.ok_bind] at result
    exact ih (deed.ordered ordered) (deed.hushed hushed idle) along result

/-- What the worker still records when it goes: it fails what it holds and what
reaches it, and releases the device if it has control. -/
inductive Farewell (controlLost : Bool) : ControlEvent → Prop where
  | ended (id : Nat) : Farewell controlLost (.ended id)
  | failed (op : Op) (error : CameraError) : Farewell controlLost (failure op error)
  | released (running : controlLost = false) (datagram : List UInt8) (taken : Bool) :
      Farewell controlLost (.sent datagram .release taken)
  | entered (handle : Nat) : Farewell controlLost (.entered handle)
  | took (handle : Nat) : Farewell controlLost (.took handle)
  | resolved (handle : Nat) (response : Response) : Farewell controlLost (.resolved handle response)

theorem Farewell.harmless {event : ControlEvent} (farewell : Farewell true event) : event.Harmless := by
  cases farewell with
  | failed op =>
    rw [failure]
    cases op.handle <;> trivial
  | released running => cases running
  | _ => trivial

theorem Farewell.ne_lost {controlLost : Bool} {event : ControlEvent} (farewell : Farewell controlLost event) :
    event ≠ .heartbeat .lost := by
  cases farewell with
  | failed op error => exact failure_ne_lost op error
  | _ => exact fun same => by cases same

theorem shutdown_farewell (answers : Answers) (arriving : List ToWorker) (w : ControlWorld) :
    Records (Farewell w.runner.controlLost) w.journal (w.shutdown answers arriving).journal := by
  refine ⟨_, shutdown_journal answers arriving w, fun event present => ?_⟩
  rcases List.mem_append.mp present with parted | present
  · rw [parting] at parted
    rcases List.mem_append.mp parted with failed | released
    · rcases List.mem_append.mp failed with inflight | queued
      · obtain ⟨current, _, isEvent⟩ := List.mem_flatMap.mp inflight
        rcases List.mem_cons.mp isEvent with rfl | isEvent
        · exact .ended current.id
        · exact List.mem_singleton.mp isEvent ▸ .failed current.op w.shutdownError
      · obtain ⟨op, _, rfl⟩ := List.mem_map.mp queued
        exact .failed op w.shutdownError
    · split at released
      · cases released
      · rename_i running
        exact List.mem_singleton.mp released ▸ .released (Bool.eq_false_iff.mpr running) _ _
  · rcases List.mem_append.mp present with entered | refused
    · obtain ⟨handle, rfl⟩ := mem_entries entered
      exact .entered handle
    · obtain ⟨handle, rfl | rfl⟩ := mem_refusals refused
      · exact .took handle
      · exact .resolved handle _

theorem Hushed.shutdown (hushed : w.Hushed) (answers : Answers) (arriving : List ToWorker) :
    SilentAfterLoss (w.shutdown answers arriving).journal := by
  have farewell := shutdown_farewell answers arriving w
  cases hushed with
  | running _ absent =>
    obtain ⟨events, journal, goes⟩ := farewell
    refine .of_absent fun recorded => ?_
    rcases List.mem_append.mp (journal ▸ recorded) with old | new
    · exact absent old
    · exact (goes _ new).ne_lost rfl
  | silenced silenced silent =>
    rw [silenced.lost] at farewell
    exact silent.records (farewell.mono fun _ => Farewell.harmless)

end ControlWorld

open ControlWorld

def NeverSent (handle : Nat) (journal : List ControlEvent) : Prop :=
  ∀ datagram taken, .sent datagram (.command (some handle)) taken ∉ journal

/-- As long as no operation is queued when the worker comes to its queue with
control lost: nothing but acknowledges of the device's own messages is sent
after control was lost. An operation that was not sent before is never sent. -/
theorem silence_after_control_loss (cfg : GigeConfig) (now : Nat) (turns : List Turn) (answers : Answers)
    (arriving : List ToWorker)
    (idle : Along cfg IdleWhenLost ((spawn cfg now).loopHandlers cfg turns) (spawn cfg now)) :
    ∃ w, (spawn cfg now).run cfg turns answers arriving = .ok w ∧ SilentAfterLoss w.journal ∧
      ∀ before after, w.journal = before ++ .heartbeat .lost :: after → ∀ handle, NeverSent handle before →
        NeverSent handle w.journal := by
  obtain ⟨last, result, _⟩ := handleAll_steps cfg ((spawn cfg now).loopHandlers cfg turns) (spawn cfg now)
    (spawn_ordered cfg now) fun (impossible : False) => impossible.elim
  have hushed : last.Hushed := handleAll_hushed _ (spawn_ordered cfg now)
    (.running rfl fun recorded => by cases recorded) idle result
  have silent := hushed.shutdown answers arriving
  refine ⟨last.shutdown answers arriving, ?_, silent, ?_⟩
  · rw [run, loop_eq, result]
    rfl
  · intro before after split handle unsent datagram taken sent
    rw [split] at sent
    rcases List.mem_append.mp sent with early | late
    · exact unsent datagram taken early
    · rcases List.mem_cons.mp late with same | late
      · cases same
      · cases (silent before after split _ late).1

def turnAt (ms : Nat) (datagrams : List (List UInt8)) (arriving : List ToWorker) : Turn :=
  { datagrams := datagrams.map fun datagram => ⟨datagram, true, ⟨millis ms, millis ms, true, false, false, []⟩⟩
    arriving := arriving
    deadline := ⟨millis ms, millis ms, true, false, false, []⟩
    heartbeat := ⟨millis ms, millis ms, true, false, false, []⟩
    pump := ⟨millis ms, millis ms, true, false, false, []⟩ }

def cleared : List UInt8 := [0, 0, 0, 0x81, 0, 4, 0, 1, 0, 0, 0, 0]

/-- Control is lost and nothing waits: the worker sends nothing more. -/
theorem silence_after_control_loss_idle :
    ∃ w, (spawn ⟨1, 0, 30⟩ 0).run ⟨1, 0, 30⟩ [turnAt 10 [] [], turnAt 11 [cleared] []]
        ⟨0, 0, true, false, false, []⟩ [.readReg 0 7] = .ok w ∧ SilentAfterLoss w.journal ∧
      ∀ before after, w.journal = before ++ .heartbeat .lost :: after → ∀ handle, NeverSent handle before →
        NeverSent handle w.journal :=
  silence_after_control_loss ⟨1, 0, 30⟩ 0 [turnAt 10 [] [], turnAt 11 [cleared] []] _ _
    ⟨trivial, trivial, (fun lost => by cases lost), trivial, trivial, trivial, (fun _ => rfl), trivial⟩

/-- The heartbeat's answer shows that control is lost, and a write that came
meanwhile still goes out in the same turn. It then fails with the loss. -/
theorem write_sent_after_control_loss :
    ∃ w, (spawn ⟨1, 0, 30⟩ 0).run ⟨1, 0, 30⟩ [turnAt 10 [] [], turnAt 11 [cleared] [.writeRegs [(0x934, 1)] 7]]
        ⟨0, 0, true, false, false, []⟩ [] = .ok w ∧
      w.journal.dropWhile (· ≠ .heartbeat .lost) =
        [ .heartbeat .lost, .entered 7, .took 7,
          .sent (encodeWriteReg [(0x934, 1)] 2) (.command (some 7)) true, .ended 2,
          .resolved 7 (.error .controlLost) ] :=
  ⟨_, rfl, by decide +kernel⟩

end Telegenic.Control
