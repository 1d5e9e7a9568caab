import Telegenic.Control.Lockstep

/-! The worker resolves what it took from its channel, each operation once, in
the order in which the operations entered, and one transaction at a time. -/

set_option autoImplicit false

namespace Telegenic.Control

open Library Proto Proto.Gvcp

def enteredHandles (journal : List ControlEvent) : List Nat :=
  journal.filterMap fun
    | .entered handle => some handle
    | _ => none

def tookHandles (journal : List ControlEvent) : List Nat :=
  journal.filterMap fun
    | .took handle => some handle
    | _ => none

def resolvedHandles (journal : List ControlEvent) : List Nat :=
  journal.filterMap fun
    | .resolved handle _ => some handle
    | _ => none

def ControlEvent.isLaunch : ControlEvent → Bool
  | sent _ (.command _) true => true
  | _ => false

def ControlEvent.isEnding : ControlEvent → Bool
  | ended _ => true
  | _ => false

def OneAtATime (journal : List ControlEvent) : Prop :=
  ∀ before after, journal = before ++ after →
    before.countP ControlEvent.isLaunch ≤ before.countP ControlEvent.isEnding + 1

/-- A command of a user operation is sent only when every operation taken
before it has been resolved. -/
def OldestFirst (journal : List ControlEvent) : Prop :=
  ∀ before after datagram handle taken,
    journal = before ++ .sent datagram (.command (some handle)) taken :: after →
      ∃ rest, tookHandles before = resolvedHandles before ++ handle :: rest

/-- Where the operations are: those that entered were taken or are in the
channel, and those taken were resolved or are in flight or queued. -/
structure Accounted (channel : List ToWorker) (inflight : Option Op) (queue : List Op)
    (journal : List ControlEvent) : Prop where
  entered : enteredHandles journal = tookHandles journal ++ channel.filterMap ToWorker.handle
  took : tookHandles journal = resolvedHandles journal ++ (inflight.toList ++ queue).filterMap Op.handle
  flying : journal.countP ControlEvent.isLaunch = journal.countP ControlEvent.isEnding + inflight.toList.length
  single : OneAtATime journal
  oldest : OldestFirst journal

section Journal

variable {journal : List ControlEvent}

theorem enteredHandles_append (journal rest : List ControlEvent) :
    enteredHandles (journal ++ rest) = enteredHandles journal ++ enteredHandles rest :=
  List.filterMap_append

theorem tookHandles_append (journal rest : List ControlEvent) :
    tookHandles (journal ++ rest) = tookHandles journal ++ tookHandles rest :=
  List.filterMap_append

theorem resolvedHandles_append (journal rest : List ControlEvent) :
    resolvedHandles (journal ++ rest) = resolvedHandles journal ++ resolvedHandles rest :=
  List.filterMap_append

theorem OneAtATime.snoc {event : ControlEvent} (single : OneAtATime journal)
    (whole : (journal ++ [event]).countP ControlEvent.isLaunch ≤
      (journal ++ [event]).countP ControlEvent.isEnding + 1) : OneAtATime (journal ++ [event]) := by
  intro before after split
  rcases List.eq_nil_or_concat after with rfl | ⟨front, last, rfl⟩
  · rw [List.append_nil] at split
    rw [← split]
    exact whole
  · rw [List.concat_eq_append, ← List.append_assoc] at split
    exact single before front (List.append_inj' split rfl).1

theorem OldestFirst.snoc {event : ControlEvent} (oldest : OldestFirst journal)
    (last : ∀ datagram handle taken, event = .sent datagram (.command (some handle)) taken →
      ∃ rest, tookHandles journal = resolvedHandles journal ++ handle :: rest) : OldestFirst (journal ++ [event]) := by
  intro before after datagram handle taken split
  rcases List.eq_nil_or_concat after with rfl | ⟨front, other, rfl⟩
  · have same := List.append_inj' split rfl
    rw [← same.1]
    exact last datagram handle taken (List.singleton_inj.mp same.2)
  · rw [List.concat_eq_append, ← List.cons_append, ← List.append_assoc] at split
    exact oldest before front datagram handle taken (List.append_inj' split rfl).1

end Journal

namespace Accounted

variable {channel channel' : List ToWorker} {inflight inflight' : Option Op} {queue queue' : List Op}
  {journal : List ControlEvent}

theorem move {event : ControlEvent} (accounted : Accounted channel inflight queue journal)
    (entered : channel.filterMap ToWorker.handle ++ enteredHandles [event] =
      tookHandles [event] ++ channel'.filterMap ToWorker.handle)
    (took : (inflight.toList ++ queue).filterMap Op.handle ++ tookHandles [event] =
      resolvedHandles [event] ++ (inflight'.toList ++ queue').filterMap Op.handle)
    (flying : inflight.toList.length + [event].countP ControlEvent.isLaunch =
      [event].countP ControlEvent.isEnding + inflight'.toList.length)
    (front : ∀ datagram handle taken, event = .sent datagram (.command (some handle)) taken →
      ∃ rest, (inflight.toList ++ queue).filterMap Op.handle = handle :: rest) :
    Accounted channel' inflight' queue' (journal ++ [event]) := by
  have flies : (journal ++ [event]).countP ControlEvent.isLaunch =
      (journal ++ [event]).countP ControlEvent.isEnding + inflight'.toList.length := by
    have before := accounted.flying
    rw [List.countP_append, List.countP_append]
    omega
  refine ⟨?_, ?_, flies, accounted.single.snoc ?_, accounted.oldest.snoc ?_⟩
  · rw [enteredHandles_append, tookHandles_append, accounted.entered, List.append_assoc, entered, List.append_assoc]
  · rw [tookHandles_append, resolvedHandles_append, accounted.took, List.append_assoc, took, List.append_assoc]
  · have bound : inflight'.toList.length ≤ 1 := by cases inflight' <;> simp
    omega
  · intro datagram handle taken same
    obtain ⟨rest, oldest⟩ := front datagram handle taken same
    exact ⟨rest, by rw [accounted.took, oldest]⟩

theorem note {datagram : List UInt8} {purpose : Purpose} {taken : Bool}
    (accounted : Accounted channel inflight queue journal) (other : ∀ handle, purpose ≠ .command handle) :
    Accounted channel inflight queue (journal ++ [.sent datagram purpose taken]) := by
  cases purpose with
  | command handle => exact absurd rfl (other handle)
  | retry | eventAck | release =>
    exact accounted.move (by simp [enteredHandles, tookHandles]) (by simp [tookHandles, resolvedHandles])
      (by simp [ControlEvent.isLaunch, ControlEvent.isEnding]) (fun _ _ _ same => by cases same)

theorem notes {events : List ControlEvent} : ∀ {journal : List ControlEvent},
    Accounted channel inflight queue journal → (∀ event ∈ events, event.IsNote) →
      Accounted channel inflight queue (journal ++ events) := by
  induction events with
  | nil => exact fun accounted _ => by rwa [List.append_nil]
  | cons event rest ih =>
    intro journal accounted areNotes
    have isNote := areNotes event (List.mem_cons_self ..)
    have first : Accounted channel inflight queue (journal ++ [event]) := by
      cases event with
      | sent datagram purpose taken =>
        refine accounted.note fun handle same => ?_
        rw [same] at isNote
        exact isNote
      | _ => exact isNote.elim
    have whole := ih first fun other present => areNotes other (List.mem_cons_of_mem _ present)
    rwa [List.append_assoc] at whole

theorem enter {message : ToWorker} {handle : Nat} (accounted : Accounted channel inflight queue journal)
    (isUser : message.handle = some handle) :
    Accounted (channel ++ [message]) inflight queue (journal ++ [.entered handle]) :=
  accounted.move (by simp [enteredHandles, tookHandles, isUser]) (by simp [tookHandles, resolvedHandles])
    (by simp [ControlEvent.isLaunch, ControlEvent.isEnding]) (fun _ _ _ same => by cases same)

theorem post {message : ToWorker} (accounted : Accounted channel inflight queue journal)
    (plain : message.handle = none) : Accounted (channel ++ [message]) inflight queue journal := by
  refine { accounted with entered := accounted.entered.trans ?_ }
  simp [plain]

theorem skip {message : ToWorker} (accounted : Accounted (message :: channel) inflight queue journal)
    (plain : message.handle = none) : Accounted channel inflight queue journal := by
  refine { accounted with entered := accounted.entered.trans ?_ }
  simp [plain]

theorem take {message : ToWorker} {handle : Nat} {op : Op}
    (accounted : Accounted (message :: channel) inflight queue journal) (isUser : message.handle = some handle)
    (owner : op.handle = some handle) :
    Accounted channel inflight (queue ++ [op]) (journal ++ [.took handle]) :=
  accounted.move (by simp [enteredHandles, tookHandles, isUser]) (by simp [tookHandles, resolvedHandles, owner])
    (by simp [ControlEvent.isLaunch, ControlEvent.isEnding]) (fun _ _ _ same => by cases same)

theorem due (accounted : Accounted channel inflight queue journal) :
    Accounted channel inflight (.heartbeat :: queue) (journal ++ [.heartbeat .queued]) :=
  accounted.move (by simp [enteredHandles, tookHandles]) (by simp [List.filterMap_cons, tookHandles, resolvedHandles])
    (by simp [ControlEvent.isLaunch, ControlEvent.isEnding]) (fun _ _ _ same => by cases same)

theorem resume {op next : Op} (accounted : Accounted channel (some op) queue journal) (same : next.handle = op.handle)
    (id : Nat) : Accounted channel none (resumeQueue next queue) (journal ++ [.ended id]) := by
  have resumed : (resumeQueue next queue).filterMap Op.handle = (op :: queue).filterMap Op.handle := by
    rw [resumeQueue.eq_def]
    split <;> simp [List.filterMap_cons, same]
  exact accounted.move (by simp [enteredHandles, tookHandles])
    (by simpa [tookHandles, resolvedHandles] using resumed.symm)
    (by simp [ControlEvent.isLaunch, ControlEvent.isEnding]) (fun _ _ _ same => by cases same)

theorem ended {op : Op} (accounted : Accounted channel (some op) queue journal) (id : Nat) :
    Accounted channel none (op :: queue) (journal ++ [.ended id]) :=
  accounted.move (by simp [enteredHandles, tookHandles]) (by simp [tookHandles, resolvedHandles])
    (by simp [ControlEvent.isLaunch, ControlEvent.isEnding]) (fun _ _ _ same => by cases same)

theorem resolve {op : Op} {handle : Nat} (accounted : Accounted channel none (op :: queue) journal)
    (isUser : op.handle = some handle) (response : Response) :
    Accounted channel none queue (journal ++ [.resolved handle response]) :=
  accounted.move (by simp [enteredHandles, tookHandles]) (by simp [tookHandles, resolvedHandles, isUser])
    (by simp [ControlEvent.isLaunch, ControlEvent.isEnding]) (fun _ _ _ same => by cases same)

theorem dropHeartbeat {op : Op} (accounted : Accounted channel none (op :: queue) journal)
    (isHeartbeat : op.handle = none) (mark : HeartbeatMark) :
    Accounted channel none queue (journal ++ [.heartbeat mark]) :=
  accounted.move (by simp [enteredHandles, tookHandles]) (by simp [tookHandles, resolvedHandles, isHeartbeat])
    (by simp [ControlEvent.isLaunch, ControlEvent.isEnding]) (fun _ _ _ same => by cases same)

theorem failFront {op : Op} (accounted : Accounted channel none (op :: queue) journal) (error : CameraError) :
    Accounted channel none queue (journal ++ [failure op error]) := by
  rw [failure]
  cases isUser : op.handle with
  | none => exact accounted.dropHeartbeat isUser _
  | some handle => exact accounted.resolve isUser _

theorem front_oldest {op : Op} {datagram other : List UInt8} {handle : Nat} {taken flag : Bool}
    (same : ControlEvent.sent datagram (.command op.handle) flag = .sent other (.command (some handle)) taken) :
    ∃ rest, (none.toList ++ op :: queue).filterMap Op.handle = handle :: rest := by
  have isUser : op.handle = some handle := by
    injection same with _ purpose
    injection purpose
  exact ⟨queue.filterMap Op.handle, by simp [isUser]⟩

theorem launch {op : Op} {datagram : List UInt8} (accounted : Accounted channel none (op :: queue) journal) :
    Accounted channel (some op) queue (journal ++ [.sent datagram (.command op.handle) true]) :=
  accounted.move (by simp [enteredHandles, tookHandles]) (by simp [tookHandles, resolvedHandles])
    (by simp [ControlEvent.isLaunch, ControlEvent.isEnding]) (fun _ _ _ same => front_oldest same)

theorem refuse {op : Op} {datagram : List UInt8} (accounted : Accounted channel none (op :: queue) journal) :
    Accounted channel none queue (journal ++ [.sent datagram (.command op.handle) false, failure op .io]) := by
  have sent : Accounted channel none (op :: queue) (journal ++ [.sent datagram (.command op.handle) false]) :=
    accounted.move (by simp [enteredHandles, tookHandles]) (by simp [tookHandles, resolvedHandles])
      (by simp [ControlEvent.isLaunch, ControlEvent.isEnding]) (fun _ _ _ same => front_oldest same)
  have failed := sent.failFront .io
  rwa [List.append_assoc] at failed

theorem settle {reliable : Prop} {op : Op} {event : ControlEvent} {lost : Bool}
    (accounted : Accounted channel (some op) queue journal) (id : Nat) (settles : Settles reliable op event lost) :
    Accounted channel none queue (journal ++ [.ended id, event]) := by
  have settled : Accounted channel none queue (journal ++ [.ended id] ++ [event]) := by
    cases settles with
    | user isUser => exact (accounted.ended id).resolve isUser _
    | confirmed => exact (accounted.ended id).dropHeartbeat rfl _
    | lost => exact (accounted.ended id).dropHeartbeat rfl _
    | failed => exact (accounted.ended id).dropHeartbeat rfl _
  rwa [List.append_assoc] at settled

end Accounted

abbrev Docket.Accounted (d : Docket) : Prop :=
  Control.Accounted d.channel d.inflight d.queue d.journal

theorem Docket.Step.accounted {reliable : Prop} {d later : Docket} (step : Docket.Step reliable d later)
    (accounted : d.Accounted) : later.Accounted := by
  cases d with
  | mk channel queue payloads inflight controlLost alive journal =>
    cases step with
    | note isNote => exact accounted.notes isNote
    | enter isUser => exact accounted.enter isUser
    | post plain => exact accounted.post plain
    | skip plain next =>
      cases next
      exact accounted.skip plain
    | take isUser next owner =>
      cases next
      exact accounted.take isUser owner
    | due => exact accounted.due
    | resume busy isUser same =>
      cases busy
      exact accounted.resume (same.trans isUser.symm) _
    | launch idle first =>
      cases idle
      cases first
      exact accounted.launch
    | refuse idle first =>
      cases idle
      cases first
      exact accounted.refuse
    | settle busy settles =>
      cases busy
      exact accounted.settle _ settles

namespace ControlWorld

variable {w : ControlWorld}

/-! ## Shutting down -/

def close (answers : Answers) (w : ControlWorld) : ControlWorld :=
  let error := w.shutdownError
  let w := { w with sharedControlLost := w.sharedControlLost || w.runner.controlLost }
  let w := w.runner.inflight.elim w fun inflight => (w.takeInflight inflight).fail inflight.op error
  let w := (w.runner.queue.foldl (fun w op => w.fail op error) w).setQueues [] []
  let w := w.releaseControl answers
  { w with runner := { w.runner with eventTxs := [] } }

def markDead (w : ControlWorld) : ControlWorld :=
  { w with alive := false }

theorem shutdown_eq_parts (answers : Answers) (arriving : List ToWorker) (w : ControlWorld) :
    w.shutdown answers arriving =
      let dead := arriving.foldl push (w.close answers).markDead
      { dead.channel.foldl (refuse w.shutdownError) dead with channel := [] } :=
  rfl

/-- What is recorded up to where the worker is marked dead: everything in flight
and queued fails, and the device is released. -/
def parting (answers : Answers) (w : ControlWorld) : List ControlEvent :=
  (w.runner.inflight.toList.flatMap fun inflight => [.ended inflight.id, failure inflight.op w.shutdownError]) ++
    w.runner.queue.map (failure · w.shutdownError) ++
    if w.runner.controlLost then
      []
    else
      [.sent (encodeWriteReg [(Bootstrap.controlChannelPrivilege, 0)] (nextId w.runner.nextId)) .release answers.sends]

def entries (messages : List ToWorker) : List ControlEvent :=
  messages.filterMap fun message => message.handle.map .entered

def refusals (error : CameraError) (messages : List ToWorker) : List ControlEvent :=
  messages.flatMap fun message => message.handle.toList.flatMap fun handle => [.took handle, .resolved handle (.error error)]

theorem mem_entries {event : ControlEvent} {messages : List ToWorker} (present : event ∈ entries messages) :
    ∃ handle, event = .entered handle := by
  obtain ⟨message, _, isEntry⟩ := List.mem_filterMap.mp present
  obtain ⟨handle, _, rfl⟩ := Option.map_eq_some_iff.mp isEntry
  exact ⟨handle, rfl⟩

theorem mem_refusals {event : ControlEvent} {error : CameraError} {messages : List ToWorker}
    (present : event ∈ refusals error messages) :
    ∃ handle, event = .took handle ∨ event = .resolved handle (.error error) := by
  obtain ⟨message, _, refused⟩ := List.mem_flatMap.mp present
  obtain ⟨handle, _, isEvent⟩ := List.mem_flatMap.mp refused
  exact ⟨handle, by simpa using isEvent⟩

theorem failAll_eq (error : CameraError) (queue : List Op) : ∀ (w : ControlWorld),
    queue.foldl (fun w op => w.fail op error) w = { w with journal := w.journal ++ queue.map (failure · error) } := by
  induction queue with
  | nil => exact fun w => by simp
  | cons op rest ih =>
    intro w
    rw [List.foldl_cons, ih, fail_eq]
    simp [record]

theorem pushAll_eq (messages : List ToWorker) : ∀ (w : ControlWorld), messages.foldl push w =
    { w with channel := w.channel ++ messages, journal := w.journal ++ entries messages } := by
  induction messages with
  | nil => exact fun w => by simp [entries]
  | cons message rest ih =>
    intro w
    rw [List.foldl_cons, ih, push]
    cases isUser : message.handle <;> simp [record, entries, isUser]

theorem refuseAll_eq (error : CameraError) (messages : List ToWorker) : ∀ (w : ControlWorld),
    messages.foldl (refuse error) w = { w with journal := w.journal ++ refusals error messages } := by
  induction messages with
  | nil => exact fun w => by simp [refusals]
  | cons message rest ih =>
    intro w
    rw [List.foldl_cons, ih, refuse]
    cases isUser : message.handle <;> simp [record, refusals, isUser]

theorem failInflight_eq (error : CameraError) (w : ControlWorld) :
    (w.runner.inflight.elim w fun inflight => (w.takeInflight inflight).fail inflight.op error) =
      { w with
        runner := { w.runner with inflight := none }
        journal := w.journal ++ w.runner.inflight.toList.flatMap fun inflight =>
          [.ended inflight.id, failure inflight.op error] } := by
  rcases w with ⟨⟨queue, payloads, inflight, nextId, eventTxs, due, lost, stats⟩, channel, alive, shared, journal⟩
  cases inflight <;> simp [fail_eq, takeInflight, setInflight, record]

theorem close_spec (answers : Answers) (w : ControlWorld) :
    (w.close answers).journal = w.journal ++ w.parting answers ∧ (w.close answers).channel = w.channel ∧
      (w.close answers).alive = w.alive := by
  have failed := failInflight_eq w.shutdownError
    { w with sharedControlLost := w.sharedControlLost || w.runner.controlLost }
  unfold close
  simp only at failed ⊢
  rw [failed, failAll_eq]
  simp only [releaseControl, setQueues, parting]
  cases w.runner.controlLost <;> simp [record, takeId]

theorem shutdown_journal (answers : Answers) (arriving : List ToWorker) (w : ControlWorld) :
    (w.shutdown answers arriving).journal = w.journal ++ (w.parting answers ++
      (entries arriving ++ refusals w.shutdownError (w.channel ++ arriving))) := by
  obtain ⟨journal, channel, -⟩ := close_spec answers w
  simp only [shutdown_eq_parts, pushAll_eq, refuseAll_eq, markDead, journal, channel, List.append_assoc]

theorem failAll_accounted (error : CameraError) {channel : List ToWorker} (queue : List Op) :
    ∀ {journal : List ControlEvent}, Control.Accounted channel none queue journal →
      Control.Accounted channel none [] (journal ++ queue.map (failure · error)) := by
  induction queue with
  | nil => exact fun accounted => (List.append_nil _).symm ▸ accounted
  | cons op rest ih =>
    intro journal accounted
    rw [List.map_cons, List.append_cons]
    exact ih (accounted.failFront error)

theorem close_accounted (answers : Answers) (accounted : w.docket.Accounted) :
    Control.Accounted (w.close answers).channel none [] (w.close answers).journal := by
  have start : Control.Accounted w.channel (w.runner.inflight.map (·.op)) w.runner.queue w.journal := accounted
  have failed : Control.Accounted w.channel none w.runner.queue (w.journal ++
      w.runner.inflight.toList.flatMap fun inflight => [.ended inflight.id, failure inflight.op w.shutdownError]) := by
    cases busy : w.runner.inflight with
    | none =>
      rw [busy] at start
      simpa using start
    | some inflight =>
      rw [busy] at start
      simpa using (start.ended inflight.id).failFront w.shutdownError
  have emptied := failAll_accounted w.shutdownError _ failed
  obtain ⟨journal, channel, -⟩ := close_spec answers w
  rw [journal, channel, parting, ← List.append_assoc, ← List.append_assoc]
  split
  · rwa [List.append_nil]
  · exact emptied.note fun handle same => by cases same

theorem pushAll_accounted {inflight : Option Op} {queue : List Op} (messages : List ToWorker) : ∀ (w : ControlWorld),
    Control.Accounted w.channel inflight queue w.journal →
      Control.Accounted (messages.foldl push w).channel inflight queue (messages.foldl push w).journal ∧
        (messages.foldl push w).runner = w.runner := by
  induction messages with
  | nil => exact fun w accounted => ⟨accounted, rfl⟩
  | cons message rest ih =>
    intro w accounted
    have pushed : Control.Accounted (w.push message).channel inflight queue (w.push message).journal ∧
        (w.push message).runner = w.runner := by
      rw [push]
      cases isUser : message.handle with
      | none => exact ⟨accounted.post isUser, rfl⟩
      | some handle => exact ⟨accounted.enter isUser, rfl⟩
    obtain ⟨last, runner⟩ := ih (w.push message) pushed.1
    exact ⟨last, runner.trans pushed.2⟩

theorem refuse_accounted (error : CameraError) {message : ToWorker} {rest : List ToWorker}
    (accounted : Control.Accounted (message :: rest) none [] w.journal) :
    Control.Accounted rest none [] (w.refuse error message).journal := by
  rw [refuse]
  cases isUser : message.handle with
  | none => exact accounted.skip isUser
  | some handle =>
    have taken : Control.Accounted rest none ([] ++ [Op.readReg handle]) (w.journal ++ [.took handle]) :=
      accounted.take isUser rfl
    exact taken.resolve rfl _

theorem refuseAll_accounted (error : CameraError) (messages : List ToWorker) : ∀ (w : ControlWorld),
    Control.Accounted messages none [] w.journal →
      Control.Accounted [] none [] (messages.foldl (refuse error) w).journal ∧
        (messages.foldl (refuse error) w).runner = w.runner := by
  induction messages with
  | nil => exact fun w accounted => ⟨accounted, rfl⟩
  | cons message rest ih =>
    intro w accounted
    obtain ⟨last, runner⟩ := ih _ (refuse_accounted error accounted)
    have frame : (w.refuse error message).runner = w.runner := by
      rw [refuse]
      cases message.handle <;> rfl
    exact ⟨last, runner.trans frame⟩

theorem shutdown_accounted (answers : Answers) (arriving : List ToWorker) (accounted : w.docket.Accounted) :
    Control.Accounted [] none [] (w.shutdown answers arriving).journal := by
  have pushed := (pushAll_accounted arriving (w.close answers).markDead (close_accounted answers accounted)).1
  exact (refuseAll_accounted w.shutdownError _ _ pushed).1

theorem spawn_accounted (cfg : GigeConfig) (now : Nat) : (spawn cfg now).docket.Accounted := by
  refine ⟨rfl, rfl, rfl, ?_, ?_⟩
  · intro before after split
    cases before with
    | nil => exact Nat.zero_le _
    | cons => cases split
  · intro before after datagram handle taken split
    cases before <;> cases split

end ControlWorld

open ControlWorld

/-- Over the whole life of a worker: it resolves every operation it takes, each
once and in the order in which they entered its channel; a command is only sent
for the oldest operation that is not resolved, and no transaction starts while
another is in flight. -/
theorem operations_resolved_once_in_order (cfg : GigeConfig) (now : Nat) (turns : List Turn) (answers : Answers)
    (arriving : List ToWorker) :
    ∃ w, (spawn cfg now).run cfg turns answers arriving = .ok w ∧
      resolvedHandles w.journal = tookHandles w.journal ∧
      tookHandles w.journal = enteredHandles w.journal ∧
      OldestFirst w.journal ∧ OneAtATime w.journal := by
  obtain ⟨w, result, -, accounted⟩ := handleAll_preserve Docket.Accounted (fun step _ => step.accounted) cfg now
    (spawn_accounted cfg now) ((spawn cfg now).loopHandlers cfg turns)
  have final := w.shutdown_accounted answers arriving accounted
  refine ⟨w.shutdown answers arriving, ?_, ?_, ?_, final.oldest, final.single⟩
  · rw [run, loop_eq, result]
    rfl
  · exact (final.took.trans (List.append_nil _)).symm
  · exact (final.entered.trans (List.append_nil _)).symm

end Telegenic.Control
