import Telegenic.Control.Order

/-! Threads that submit operations while the worker shuts down. Each thread
checks that the worker is alive, pushes its message, checks again and fails its
own handle on any error; the worker fails what it holds, marks itself dead and
then empties the channel. -/

set_option autoImplicit false

namespace Telegenic.Control

open Library Proto Proto.Gvcp

/-- Where a thread is in `ControlPort::submit`. -/
inductive SubmitPhase where
  | check
  | push
  | recheck
  /-- `send` returned an error, and the handle is about to be failed. -/
  | fail
  | returned
  deriving DecidableEq, Repr

/-- A call of `ControlPort::submit`. -/
structure Submit where
  message : ToWorker
  handle : Nat
  owns : message.handle = some handle
  phase : SubmitPhase
  deriving DecidableEq

/-- Where the worker is in its life. -/
inductive Stage where
  | running
  /-- What was in flight or queued is failed. -/
  | closing
  /-- The worker is marked dead and empties the channel. -/
  | draining
  | drained
  /-- The receiver of the channel is dropped. -/
  | gone
  deriving DecidableEq, Repr

/-- The worker will see whatever is in its channel. -/
def Stage.Reads : Stage → Prop
  | running | closing | draining => True
  | drained | gone => False

structure Session where
  worker : ControlWorld
  stage : Stage := .running
  submits : List Submit := []
  /-- The handles that threads failed themselves. -/
  failed : List Nat := []
  deriving DecidableEq

/-- What can happen next. -/
inductive Action where
  /-- A thread calls `submit`. -/
  | call (message : ToWorker)
  /-- The thread of the call at this position goes on. -/
  | advance (index : Nat)
  | handle (handler : Handler)
  | stop (answers : Answers)
  | die
  | drain
  | drop
  deriving DecidableEq, Repr

namespace Session

/-- One step of a thread in `submit`: the system after it, and the thread's
next phase. -/
def submitStep (s : Session) (submit : Submit) : Session × SubmitPhase :=
  match submit.phase with
  | .check => (s, if s.worker.alive then .push else .fail)
  | .push =>
      if s.stage = .gone then
        (s, .fail)
      else
        ({ s with worker := s.worker.push submit.message }, .recheck)
  | .recheck => (s, if s.worker.alive then .returned else .fail)
  | .fail => ({ s with failed := s.failed ++ [submit.handle] }, .returned)
  | .returned => (s, .returned)

/-- A step of the system; an action that is not possible changes nothing. -/
def step (cfg : GigeConfig) (s : Session) : Action → Session
  | .call message =>
      match owns : message.handle with
      | some handle => { s with submits := s.submits ++ [⟨message, handle, owns, .check⟩] }
      | none => s
  | .advance index =>
      match s.submits[index]? with
      | some submit =>
          let (next, phase) := s.submitStep submit
          { next with submits := s.submits.set index { submit with phase := phase } }
      | none => s
  | .handle handler =>
      match s.stage, handler, s.worker.handle cfg handler with
      | _, .push _, _ => s
      | .running, _, .ok worker => { s with worker := worker }
      | _, _, _ => s
  | .stop answers =>
      if s.stage = .running then { s with worker := s.worker.close answers, stage := .closing } else s
  | .die => if s.stage = .closing then { s with worker := s.worker.markDead, stage := .draining } else s
  | .drain =>
      match s.stage, s.worker.channel with
      | .draining, message :: rest =>
          { s with worker := { s.worker.refuse s.worker.shutdownError message with channel := rest } }
      | .draining, [] => { s with stage := .drained }
      | _, _ => s
  | .drop => if s.stage = .drained then { s with worker := { s.worker with channel := [] }, stage := .gone } else s

def run (cfg : GigeConfig) (s : Session) (actions : List Action) : Session :=
  actions.foldl (step cfg) s

/-- The worker or the thread that called resolved the handle. -/
def IsResolved (s : Session) (handle : Nat) : Prop :=
  handle ∈ resolvedHandles s.worker.journal ∨ handle ∈ s.failed

/-- What a call has made sure of in its phase. -/
def Secured (s : Session) (submit : Submit) : Prop :=
  match submit.phase with
  | .recheck => s.worker.alive = true → submit.handle ∈ enteredHandles s.worker.journal
  | .returned => s.IsResolved submit.handle ∨ s.stage.Reads ∧ submit.handle ∈ enteredHandles s.worker.journal
  | _ => True

/-- The worker knows where every operation is, as long as it reads its
channel. -/
def Books (worker : ControlWorld) : Stage → Prop
  | .running => worker.docket.Ordered ∧ worker.docket.Accounted
  | .gone => True
  | _ => Accounted worker.channel none [] worker.journal

structure Sound (s : Session) : Prop where
  books : Books s.worker s.stage
  alive : s.worker.alive = true ↔ s.stage = .running ∨ s.stage = .closing
  secured : ∀ submit ∈ s.submits, s.Secured submit

variable {cfg : GigeConfig} {s next : Session}

theorem Secured.mono {submit : Submit} (secured : s.Secured submit)
    (journal : s.worker.journal <+: next.worker.journal) (failed : s.failed <+: next.failed)
    (alive : next.worker.alive = true → s.worker.alive = true) (reads : s.stage.Reads → next.stage.Reads) :
    next.Secured submit := by
  have entered : enteredHandles s.worker.journal <+: enteredHandles next.worker.journal := journal.filterMap _
  have resolved : resolvedHandles s.worker.journal <+: resolvedHandles next.worker.journal := journal.filterMap _
  unfold Secured at secured ⊢
  cases phase : submit.phase with
  | recheck =>
    rw [phase] at secured
    exact fun isAlive => entered.mem (secured (alive isAlive))
  | returned =>
    rw [phase] at secured
    rcases secured with (byWorker | byThread) | ⟨isRead, isEntered⟩
    · exact .inl (.inl (resolved.mem byWorker))
    · exact .inl (.inr (failed.mem byThread))
    · exact .inr ⟨reads isRead, entered.mem isEntered⟩
  | _ => trivial

theorem Sound.moves {worker : ControlWorld} {stage : Stage} (sound : s.Sound) (books : Books worker stage)
    (alive : worker.alive = true ↔ stage = .running ∨ stage = .closing)
    (journal : s.worker.journal <+: worker.journal) (still : worker.alive = true → s.worker.alive = true)
    (reads : s.stage.Reads → stage.Reads) : { s with worker := worker, stage := stage }.Sound :=
  ⟨books, alive, fun submit present => (sound.secured submit present).mono journal List.prefix_rfl still reads⟩

theorem push_spec (message : ToWorker) (w : ControlWorld) (stage : Stage) (books : Books w stage) :
    Books (w.push message) stage ∧ w.journal <+: (w.push message).journal ∧ (w.push message).alive = w.alive := by
  have steps : Docket.Steps False w.docket (w.push message).docket := ControlWorld.push_steps message
  refine ⟨?_, steps.grows.1, steps.alive_eq⟩
  cases stage with
  | running =>
    obtain ⟨ordered, accounted⟩ := steps.preserve Docket.Accounted (fun step _ => step.accounted) books.1 books.2
    exact ⟨ordered, accounted⟩
  | gone => trivial
  | closing | draining | drained => exact (ControlWorld.pushAll_accounted [message] w books).1

theorem entered_push {message : ToWorker} {handle : Nat} (owns : message.handle = some handle) (w : ControlWorld) :
    handle ∈ enteredHandles (w.push message).journal := by
  rw [ControlWorld.push, owns]
  simp only [ControlWorld.record]
  rw [enteredHandles_append]
  exact List.mem_append_right _ (List.mem_singleton.mpr rfl)

theorem submitStep_sound {submit : Submit} (sound : s.Sound) (present : submit ∈ s.submits) :
    (s.submitStep submit).1.Sound ∧
      (s.submitStep submit).1.Secured { submit with phase := (s.submitStep submit).2 } ∧
      (s.submitStep submit).1.submits = s.submits := by
  have secured := sound.secured submit present
  unfold submitStep
  cases phase : submit.phase with
  | check =>
    refine ⟨sound, ?_, rfl⟩
    simp only
    cases s.worker.alive <;> trivial
  | push =>
    simp only
    by_cases isGone : s.stage = .gone
    · rw [if_pos isGone]
      exact ⟨sound, trivial, rfl⟩
    · rw [if_neg isGone]
      obtain ⟨books, journal, alive⟩ := push_spec submit.message s.worker s.stage sound.books
      refine ⟨sound.moves books (by rw [alive]; exact sound.alive) journal (fun isAlive => alive ▸ isAlive) id, ?_, rfl⟩
      exact fun _ => entered_push submit.owns s.worker
  | recheck =>
    unfold Secured at secured
    rw [phase] at secured
    refine ⟨sound, ?_, rfl⟩
    simp only
    cases isAlive : s.worker.alive with
    | false => trivial
    | true =>
      refine .inr ⟨?_, secured isAlive⟩
      rcases sound.alive.mp isAlive with running | closing
      · rw [running]
        trivial
      · rw [closing]
        trivial
  | fail =>
    refine ⟨⟨sound.books, sound.alive, fun other otherPresent => ?_⟩, ?_, rfl⟩
    · exact (sound.secured other otherPresent).mono List.prefix_rfl (List.prefix_append ..) id id
    · exact .inl (.inr (List.mem_append_right _ (List.mem_singleton.mpr rfl)))
  | returned =>
    unfold Secured at secured
    rw [phase] at secured
    exact ⟨sound, secured, rfl⟩

theorem Sound.handle {handler : Handler} {worker : ControlWorld} (sound : s.Sound) (running : s.stage = .running)
    (result : s.worker.handle cfg handler = .ok worker) : { s with worker := worker }.Sound := by
  have books := sound.books
  rw [running] at books
  have steps := (ControlWorld.Deed.of_handle books.1 result).moves books.1
  obtain ⟨ordered, accounted⟩ := steps.preserve Docket.Accounted (fun step _ => step.accounted) books.1 books.2
  have alive : worker.alive = s.worker.alive := steps.alive_eq
  refine sound.moves ?_ (by rw [alive]; exact sound.alive) steps.grows.1 (fun isAlive => alive ▸ isAlive) id
  rw [running]
  exact ⟨ordered, accounted⟩

theorem Sound.stop (answers : Answers) (sound : s.Sound) (running : s.stage = .running) :
    { s with worker := s.worker.close answers, stage := .closing }.Sound := by
  have books := sound.books
  rw [running] at books
  obtain ⟨journal, -, alive⟩ := ControlWorld.close_spec answers s.worker
  refine sound.moves (ControlWorld.close_accounted answers books.2) ?_ (journal ▸ List.prefix_append ..) (fun isAlive => alive ▸ isAlive)
    fun _ => trivial
  rw [alive, sound.alive, running]
  exact ⟨fun _ => .inr rfl, fun _ => .inl rfl⟩

theorem Sound.die (sound : s.Sound) (closing : s.stage = .closing) :
    { s with worker := s.worker.markDead, stage := .draining }.Sound := by
  have books := sound.books
  rw [closing] at books
  refine sound.moves books ?_ List.prefix_rfl (fun isAlive => by cases isAlive) fun _ => trivial
  refine ⟨fun isAlive => ?_, fun stage => by cases stage <;> contradiction⟩
  cases isAlive

theorem Sound.drain {message : ToWorker} {rest : List ToWorker} (sound : s.Sound) (draining : s.stage = .draining)
    (next : s.worker.channel = message :: rest) :
    { s with worker := { s.worker.refuse s.worker.shutdownError message with channel := rest } }.Sound := by
  have books := sound.books
  rw [draining] at books
  have accounted : Accounted (message :: rest) none [] s.worker.journal := by
    rw [← next]
    exact books
  have journal : s.worker.journal <+: (s.worker.refuse s.worker.shutdownError message).journal ∧
      (s.worker.refuse s.worker.shutdownError message).alive = s.worker.alive := by
    rw [ControlWorld.refuse]
    cases message.handle with
    | none => exact ⟨List.prefix_rfl, rfl⟩
    | some handle => exact ⟨(List.prefix_append ..).trans (List.prefix_append ..), rfl⟩
  refine sound.moves ?_ ?_ journal.1 (fun isAlive => journal.2 ▸ isAlive) id
  · rw [draining]
    exact ControlWorld.refuse_accounted _ accounted
  · exact (iff_of_eq (congrArg (· = true) journal.2)).trans sound.alive

theorem Sound.drained (sound : s.Sound) (draining : s.stage = .draining) (empty : s.worker.channel = []) :
    { s with stage := .drained }.Sound := by
  have books : Accounted s.worker.channel none [] s.worker.journal := by
    have books := sound.books
    rw [draining] at books
    exact books
  have all : enteredHandles s.worker.journal = resolvedHandles s.worker.journal := by
    rw [books.entered, books.took, empty]
    simp
  refine ⟨books, ?_, fun submit present => ?_⟩
  · refine ⟨fun isAlive => ?_, fun stage => by cases stage <;> contradiction⟩
    rcases sound.alive.mp isAlive with running | closing
    · rw [draining] at running
      cases running
    · rw [draining] at closing
      cases closing
  · have secured := sound.secured submit present
    unfold Secured at secured ⊢
    cases phase : submit.phase with
    | recheck =>
      rw [phase] at secured
      exact secured
    | returned =>
      rw [phase] at secured
      rcases secured with resolved | ⟨-, entered⟩
      · exact .inl resolved
      · exact .inl (.inl (all ▸ entered))
    | _ => trivial

theorem Sound.drop (sound : s.Sound) (drained : s.stage = .drained) :
    { s with worker := { s.worker with channel := [] }, stage := .gone }.Sound := by
  refine sound.moves trivial ?_ List.prefix_rfl id fun reads => ?_
  · refine ⟨fun isAlive => ?_, fun stage => by cases stage <;> contradiction⟩
    rcases sound.alive.mp isAlive with running | closing
    · rw [drained] at running
      cases running
    · rw [drained] at closing
      cases closing
  · rw [drained] at reads
    exact reads

theorem step_sound (action : Action) (sound : s.Sound) : (s.step cfg action).Sound := by
  cases action with
  | call message =>
    simp only [step]
    split
    · refine ⟨sound.books, sound.alive, fun submit present => ?_⟩
      rcases List.mem_append.mp present with old | new
      · exact sound.secured submit old
      · rw [List.mem_singleton.mp new]
        trivial
    · exact sound
  | advance index =>
    simp only [step]
    split
    · rename_i submit found
      obtain ⟨after, secured, same⟩ := submitStep_sound sound (List.mem_of_getElem? found)
      refine ⟨after.books, after.alive, fun other present => ?_⟩
      rcases List.mem_or_eq_of_mem_set present with old | rfl
      · exact after.secured other (same.symm ▸ old)
      · exact secured
    · exact sound
  | handle handler =>
    simp only [step]
    split
    · exact sound
    · rename_i running _ result
      exact sound.handle running result
    · exact sound
  | stop answers =>
    simp only [step]
    split
    · rename_i running
      exact sound.stop answers running
    · exact sound
  | die =>
    simp only [step]
    split
    · rename_i closing
      exact sound.die closing
    · exact sound
  | drain =>
    simp only [step]
    split
    · rename_i draining next
      exact sound.drain draining next
    · rename_i draining empty
      exact sound.drained draining empty
    · exact sound
  | drop =>
    simp only [step]
    split
    · rename_i drained
      exact sound.drop drained
    · exact sound

theorem run_sound (actions : List Action) : ∀ {s : Session}, s.Sound → (s.run cfg actions).Sound := by
  induction actions with
  | nil => exact fun sound => sound
  | cons action rest ih => exact fun sound => ih (step_sound action sound)

theorem spawn_sound (cfg : GigeConfig) (now : Nat) : Session.Sound { worker := .spawn cfg now } :=
  ⟨⟨ControlWorld.spawn_ordered cfg now, ControlWorld.spawn_accounted cfg now⟩, ⟨fun _ => .inl rfl, fun _ => rfl⟩,
    fun submit present => by cases present⟩

end Session

open Session

/-- Whatever the threads and the worker do, and in whatever order: when every
call of `submit` has returned and the worker has emptied its channel, every
handle is resolved. -/
theorem no_handle_left_pending (cfg : GigeConfig) (now : Nat) (actions : List Action)
    (returned : ∀ submit ∈ (run cfg { worker := .spawn cfg now } actions).submits, submit.phase = .returned)
    (finished : (run cfg { worker := .spawn cfg now } actions).stage = .drained ∨
      (run cfg { worker := .spawn cfg now } actions).stage = .gone) :
    ∀ submit ∈ (run cfg { worker := .spawn cfg now } actions).submits,
      (run cfg { worker := .spawn cfg now } actions).IsResolved submit.handle := by
  intro submit present
  have secured := (run_sound actions (spawn_sound cfg now)).secured submit present
  unfold Secured at secured
  rw [returned submit present] at secured
  rcases secured with resolved | ⟨reads, -⟩
  · exact resolved
  · rcases finished with drained | gone
    · rw [drained] at reads
      exact reads.elim
    · rw [gone] at reads
      exact reads.elim

/-- One thread's message is drained, and another pushes too late and fails its
handle itself. -/
theorem late_submit_resolved :
    let answers : Answers := ⟨0, 0, true, false, false, []⟩
    let cfg : GigeConfig := ⟨1, 0, 30⟩
    let s := run cfg { worker := .spawn cfg 0 }
      [.call (.readReg 0 7), .call (.readReg 4 8), .advance 0, .advance 0, .advance 0, .advance 1, .stop answers, .die,
        .drain, .drain, .advance 1, .advance 1, .advance 1, .drop]
    s.submits.map (·.handle) = [7, 8] ∧ s.failed = [8] ∧ ∀ submit ∈ s.submits, s.IsResolved submit.handle :=
  ⟨by decide +kernel, by decide +kernel,
    no_handle_left_pending ⟨1, 0, 30⟩ 0 _ (by decide +kernel) (by decide +kernel)⟩

end Telegenic.Control
