import Telegenic.Handle.Response

/-! No wake-up is lost: what each thread can rely on while the others move. -/

set_option autoImplicit false

namespace Telegenic.Handle

variable {Value Waker : Type} {kind : WakerKind Waker}

def WokenSince (kind : WakerKind Waker) (journal : List (HandleEvent Value Waker)) (waker : Waker) : Prop :=
  ∃ before value after other, journal = before ++ .deposited value :: after ∧ .woke other ∈ after ∧
    kind.same.r other waker

def Listed (kind : WakerKind Waker) (wakers : List Waker) (waker : Waker) : Prop :=
  ∃ other ∈ wakers, kind.same.r other waker

section Lists

variable {journal : List (HandleEvent Value Waker)} {wakers : List Waker} {waker other : Waker}

theorem WokenSince.append (woken : WokenSince kind journal waker) (more : List (HandleEvent Value Waker)) :
    WokenSince kind (journal ++ more) waker := by
  obtain ⟨before, value, after, other, rfl, woke, same⟩ := woken
  exact ⟨before, value, after ++ more, other, List.append_assoc .., List.mem_append_left _ woke, same⟩

theorem WokenSince.woke {value : Value} (deposited : .deposited value ∈ journal) (same : kind.same.r other waker) :
    WokenSince kind (journal ++ [.woke other]) waker := by
  obtain ⟨before, after, rfl⟩ := List.append_of_mem deposited
  exact ⟨before, value, after ++ [.woke other], other, List.append_assoc .., List.mem_append_right _ List.mem_cons_self,
    same⟩

theorem mem_registerWaker (wakers : List Waker) : waker ∈ registerWaker kind waker wakers := by
  induction wakers with
  | nil => exact List.mem_cons_self
  | cons first rest ih =>
    rw [registerWaker]
    split
    · exact List.mem_cons_self
    · exact List.mem_cons_of_mem _ ih

theorem registerWaker_listed (present : other ∈ wakers) : Listed kind (registerWaker kind waker wakers) other := by
  induction wakers with
  | nil => cases present
  | cons first rest ih =>
    rw [registerWaker]
    split
    · rename_i wakes
      rcases List.mem_cons.mp present with rfl | present
      · exact ⟨waker, List.mem_cons_self, kind.same.symm (kind.sound wakes)⟩
      · exact ⟨other, List.mem_cons_of_mem _ present, kind.same.refl other⟩
    · rcases List.mem_cons.mp present with rfl | present
      · exact ⟨other, List.mem_cons_self, kind.same.refl other⟩
      · obtain ⟨found, inRest, same⟩ := ih present
        exact ⟨found, List.mem_cons_of_mem _ inRest, same⟩

theorem Listed.register (listed : Listed kind wakers other) : Listed kind (registerWaker kind waker wakers) other := by
  obtain ⟨found, present, same⟩ := listed
  obtain ⟨replaced, inList, same'⟩ := registerWaker_listed present
  exact ⟨replaced, inList, kind.same.trans same' same⟩

end Lists

def Inner.Safe (kind : WakerKind Waker) (s : Inner Value Waker) : Prop :=
  ∀ poll ∈ s.pending, WokenSince kind s.journal poll.2 ∨ Listed kind s.wakers poll.2

structure Inner.Sound (kind : WakerKind Waker) (s : Inner Value Waker) : Prop where
  first : s.cell = s.deposits.head?
  seen : ∀ value ∈ s.seen, value = s.cell ∧ s.cell.isSome = true
  deposited : s.cell.isSome = true → ∃ value, .deposited value ∈ s.journal
  notified : s.notified = true → s.cell.isSome = true
  rung : ∀ thread, s.listeners thread = some true → s.notified = true
  finished : s.finished = true → s.notified = true ∧ ∀ poll ∈ s.pending, WokenSince kind s.journal poll.2
  safe : s.guard = none → s.Safe kind

def Knows (kind : WakerKind Waker) (thread : Nat) (s : Inner Value Waker) : Phase Value Waker → Prop
  | .idle | .deposit _ | .check | .listen | .lastCheck | .pollCheck _ | .pollLock _ => True
  | .notify => s.cell.isSome = true
  | .lock => s.cell.isSome = true ∧ s.notified = true
  | .take => s.cell.isSome = true ∧ s.notified = true ∧ s.guard = some thread ∧ s.Safe kind
  | .wake rest => s.cell.isSome = true ∧ s.notified = true ∧ s.guard = some thread ∧
      ∀ poll ∈ s.pending, WokenSince kind s.journal poll.2 ∨ Listed kind rest poll.2
  | .recheck => ∃ woken, s.listeners thread = some woken
  | .sleep => ∃ woken, s.listeners thread = some woken ∧ (s.notified = true → woken = true)
  | .get => s.cell.isSome = true
  | .register _ => s.guard = some thread ∧ s.Safe kind
  | .unlock waker => s.guard = some thread ∧ s.Safe kind ∧ (s.cell = none → Listed kind s.wakers waker)
  | .pollRecheck waker => s.cell = none → Listed kind s.wakers waker

structure Relies (kind : WakerKind Waker) (thread : Nat) (s later : Inner Value Waker) : Prop where
  cell : s.cell.isSome = true → later.cell = s.cell
  notified : s.notified = true → later.notified = true
  listener : later.listeners thread = s.listeners thread ∧ later.notified = s.notified ∨
    later.listeners thread = (s.listeners thread).map fun _ => true
  guard : s.guard = some thread → later.guard = some thread ∧ later.wakers = s.wakers
  listed : ∀ waker, later.cell = none → Listed kind s.wakers waker → Listed kind later.wakers waker
  pending : ∀ poll ∈ later.pending, poll ∈ s.pending ∨ s.cell = none ∧ Listed kind s.wakers poll.2
  woken : ∀ waker, WokenSince kind s.journal waker → WokenSince kind later.journal waker

section Rely

variable {thread : Nat} {s later : Inner Value Waker}

theorem Relies.refl : Relies kind thread s s :=
  ⟨fun _ => rfl, id, .inl ⟨rfl, rfl⟩, (fun held => ⟨held, rfl⟩), (fun _ _ listed => listed), (fun _ present => .inl present),
    fun _ woken => woken⟩

theorem Relies.isSome (relies : Relies kind thread s later) (set : s.cell.isSome = true) : later.cell.isSome = true :=
  (relies.cell set).symm ▸ set

theorem Relies.unset (relies : Relies kind thread s later) (unset : later.cell = none) : s.cell = none := by
  cases cell : s.cell with
  | none => rfl
  | some value =>
    have kept := relies.cell (by rw [cell]; rfl)
    rw [unset, cell] at kept
    cases kept

theorem Relies.safe (relies : Relies kind thread s later) (held : s.guard = some thread) (safe : s.Safe kind) :
    later.Safe kind := by
  have wakers := (relies.guard held).2
  intro poll present
  rw [wakers]
  rcases relies.pending poll present with old | ⟨_, listed⟩
  · exact (safe poll old).imp_left (relies.woken poll.2)
  · exact .inr listed

theorem Knows.stable {phase : Phase Value Waker} (knows : Knows kind thread s phase)
    (relies : Relies kind thread s later) : Knows kind thread later phase := by
  cases phase with
  | idle | deposit | check | listen | lastCheck | pollCheck | pollLock => trivial
  | notify => exact relies.isSome knows
  | lock => exact ⟨relies.isSome knows.1, relies.notified knows.2⟩
  | take =>
    obtain ⟨set, notified, held, safe⟩ := knows
    exact ⟨relies.isSome set, relies.notified notified, (relies.guard held).1, relies.safe held safe⟩
  | wake rest =>
    obtain ⟨set, notified, held, taken⟩ := knows
    refine ⟨relies.isSome set, relies.notified notified, (relies.guard held).1, fun poll present => ?_⟩
    rcases relies.pending poll present with old | ⟨unset, _⟩
    · exact (taken poll old).imp_left (relies.woken poll.2)
    · rw [unset] at set
      cases set
  | recheck =>
    obtain ⟨woken, listener⟩ := knows
    rcases relies.listener with ⟨same, _⟩ | rung
    · exact ⟨woken, same.trans listener⟩
    · exact ⟨true, by rw [rung, listener]; rfl⟩
  | sleep =>
    obtain ⟨woken, listener, wakes⟩ := knows
    rcases relies.listener with ⟨same, notified⟩ | rung
    · exact ⟨woken, same.trans listener, fun isNotified => wakes (notified ▸ isNotified)⟩
    · exact ⟨true, (by rw [rung, listener]; rfl), fun _ => rfl⟩
  | get => exact relies.isSome knows
  | register => exact ⟨(relies.guard knows.1).1, relies.safe knows.1 knows.2⟩
  | unlock waker =>
    obtain ⟨held, safe, listed⟩ := knows
    exact ⟨(relies.guard held).1, relies.safe held safe, fun unset => relies.listed waker unset (listed (relies.unset unset))⟩
  | pollRecheck waker => exact fun unset => relies.listed waker unset (knows (relies.unset unset))

end Rely

/-- A step of a thread: the handle stays sound, the thread knows what it has to
know next, and the others lose nothing that they rely on. -/
structure Progress (kind : WakerKind Waker) (thread : Nat) (s later : Inner Value Waker)
    (phase : Phase Value Waker) : Prop where
  sound : later.Sound kind
  knows : Knows kind thread later phase
  relies : ∀ other, other ≠ thread → Relies kind other s later

section Moves

variable {thread : Nat} {s : Inner Value Waker} {phase : Phase Value Waker}

theorem Progress.look (sound : s.Sound kind) (knows : Knows kind thread s phase) : Progress kind thread s s phase :=
  ⟨sound, knows, fun _ _ => .refl⟩

theorem set_progress (sound : s.Sound kind) (value : Value) : Progress kind thread s (s.set value) .notify := by
  cases cell : s.cell with
  | some old =>
    have again : s.set value = { s with deposits := s.deposits ++ [value] } := by rw [Inner.set, cell]
    rw [again]
    refine ⟨⟨?_, sound.seen, sound.deposited, sound.notified, sound.rung, sound.finished, sound.safe⟩, by rw [Knows, cell]; rfl,
      fun other _ => ⟨fun _ => rfl, id, .inl ⟨rfl, rfl⟩, (fun held => ⟨held, rfl⟩), (fun _ _ listed => listed),
        (fun _ present => .inl present), fun _ woken => woken⟩⟩
    have head := sound.first.symm.trans cell
    show s.cell = (s.deposits ++ [value]).head?
    rw [List.head?_append, head, cell]
    rfl
  | none =>
    have fresh : s.set value = { s with
        deposits := s.deposits ++ [value]
        cell := some value
        journal := s.journal ++ [.deposited value] } := by rw [Inner.set, cell]
    rw [fresh]
    have unset : ∀ {claim : Prop}, s.cell.isSome = true → claim := fun set => by rw [cell] at set; cases set
    refine ⟨⟨?_, ?_, ?_, ?_, sound.rung, ?_, ?_⟩, rfl, fun other _ => ⟨unset, id, .inl ⟨rfl, rfl⟩, (fun held => ⟨held, rfl⟩), ?_,
      (fun _ present => .inl present), fun _ woken => woken.append _⟩⟩
    · have head := sound.first.symm.trans cell
      show some value = (s.deposits ++ [value]).head?
      rw [List.head?_append, head]
      rfl
    · exact fun seen present => unset (sound.seen seen present).2
    · exact fun _ => ⟨value, List.mem_append_right _ List.mem_cons_self⟩
    · exact fun _ => rfl
    · exact fun finished => unset (sound.notified (sound.finished finished).1)
    · exact fun free poll present => (sound.safe free poll present).imp_left fun woken => woken.append _
    · exact fun _ _ listed => listed

theorem notifyAll_progress (sound : s.Sound kind) (set : s.cell.isSome = true) :
    Progress kind thread s s.notifyAll .lock :=
  ⟨⟨sound.first, sound.seen, sound.deposited, fun _ => set, fun _ _ => rfl, (fun finished => ⟨rfl, (sound.finished finished).2⟩), sound.safe⟩,
    ⟨set, rfl⟩,
    fun _ _ => ⟨fun _ => rfl, fun _ => rfl, .inr rfl, (fun held => ⟨held, rfl⟩), (fun _ _ listed => listed),
      (fun _ present => .inl present), fun _ woken => woken⟩⟩

theorem setListener_progress {listener : Option Bool} (sound : s.Sound kind) (unrung : listener ≠ some true)
    (knows : Knows kind thread (s.setListener thread listener) phase) :
    Progress kind thread s (s.setListener thread listener) phase := by
  refine ⟨⟨sound.first, sound.seen, sound.deposited, sound.notified, ?_, sound.finished, sound.safe⟩, knows,
    fun _ different => ⟨fun _ => rfl, id, .inl ⟨Function.update_of_ne different _ _, rfl⟩,
      (fun held => ⟨held, rfl⟩), (fun _ _ listed => listed), (fun _ present => .inl present), fun _ woken => woken⟩⟩
  intro other isRung
  by_cases same : other = thread
  · subst same
    exact absurd ((Function.update_self ..).symm.trans isRung) unrung
  · exact sound.rung other ((Function.update_of_ne same _ _).symm.trans isRung)

theorem acquire_progress (sound : s.Sound kind) (free : s.guard = none)
    (knows : s.Safe kind → Knows kind thread (s.setGuard (some thread)) phase) :
    Progress kind thread s (s.setGuard (some thread)) phase := by
  refine ⟨⟨sound.first, sound.seen, sound.deposited, sound.notified, sound.rung, sound.finished, fun held => by cases held⟩,
    knows (sound.safe free), fun other _ => ⟨fun _ => rfl, id, .inl ⟨rfl, rfl⟩, ?_, (fun _ _ listed => listed),
      (fun _ present => .inl present), fun _ woken => woken⟩⟩
  intro held
  rw [free] at held
  cases held

theorem held_elim {other : Nat} {claim : Prop} (held : s.guard = some thread) (different : other ≠ thread)
    (also : s.guard = some other) : claim := by
  rw [held] at also
  cases also
  exact absurd rfl different

theorem take_progress (sound : s.Sound kind) (knows : Knows kind thread s .take) :
    Progress kind thread s { s with wakers := [] } (.wake s.wakers) := by
  obtain ⟨set, notified, held, safe⟩ := knows
  refine ⟨⟨sound.first, sound.seen, sound.deposited, sound.notified, sound.rung, sound.finished, ?_⟩, ⟨set, notified, held, safe⟩,
    fun other different => ⟨fun _ => rfl, id, .inl ⟨rfl, rfl⟩, held_elim held different, ?_,
      (fun _ present => .inl present), fun _ woken => woken⟩⟩
  · intro free
    rw [show s.guard = none from free] at held
    cases held
  · intro waker unset
    rw [show s.cell = none from unset] at set
    cases set

theorem wake_progress {waker : Waker} {rest : List Waker} (sound : s.Sound kind)
    (knows : Knows kind thread s (.wake (waker :: rest))) :
    Progress kind thread s { s with journal := s.journal ++ [.woke waker] } (.wake rest) := by
  obtain ⟨set, notified, held, taken⟩ := knows
  obtain ⟨value, deposited⟩ := sound.deposited set
  refine ⟨⟨sound.first, sound.seen, ?_, sound.notified, sound.rung, ?_, ?_⟩, ⟨set, notified, held, ?_⟩,
    fun other _ => ⟨fun _ => rfl, id, .inl ⟨rfl, rfl⟩, (fun also => ⟨also, rfl⟩), (fun _ _ listed => listed),
      (fun _ present => .inl present), fun _ woken => woken.append _⟩⟩
  · exact fun _ => ⟨value, List.mem_append_left _ deposited⟩
  · exact fun finished => ⟨(sound.finished finished).1, fun poll present =>
      ((sound.finished finished).2 poll present).append _⟩
  · exact fun free poll present => (sound.safe free poll present).imp_left fun woken => woken.append _
  · intro poll present
    rcases taken poll present with woken | ⟨other, inList, same⟩
    · exact .inl (woken.append _)
    · rcases List.mem_cons.mp inList with rfl | inRest
      · exact .inl (.woke deposited same)
      · exact .inr ⟨other, inRest, same⟩

theorem release_progress (sound : s.Sound kind) (knows : Knows kind thread s (.wake [])) :
    Progress kind thread s { s.setGuard none with finished := true } .idle := by
  obtain ⟨set, notified, held, taken⟩ := knows
  have woken : ∀ poll ∈ s.pending, WokenSince kind s.journal poll.2 := by
    intro poll present
    rcases taken poll present with woken | ⟨other, inList, _⟩
    · exact woken
    · cases inList
  exact ⟨⟨sound.first, sound.seen, sound.deposited, sound.notified, sound.rung, fun _ => ⟨notified, woken⟩,
      fun _ poll present => .inl (woken poll present)⟩, trivial,
    fun other different => ⟨fun _ => rfl, id, .inl ⟨rfl, rfl⟩, held_elim held different, (fun _ _ listed => listed),
      (fun _ present => .inl present), fun _ woken => woken⟩⟩

theorem get_progress (sound : s.Sound kind) (set : s.cell.isSome = true) :
    Progress kind thread s { s with seen := s.seen ++ [s.cell] } .idle := by
  refine ⟨⟨sound.first, ?_, sound.deposited, sound.notified, sound.rung, sound.finished, sound.safe⟩, trivial,
    fun other _ => ⟨fun _ => rfl, id, .inl ⟨rfl, rfl⟩, (fun also => ⟨also, rfl⟩), (fun _ _ listed => listed),
      (fun _ present => .inl present), fun _ woken => woken⟩⟩
  intro value present
  rcases List.mem_append.mp present with old | new
  · exact sound.seen value old
  · exact ⟨List.mem_singleton.mp new, set⟩

theorem register_progress {waker : Waker} (sound : s.Sound kind) (knows : Knows kind thread s (.register waker)) :
    Progress kind thread s { s with wakers := registerWaker kind waker s.wakers } (.unlock waker) := by
  obtain ⟨held, safe⟩ := knows
  have kept : ({ s with wakers := registerWaker kind waker s.wakers } : Inner Value Waker).Safe kind :=
    fun poll present => (safe poll present).imp_right Listed.register
  exact ⟨⟨sound.first, sound.seen, sound.deposited, sound.notified, sound.rung, sound.finished, fun _ => kept⟩,
    ⟨held, kept, fun _ => ⟨waker, mem_registerWaker _, kind.same.refl waker⟩⟩,
    fun other different => ⟨fun _ => rfl, id, .inl ⟨rfl, rfl⟩, held_elim held different, (fun _ _ => Listed.register),
      (fun _ present => .inl present), fun _ woken => woken⟩⟩

theorem unlock_progress {waker : Waker} (sound : s.Sound kind) (knows : Knows kind thread s (.unlock waker)) :
    Progress kind thread s (s.setGuard none) (.pollRecheck waker) :=
  ⟨⟨sound.first, sound.seen, sound.deposited, sound.notified, sound.rung, sound.finished, fun _ => knows.2.1⟩, knows.2.2,
    fun _ different => ⟨fun _ => rfl, id, .inl ⟨rfl, rfl⟩, held_elim knows.1 different, (fun _ _ listed => listed),
      (fun _ present => .inl present), fun _ woken => woken⟩⟩

theorem pending_progress {waker : Waker} (sound : s.Sound kind) (knows : Knows kind thread s (.pollRecheck waker))
    (unset : s.cell = none) :
    Progress kind thread s { s with pending := s.pending ++ [(thread, waker)] } .idle := by
  have listed := knows unset
  have added : ∀ poll ∈ s.pending ++ [(thread, waker)], poll ∈ s.pending ∨ s.cell = none ∧ Listed kind s.wakers poll.2 := by
    intro poll present
    rcases List.mem_append.mp present with old | new
    · exact .inl old
    · cases List.mem_singleton.mp new
      exact .inr ⟨unset, listed⟩
  refine ⟨⟨sound.first, sound.seen, sound.deposited, sound.notified, sound.rung, ?_, ?_⟩, trivial,
    fun other _ => ⟨fun _ => rfl, id, .inl ⟨rfl, rfl⟩, (fun also => ⟨also, rfl⟩), (fun _ _ listed => listed), added,
      fun _ woken => woken⟩⟩
  · intro finished
    have set := sound.notified (sound.finished finished).1
    rw [unset] at set
    cases set
  · intro free poll present
    rcases added poll present with old | ⟨_, isListed⟩
    · exact sound.safe free poll old
    · exact .inr isListed

theorem move_progress (sound : s.Sound kind) (knows : Knows kind thread s phase) :
    Progress kind thread s (move kind thread s phase).1 (move kind thread s phase).2 := by
  cases phase with
  | idle => exact .look sound trivial
  | deposit value => exact set_progress sound value
  | notify => exact notifyAll_progress sound knows
  | lock =>
    rw [move]
    split
    · exact .look sound knows
    · next free => exact acquire_progress sound (Option.not_isSome_iff_eq_none.mp free) fun safe =>
        ⟨knows.1, knows.2, rfl, safe⟩
  | take => exact take_progress sound knows
  | wake rest =>
    cases rest with
    | nil => exact release_progress sound knows
    | cons waker rest => exact wake_progress sound knows
  | check =>
    rw [move]
    cases set : s.cell.isSome with
    | true => exact .look sound set
    | false => exact .look sound trivial
  | listen => exact setListener_progress sound (fun same => by cases same) ⟨false, Function.update_self ..⟩
  | recheck =>
    rw [move]
    split
    · next set => exact setListener_progress sound (fun same => by cases same) set
    · next unset =>
        obtain ⟨woken, listener⟩ := knows
        exact .look sound ⟨woken, listener, fun notified => absurd (sound.notified notified) unset⟩
  | sleep =>
    rw [move]
    split
    · next woken => exact setListener_progress sound (fun same => by cases same) (sound.notified (sound.rung thread woken))
    · exact .look sound knows
  | lastCheck =>
    rw [move]
    cases set : s.cell.isSome with
    | true => exact .look sound set
    | false => exact .look sound trivial
  | get => exact get_progress sound knows
  | pollCheck waker =>
    rw [move]
    cases set : s.cell.isSome with
    | true => exact .look sound set
    | false => exact .look sound trivial
  | pollLock waker =>
    rw [move]
    split
    · exact .look sound trivial
    · next free => exact acquire_progress sound (Option.not_isSome_iff_eq_none.mp free) fun safe => ⟨rfl, safe⟩
  | register waker => exact register_progress sound knows
  | unlock waker => exact unlock_progress sound knows
  | pollRecheck waker =>
    rw [move]
    split
    · next set => exact .look sound set
    · next unset => exact pending_progress sound knows (Option.not_isSome_iff_eq_none.mp unset)

end Moves

namespace World

variable {w : World Value Waker} {thread : Nat}

structure Invariant (kind : WakerKind Waker) (w : World Value Waker) : Prop where
  sound : w.inner.Sound kind
  knows : ∀ thread, Knows kind thread w.inner (w.threads thread)

theorem Invariant.progress {later : Inner Value Waker} {phase : Phase Value Waker} (invariant : w.Invariant kind)
    (progress : Progress kind thread w.inner later phase) :
    ({ w with inner := later }.setThread thread phase).Invariant kind := by
  refine ⟨progress.sound, fun other => ?_⟩
  by_cases same : other = thread
  · subst same
    simp only [setThread, Function.update_self]
    exact progress.knows
  · simp only [setThread, Function.update_of_ne same]
    exact (invariant.knows other).stable (progress.relies other same)

theorem step_invariant (invariant : w.Invariant kind) (action : Action Value Waker) :
    (w.step kind action).Invariant kind := by
  cases action with
  | call thread call =>
    rw [step]
    split
    · refine invariant.progress (.look invariant.sound ?_)
      cases call <;> trivial
    · exact invariant
  | advance thread => exact invariant.progress (move_progress invariant.sound (invariant.knows thread))
  | expire thread =>
    rw [step]
    split
    · exact invariant.progress (setListener_progress invariant.sound (fun same => by cases same) trivial)
    · exact invariant

theorem run_invariant (kind : WakerKind Waker) (actions : List (Action Value Waker)) :
    (run kind actions).Invariant kind := by
  have start : ({} : World Value Waker).Invariant kind :=
    ⟨⟨rfl, (fun _ present => by cases present), (fun set => by cases set), (fun notified => by cases notified),
      (fun _ rung => by cases rung), (fun finished => by cases finished), fun _ _ present => by cases present⟩,
      fun _ => trivial⟩
  have all : ∀ w : World Value Waker, w.Invariant kind → (actions.foldl (step kind) w).Invariant kind := by
    induction actions with
    | nil => exact fun w invariant => invariant
    | cons action rest ih => exact fun w invariant => ih (w.step kind action) (step_invariant invariant action)
  exact all {} start

end World

/-- In every interleaving whoever gets an outcome gets that of the first
`fulfill`. Once a call of `fulfill` has returned, a thread that is still in its
sleep was notified and leaves it by its next step, and the waker of every poll
that returned `Pending` was woken after the outcome was there. -/
theorem no_wakeup_lost (kind : WakerKind Waker) (actions : List (Action Value Waker)) :
    (∀ seen ∈ (World.run kind actions).inner.seen,
      ∃ value, seen = some value ∧ (World.run kind actions).inner.deposits.head? = some value) ∧
    ((World.run kind actions).inner.finished = true →
      (∀ thread, (World.run kind actions).threads thread = .sleep →
        (World.run kind actions).inner.listeners thread = some true ∧
        ((World.run kind actions).advance kind thread).threads thread = .get) ∧
      ∀ thread waker, (thread, waker) ∈ (World.run kind actions).inner.pending →
        WokenSince kind (World.run kind actions).inner.journal waker) := by
  obtain ⟨sound, knows⟩ := World.run_invariant kind actions
  generalize World.run kind actions = w at sound knows
  refine ⟨?_, fun finished => ⟨?_, fun thread waker present => (sound.finished finished).2 _ present⟩⟩
  · intro seen present
    obtain ⟨same, set⟩ := sound.seen seen present
    obtain ⟨value, cell⟩ := Option.isSome_iff_exists.mp set
    exact ⟨value, same.trans cell, sound.first.symm.trans cell⟩
  · intro thread sleeps
    have known := knows thread
    rw [sleeps] at known
    obtain ⟨woken, listener, wakes⟩ := known
    have rung : w.inner.listeners thread = some true := by rw [listener, wakes (sound.finished finished).1]
    refine ⟨rung, ?_⟩
    simp only [World.advance, sleeps, move, rung, if_true, World.setThread, Function.update_self]

def numbered : WakerKind Nat :=
  { willWake := (· == ·)
    same := ⟨Eq, eq_equivalence⟩
    sound := fun equal => beq_iff_eq.mp equal }

/-- A task polls, a thread waits, and a third thread deposits the outcome. -/
def pollWaitFulfill : List (Action String Nat) :=
  [.call 1 (.poll 5)] ++ List.replicate 5 (.advance 1) ++ [.call 2 .waitTimeout] ++ List.replicate 3 (.advance 2) ++
    [.call 0 (.fulfill "done")] ++ List.replicate 6 (.advance 0)

theorem no_wakeup_lost_pollWaitFulfill :
    (World.run numbered pollWaitFulfill).threads 2 = .sleep ∧
      (World.run numbered pollWaitFulfill).inner.listeners 2 = some true ∧
      ((World.run numbered pollWaitFulfill).advance numbered 2).threads 2 = .get ∧
      WokenSince numbered (World.run numbered pollWaitFulfill).inner.journal 5 := by
  have finished : (World.run numbered pollWaitFulfill).inner.finished = true := by decide +kernel
  have sleeps : (World.run numbered pollWaitFulfill).threads 2 = .sleep := by decide +kernel
  have pending : (1, 5) ∈ (World.run numbered pollWaitFulfill).inner.pending := by decide +kernel
  have both := (no_wakeup_lost numbered pollWaitFulfill).2 finished
  exact ⟨sleeps, (both.1 2 sleeps).1, (both.1 2 sleeps).2, both.2 1 5 pending⟩

end Telegenic.Handle
