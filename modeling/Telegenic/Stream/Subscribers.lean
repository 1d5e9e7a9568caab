import Telegenic.Stream.Decisions
import Telegenic.Stream.Integrity

/-! What subscribers get over whole runs: every frame closed since they
subscribed, in closing order, except the counted ones that found their buffer
full. A buffer as large as the pool is never full. -/

set_option autoImplicit false

namespace Telegenic.Stream

open Library Proto Proto.Gvsp

namespace StreamInput

def isFlush : StreamInput → Bool
  | flush _ => true
  | _ => false

def isActs : StreamInput → Bool
  | acts _ => true
  | _ => false

end StreamInput

/-- The flush ends the worker; after it only the other threads act. -/
def EndsAtFlush : List StreamInput → Prop
  | [] => True
  | .flush _ :: rest => ∀ input ∈ rest, input.isActs = true
  | _ :: rest => EndsAtFlush rest

structure Subscription.Gets (closed : Nat) (subscription : Subscription) : Prop where
  since : subscription.since ≤ closed
  missed : ∀ key ∈ subscription.missed, subscription.since ≤ key ∧ key < closed
  taken : subscription.taken =
    (List.range' subscription.since (closed - subscription.since)).filter (· ∉ subscription.missed)
  contents : (subscription.received ++ subscription.queue).Perm subscription.taken
  inOrder : subscription.mixed = false → subscription.received ++ subscription.queue = subscription.taken

theorem Subscription.taken_eq_filter {subscription : Subscription}
    (distinct : (subscription.offers.map Prod.fst).Nodup) :
    subscription.taken = (subscription.offers.map Prod.fst).filter (· ∉ subscription.missed) := by
  rw [List.filter_map]
  refine congrArg (List.map Prod.fst) (List.filter_congr fun offer present => ?_)
  cases took : offer.2 with
  | false =>
    have refused : offer.1 ∈ subscription.missed :=
      List.mem_map_of_mem (List.mem_filter.mpr ⟨present, by rw [took]; rfl⟩)
    simp [refused]
  | true =>
    have accepted : offer.1 ∉ subscription.missed := by
      intro refused
      obtain ⟨other, isOther, same⟩ := List.mem_map.mp refused
      obtain ⟨otherPresent, otherRefused⟩ := List.mem_filter.mp isOther
      have equal := List.inj_on_of_nodup_map distinct otherPresent present same
      rw [equal, took] at otherRefused
      cases otherRefused
    simp [accepted]

theorem Subscription.Kept.gets {closed : Nat} {subscription : Subscription} (kept : subscription.Kept closed 0)
    (alive : subscription.receivers ≠ 0) : subscription.Gets closed := by
  have current := kept.current alive
  have distinct : (subscription.offers.map Prod.fst).Nodup := by
    rw [kept.offered]
    exact List.nodup_range'
  have length : closed - subscription.since = subscription.offers.length := by omega
  refine ⟨by omega, fun key refused => ?_, ?_, kept.contents alive, kept.inOrder alive⟩
  · have offered : key ∈ subscription.offers.map Prod.fst := (List.filter_sublist.map _).mem refused
    rw [kept.offered, List.mem_range'_1] at offered
    omega
  · rw [length, ← kept.offered]
    exact Subscription.taken_eq_filter distinct

section Runs

variable {params : StreamParams} {given : List (Nat × Nat)} {w later : StreamWorld}

theorem clearSubscribers_ledger (ledger : w.Ledger True given) : w.clearSubscribers.Ledger False given := by
  have dropped : ∀ (subscribers : List Nat) {fabric : Fabric},
      fabric.Ledger True given (deliveredFrames w.journal) w.runner.subscribers [] w.runner.stats.framesDropped →
      (subscribers.foldl (fun fabric id => fabric.dropSender id) fabric).Ledger True given (deliveredFrames w.journal)
        w.runner.subscribers [] w.runner.stats.framesDropped := by
    intro subscribers
    induction subscribers with
    | nil => exact fun ledger => ledger
    | cons id rest ih => exact fun ledger => ih (ledger.dropSender id)
  have cleared := dropped w.runner.subscribers ledger
  refine ⟨cleared.nextKey, cleared.named, cleared.kept, fun id present => (by cases present), cleared.dropped,
    cleared.roomy, cleared.terms, cleared.distinct.sublist (List.sublist_append_right ..), ?_, fun no => no.elim⟩
  exact fun id present => cleared.known id (List.mem_append_right _ present)

theorem StreamWorld.Ledger.retire (ledger : w.Ledger True given) : w.Ledger False given :=
  { ledger with registered := fun no => no.elim }

theorem StreamWorld.Ledger.enrolled {live : Prop} (ledger : w.Ledger live given) : w.Enrolled := by
  have enrolling : w.fabric.enrolling.length = w.fabric.commands.countP ToStreamWorker.isSubscribe := by
    rw [Fabric.enrolling, List.length_filterMap_eq_countP]
    congr 1
    funext message
    cases message <;> rfl
  have inside : ∀ id ∈ w.runner.subscribers ++ w.fabric.enrolling, id ∈ List.range w.fabric.subscriptions.length :=
    fun id present => List.mem_range.mpr (Fabric.Ledger.known ledger id present)
  have few := ((Fabric.Ledger.distinct ledger).subperm inside).length_le
  rw [List.length_append, List.length_range, enrolling] at few
  exact few

theorem step_channels {input : StreamInput} (wellformed : Wellformed params w) (enrolled : w.Enrolled)
    (running : input.isFlush = false) (result : w.step params input = .ok later) : Channels w later := by
  cases arrives : input.arrival with
  | none =>
    exact (step_quiet wellformed enrolled arrives (fun schedule isFlush => by
      rw [isFlush] at running
      cases running) result).channels
  | some view => exact (step_decides wellformed enrolled arrives result).1

theorem step_ledger {input : StreamInput} (wellformed : Wellformed params w) (running : input.isFlush = false)
    (result : w.step params input = .ok later) (ledger : w.Ledger True given) : later.Ledger True given :=
  (step_channels wellformed ledger.enrolled running result).ledger ledger

theorem run_running (inputs : List StreamInput) : ∀ {w : StreamWorld}, Wellformed params w → w.Ledger True given →
    (∀ input ∈ inputs, input.isFlush = false) →
    ∃ later, w.run params inputs = .ok later ∧ Wellformed params later ∧ later.Ledger True given := by
  induction inputs with
  | nil => exact fun wellformed ledger _ => ⟨_, rfl, wellformed, ledger⟩
  | cons input rest ih =>
    intro w wellformed ledger running
    obtain ⟨next, result, moves⟩ := StreamWorld.step_moves input wellformed
    have next_ledger := step_ledger wellformed (running input List.mem_cons_self) result ledger
    obtain ⟨later, rest_result, all⟩ := ih (moves.wellformed wellformed) next_ledger
      fun other present => running other (List.mem_cons_of_mem _ present)
    exact ⟨later, by rw [StreamWorld.run, result]; exact rest_result, all⟩

theorem run_acts (inputs : List StreamInput) : ∀ {w : StreamWorld}, Wellformed params w → w.Ledger False given →
    (∀ input ∈ inputs, input.isActs = true) →
    ∃ later, w.run params inputs = .ok later ∧ Wellformed params later ∧ later.Ledger False given := by
  induction inputs with
  | nil => exact fun wellformed ledger _ => ⟨_, rfl, wellformed, ledger⟩
  | cons input rest ih =>
    intro w wellformed ledger acting
    have isActs := acting input List.mem_cons_self
    cases input with
    | acts acts =>
      obtain ⟨next, result, moves⟩ := StreamWorld.step_moves (.acts acts) wellformed
      cases result
      obtain ⟨later, rest_result, all⟩ := ih (moves.wellformed wellformed) (Fabric.Ledger.consumeAll acts ledger)
        fun other present => acting other (List.mem_cons_of_mem _ present)
      exact ⟨later, rest_result, all⟩
    | packet => cases isActs
    | tick => cases isActs
    | commands => cases isActs
    | flush => cases isActs

theorem run_ledger (inputs : List StreamInput) : ∀ {w : StreamWorld}, Wellformed params w → w.Ledger True given →
    EndsAtFlush inputs →
    ∃ later, w.run params inputs = .ok later ∧ Wellformed params later ∧ later.Ledger False given := by
  induction inputs with
  | nil => exact fun wellformed ledger _ => ⟨_, rfl, wellformed, ledger.retire⟩
  | cons input rest ih =>
    intro w wellformed ledger ends
    obtain ⟨next, result, moves⟩ := StreamWorld.step_moves input wellformed
    have next_wellformed := moves.wellformed wellformed
    have continued : (∃ later, next.run params rest = .ok later ∧ Wellformed params later ∧ later.Ledger False given) →
        ∃ later, w.run params (input :: rest) = .ok later ∧ Wellformed params later ∧ later.Ledger False given := by
      rintro ⟨later, rest_result, all⟩
      exact ⟨later, by rw [StreamWorld.run, result]; exact rest_result, all⟩
    refine continued ?_
    cases input with
    | flush schedule =>
      obtain ⟨middle, counts, rfl⟩ := step_flush wellformed ledger.enrolled result
      exact run_acts rest next_wellformed (clearSubscribers_ledger (counts.channels.ledger ledger)) ends
    | packet => exact ih next_wellformed (step_ledger wellformed rfl result ledger) ends
    | tick => exact ih next_wellformed (step_ledger wellformed rfl result ledger) ends
    | commands => exact ih next_wellformed (step_ledger wellformed rfl result ledger) ends
    | acts => exact ih next_wellformed (step_ledger wellformed rfl result ledger) ends

theorem spawn_ledger (params : StreamParams) : (StreamWorld.spawn params).Ledger True [] := by
  refine ⟨rfl, fun entry present => (by cases present), fun id subscription found => ?_,
    fun id present => (by cases present), rfl, fun id subscription found => ?_, List.nil_prefix, List.nodup_nil,
    fun id present => (by cases present), fun _ id subscription found => ?_⟩ <;>
  simp [StreamWorld.spawn] at found

end Runs

/-- Each subscriber with a receiver got every frame closed since its
subscription was sent, once and in closing order, except those that found its
buffer full; and these are the frames counted as dropped. -/
theorem subscribers_miss_only_counted (params : StreamParams) (inputs : List StreamInput)
    (ends : EndsAtFlush inputs) :
    ∃ later, (StreamWorld.spawn params).run params inputs = .ok later ∧
      (∀ subscription ∈ later.fabric.subscriptions, subscription.receivers ≠ 0 →
        subscription.Gets (deliveredFrames later.journal).length) ∧
      (∀ entry ∈ later.fabric.shared, (deliveredFrames later.journal)[entry.key]? = some entry.frame) ∧
      later.runner.stats.framesDropped = (later.fabric.subscriptions.map (·.missed.length)).sum := by
  obtain ⟨later, result, _, ledger⟩ := run_ledger inputs (spawn_wellformed params) (spawn_ledger params) ends
  refine ⟨later, result, fun subscription present alive => ?_, ledger.named, ledger.dropped⟩
  obtain ⟨id, found⟩ := List.mem_iff_getElem?.mp present
  have kept := ledger.kept id subscription found
  rw [ledger.nextKey, if_neg List.not_mem_nil] at kept
  exact kept.gets alive

def crowded : List StreamInput :=
  .acts [.subscribe 1] :: oneFrame ++
    [arriving [0, 0, 0, 2, 1, 0, 0, 0, 0, 0, 0, 1, 0, 0, 0, 0, 0, 0, 0, 0], arriving [0, 0, 0, 2, 2, 0, 0, 1],
      .acts [.tryRecv 0], .flush []]

theorem subscribers_miss_only_counted_crowded :
    ((StreamWorld.spawn { smallStream with nBuffers := 2 }).run { smallStream with nBuffers := 2 } crowded).map
        (fun later => (later.fabric.subscriptions.map fun s => (s.taken, s.missed), later.runner.stats.framesDropped)) =
      .ok ([([0], [1])], 1) ∧
    ∃ later, (StreamWorld.spawn { smallStream with nBuffers := 2 }).run { smallStream with nBuffers := 2 } crowded =
        .ok later ∧
      (∀ subscription ∈ later.fabric.subscriptions, subscription.receivers ≠ 0 →
        subscription.Gets (deliveredFrames later.journal).length) ∧
      (∀ entry ∈ later.fabric.shared, (deliveredFrames later.journal)[entry.key]? = some entry.frame) ∧
      later.runner.stats.framesDropped = (later.fabric.subscriptions.map (·.missed.length)).sum :=
  ⟨by decide +kernel, subscribers_miss_only_counted { smallStream with nBuffers := 2 } crowded
    (by simp [crowded, oneFrame, arriving, EndsAtFlush])⟩

/-- `Acquisition::start` subscribes with room for as many frames as the pool
has buffers. -/
def acquisitionStart (params : StreamParams) : StreamInput := .acts [.subscribe params.nBuffers]

/-- The subscription made by `Acquisition::start` never has to refuse a frame:
while it has a receiver it takes every frame the worker closes. -/
theorem acquisition_subscription_never_full (params : StreamParams) (before after : List StreamInput)
    (running : ∀ input ∈ before, input.isFlush = false) (ends : EndsAtFlush after) :
    ∃ started later subscription, (StreamWorld.spawn params).run params before = .ok started ∧
      started.run params (acquisitionStart params :: after) = .ok later ∧
      later.fabric.subscriptions[started.fabric.subscriptions.length]? = some subscription ∧
      subscription.capacity = params.nBuffers ∧
      subscription.since = (deliveredFrames started.journal).length ∧
      subscription.missed = [] ∧
      (subscription.receivers ≠ 0 →
        subscription.taken = List.range' (deliveredFrames started.journal).length
          ((deliveredFrames later.journal).length - (deliveredFrames started.journal).length) ∧
        subscription.Gets (deliveredFrames later.journal).length) := by
  obtain ⟨started, begun, started_wellformed, started_ledger⟩ :=
    run_running before (spawn_wellformed params) (spawn_ledger params) running
  obtain ⟨next, result, moves⟩ := StreamWorld.step_moves (acquisitionStart params) started_wellformed
  have next_ledger := step_ledger started_wellformed rfl result started_ledger
  cases result
  have next_terms : (started.fabric.consume (.subscribe params.nBuffers)).subscriptions.map Subscription.terms =
      started.fabric.subscriptions.map Subscription.terms ++ [(params.nBuffers, started.fabric.nextKey)] := by
    simp [Fabric.consume, Subscription.terms]
  have based : StreamWorld.Ledger True
      (started.fabric.subscriptions.map Subscription.terms ++ [(params.nBuffers, started.fabric.nextKey)])
      { started with fabric := started.fabric.consume (.subscribe params.nBuffers) } :=
    { next_ledger with terms := by rw [next_terms] }
  obtain ⟨later, finished, wellformed, ledger⟩ := run_ledger after (moves.wellformed started_wellformed) based ends
  -- The subscription keeps its place, its capacity and its beginning.
  obtain ⟨more, all⟩ := ledger.terms
  have placed : (later.fabric.subscriptions.map Subscription.terms)[started.fabric.subscriptions.length]? =
      some (params.nBuffers, started.fabric.nextKey) := by
    rw [← all]
    simp
  rw [List.getElem?_map] at placed
  obtain ⟨subscription, found, terms⟩ := Option.map_eq_some_iff.mp placed
  have capacity : subscription.capacity = params.nBuffers := congrArg Prod.fst terms
  have since : subscription.since = (deliveredFrames started.journal).length :=
    (congrArg Prod.snd terms).trans started_ledger.nextKey
  have missed := ledger.roomy _ subscription found (by rw [wellformed.capacity, capacity])
  have kept := ledger.kept _ subscription found
  rw [ledger.nextKey, if_neg List.not_mem_nil] at kept
  refine ⟨started, later, subscription, begun, finished, found, capacity, since, missed, fun alive => ?_⟩
  have gets := kept.gets alive
  refine ⟨?_, gets⟩
  rw [gets.taken, missed, since]
  simp

theorem acquisition_subscription_never_full_twoFrames :
    ∃ started later subscription,
      (StreamWorld.spawn { smallStream with nBuffers := 2 }).run { smallStream with nBuffers := 2 } oneFrame =
        .ok started ∧
      started.run { smallStream with nBuffers := 2 }
        (acquisitionStart { smallStream with nBuffers := 2 } :: crowded) = .ok later ∧
      later.fabric.subscriptions[started.fabric.subscriptions.length]? = some subscription ∧
      subscription.capacity = 2 ∧
      subscription.since = (deliveredFrames started.journal).length ∧
      subscription.missed = [] ∧
      (subscription.receivers ≠ 0 →
        subscription.taken = List.range' (deliveredFrames started.journal).length
          ((deliveredFrames later.journal).length - (deliveredFrames started.journal).length) ∧
        subscription.Gets (deliveredFrames later.journal).length) :=
  acquisition_subscription_never_full { smallStream with nBuffers := 2 } oneFrame crowded
    (by simp [oneFrame, arriving, StreamInput.isFlush]) (by simp [crowded, oneFrame, arriving, EndsAtFlush])

end Telegenic.Stream
