import Telegenic.Stream.Runs

/-! The order of delivery. Seen from outside, the receiver is a line of
entries: an entry joins at the end, a provisional one is made real or leaves
without being served, and the first real one is served. -/

set_option autoImplicit false

namespace Telegenic.Stream

open Library Proto Proto.Gvsp

structure Entry where
  frameId : Nat
  opening : Nat
  provisional : Bool
  deriving DecidableEq, Repr

def FrameInFlight.entry (frame : FrameInFlight) : Entry :=
  ⟨frame.frameId, frame.opening, frame.provisional⟩

structure Lineup where
  entries : List Entry
  openings : Nat
  journal : List StreamEvent

def StreamWorld.lineup (w : StreamWorld) : Lineup :=
  ⟨w.runner.frames.map (·.entry), w.runner.openings, w.journal⟩

inductive Lineup.Step : Lineup → Lineup → Prop where
  | requested (line : Lineup) (request : ResendRequest) :
      Step line { line with journal := line.journal ++ [.requested request] }
  | joined (line : Lineup) {frameId : Nat} {provisional : Bool}
      (distinct : ∀ entry ∈ line.entries, entry.frameId ≠ frameId)
      (alone : provisional = false → ∀ entry ∈ line.entries, entry.provisional = false)
      (restart : provisional = true → frameId = restartBlockId) :
      Step line ⟨line.entries ++ [⟨frameId, line.openings, provisional⟩], line.openings + 1,
        line.journal ++ [.opened line.openings frameId provisional]⟩
  | madeReal (line : Lineup) {index : Nat} {entry : Entry} (found : line.entries[index]? = some entry)
      (provisional : entry.provisional = true) :
      Step line { line with
        entries := line.entries.set index { entry with provisional := false }
        journal := line.journal ++ [.adopted entry.opening] }
  | left (line : Lineup) {index : Nat} {entry : Entry} (found : line.entries[index]? = some entry)
      (provisional : entry.provisional = true) :
      Step line { line with
        entries := line.entries.eraseIdx index
        journal := line.journal ++ [.discarded entry.opening] }
  | served (line : Lineup) {index : Nat} {entry : Entry} {frame : Frame} {accepted : List GvspView}
      (found : line.entries[index]? = some entry) (real : entry.provisional = false)
      (headOfLine : ∀ before < index, ∀ other, line.entries[before]? = some other → other.provisional = true)
      (sameId : frame.frameId = entry.frameId) :
      Step line { line with
        entries := line.entries.eraseIdx index
        journal := line.journal ++ [.delivered entry.opening frame accepted] }

theorem getElem?_entries {w : StreamWorld} {index : Nat} {frame : FrameInFlight}
    (found : w.runner.frames[index]? = some frame) : w.lineup.entries[index]? = some frame.entry := by
  rw [StreamWorld.lineup, List.getElem?_map, found]
  rfl

theorem FrameInFlight.entry_eq {frame later : FrameInFlight} (frameId : later.frameId = frame.frameId)
    (opening : later.opening = frame.opening) (replayOf : later.replayOf = frame.replayOf) :
    later.entry = frame.entry := by
  rw [entry, entry, provisional, provisional, frameId, opening, replayOf]

section Refinement

variable {w later : StreamWorld}

theorem lineup_eq {entries : List Entry} {openings : Nat} {journal : List StreamEvent}
    (sameEntries : later.runner.frames.map (·.entry) = entries) (sameOpenings : later.runner.openings = openings)
    (sameJournal : later.journal = journal) : later.lineup = ⟨entries, openings, journal⟩ := by
  rw [StreamWorld.lineup, sameEntries, sameOpenings, sameJournal]

theorem entries_set {index : Nat} {before after : FrameInFlight} (found : w.runner.frames[index]? = some before)
    (frames : later.runner.frames = w.runner.frames.set index after) (same : after.entry = before.entry) :
    later.runner.frames.map (·.entry) = w.lineup.entries := by
  rw [frames]
  exact map_set_same _ found same

theorem entries_eraseIdx {index : Nat} (frames : later.runner.frames = w.runner.frames.eraseIdx index) :
    later.runner.frames.map (·.entry) = w.lineup.entries.eraseIdx index := by
  rw [frames]
  exact (List.eraseIdx_map _ _ _).symm

theorem Move.lineup {params : StreamParams} {origin : List FrameInFlight} {arrival : Option GvspView}
    (move : Move params origin arrival w later) : later.lineup = w.lineup ∨ Lineup.Step w.lineup later.lineup := by
  cases move with
  | quiet frames openings journal =>
    rcases journal with same | ⟨request, requested⟩
    · exact .inl (lineup_eq (congrArg _ frames) openings same)
    · rw [lineup_eq (congrArg _ frames) openings requested]
      exact .inr (.requested w.lineup request)
  | touched found untouched frames openings journal =>
    have same := FrameInFlight.entry_eq untouched.frameId untouched.opening untouched.replayOf
    exact .inl (lineup_eq (entries_set found frames same) openings journal)
  | absorbed isArrival found routed absorbs frames openings journal =>
    have same := FrameInFlight.entry_eq absorbs.frameId absorbs.opening absorbs.replayOf
    exact .inl (lineup_eq (entries_set found frames same) openings journal)
  | adopted found provisional untouched frames openings journal =>
    have real := FrameInFlight.entry_eq untouched.frameId untouched.opening untouched.replayOf
    rw [lineup_eq (by rw [frames, List.map_set, real]) openings journal]
    exact .inr (.madeReal w.lineup (getElem?_entries found) provisional)
  | opened isArrival unknown distinct alone restart expected supported frames openings journal =>
    rw [lineup_eq (by rw [frames, List.map_append]) openings journal]
    refine .inr (.joined w.lineup ?_ ?_ ?_)
    · simpa [StreamWorld.lineup, FrameInFlight.entry, StreamWorld.newFrame] using distinct
    · intro absent
      have none_replayed := Option.not_isSome_iff_eq_none.mp (Bool.eq_false_iff.mp absent)
      simpa [StreamWorld.lineup, FrameInFlight.entry] using alone none_replayed
    · exact fun present => restart (Option.isSome_iff_ne_none.mp present)
  | discarded found provisional frames openings journal =>
    rw [lineup_eq (entries_eraseIdx frames) openings journal]
    exact .inr (.left w.lineup (getElem?_entries found) provisional)
  | delivered found real headOfLine complete frames openings journal =>
    rw [lineup_eq (entries_eraseIdx frames) openings journal]
    refine .inr (.served w.lineup (getElem?_entries found) real ?_ rfl)
    intro before earlier other isOther
    rw [StreamWorld.lineup, List.getElem?_map] at isOther
    obtain ⟨frame, isFrame, rfl⟩ := Option.map_eq_some_iff.mp isOther
    exact headOfLine before earlier frame isFrame

end Refinement

def openedIn (journal : List StreamEvent) : List Nat :=
  journal.filterMap fun
    | .opened opening _ _ => some opening
    | _ => none

def deliveredIn (journal : List StreamEvent) : List Nat :=
  journal.filterMap fun
    | .delivered opening _ _ => some opening
    | _ => none

/-- The journal shows a frame that was opened for good, or opened as
provisional and adopted. -/
def OpenedForGood (journal : List StreamEvent) (opening frameId : Nat) : Prop :=
  .opened opening frameId false ∈ journal ∨
    .opened opening frameId true ∈ journal ∧ .adopted opening ∈ journal

theorem OpenedForGood.append {journal : List StreamEvent} {opening frameId : Nat}
    (good : OpenedForGood journal opening frameId) (events : List StreamEvent) :
    OpenedForGood (journal ++ events) opening frameId := by
  rcases good with real | ⟨provisional, adopted⟩
  · exact .inl (List.mem_append_left _ real)
  · exact .inr ⟨List.mem_append_left _ provisional, List.mem_append_left _ adopted⟩

def Entry.Recorded (journal : List StreamEvent) (entry : Entry) : Prop :=
  if entry.provisional = true then .opened entry.opening entry.frameId true ∈ journal
  else OpenedForGood journal entry.opening entry.frameId

theorem Entry.Recorded.append {journal : List StreamEvent} {entry : Entry} (recorded : entry.Recorded journal)
    (events : List StreamEvent) : entry.Recorded (journal ++ events) := by
  unfold Recorded at recorded ⊢
  split
  · rename_i provisional
    rw [if_pos provisional] at recorded
    exact List.mem_append_left _ recorded
  · rename_i real
    rw [if_neg real] at recorded
    exact recorded.append events

structure Lineup.Ordered (line : Lineup) : Prop where
  distinct : (line.entries.map (·.frameId)).Nodup
  last : ∀ index entry, line.entries[index]? = some entry → entry.provisional = true →
    index + 1 = line.entries.length ∧ entry.frameId = restartBlockId
  opened : openedIn line.journal = List.range line.openings
  ascending : (deliveredIn line.journal ++ line.entries.map (·.opening)).Pairwise (· < ·)
  below : ∀ opening ∈ deliveredIn line.journal ++ line.entries.map (·.opening), opening < line.openings
  recorded : ∀ entry ∈ line.entries, entry.Recorded line.journal
  served : ∀ position opening frame accepted, line.journal[position]? = some (.delivered opening frame accepted) →
    OpenedForGood (line.journal.take position) opening frame.frameId

namespace Lineup

theorem served_snoc {journal : List StreamEvent} {event : StreamEvent}
    (served : ∀ position opening frame accepted, journal[position]? = some (.delivered opening frame accepted) →
      OpenedForGood (journal.take position) opening frame.frameId)
    (good : ∀ opening frame accepted, event = .delivered opening frame accepted →
      OpenedForGood journal opening frame.frameId) :
    ∀ position opening frame accepted, (journal ++ [event])[position]? = some (.delivered opening frame accepted) →
      OpenedForGood ((journal ++ [event]).take position) opening frame.frameId := by
  intro position opening frame accepted present
  rcases Nat.lt_trichotomy position journal.length with earlier | rfl | beyond
  · rw [List.getElem?_append_left earlier] at present
    rw [List.take_append_of_le_length earlier.le]
    exact served position opening frame accepted present
  · rw [List.getElem?_concat_length] at present
    rw [List.take_left]
    exact good opening frame accepted (Option.some.inj present)
  · rw [List.getElem?_eq_none (by simpa using beyond)] at present
    cases present

theorem Ordered.first {line : Lineup} (ordered : line.Ordered) {index : Nat} {entry : Entry}
    (found : line.entries[index]? = some entry)
    (headOfLine : ∀ before < index, ∀ other, line.entries[before]? = some other → other.provisional = true) :
    index = 0 := by
  obtain ⟨inside, _⟩ := List.getElem?_eq_some_iff.mp found
  by_contra later
  have start := List.getElem?_eq_getElem (Nat.zero_lt_of_lt inside)
  have only := (ordered.last 0 _ start (headOfLine 0 (Nat.pos_of_ne_zero later) _ start)).1
  omega

theorem Ordered.removed {line : Lineup} (ordered : line.Ordered) {index : Nat} {event : StreamEvent}
    (opened : openedIn (line.journal ++ [event]) = openedIn line.journal)
    (ascending : (deliveredIn (line.journal ++ [event]) ++
      (line.entries.eraseIdx index).map (·.opening)).Sublist
        (deliveredIn line.journal ++ line.entries.map (·.opening)))
    (good : ∀ opening frame accepted, event = .delivered opening frame accepted →
      OpenedForGood line.journal opening frame.frameId)
    (position : ∀ other entry, (line.entries.eraseIdx index)[other]? = some entry → entry.provisional = true →
      other + 1 = (line.entries.eraseIdx index).length) :
    Ordered { line with entries := line.entries.eraseIdx index, journal := line.journal ++ [event] } := by
  refine ⟨?_, ?_, opened.trans ordered.opened, ordered.ascending.sublist ascending,
    fun opening present => ordered.below opening (ascending.subset present), ?_, served_snoc ordered.served good⟩
  · exact ordered.distinct.sublist ((List.eraseIdx_sublist _ _).map _)
  · intro other entry present provisional
    refine ⟨position other entry present provisional, ?_⟩
    obtain ⟨old, isOld⟩ := List.mem_iff_getElem?.mp (List.mem_of_mem_eraseIdx (List.mem_of_getElem? present))
    exact (ordered.last old entry isOld provisional).2
  · intro entry present
    exact (ordered.recorded entry (List.mem_of_mem_eraseIdx present)).append _

theorem Ordered.request {line : Lineup} (ordered : line.Ordered) (request : ResendRequest) :
    Ordered { line with journal := line.journal ++ [.requested request] } := by
  have opened : openedIn (line.journal ++ [.requested request]) = openedIn line.journal := by simp [openedIn]
  have delivered : deliveredIn (line.journal ++ [.requested request]) = deliveredIn line.journal := by
    simp [deliveredIn]
  refine ⟨ordered.distinct, ordered.last, opened.trans ordered.opened, ?_, ?_,
    fun entry present => (ordered.recorded entry present).append _,
    served_snoc ordered.served fun _ _ _ other => by cases other⟩
  · rw [delivered]
    exact ordered.ascending
  · rw [delivered]
    exact ordered.below

theorem Ordered.join {line : Lineup} (ordered : line.Ordered) {frameId : Nat} {provisional : Bool}
    (distinct : ∀ entry ∈ line.entries, entry.frameId ≠ frameId)
    (alone : provisional = false → ∀ entry ∈ line.entries, entry.provisional = false)
    (restart : provisional = true → frameId = restartBlockId) :
    Ordered ⟨line.entries ++ [⟨frameId, line.openings, provisional⟩], line.openings + 1,
      line.journal ++ [.opened line.openings frameId provisional]⟩ := by
  have delivered : deliveredIn (line.journal ++ [.opened line.openings frameId provisional]) =
      deliveredIn line.journal := by
    simp [deliveredIn]
  -- A provisional entry already in the line would have the same block id.
  have noneProvisional : ∀ entry ∈ line.entries, entry.provisional = false := by
    intro entry present
    cases isProvisional : provisional with
    | false => exact alone isProvisional entry present
    | true =>
      refine Bool.eq_false_iff.mpr fun entryProvisional => distinct entry present ?_
      obtain ⟨index, found⟩ := List.mem_iff_getElem?.mp present
      rw [restart isProvisional]
      exact (ordered.last index entry found entryProvisional).2
  refine ⟨?_, ?_, ?_, ?_, ?_, ?_, served_snoc ordered.served fun _ _ _ other => by cases other⟩
  · rw [List.map_append, List.nodup_append]
    refine ⟨ordered.distinct, by simp, ?_⟩
    intro id present other isNew same
    obtain ⟨entry, inLine, rfl⟩ := List.mem_map.mp present
    rw [List.map_singleton, List.mem_singleton] at isNew
    exact distinct entry inLine (same.trans isNew)
  · intro index entry found entryProvisional
    rcases Nat.lt_or_ge index line.entries.length with old | new
    · rw [List.getElem?_append_left old] at found
      rw [noneProvisional entry (List.mem_of_getElem? found)] at entryProvisional
      cases entryProvisional
    · obtain ⟨inside, isEntry⟩ := List.getElem?_eq_some_iff.mp found
      rw [List.length_append, List.length_singleton] at inside ⊢
      obtain rfl : index = line.entries.length := by omega
      rw [List.getElem_concat_length rfl] at isEntry
      subst isEntry
      exact ⟨rfl, restart entryProvisional⟩
  · rw [List.range_succ, ← ordered.opened]
    simp [openedIn]
  · rw [delivered, List.map_append, ← List.append_assoc, List.pairwise_append]
    refine ⟨ordered.ascending, List.pairwise_singleton _ _, ?_⟩
    intro opening present other isNew
    rw [List.map_singleton, List.mem_singleton] at isNew
    exact isNew ▸ ordered.below opening present
  · rw [delivered, List.map_append, ← List.append_assoc]
    intro opening present
    rcases List.mem_append.mp present with old | new
    · exact Nat.lt_succ_of_lt (ordered.below opening old)
    · rw [List.map_singleton, List.mem_singleton] at new
      exact new ▸ Nat.lt_succ_self _
  · intro entry present
    rcases List.mem_append.mp present with old | new
    · exact (ordered.recorded entry old).append _
    · rw [List.mem_singleton.mp new, Entry.Recorded]
      split
      · rename_i isProvisional
        simp only at isProvisional
        simp [isProvisional]
      · rename_i isReal
        simp only [Bool.not_eq_true] at isReal
        exact .inl (by simp [isReal])

theorem Ordered.makeReal {line : Lineup} (ordered : line.Ordered) {index : Nat} {entry : Entry}
    (found : line.entries[index]? = some entry) (provisional : entry.provisional = true) :
    Ordered { line with
      entries := line.entries.set index { entry with provisional := false }
      journal := line.journal ++ [.adopted entry.opening] } := by
  have opened : openedIn (line.journal ++ [.adopted entry.opening]) = openedIn line.journal := by simp [openedIn]
  have delivered : deliveredIn (line.journal ++ [.adopted entry.opening]) = deliveredIn line.journal := by
    simp [deliveredIn]
  have frameIds : (line.entries.set index { entry with provisional := false }).map (·.frameId) =
      line.entries.map (·.frameId) := map_set_same _ found rfl
  have openings : (line.entries.set index { entry with provisional := false }).map (·.opening) =
      line.entries.map (·.opening) := map_set_same _ found rfl
  refine ⟨?_, ?_, opened.trans ordered.opened, ?_, ?_, ?_, served_snoc ordered.served fun _ _ _ other => by cases other⟩
  · rw [frameIds]
    exact ordered.distinct
  · intro position other present otherProvisional
    rw [List.length_set]
    rw [List.getElem?_set] at present
    split at present
    · split at present
      · cases present
        cases otherProvisional
      · cases present
    · exact ordered.last position other present otherProvisional
  · rw [delivered, openings]
    exact ordered.ascending
  · rw [delivered, openings]
    exact ordered.below
  · refine set_forall (fun other present => (ordered.recorded other present).append _) ?_
    have recorded := ordered.recorded entry (List.mem_of_getElem? found)
    rw [Entry.Recorded, if_pos provisional] at recorded
    exact .inr ⟨List.mem_append_left _ recorded, List.mem_append_right _ List.mem_cons_self⟩

theorem Ordered.leave {line : Lineup} (ordered : line.Ordered) {index : Nat} {entry : Entry}
    (found : line.entries[index]? = some entry) (provisional : entry.provisional = true) :
    Ordered { line with
      entries := line.entries.eraseIdx index
      journal := line.journal ++ [.discarded entry.opening] } := by
  have isLast := (ordered.last index entry found provisional).1
  have delivered : deliveredIn (line.journal ++ [.discarded entry.opening]) = deliveredIn line.journal := by
    simp [deliveredIn]
  refine ordered.removed (by simp [openedIn]) ?_ (fun _ _ _ other => by cases other) ?_
  · rw [delivered]
    exact ((List.eraseIdx_sublist _ _).map _).append_left _
  · intro other otherEntry present otherProvisional
    have inside := (List.getElem?_eq_some_iff.mp present).1
    rw [List.length_eraseIdx_of_lt (by omega)] at inside
    rw [List.getElem?_eraseIdx_of_lt (by omega)] at present
    have otherLast := (ordered.last other otherEntry present otherProvisional).1
    omega

theorem Ordered.serve {line : Lineup} (ordered : line.Ordered) {index : Nat} {entry : Entry} {frame : Frame}
    {accepted : List GvspView} (found : line.entries[index]? = some entry) (real : entry.provisional = false)
    (headOfLine : ∀ before < index, ∀ other, line.entries[before]? = some other → other.provisional = true)
    (sameId : frame.frameId = entry.frameId) :
    Ordered { line with
      entries := line.entries.eraseIdx index
      journal := line.journal ++ [.delivered entry.opening frame accepted] } := by
  obtain rfl := ordered.first found headOfLine
  obtain ⟨rest, entries⟩ : ∃ rest, line.entries = entry :: rest := by
    cases isEntries : line.entries with
    | nil =>
      rw [isEntries] at found
      cases found
    | cons head rest =>
      rw [isEntries] at found
      cases found
      exact ⟨rest, rfl⟩
  have delivered : deliveredIn (line.journal ++ [.delivered entry.opening frame accepted]) =
      deliveredIn line.journal ++ [entry.opening] := by
    simp [deliveredIn]
  refine ordered.removed (by simp [openedIn]) ?_ ?_ ?_
  · rw [delivered, entries]
    simp
  · intro opening other otherAccepted same
    cases same
    have recorded := ordered.recorded entry (List.mem_of_getElem? found)
    rw [Entry.Recorded, if_neg (Bool.eq_false_iff.mp real)] at recorded
    exact sameId ▸ recorded
  · intro other otherEntry present otherProvisional
    rw [entries, List.eraseIdx_cons_zero] at present ⊢
    have shifted : line.entries[other + 1]? = some otherEntry := by rw [entries]; exact present
    have isLast := (ordered.last (other + 1) otherEntry shifted otherProvisional).1
    rw [entries, List.length_cons] at isLast
    omega

theorem Step.ordered {line later : Lineup} (step : Step line later) (ordered : line.Ordered) : later.Ordered := by
  cases step with
  | requested request => exact ordered.request request
  | joined distinct alone restart => exact ordered.join distinct alone restart
  | madeReal found provisional => exact ordered.makeReal found provisional
  | left found provisional => exact ordered.leave found provisional
  | served found real headOfLine sameId => exact ordered.serve found real headOfLine sameId

end Lineup

theorem Move.ordered {params : StreamParams} {origin : List FrameInFlight} {arrival : Option GvspView}
    {w later : StreamWorld} (move : Move params origin arrival w later) (ordered : w.lineup.Ordered) :
    later.lineup.Ordered := by
  rcases move.lineup with same | step
  · exact same ▸ ordered
  · exact step.ordered ordered

theorem Moves.ordered {params : StreamParams} {origin : List FrameInFlight} {arrival : Option GvspView}
    {w later : StreamWorld} (moves : Moves params origin arrival w later) (ordered : w.lineup.Ordered) :
    later.lineup.Ordered := by
  induction moves with
  | refl => exact ordered
  | tail _ last ih => exact last.ordered ih

theorem spawn_ordered (params : StreamParams) : (StreamWorld.spawn params).lineup.Ordered :=
  ⟨List.nodup_nil, fun index entry found => (by cases found), rfl, List.Pairwise.nil,
    fun opening present => (by cases present), fun entry present => (by cases present),
    fun position opening frame accepted present => by cases present⟩

theorem run_ordered (params : StreamParams) (inputs : List StreamInput) :
    ∃ later, (StreamWorld.spawn params).run params inputs = .ok later ∧ later.lineup.Ordered := by
  obtain ⟨later, result, _, ordered⟩ := run_preserves params (fun w => w.lineup.Ordered)
    (fun _ _ _ move _ ordered => move.ordered ordered) inputs (.spawn params) (spawn_wellformed params)
    (spawn_ordered params) (.of_forall inputs (.spawn params) fun _ _ _ => trivial)
  exact ⟨later, result, ordered⟩

/-- Frames in flight have distinct ids, and only the last of them can be
provisional; it then has the id a counter restarts from. Frames are delivered
in the order in which they were opened, each at most once, and a provisional
frame only after it was adopted. -/
theorem frames_delivered_in_opening_order (params : StreamParams) (inputs : List StreamInput) :
    ∃ later, (StreamWorld.spawn params).run params inputs = .ok later ∧
      (later.runner.frames.map (·.frameId)).Nodup ∧
      (∀ index frame, later.runner.frames[index]? = some frame → frame.provisional = true →
        index + 1 = later.runner.frames.length ∧ frame.frameId = 1) ∧
      (openedIn later.journal).Nodup ∧
      (deliveredIn later.journal).Sublist (openedIn later.journal) ∧
      ∀ position opening frame accepted,
        later.journal[position]? = some (.delivered opening frame accepted) →
        OpenedForGood (later.journal.take position) opening frame.frameId := by
  obtain ⟨later, result, ordered⟩ := run_ordered params inputs
  have frameIds := ordered.distinct
  simp only [StreamWorld.lineup, List.map_map] at frameIds
  refine ⟨later, result, frameIds, ?_, ?_, ?_, ordered.served⟩
  · intro index frame found provisional
    have isLast := ordered.last index frame.entry (getElem?_entries found) provisional
    rw [StreamWorld.lineup, List.length_map] at isLast
    exact isLast
  · rw [show openedIn later.journal = _ from ordered.opened]
    exact List.nodup_range
  · rw [show openedIn later.journal = _ from ordered.opened]
    have ascending : (deliveredIn later.journal).Pairwise (· < ·) := (List.pairwise_append.mp ordered.ascending).1
    refine List.sublist_of_subperm_of_pairwise (r := (· ≤ ·)) ?_ (ascending.imp Nat.le_of_lt) List.pairwise_le_range
    refine List.subperm_of_subset (ascending.imp Nat.ne_of_lt) fun opening present => ?_
    exact List.mem_range.mpr (ordered.below opening (List.mem_append_left _ present))

end Telegenic.Stream
