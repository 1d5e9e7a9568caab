import Telegenic.Stream.Looks

/-! The requests for a frame stay within its budget over its whole life: between
two looks at its holes nothing is requested and what it has spent is kept, and
a look only sends what the budget still covers. -/

set_option autoImplicit false

namespace Telegenic.Stream

open Library Proto Proto.Gvsp

/-! ## One look -/

section OneLook

variable {params : StreamParams} {w later : StreamWorld} {index packetId now : Nat} {frame : FrameInFlight}

theorem requestsIn_append (journal rest : List StreamEvent) :
    requestsIn (journal ++ rest) = requestsIn journal ++ requestsIn rest :=
  List.filterMap_append

theorem requestsIn_requested (requests : List ResendRequest) : requestsIn (requests.map .requested) = requests := by
  rw [requestsIn, List.filterMap_map]
  exact List.filterMap_some

theorem rangesSize_cons (range : Nat × Nat) (ranges : List (Nat × Nat)) :
    rangesSize (range :: ranges) = (range.2 - range.1 + 1) + rangesSize ranges := rfl

theorem spend_within {budget : Nat} (runs : List (Nat × Nat)) : ∀ {spent : Nat}, (spend budget spent runs).1 ≠ [] →
    spent + rangesSize (spend budget spent runs).1 ≤ budget := by
  induction runs with
  | nil => exact fun none_taken => absurd rfl none_taken
  | cons run rest ih =>
    intro spent taken
    rw [spend] at taken ⊢
    split at taken
    · exact absurd rfl taken
    rename_i fits
    rw [if_neg fits]
    simp only [rangesSize_cons]
    by_cases more : (spend budget (spent + (run.2 - run.1 + 1)) rest).1 = []
    · rw [more]
      simp only [rangesSize, List.map_nil, List.sum_nil]
      omega
    · have := ih more
      omega

theorem findHoles_off (off : frame.resendDisabled = true ∨ frame.resendRatioReached = true) :
    frame.findHoles params packetId now = .ok (frame, .skipped) :=
  if_pos (.inr off)

theorem requestRanges_openings (frame : FrameInFlight) (ranges : List (Nat × Nat)) : ∀ (w : StreamWorld),
    (ranges.foldl (StreamWorld.requestRange frame) w).runner.openings = w.runner.openings := by
  induction ranges with
  | nil => exact fun _ => rfl
  | cons range rest ih => exact fun w => ih (StreamWorld.requestRange frame w range)

structure LookedAt (params : StreamParams) (index : Nat) (frame after : FrameInFlight) (requests : List ResendRequest)
    (w later : StreamWorld) : Prop where
  frames : later.runner.frames = w.runner.frames.set index after
  openings : later.runner.openings = w.runner.openings
  asked : requestsIn later.journal = requestsIn w.journal ++ requests
  named : ∀ request ∈ requests, request.frameId = frame.frameId
  fares : Fares frame after
  spent : frame.nResendRequests + requestedPackets requests ≤ after.nResendRequests
  allowed : requests ≠ [] → frame.resendDisabled = false ∧ frame.resendRatioReached = false ∧
    frame.nResendRequests + requestedPackets requests ≤ params.maxRequests frame.nPackets

theorem LookedAt.silent {after : FrameInFlight} (frames : later.runner.frames = w.runner.frames.set index after)
    (openings : later.runner.openings = w.runner.openings) (journal : later.journal = w.journal)
    (fares : Fares frame after) : LookedAt params index frame after [] w later :=
  ⟨frames, openings, by rw [journal, List.append_nil], fun _ present => absurd present List.not_mem_nil, fares,
    fares.spent, fun sent => absurd rfl sent⟩

theorem missingPacketCheck_lookedAt (found : w.runner.frames[index]? = some frame) (bounds : InBounds params frame)
    (packetId now : Nat) :
    ∃ later after requests, w.missingPacketCheck params index packetId now = .ok later ∧
      LookedAt params index frame after requests w later := by
  unfold StreamWorld.missingPacketCheck
  rw [StreamWorld.get_frame found, Checked.ok_bind]
  by_cases off : frame.resendDisabled = true ∨ frame.resendRatioReached = true
  · rw [findHoles_off off, Checked.ok_bind]
    exact ⟨_, frame, [], rfl, .silent rfl rfl rfl .refl⟩
  have enabled : frame.resendDisabled = false := Bool.eq_false_iff.mpr fun held => off (.inl held)
  have unreached : frame.resendRatioReached = false := Bool.eq_false_iff.mpr fun held => off (.inr held)
  rcases findHoles_passes bounds packetId now with skipped | ⟨_, _, scan, _, taken, refused, result, spent, passes, _⟩
  · rw [skipped, Checked.ok_bind]
    exact ⟨_, frame, [], rfl, .silent rfl rfl rfl .refl⟩
  rw [result, Checked.ok_bind]
  have ranges : scan.ranges = taken := passes.ranges
  have total : scan.frame.nResendRequests = frame.nResendRequests + _ + _ := passes.nResendRequests
  have scanned : Scanned frame scan.frame := passes.scanned
  have fares : Fares frame scan.frame := by
    refine ⟨scanned.opening, by omega, fun held => ?_, fun held => ?_, fun guard held => ?_⟩
    · rw [unreached] at held
      cases held
    · rw [enabled] at held
      cases held
    · rw [FrameInFlight.provisional, scanned.replayOf] at held
      rw [guard held] at enabled
      cases enabled
  cases refused with
  | some run => exact ⟨_, scan.frame, [], rfl, .silent rfl rfl rfl fares⟩
  | none =>
    obtain ⟨requests, journal, same, named, _, _, frames⟩ :=
      requestRanges_spec scan.frame scan.ranges (w.setFrame index scan.frame)
    refine ⟨_, scan.frame, requests, rfl, frames, requestRanges_openings _ _ _, ?_, fun request present => ?_, fares,
      ?_, fun sent => ⟨enabled, unreached, ?_⟩⟩
    · rw [journal, requestsIn_append, requestsIn_requested]
      rfl
    · exact (named request present).1.trans scanned.frameId
    · rw [requestedPackets, same, ranges]
      omega
    · rw [requestedPackets, same, ranges]
      have within : (spend (params.maxRequests frame.nPackets) frame.nResendRequests (frame.dueHoles now packetId)).1 ≠
          [] → _ := spend_within (frame.dueHoles now packetId)
      rw [spent] at within
      refine within fun none_taken => sent ?_
      rw [← List.map_eq_nil_iff, same, ranges]
      exact none_taken

end OneLook

/-! ## From look to look -/

/-- The worker went from the first state to the last with these looks on the
way, and requested nothing between them. -/
inductive Course (params : StreamParams) : StreamWorld → List Look → StreamWorld → Prop where
  | done {w later : StreamWorld} (silent : Silent w later) : Course params w [] later
  | look {w before after later : StreamWorld} {index packetId now : Nat} {frame : FrameInFlight} {rest : List Look}
      (silent : Silent w before) (found : before.runner.frames[index]? = some frame) (bounds : InBounds params frame)
      (checked : before.missingPacketCheck params index packetId now = .ok after)
      (course : Course params after rest later) : Course params w (⟨before, index, packetId, now⟩ :: rest) later

namespace Course

variable {params : StreamParams} {w later last : StreamWorld} {looks rest : List Look}

theorem after_silent (silent : Silent w later) (course : Course params later looks last) : Course params w looks last := by
  cases course with
  | done rest => exact .done (silent.trans rest)
  | look first found bounds checked course => exact .look (silent.trans first) found bounds checked course

theorem trans (first : Course params w looks later) (second : Course params later rest last) :
    Course params w (looks ++ rest) last := by
  induction first with
  | done silent => exact second.after_silent silent
  | look silent found bounds checked _ ih => exact .look silent found bounds checked (ih second)

theorem then_silent (course : Course params w looks later) (silent : Silent later last) : Course params w looks last := by
  have whole := course.trans (.done silent)
  rwa [List.append_nil] at whole

end Course

theorem LookedAt.silently {params : StreamParams} {index : Nat} {frame after : FrameInFlight} {requests : List ResendRequest}
    {w later : StreamWorld} (looked : LookedAt params index frame after requests w later)
    (found : w.runner.frames[index]? = some frame) :
    (∀ other ∈ later.runner.frames, ∃ before ∈ w.runner.frames, Fares before other) ∧ (w.Numbered → later.Numbered) := by
  -- Apart from the requests a look changes one frame.
  have silent : Silent w { later with journal := w.journal } :=
    .of_set found looked.fares looked.frames looked.openings rfl
  refine ⟨fun other present => ?_, fun holds => ?_⟩
  · rw [looked.frames] at present
    rcases List.mem_or_eq_of_mem_set present with old | rfl
    · exact ⟨other, old, .refl⟩
    · exact ⟨frame, List.mem_of_getElem? found, looked.fares⟩
  · obtain ⟨distinct, below, guarded⟩ := silent.numbered holds
    exact ⟨distinct, below, guarded⟩

namespace Look

variable {params : StreamParams} {look : Look} {later : StreamWorld} {frame after : FrameInFlight}
  {requests : List ResendRequest}

theorem sent_eq (checked : look.world.missingPacketCheck params look.index look.packetId look.now = .ok later)
    (looked : LookedAt params look.index frame after requests look.world later) : look.sent params = requests := by
  simp only [sent, checked, looked.asked, List.drop_left]

theorem isFor_iff (found : look.frame? = some frame) (opening : Nat) : look.isFor opening = true ↔ frame.opening = opening := by
  rw [isFor, found, Option.any_some, beq_iff_eq]

theorem exhausts_eq (checked : look.world.missingPacketCheck params look.index look.packetId look.now = .ok later)
    (looked : LookedAt params look.index frame after requests look.world later) (found : look.frame? = some frame) :
    look.exhausts params = after.resendRatioReached := by
  have inside := (List.getElem?_eq_some_iff.mp found).1
  simp only [exhausts, checked, looked.frames, List.getElem?_set_self inside, Option.any_some]

end Look

/-! ## The budget along a course -/

structure Kept (params : StreamParams) (past : List Look) (w : StreamWorld) : Prop where
  numbered : w.Numbered
  known : ∀ look ∈ past, ∀ opening, look.isFor opening = true → opening < w.runner.openings
  spent : ∀ frame ∈ w.runner.frames, packetsFor params frame.opening past ≤ frame.nResendRequests
  reached : ∀ frame ∈ w.runner.frames, ∀ look ∈ past, look.isFor frame.opening = true → look.exhausts params = true →
    frame.resendRatioReached = true

section Keeping

variable {params : StreamParams} {past : List Look} {w later : StreamWorld}

theorem packetsFor_append (opening : Nat) (past rest : List Look) :
    packetsFor params opening (past ++ rest) = packetsFor params opening past + packetsFor params opening rest := by
  rw [packetsFor, List.filter_append, List.map_append, List.sum_append]
  rfl

theorem packetsFor_unknown {opening : Nat} (unknown : ∀ look ∈ past, look.isFor opening = true → False) :
    packetsFor params opening past = 0 := by
  have none_left : past.filter (·.isFor opening) = [] :=
    List.filter_eq_nil_iff.mpr fun look present held => unknown look present held
  rw [packetsFor, none_left]
  rfl

theorem Kept.unknown (kept : Kept params past w) {opening : Nat} (fresh : w.runner.openings ≤ opening) :
    ∀ look ∈ past, look.isFor opening = true → False := by
  intro look present held
  have := kept.known look present opening held
  omega

theorem Kept.silent (kept : Kept params past w) (silent : Silent w later) : Kept params past later where
  numbered := silent.numbered kept.numbered
  known look present opening held := (kept.known look present opening held).trans_le silent.openings
  spent after present := by
    rcases silent.frames after present with ⟨before, inFirst, fares⟩ | fresh
    · rw [fares.opening]
      exact (kept.spent before inFirst).trans fares.spent
    · rw [packetsFor_unknown (kept.unknown fresh)]
      exact Nat.zero_le _
  reached after present look made held exhausted := by
    rcases silent.frames after present with ⟨before, inFirst, fares⟩ | fresh
    · exact fares.reached (kept.reached before inFirst look made (fares.opening ▸ held) exhausted)
    · exact absurd held (kept.unknown fresh look made)

theorem StreamWorld.Numbered.other_opening (numbered : w.Numbered) {index other : Nat} {frame neighbour : FrameInFlight}
    (found : w.runner.frames[index]? = some frame) (isOther : w.runner.frames[other]? = some neighbour)
    (elsewhere : other ≠ index) : neighbour.opening ≠ frame.opening := by
  intro same
  have inside : other < (w.runner.frames.map (·.opening)).length := by
    rw [List.length_map]
    exact (List.getElem?_eq_some_iff.mp isOther).1
  refine elsewhere ((List.getElem?_inj inside numbered.distinct).mp ?_)
  rw [List.getElem?_map, List.getElem?_map, found, isOther, Option.map_some, Option.map_some, same]

theorem LookedAt.cases {index : Nat} {frame after other : FrameInFlight} {requests : List ResendRequest}
    (looked : LookedAt params index frame after requests w later) (numbered : w.Numbered)
    (found : w.runner.frames[index]? = some frame) (present : other ∈ later.runner.frames) :
    other = after ∨ other ∈ w.runner.frames ∧ other.opening ≠ frame.opening := by
  obtain ⟨position, isOther⟩ := List.mem_iff_getElem?.mp present
  rw [looked.frames] at isOther
  by_cases here : index = position
  · subst here
    rw [List.getElem?_set_self (List.getElem?_eq_some_iff.mp found).1] at isOther
    exact .inl (Option.some.inj isOther).symm
  · rw [List.getElem?_set_ne here] at isOther
    exact .inr ⟨List.mem_of_getElem? isOther, numbered.other_opening found isOther (Ne.symm here)⟩

theorem packetsFor_single (opening : Nat) (look : Look) :
    packetsFor params opening [look] = if look.isFor opening then requestedPackets (look.sent params) else 0 := by
  cases isFor : look.isFor opening <;> simp [packetsFor, isFor]

theorem Kept.look {look : Look} {frame after : FrameInFlight} {requests : List ResendRequest}
    (kept : Kept params past look.world) (found : look.frame? = some frame)
    (checked : look.world.missingPacketCheck params look.index look.packetId look.now = .ok later)
    (looked : LookedAt params look.index frame after requests look.world later) : Kept params (past ++ [look]) later where
  numbered := (looked.silently found).2 kept.numbered
  known other made opening held := by
    rw [looked.openings]
    rcases List.mem_append.mp made with old | new
    · exact kept.known other old opening held
    · rw [List.mem_singleton.mp new, Look.isFor_iff found] at held
      exact held ▸ kept.numbered.below frame (List.mem_of_getElem? found)
  spent other present := by
    rw [packetsFor_append, packetsFor_single]
    rcases looked.cases kept.numbered found present with rfl | ⟨old, apart⟩
    · rw [looked.fares.opening, if_pos ((Look.isFor_iff found _).mpr rfl), Look.sent_eq checked looked]
      have := kept.spent frame (List.mem_of_getElem? found)
      have := looked.spent
      omega
    · rw [if_neg fun held => apart ((Look.isFor_iff found _).mp held).symm]
      exact kept.spent other old
  reached other present earlier made held exhausted := by
    rcases looked.cases kept.numbered found present with rfl | ⟨old, apart⟩
    · rcases List.mem_append.mp made with before | here
      · rw [looked.fares.opening] at held
        exact looked.fares.reached (kept.reached frame (List.mem_of_getElem? found) earlier before held exhausted)
      · rw [List.mem_singleton.mp here] at exhausted
        exact (Look.exhausts_eq checked looked found).symm.trans exhausted
    · rcases List.mem_append.mp made with before | here
      · exact kept.reached other old earlier before held exhausted
      · rw [List.mem_singleton.mp here] at held
        exact absurd ((Look.isFor_iff found _).mp held).symm apart

structure StreamWorld.RefusedFor (opening : Nat) (w : StreamWorld) : Prop where
  opened : opening < w.runner.openings
  frames : ∀ frame ∈ w.runner.frames, frame.opening = opening → frame.Refused

theorem StreamWorld.Numbered.refusedFor (numbered : w.Numbered) {frame : FrameInFlight} (present : frame ∈ w.runner.frames)
    (refused : frame.Refused) : w.RefusedFor frame.opening := by
  refine ⟨numbered.below frame present, fun other isOther same => ?_⟩
  obtain ⟨index, found⟩ := List.mem_iff_getElem?.mp present
  obtain ⟨position, isPosition⟩ := List.mem_iff_getElem?.mp isOther
  by_cases here : position = index
  · rw [here, found] at isPosition
    exact Option.some.inj isPosition ▸ refused
  · exact absurd same (numbered.other_opening found isPosition here)

namespace StreamWorld.RefusedFor

variable {opening : Nat}

theorem silent (refused : w.RefusedFor opening) (silent : Silent w later) : later.RefusedFor opening := by
  refine ⟨refused.opened.trans_le silent.openings, fun after present same => ?_⟩
  rcases silent.frames after present with ⟨before, inFirst, fares⟩ | fresh
  · exact fares.toRefused (refused.frames before inFirst (fares.opening.symm.trans same))
  · have := refused.opened
    omega

theorem look {index : Nat} {frame after : FrameInFlight} {requests : List ResendRequest} (refused : w.RefusedFor opening)
    (looked : LookedAt params index frame after requests w later) (found : w.runner.frames[index]? = some frame) :
    later.RefusedFor opening := by
  refine ⟨looked.openings ▸ refused.opened, fun other present same => ?_⟩
  obtain ⟨before, inFirst, fares⟩ := (looked.silently found).1 other present
  exact fares.toRefused (refused.frames before inFirst (fares.opening.symm.trans same))

end StreamWorld.RefusedFor

end Keeping

namespace Course

variable {params : StreamParams} {w later : StreamWorld} {looks : List Look}

theorem numbered (course : Course params w looks later) (numbered : w.Numbered) : later.Numbered := by
  induction course with
  | done silent => exact silent.numbered numbered
  | look silent found bounds checked _ ih =>
    obtain ⟨next, after, requests, result, looked⟩ := missingPacketCheck_lookedAt found bounds _ _
    cases checked.symm.trans result
    exact ih ((looked.silently found).2 (silent.numbered numbered))

theorem requests (course : Course params w looks later) :
    requestsIn later.journal = requestsIn w.journal ++ looks.flatMap (Look.sent params) := by
  induction course with
  | done silent => rw [silent.requests, List.flatMap_nil, List.append_nil]
  | look silent found bounds checked _ ih =>
    obtain ⟨next, after, requests, result, looked⟩ := missingPacketCheck_lookedAt found bounds _ _
    cases checked.symm.trans result
    rw [ih, looked.asked, silent.requests, List.flatMap_cons, List.append_assoc, Look.sent_eq checked looked]

structure Allowed (params : StreamParams) (past : List Look) (look : Look) (frame : FrameInFlight) : Prop where
  named : ∀ request ∈ look.sent params, request.frameId = frame.frameId
  real : look.sent params ≠ [] → frame.provisional = false
  within : look.sent params ≠ [] → packetsFor params frame.opening (past ++ [look]) ≤ params.maxRequests frame.nPackets
  unspent : look.sent params ≠ [] → ∀ earlier ∈ past, earlier.isFor frame.opening = true → earlier.exhausts params = false

theorem allowed (course : Course params w looks later) : ∀ {past : List Look}, Kept params past w →
    ∀ before look after, looks = before ++ look :: after →
      ∃ frame, look.frame? = some frame ∧ Allowed params (past ++ before) look frame := by
  induction course with
  | done _ =>
    intro past _ before look after split
    simp at split
  | @look w world next later index packetId now frame rest silent found bounds checked course ih =>
    intro past kept before look after split
    have still := kept.silent silent
    obtain ⟨next, changed, requests, result, looked⟩ := missingPacketCheck_lookedAt found bounds packetId now
    cases checked.symm.trans result
    have isFound : Look.frame? ⟨world, index, packetId, now⟩ = some frame := found
    cases before with
    | nil =>
      cases split
      have sent : Look.sent params ⟨world, index, packetId, now⟩ = requests := Look.sent_eq checked looked
      have present := List.mem_of_getElem? found
      refine ⟨frame, found, sent ▸ looked.named, fun some_sent => ?_, fun some_sent => ?_,
        fun some_sent earlier made held => ?_⟩
      · obtain ⟨enabled, _⟩ := looked.allowed (sent ▸ some_sent)
        by_contra provisional
        rw [still.numbered.guarded frame present (Bool.not_eq_false _ ▸ provisional)] at enabled
        cases enabled
      · rw [List.append_nil, packetsFor_append, packetsFor_single, if_pos ((Look.isFor_iff isFound _).mpr rfl), sent]
        have := (looked.allowed (sent ▸ some_sent)).2.2
        have := still.spent frame present
        omega
      · rw [List.append_nil] at made
        by_contra exhausted
        have reached := still.reached frame present earlier made held (Bool.not_eq_false _ ▸ exhausted)
        rw [(looked.allowed (sent ▸ some_sent)).2.1] at reached
        cases reached
    | cons first before =>
      rw [List.cons_append, List.cons.injEq] at split
      obtain ⟨rfl, rfl⟩ := split
      have result := ih (still.look isFound checked looked) before look after rfl
      rwa [List.append_assoc] at result

theorem refused {opening : Nat} (course : Course params w looks later) : w.RefusedFor opening →
    ∀ look ∈ looks, look.isFor opening = true → look.sent params = [] := by
  induction course with
  | done _ => exact fun _ look present => absurd present List.not_mem_nil
  | @look w world next later index packetId now frame rest silent found bounds checked course ih =>
    intro refused look present held
    have still := refused.silent silent
    obtain ⟨next, changed, requests, result, looked⟩ := missingPacketCheck_lookedAt found bounds packetId now
    cases checked.symm.trans result
    have isFound : Look.frame? ⟨world, index, packetId, now⟩ = some frame := found
    rcases List.mem_cons.mp present with rfl | later
    · have isRefused := still.frames frame (List.mem_of_getElem? found) ((Look.isFor_iff isFound _).mp held)
      refine (Look.sent_eq checked looked).trans (by_contra fun some_sent => ?_)
      obtain ⟨enabled, unreached, _⟩ := looked.allowed some_sent
      rcases isRefused with reached | ⟨disabled, _⟩
      · rw [unreached] at reached
        cases reached
      · rw [enabled] at disabled
        cases disabled
    · exact ih (still.look looked found) look later held

end Course

end Telegenic.Stream
