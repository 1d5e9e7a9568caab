import Telegenic.Stream.Runner

/-! The other end of the stream: a device that numbers its frames upwards and
sends each as a leader, its data cut into blocks, and a trailer. A sheet keeps
the score of what arrived: which frames were opened, which packets of each came
in, and which frames are closed. -/

set_option autoImplicit false

namespace Telegenic.Stream

open Library Proto Proto.Gvsp

instance decidableExistsSome {Value : Type} (property : Value → Prop) [DecidablePred property] :
    (option : Option Value) → Decidable (∃ value, option = some value ∧ property value)
  | none => .isFalse fun ⟨_, isNone, _⟩ => by cases isNone
  | some value => decidable_of_iff (property value)
      ⟨fun holds => ⟨value, rfl, holds⟩, fun ⟨_, isValue, holds⟩ => Option.some.inj isValue ▸ holds⟩

/-- One frame as the device sends it: the data areas of its leader and trailer
and the data, cut into blocks of one size. -/
structure SentFrame where
  leader : List UInt8
  data : List UInt8
  trailer : List UInt8
  blockSize : Nat
  blockSize_pos : 1 ≤ blockSize

namespace SentFrame

def payloadType (sent : SentFrame) : Option Nat := (ImageLeader.parse sent.leader).map (·.payloadType)

def payloadKind (sent : SentFrame) : PayloadKind :=
  match ImageLeader.parse sent.leader with
  | none => .unknown 0
  | some leader =>
      if leader.payloadType = payloadTypeImage ∨ leader.payloadType = payloadTypeExtendedChunkData then
        .image leader.hasChunks
      else if leader.payloadType = payloadTypeChunkData then
        .chunkData
      else
        .unknown leader.payloadType

/-- The receiver reassembles frames of this type whichever packet comes
first. -/
def Supported (sent : SentFrame) : Prop :=
  sent.payloadType = some payloadTypeImage ∨ sent.payloadType = some payloadTypeChunkData ∨
    sent.payloadType = some payloadTypeExtendedChunkData

def blocks (sent : SentFrame) : Nat := (sent.data.length + sent.blockSize - 1) / sent.blockSize

def nPackets (sent : SentFrame) : Nat := sent.blocks + 2

def block (sent : SentFrame) (k : Nat) : List UInt8 :=
  (sent.data.drop ((k - 1) * sent.blockSize)).take sent.blockSize

def kind (sent : SentFrame) (k : Nat) : ContentType :=
  if k = 0 then .leader else if k ≤ sent.blocks then .payload else .trailer

def body (sent : SentFrame) (k : Nat) : List UInt8 :=
  if k = 0 then sent.leader else if k ≤ sent.blocks then sent.block k else sent.trailer

structure IsPacket (sent : SentFrame) (k : Nat) (view : GvspView) : Prop where
  inside : k < sent.nPackets
  packetId : view.packetId = k
  contentType : view.contentType = sent.kind k
  data : view.data = sent.body k

instance (sent : SentFrame) (k : Nat) (view : GvspView) : Decidable (sent.IsPacket k view) :=
  decidable_of_iff (k < sent.nPackets ∧ view.packetId = k ∧ view.contentType = sent.kind k ∧ view.data = sent.body k)
    ⟨fun ⟨inside, packetId, contentType, data⟩ => ⟨inside, packetId, contentType, data⟩,
      fun packet => ⟨packet.inside, packet.packetId, packet.contentType, packet.data⟩⟩

structure Fits (params : StreamParams) (sent : SentFrame) : Prop where
  data_le : sent.data.length ≤ params.payloadSize
  nPackets_le : sent.nPackets ≤ 2 ^ 20

end SentFrame

def maxBlockId (extendedIds : Bool) : Nat := if extendedIds then 2 ^ 64 - 1 else 2 ^ 16 - 1

def blockIdAfter (extendedIds : Bool) (id steps : Nat) : Nat :=
  (id - 1 + steps) % maxBlockId extendedIds + 1

/-- A device and the frames it sends. Its block ids advance by less than half
the ring from one frame to the next; `offset` adds these steps up. -/
structure Device where
  extendedIds : Bool
  firstId : Nat
  frames : List SentFrame
  offset : Nat → Nat
  firstId_pos : 1 ≤ firstId
  firstId_le : firstId ≤ maxBlockId extendedIds
  offset_zero : offset 0 = 0
  offset_lt : ∀ j, offset j < offset (j + 1)
  offset_le : ∀ j, offset (j + 1) ≤ offset j + maxBlockId extendedIds / 2

structure Sheet where
  opened : Nat := 0
  closed : Nat := 0
  arrived : Nat → List Nat := fun _ => []
  duplicates : Nat := 0
  late : Nat := 0

namespace Device

def frameId (device : Device) (j : Nat) : Nat := blockIdAfter device.extendedIds device.firstId (device.offset j)

def skipped (device : Device) (j : Nat) : Nat := device.offset j - j

structure Sends (device : Device) (j k : Nat) (view : GvspView) : Prop where
  frameId : view.frameId = device.frameId j
  extendedIds : view.extendedIds = device.extendedIds
  accepted : view.status.isError = false
  packet : ∃ sent, device.frames[j]? = some sent ∧ sent.IsPacket k view

instance (device : Device) (j k : Nat) (view : GvspView) : Decidable (device.Sends j k view) :=
  decidable_of_iff (view.frameId = device.frameId j ∧ view.extendedIds = device.extendedIds ∧
      view.status.isError = false ∧ ∃ sent, device.frames[j]? = some sent ∧ sent.IsPacket k view)
    ⟨fun ⟨frameId, extendedIds, accepted, packet⟩ => ⟨frameId, extendedIds, accepted, packet⟩,
      fun sends => ⟨sends.frameId, sends.extendedIds, sends.accepted, sends.packet⟩⟩

/-- Every packet of frame `j` has arrived. -/
def complete (device : Device) (sheet : Sheet) (j : Nat) : Bool :=
  match device.frames[j]? with
  | none => false
  | some sent => (List.range sent.nPackets).all fun k => decide (k ∈ sheet.arrived j)

def closeHeads (device : Device) : Nat → Sheet → Sheet
  | 0, sheet => sheet
  | fuel + 1, sheet =>
      if sheet.closed < sheet.opened ∧ device.complete sheet sheet.closed = true then
        device.closeHeads fuel { sheet with closed := sheet.closed + 1 }
      else
        sheet

def enter (sheet : Sheet) (j k : Nat) : Sheet :=
  { sheet with
    opened := max sheet.opened (j + 1)
    arrived := Function.update sheet.arrived j (sheet.arrived j ++ [k]) }

def arrive (device : Device) (sheet : Sheet) (j k : Nat) : Sheet :=
  if j < sheet.closed then
    { sheet with late := sheet.late + 1 }
  else if k ∈ sheet.arrived j then
    { sheet with duplicates := sheet.duplicates + 1 }
  else
    let sheet := enter sheet j k
    device.closeHeads (sheet.opened - sheet.closed) sheet

/-- The sheet after the labelled packets; an unlabelled step brings none. -/
def play (device : Device) (labels : List (Option (Nat × Nat))) (sheet : Sheet) : Sheet :=
  labels.foldl (fun sheet label => label.elim sheet fun (j, k) => device.arrive sheet j k) sheet

/-- Every packet is allowed where it arrives. -/
def Schedule (device : Device) (allowed : Sheet → Nat → Nat → Prop) : List (Option (Nat × Nat)) → Sheet → Prop
  | [], _ => True
  | none :: rest, sheet => device.Schedule allowed rest sheet
  | some (j, k) :: rest, sheet => allowed sheet j k ∧ device.Schedule allowed rest (device.arrive sheet j k)

instance Schedule.instDecidable (device : Device) (allowed : Sheet → Nat → Nat → Prop)
    [∀ sheet j k, Decidable (allowed sheet j k)] : (labels : List (Option (Nat × Nat))) → (sheet : Sheet) →
      Decidable (device.Schedule allowed labels sheet)
  | [], _ => .isTrue trivial
  | none :: rest, sheet => instDecidable device allowed rest sheet
  | some (j, k) :: rest, sheet =>
      @instDecidableAnd _ _ inferInstance (instDecidable device allowed rest (device.arrive sheet j k))

/-- A packet may arrive when its frame is open, or is the next to be opened and
with `resend` off none is open, or was closed fewer than 100 ids behind the
last one opened. -/
def InOrder (device : Device) (resend : Bool) (sheet : Sheet) (j k : Nat) : Prop :=
  (∃ sent, device.frames[j]? = some sent ∧ k < sent.nPackets) ∧
    (j < sheet.closed ∧ device.offset (sheet.opened - 1) < device.offset j + 100 ∨
      sheet.closed ≤ j ∧ j < sheet.opened ∨
      j = sheet.opened ∧ (resend = true ∨ sheet.closed = sheet.opened))

/-- A frame that is opened has a block id that no open frame has. -/
def NewId (device : Device) (sheet : Sheet) (j : Nat) : Prop :=
  j = sheet.opened → ∀ i, sheet.closed ≤ i → i < sheet.opened → device.frameId i ≠ device.frameId j

instance (device : Device) (resend : Bool) (sheet : Sheet) (j k : Nat) : Decidable (device.InOrder resend sheet j k) :=
  inferInstanceAs (Decidable (_ ∧ _))

instance (device : Device) (sheet : Sheet) (j : Nat) : Decidable (device.NewId sheet j) :=
  decidable_of_iff (j = sheet.opened →
      ∀ i < sheet.opened, sheet.closed ≤ i → device.frameId i ≠ device.frameId j)
    ⟨fun all isNext i unclosed isOpen => all isNext i isOpen unclosed,
      fun all isNext i isOpen unclosed => all isNext i unclosed isOpen⟩

structure Tidy (device : Device) (resend : Bool) (sheet : Sheet) : Prop where
  closed_le : sheet.closed ≤ sheet.opened
  opened_le : sheet.opened ≤ device.frames.length
  unopened : ∀ j, sheet.opened ≤ j → sheet.arrived j = []
  started : ∀ j, j < sheet.opened → sheet.arrived j ≠ []
  head : sheet.closed < sheet.opened → device.complete sheet sheet.closed = false
  alone : resend = false → sheet.opened ≤ sheet.closed + 1

end Device

section BlockIds

variable {extendedIds : Bool} {id steps : Nat}

theorem maxBlockId_large : 2 ^ 16 - 1 ≤ maxBlockId extendedIds := by
  cases extendedIds <;> decide

theorem one_le_one : 1 ≤ 1 := le_rfl

theorem zero_eq_zero : 0 = 0 := rfl

theorem one_le_maxBlockId : 1 ≤ maxBlockId false := by decide

theorem succ_le_halfRound : ∀ j : Nat, j + 1 ≤ j + maxBlockId false / 2 := fun _ => Nat.add_le_add_left (by decide) _

theorem blockIdAfter_pos : 1 ≤ blockIdAfter extendedIds id steps :=
  Nat.le_add_left 1 _

theorem blockIdAfter_le : blockIdAfter extendedIds id steps ≤ maxBlockId extendedIds := by
  have large := @maxBlockId_large extendedIds
  have below := Nat.mod_lt (id - 1 + steps) (show 0 < maxBlockId extendedIds by omega)
  rw [blockIdAfter]
  omega

theorem blockIdAfter_add (more : Nat) : blockIdAfter extendedIds id (steps + more) =
    blockIdAfter extendedIds (blockIdAfter extendedIds id steps) more := by
  rw [blockIdAfter, blockIdAfter, blockIdAfter, Nat.add_sub_cancel, Nat.mod_add_mod, ← Nat.add_assoc]

theorem blockIdAfter_zero (positive : 1 ≤ id) (le : id ≤ maxBlockId extendedIds) :
    blockIdAfter extendedIds id 0 = id := by
  rw [blockIdAfter, Nat.add_zero, Nat.mod_eq_of_lt (by omega)]
  omega

theorem blockIdAfter_ne (positive : 1 ≤ id) (moves : 0 < steps)
    (few : steps < maxBlockId extendedIds) : blockIdAfter extendedIds id steps ≠ id := by
  intro same
  rw [blockIdAfter] at same
  have whole := Nat.mod_add_div (id - 1 + steps) (maxBlockId extendedIds)
  have remainder : (id - 1 + steps) % maxBlockId extendedIds = id - 1 := by omega
  rcases Nat.eq_zero_or_pos ((id - 1 + steps) / maxBlockId extendedIds) with none | some
  · rw [none, Nat.mul_zero] at whole
    omega
  · have := Nat.mul_le_mul_left (maxBlockId extendedIds) some
    omega

theorem and_maxBlockId (le : id ≤ maxBlockId extendedIds) : id &&& maxBlockId extendedIds = id := by
  cases extendedIds with
  | false => exact (Nat.and_two_pow_sub_one_eq_mod id 16).trans (Nat.mod_eq_of_lt (Nat.lt_succ_of_le le))
  | true => exact (Nat.and_two_pow_sub_one_eq_mod id 64).trans (Nat.mod_eq_of_lt (Nat.lt_succ_of_le le))

theorem blockIdDistance_eq {last : Nat} (positive : 1 ≤ id) (le : id ≤ maxBlockId extendedIds)
    (last_pos : 1 ≤ last) (last_le : last ≤ maxBlockId extendedIds) :
    blockIdDistance id last extendedIds =
      let max := maxBlockId extendedIds
      let ahead := (id + max - last) % max
      if ahead ≤ max / 2 then
        if ahead < 2 ^ 63 then (ahead : Int) else 2 ^ 63 - 1
      else
        if max - ahead < 2 ^ 63 then -((max - ahead : Nat) : Int) else -(2 ^ 63) := by
  have nonzero : ¬ (id = 0 ∨ last = 0) := by omega
  have masked : id &&& maxBlockId extendedIds = id := and_maxBlockId le
  have last_masked : last &&& maxBlockId extendedIds = last := and_maxBlockId last_le
  have modulus : maxBlockId extendedIds + (if id = 0 ∨ last = 0 then 1 else 0) = maxBlockId extendedIds := by
    rw [if_neg nonzero, Nat.add_zero]
  unfold maxBlockId at masked last_masked modulus ⊢
  simp only [blockIdDistance, masked, last_masked, modulus]

theorem ahead_of_after (positive : 1 ≤ id) (le : id ≤ maxBlockId extendedIds)
    (few : steps < maxBlockId extendedIds) :
    (blockIdAfter extendedIds id steps + maxBlockId extendedIds - id) % maxBlockId extendedIds = steps := by
  rw [blockIdAfter]
  rcases Nat.lt_or_ge (id - 1 + steps) (maxBlockId extendedIds) with inside | wraps
  · rw [Nat.mod_eq_of_lt inside, show id - 1 + steps + 1 + maxBlockId extendedIds - id =
      steps + maxBlockId extendedIds by omega, Nat.add_mod_right, Nat.mod_eq_of_lt few]
  · rw [Nat.mod_eq_sub_mod wraps, Nat.mod_eq_of_lt (show id - 1 + steps - maxBlockId extendedIds <
      maxBlockId extendedIds by omega), show id - 1 + steps - maxBlockId extendedIds + 1 +
      maxBlockId extendedIds - id = steps by omega, Nat.mod_eq_of_lt few]

theorem ahead_of_before (positive : 1 ≤ id) (le : id ≤ maxBlockId extendedIds) (moves : 0 < steps)
    (few : steps < maxBlockId extendedIds) :
    (id + maxBlockId extendedIds - blockIdAfter extendedIds id steps) % maxBlockId extendedIds =
      maxBlockId extendedIds - steps := by
  rw [blockIdAfter]
  rcases Nat.lt_or_ge (id - 1 + steps) (maxBlockId extendedIds) with inside | wraps
  · rw [Nat.mod_eq_of_lt inside, show id + maxBlockId extendedIds - (id - 1 + steps + 1) =
      maxBlockId extendedIds - steps by omega, Nat.mod_eq_of_lt (by omega)]
  · rw [Nat.mod_eq_sub_mod wraps, Nat.mod_eq_of_lt (show id - 1 + steps - maxBlockId extendedIds <
      maxBlockId extendedIds by omega), show id + maxBlockId extendedIds -
      (id - 1 + steps - maxBlockId extendedIds + 1) = maxBlockId extendedIds - steps + maxBlockId extendedIds by omega,
      Nat.add_mod_right, Nat.mod_eq_of_lt (by omega)]

theorem blockIdDistance_ahead (positive : 1 ≤ id) (le : id ≤ maxBlockId extendedIds)
    (half : steps ≤ maxBlockId extendedIds / 2) :
    blockIdDistance (blockIdAfter extendedIds id steps) id extendedIds = steps := by
  have large := @maxBlockId_large extendedIds
  have bounded : maxBlockId extendedIds / 2 < 2 ^ 63 := by cases extendedIds <;> decide
  rw [blockIdDistance_eq blockIdAfter_pos blockIdAfter_le positive le]
  simp only [ahead_of_after positive le (show steps < maxBlockId extendedIds by omega)]
  rw [if_pos half, if_pos (by omega)]

theorem blockIdDistance_behind (positive : 1 ≤ id) (le : id ≤ maxBlockId extendedIds) (few : steps < 100) :
    blockIdDistance id (blockIdAfter extendedIds id steps) extendedIds = -(steps : Int) := by
  have large := @maxBlockId_large extendedIds
  rw [blockIdDistance_eq positive le blockIdAfter_pos blockIdAfter_le]
  rcases Nat.eq_zero_or_pos steps with rfl | moves
  · rw [blockIdAfter_zero positive le]
    simp
  · simp only [ahead_of_before positive le moves (show steps < maxBlockId extendedIds by omega)]
    rw [if_neg (by omega), if_pos (by omega)]
    congr 1
    omega

theorem blockIdDistance_first (positive : 1 ≤ id) (le : id ≤ maxBlockId extendedIds) :
    blockIdDistance id ((id + (2 ^ 64 - 1)) % 2 ^ 64) extendedIds = 1 := by
  have bounded : maxBlockId extendedIds < 2 ^ 64 := by cases extendedIds <;> decide
  have before : (id + (2 ^ 64 - 1)) % 2 ^ 64 = id - 1 := by omega
  rw [before]
  rcases Nat.eq_or_lt_of_le positive with rfl | later
  · cases extendedIds <;> decide
  · have after : blockIdAfter extendedIds (id - 1) 1 = id := by
      rw [blockIdAfter, Nat.mod_eq_of_lt (by omega)]
      omega
    have large := @maxBlockId_large extendedIds
    have next := blockIdDistance_ahead (show 1 ≤ id - 1 by omega) (show id - 1 ≤ maxBlockId extendedIds by omega)
      (show 1 ≤ maxBlockId extendedIds / 2 by omega)
    rwa [after] at next

end BlockIds

namespace Device

section FrameIds

variable (device : Device) {i j : Nat}

theorem frameId_pos : 1 ≤ device.frameId j := blockIdAfter_pos

theorem frameId_le : device.frameId j ≤ maxBlockId device.extendedIds := blockIdAfter_le

theorem frameId_zero : device.frameId 0 = device.firstId := by
  rw [frameId, device.offset_zero]
  exact blockIdAfter_zero device.firstId_pos device.firstId_le

theorem offset_mono (le : i ≤ j) : device.offset i ≤ device.offset j := by
  induction le with
  | refl => exact le_rfl
  | step _ ih => exact ih.trans (device.offset_lt _).le

theorem offset_strictMono (lt : i < j) : device.offset i < device.offset j :=
  (device.offset_lt i).trans_le (device.offset_mono lt)

theorem offset_add_le (le : i ≤ j) : device.offset i + (j - i) ≤ device.offset j := by
  induction le with
  | refl => simp
  | @step j le ih =>
    have grows := device.offset_lt j
    have le : i ≤ j := le
    simp only [Nat.succ_eq_add_one] at *
    omega

theorem le_offset (j : Nat) : j ≤ device.offset j := by
  have grows := device.offset_add_le (Nat.zero_le j)
  rw [device.offset_zero] at grows
  omega

theorem frameId_between (le : i ≤ j) :
    device.frameId j = blockIdAfter device.extendedIds (device.frameId i) (device.offset j - device.offset i) := by
  have ordered := device.offset_mono le
  rw [frameId, frameId, ← blockIdAfter_add, Nat.add_sub_cancel' ordered]

theorem distance_next : blockIdDistance (device.frameId (j + 1)) (device.frameId j) device.extendedIds =
    (device.offset (j + 1) - device.offset j : Nat) := by
  have near := device.offset_le j
  rw [device.frameId_between (show j ≤ j + 1 by omega)]
  exact blockIdDistance_ahead device.frameId_pos device.frameId_le (by omega)

theorem distance_late (le : j ≤ i) (few : device.offset i < device.offset j + 100) :
    blockIdDistance (device.frameId j) (device.frameId i) device.extendedIds =
      -((device.offset i - device.offset j : Nat) : Int) := by
  rw [device.frameId_between le]
  exact blockIdDistance_behind device.frameId_pos device.frameId_le (by omega)

theorem frameId_ne (lt : i < j) (few : device.offset j < device.offset i + maxBlockId device.extendedIds) :
    device.frameId j ≠ device.frameId i := by
  have ordered := device.offset_strictMono lt
  rw [device.frameId_between lt.le]
  exact blockIdAfter_ne device.frameId_pos (by omega) (by omega)

end FrameIds

section Scores

variable {device : Device} {resend : Bool} {sheet : Sheet} {j k : Nat}

theorem complete_iff {sent : SentFrame} (isSent : device.frames[j]? = some sent) :
    device.complete sheet j = true ↔ ∀ k < sent.nPackets, k ∈ sheet.arrived j := by
  simp [complete, isSent]

theorem closeHeads_spec (fuel : Nat) : ∀ (sheet : Sheet), sheet.closed ≤ sheet.opened →
    sheet.opened - sheet.closed ≤ fuel →
    ∃ closed, device.closeHeads fuel sheet = { sheet with closed := closed } ∧
      sheet.closed ≤ closed ∧ closed ≤ sheet.opened ∧
      (closed < sheet.opened → device.complete sheet closed = false) := by
  induction fuel with
  | zero =>
    intro sheet ordered none_left
    exact ⟨sheet.closed, rfl, le_rfl, ordered, fun more => by omega⟩
  | succ fuel ih =>
    intro sheet ordered enough
    rw [closeHeads]
    by_cases closes : sheet.closed < sheet.opened ∧ device.complete sheet sheet.closed = true
    · obtain ⟨closed, result, grows, le, head⟩ := ih { sheet with closed := sheet.closed + 1 }
        (show sheet.closed + 1 ≤ sheet.opened from closes.1) (by simp only; omega)
      simp only at grows le head
      exact ⟨closed, (if_pos closes).trans result, by omega, le, head⟩
    · refine ⟨sheet.closed, if_neg closes, le_rfl, ordered, fun more => ?_⟩
      exact Bool.eq_false_iff.mpr fun complete => closes ⟨more, complete⟩

theorem closeHeads_incomplete {fuel : Nat} (incomplete : device.complete sheet sheet.closed = false) :
    device.closeHeads fuel sheet = sheet := by
  cases fuel with
  | zero => rfl
  | succ fuel =>
    rw [closeHeads, if_neg]
    rintro ⟨_, complete⟩
    rw [incomplete] at complete
    cases complete

theorem InOrder.lt_length (order : device.InOrder resend sheet j k) : j < device.frames.length := by
  obtain ⟨⟨sent, isSent, _⟩, _⟩ := order
  exact (List.getElem?_eq_some_iff.mp isSent).1

theorem Tidy.arrive (tidy : device.Tidy resend sheet) (order : device.InOrder resend sheet j k) :
    device.Tidy resend (device.arrive sheet j k) := by
  unfold Device.arrive
  split
  · exact ⟨tidy.closed_le, tidy.opened_le, tidy.unopened, tidy.started, tidy.head, tidy.alone⟩
  rename_i unclosed
  split
  · exact ⟨tidy.closed_le, tidy.opened_le, tidy.unopened, tidy.started, tidy.head, tidy.alone⟩
  have closed_le := tidy.closed_le
  have inside := order.lt_length
  have opened_le := tidy.opened_le
  have position : j ≤ sheet.opened := by
    rcases order.2 with late | opening | next <;> omega
  obtain ⟨closed, result, grows, le, head⟩ := device.closeHeads_spec
    ((enter sheet j k).opened - (enter sheet j k).closed) (enter sheet j k)
    (show sheet.closed ≤ max sheet.opened (j + 1) by omega) le_rfl
  simp only [result]
  simp only [enter] at grows le head ⊢
  refine ⟨le, show max sheet.opened (j + 1) ≤ device.frames.length by omega, ?_, ?_, head, ?_⟩
  · intro other beyond
    simp only at beyond ⊢
    rw [Function.update_of_ne (by omega)]
    exact tidy.unopened other (by omega)
  · intro other before
    simp only at before ⊢
    by_cases same : other = j
    · rw [same, Function.update_self]
      exact List.append_ne_nil_of_right_ne_nil _ (List.cons_ne_nil _ _)
    · rw [Function.update_of_ne same]
      exact tidy.started other (by omega)
  · intro off
    have alone := tidy.alone off
    simp only
    rcases order.2 with late | opening | next
    · omega
    · omega
    · rcases next.2 with on | all
      · rw [on] at off
        cases off
      · omega

def Seen (sheet : Sheet) (j k : Nat) : Prop := j < sheet.closed ∨ k ∈ sheet.arrived j

theorem Tidy.arrive_eq (tidy : device.Tidy resend sheet) (unclosed : ¬ j < sheet.closed)
    (fresh : k ∉ sheet.arrived j) :
    ∃ closed, device.arrive sheet j k = { enter sheet j k with closed := closed } ∧ sheet.closed ≤ closed := by
  have closed_le := tidy.closed_le
  obtain ⟨closed, result, grows, _⟩ := device.closeHeads_spec
    ((enter sheet j k).opened - (enter sheet j k).closed) (enter sheet j k)
    (show sheet.closed ≤ max sheet.opened (j + 1) by omega) le_rfl
  refine ⟨closed, ?_, grows⟩
  rw [Device.arrive, if_neg unclosed, if_neg fresh]
  exact result

theorem seen_enter {i l closed : Nat} (seen : Seen sheet i l) (grows : sheet.closed ≤ closed) :
    Seen { enter sheet j k with closed := closed } i l := by
  rcases seen with late | here
  · exact .inl (late.trans_le grows)
  · refine .inr ?_
    show l ∈ Function.update sheet.arrived j (sheet.arrived j ++ [k]) i
    by_cases same : i = j
    · subst same
      rw [Function.update_self]
      exact List.mem_append_left _ here
    · rw [Function.update_of_ne same]
      exact here

theorem Tidy.seen_arrive (tidy : device.Tidy resend sheet) {i l : Nat} :
    (Seen sheet i l → Seen (device.arrive sheet j k) i l) ∧ Seen (device.arrive sheet j k) j k := by
  by_cases closed : j < sheet.closed
  · rw [Device.arrive, if_pos closed]
    exact ⟨id, .inl closed⟩
  by_cases repeated : k ∈ sheet.arrived j
  · rw [Device.arrive, if_neg closed, if_pos repeated]
    exact ⟨id, .inr repeated⟩
  obtain ⟨closed', result, grows⟩ := tidy.arrive_eq closed repeated
  rw [result]
  refine ⟨fun seen => seen_enter seen grows, .inr ?_⟩
  show k ∈ Function.update sheet.arrived j (sheet.arrived j ++ [k]) j
  rw [Function.update_self]
  exact List.mem_append_right _ List.mem_cons_self

theorem play_closes {allowed : Sheet → Nat → Nat → Prop}
    (inOrder : ∀ sheet j k, allowed sheet j k → device.InOrder resend sheet j k)
    (labels : List (Option (Nat × Nat))) : ∀ (sheet : Sheet), device.Tidy resend sheet →
      device.Schedule allowed labels sheet → device.Tidy resend (device.play labels sheet) ∧
        (∀ i l, Seen sheet i l → Seen (device.play labels sheet) i l) ∧
        ∀ i l, some (i, l) ∈ labels → Seen (device.play labels sheet) i l := by
  induction labels with
  | nil => exact fun sheet tidy _ => ⟨tidy, fun _ _ => id, fun _ _ present => by cases present⟩
  | cons label rest ih =>
    intro sheet tidy schedule
    cases label with
    | none =>
      obtain ⟨still, kept, all⟩ := ih sheet tidy schedule
      refine ⟨still, kept, fun i l present => all i l ?_⟩
      simpa using present
    | some packet =>
      obtain ⟨j, k⟩ := packet
      obtain ⟨here, later⟩ := schedule
      obtain ⟨still, kept, all⟩ := ih _ (tidy.arrive (inOrder sheet j k here)) later
      refine ⟨still, fun i l seen => kept i l (tidy.seen_arrive.1 seen), fun i l present => ?_⟩
      rcases List.mem_cons.mp present with isHere | inRest
      · obtain ⟨rfl, rfl⟩ := Prod.mk.inj (Option.some.inj isHere)
        exact kept i l (tidy.seen_arrive (i := i) (l := l)).2
      · exact all i l inRest

theorem Tidy.all_closed (tidy : device.Tidy resend sheet)
    (all : ∀ j sent, device.frames[j]? = some sent → ∀ k < sent.nPackets, Seen sheet j k) :
    sheet.closed = device.frames.length := by
  have closed_le := tidy.closed_le
  have opened_le := tidy.opened_le
  by_contra unfinished
  have inside : sheet.closed < device.frames.length := by omega
  have isSent := List.getElem?_eq_getElem inside
  have arrived : ∀ k < (device.frames[sheet.closed]).nPackets, k ∈ sheet.arrived sheet.closed := by
    intro k inFrame
    rcases all sheet.closed _ isSent k inFrame with late | here
    · exact absurd late (Nat.lt_irrefl _)
    · exact here
  rcases Nat.lt_or_ge sheet.closed sheet.opened with isOpen | unopened
  · have incomplete := tidy.head isOpen
    rw [(complete_iff isSent).mpr arrived] at incomplete
    cases incomplete
  · have first := arrived 0 (Nat.succ_pos _)
    rw [tidy.unopened sheet.closed unopened] at first
    cases first

end Scores

end Device

end Telegenic.Stream
