import Telegenic.Stream.Exact

/-! Block ids come round. With 65535 frames open, the next frame has the id of
the oldest one, and its packets are taken for that one's. -/

set_option autoImplicit false

namespace Telegenic.Stream

open Library Proto Proto.Gvsp

namespace Device

variable {device : Device} {allowed : Sheet → Nat → Nat → Prop} {sheet : Sheet} {j k : Nat}

def Sound (device : Device) (sheet : Sheet) : Prop :=
  ∀ j < sheet.closed, device.complete sheet j = true

theorem Sound.closeHeads (fuel : Nat) : ∀ {sheet : Sheet}, device.Sound sheet →
    device.Sound (device.closeHeads fuel sheet) := by
  induction fuel with
  | zero => exact fun sound => sound
  | succ fuel ih =>
    intro sheet sound
    rw [Device.closeHeads]
    split
    · rename_i closes
      refine ih fun j before => ?_
      rcases Nat.lt_succ_iff_lt_or_eq.mp before with old | rfl
      · exact sound j old
      · exact closes.2
    · exact sound

theorem complete_enter (complete : device.complete sheet j = true) (i k : Nat) :
    device.complete (enter sheet i k) j = true := by
  unfold Device.complete at complete ⊢
  cases isSent : device.frames[j]? with
  | none => rw [isSent] at complete; cases complete
  | some sent =>
    rw [isSent] at complete
    simp only [List.all_eq_true, decide_eq_true_eq] at complete ⊢
    intro packet inside
    have before := complete packet inside
    by_cases here : j = i
    · subst here
      simp only [enter, Function.update_self]
      exact List.mem_append_left _ before
    · simp only [enter, Function.update_of_ne here]
      exact before

theorem Sound.arrive (sound : device.Sound sheet) (j k : Nat) : device.Sound (device.arrive sheet j k) := by
  rw [Device.arrive]
  split
  · exact sound
  split
  · exact sound
  · exact Sound.closeHeads _ fun i before => complete_enter (sound i before) j k

theorem closeHeads_arrived (fuel : Nat) : ∀ (sheet : Sheet),
    (device.closeHeads fuel sheet).arrived = sheet.arrived ∧ (device.closeHeads fuel sheet).opened = sheet.opened := by
  induction fuel with
  | zero => exact fun _ => ⟨rfl, rfl⟩
  | succ fuel ih =>
    intro sheet
    rw [Device.closeHeads]
    split
    · exact ih _
    · exact ⟨rfl, rfl⟩

theorem arrive_arrived {i l : Nat} (present : l ∈ (device.arrive sheet j k).arrived i) :
    l ∈ sheet.arrived i ∨ (i, l) = (j, k) := by
  rw [Device.arrive] at present
  split at present
  · exact .inl present
  split at present
  · exact .inl present
  · rw [(closeHeads_arrived _ _).1] at present
    by_cases here : i = j
    · subst here
      simp only [enter, Function.update_self, List.mem_append, List.mem_singleton] at present
      exact present.imp_right (congrArg (i, ·))
    · simp only [enter, Function.update_of_ne here] at present
      exact .inl present

theorem play_arrived {i l : Nat} (packets : List (Nat × Nat)) : ∀ {sheet : Sheet},
    l ∈ (device.play (packets.map some) sheet).arrived i → l ∈ sheet.arrived i ∨ (i, l) ∈ packets := by
  induction packets with
  | nil => exact fun present => .inl present
  | cons packet rest ih =>
    intro sheet present
    rcases ih present with before | inRest
    · refine (arrive_arrived before).imp_right fun here => ?_
      rw [here]
      exact List.mem_cons_self
    · exact .inr (List.mem_cons_of_mem _ inRest)

theorem Sound.play (packets : List (Nat × Nat)) : ∀ {sheet : Sheet}, device.Sound sheet →
    device.Sound (device.play (packets.map some) sheet) := by
  induction packets with
  | nil => exact fun sound => sound
  | cons packet rest ih => exact fun sound => ih (sound.arrive packet.1 packet.2)

theorem schedule_append (packets : List (Nat × Nat)) (more : List (Option (Nat × Nat))) : ∀ {sheet : Sheet},
    device.Schedule allowed (packets.map some) sheet →
    device.Schedule allowed more (device.play (packets.map some) sheet) →
    device.Schedule allowed (packets.map some ++ more) sheet := by
  induction packets with
  | nil => exact fun _ later => later
  | cons packet rest ih => exact fun first later => ⟨first.1, ih first.2 later⟩

theorem schedule_fresh {resend : Bool} (packets : List (Nat × Nat)) : ∀ {sheet : Sheet}, device.Sound sheet →
    (∀ packet ∈ packets, packet.1 < sheet.opened ∧ packet.2 ∉ sheet.arrived packet.1 ∧
      ∃ sent, device.frames[packet.1]? = some sent ∧ packet.2 < sent.nPackets) → packets.Nodup →
    device.Schedule (fun sheet j k => device.InOrder resend sheet j k ∧ device.NewId sheet j)
      (packets.map some) sheet := by
  induction packets with
  | nil => exact fun _ _ _ => trivial
  | cons packet rest ih =>
    intro sheet sound fresh distinct
    obtain ⟨j, k⟩ := packet
    obtain ⟨isOpen, unseen, sent, isSent, inside⟩ := fresh (j, k) List.mem_cons_self
    simp only at isOpen unseen isSent inside
    have unclosed : sheet.closed ≤ j := by
      by_contra closed
      exact unseen ((complete_iff isSent).mp (sound j (by omega)) k inside)
    refine ⟨⟨⟨⟨sent, isSent, inside⟩, .inr (.inl ⟨unclosed, isOpen⟩)⟩, fun isNext => by omega⟩, ?_⟩
    have opened : (device.arrive sheet j k).opened = sheet.opened := by
      rw [Device.arrive, if_neg (by omega), if_neg unseen, (closeHeads_arrived _ _).2]
      exact Nat.max_eq_left isOpen
    refine ih (sound.arrive j k) (fun packet present => ?_) distinct.of_cons
    obtain ⟨isOpen', unseen', isPacket⟩ := fresh packet (List.mem_cons_of_mem _ present)
    refine ⟨opened.symm ▸ isOpen', fun arrived => ?_, isPacket⟩
    rcases arrive_arrived arrived with before | here
    · exact unseen' before
    · exact (List.nodup_cons.mp distinct).1 (here ▸ present)

end Device

theorem unhindered_of_ample {params : StreamParams} {device : Device} {origin : Origin} (suits : device.Suits params)
    (packets : List (Nat × Nat)) : ∀ {sheet : Sheet} {w : StreamWorld}, Follows params device origin sheet w →
      device.Tidy params.resendEnabled sheet →
      device.Schedule (device.Allowed params.resendEnabled) (packets.map some) sheet →
      List.Forall₂ device.Brings (packets.map some) (device.arrivals packets) →
      packets.length < w.fabric.pool.length →
      Along params (Unhindered params) (device.arrivals packets) w := by
  induction packets with
  | nil => exact fun _ _ _ _ _ => trivial
  | cons packet rest ih =>
    intro sheet w follows tidy schedule brings ample
    obtain ⟨j, k⟩ := packet
    obtain ⟨allowed, schedule⟩ := schedule
    obtain ⟨here, brings⟩ := List.forall₂_cons.mp brings
    have unhindered : Unhindered params w (arriving (device.datagram j k)) := by
      refine ⟨Nat.zero_lt_of_lt ample, fun frame _ _ => decide_eq_false ?_⟩
      have retention := suits.retention
      omega
    obtain ⟨next, result, next_follows, pool⟩ := step_arrives follows tidy suits unhindered here allowed
    refine ⟨unhindered, ?_⟩
    have stepped : w.step params (arriving (device.datagram j k)) = .ok next := result
    simp only [stepped]
    refine ih next_follows (tidy.arrive allowed.1) schedule brings ?_
    rw [List.length_cons] at ample
    omega

def blankFrame : SentFrame := { smallFrame 0 with data := [], blockSize := 1, blockSize_pos := le_rfl }

def roundDevice : Device :=
  { extendedIds := false, firstId := 1, frames := List.replicate 65536 blankFrame, offset := fun j => j
    firstId_pos := one_le_one
    firstId_le := one_le_maxBlockId
    offset_zero := zero_eq_zero
    offset_lt := Nat.lt_succ_self
    offset_le := succ_le_halfRound }

def ampleStream : StreamParams := { smallStream with nBuffers := 2 ^ 18, resendEnabled := true }

def leaders (last : Nat) : List (Nat × Nat) := (List.range last).map fun j => (j, 0)

def trailers (last : Nat) : List (Nat × Nat) := (0, 1) :: (last, 1) :: (List.range' 1 (last - 1)).map fun j => (j, 1)

def roundPackets (last : Nat) : List (Nat × Nat) := leaders last ++ (last, 0) :: trailers last

def mistakenPackets (last : Nat) : List (Nat × Nat) := leaders last ++ (0, 0) :: trailers last

section Round

theorem roundDevice_isSent {j : Nat} (inside : j < 65536) : roundDevice.frames[j]? = some blankFrame :=
  List.getElem?_replicate_of_lt inside

theorem blankFrame_nPackets : blankFrame.nPackets = 2 := by decide

theorem parse_standard {datagram data : List UInt8} {status infos frameId : Nat}
    (isStatus : beAt? datagram 0 2 = some status) (isInfos : beAt? datagram 4 4 = some infos)
    (standard : (infos &&& extendedIdMode != 0) = false) (isFrameId : beAt? datagram 2 2 = some frameId)
    (isData : dropFrom? datagram 8 = some data) :
    GvspView.parse datagram = some ⟨⟨status⟩, false, frameId, infos &&& packetIdMask,
      .fromBits ((infos &&& contentTypeMask) >>> contentTypePos), data⟩ := by
  simp only [GvspView.parse, isStatus, isInfos, standard, Bool.false_eq_true, if_false, isFrameId, isData,
    Option.bind_eq_bind, Option.bind_some]
  rfl

theorem roundDevice_brings {j k : Nat} (inside : j < 65536) (isPacket : k < 2) :
    roundDevice.Brings (some (j, k)) (arriving (roundDevice.datagram j k)) := by
  have id_le : roundDevice.frameId j ≤ 65535 := roundDevice.frameId_le
  have spelled : beNat (beBytes 2 (roundDevice.frameId j)) = roundDevice.frameId j := by
    simp [beNat, beBytes]
    omega
  have isSent := roundDevice_isSent inside
  refine ⟨rfl, ⟨⟨0⟩, false, beNat (beBytes 2 (roundDevice.frameId j)), k, blankFrame.kind k, blankFrame.body k⟩, ?_,
    spelled, rfl, show (⟨0⟩ : Gvcp.GvcpStatus).isError = false by decide, blankFrame, isSent, isPacket, rfl, rfl, rfl⟩
  have onWire : roundDevice.datagram j k = [0, 0] ++ beBytes 2 (roundDevice.frameId j) ++
      beBytes 1 ((contentTag (blankFrame.kind k)).getD 0) ++ beBytes 3 k ++ blankFrame.body k := by
    rw [Device.datagram, isSent]
  rw [onWire]
  generalize roundDevice.frameId j = id
  interval_cases k
  · exact parse_standard rfl rfl (show (0x01000000 &&& extendedIdMode != 0) = false by decide) rfl rfl
  · exact parse_standard rfl rfl (show (0x02000001 &&& extendedIdMode != 0) = false by decide) rfl rfl

theorem roundDevice_suits : roundDevice.Suits ampleStream := by
  refine ⟨fun sent present => ?_, by decide, by decide⟩
  obtain rfl := List.eq_of_mem_replicate present
  exact ⟨by decide, by decide⟩

theorem roundDevice_image : ∀ sent ∈ roundDevice.frames, sent.payloadType = some payloadTypeImage := by
  intro sent present
  obtain rfl := List.eq_of_mem_replicate present
  decide

def led (count duplicates : Nat) : Sheet :=
  { opened := count, arrived := fun j => if j < count then [0] else [], duplicates := duplicates }

theorem led_sound (count duplicates : Nat) : roundDevice.Sound (led count duplicates) :=
  fun j before => absurd before (Nat.not_lt_zero j)

theorem led_incomplete {count duplicates : Nat} (inside : 0 < count) :
    roundDevice.complete (led count duplicates) 0 = false := by
  refine Bool.eq_false_iff.mpr fun complete => ?_
  have arrived := (Device.complete_iff (roundDevice_isSent (by decide))).mp complete 1 (by decide)
  simp [led, inside] at arrived

theorem led_arrive {count : Nat} : roundDevice.arrive (led count 0) count 0 = led (count + 1) 0 := by
  have fresh : 0 ∉ (led count 0).arrived count := by simp [led]
  have entered : Device.enter (led count 0) count 0 = led (count + 1) 0 := by
    have arrived : Function.update (led count 0).arrived count ((led count 0).arrived count ++ [0]) =
        (led (count + 1) 0).arrived := by
      funext j
      by_cases here : j = count
      · subst here
        simp [led]
      · rw [Function.update_of_ne here]
        simp only [led]
        split <;> split <;> first | rfl | omega
    rw [Device.enter, arrived]
    simp [led]
  rw [Device.arrive, if_neg (show ¬ count < (led count 0).closed from Nat.not_lt_zero _), if_neg fresh]
  simp only [entered]
  rw [Device.closeHeads_incomplete]
  exact led_incomplete (Nat.succ_pos _)

theorem range_succ_map {count : Nat} : ((List.range (count + 1)).map fun j => (j, 0)) =
    ((List.range count).map fun j => (j, 0)) ++ [(count, 0)] := by
  rw [List.range_succ, List.map_append]
  rfl

theorem play_append {device : Device} (packets more : List (Nat × Nat)) (sheet : Sheet) :
    device.play ((packets ++ more).map some) sheet =
      device.play (more.map some) (device.play (packets.map some) sheet) := by
  rw [Device.play, List.map_append, List.foldl_append]
  rfl

theorem play_leaders (count : Nat) :
    roundDevice.play (((List.range count).map fun j => (j, 0)).map some) {} = led count 0 := by
  induction count with
  | zero => rfl
  | succ count ih =>
    rw [range_succ_map, play_append, ih]
    exact led_arrive

theorem led_newId {count duplicates : Nat} (few : count < 65535) :
    roundDevice.NewId (led count duplicates) count := by
  intro _ i _ isOpen
  refine (roundDevice.frameId_ne isOpen ?_).symm
  show count < i + 65535
  omega

theorem led_inOrder {count duplicates : Nat} (inside : count < 65536) :
    roundDevice.InOrder true (led count duplicates) count 0 :=
  ⟨⟨blankFrame, roundDevice_isSent inside, by decide⟩, .inr (.inr ⟨rfl, .inl rfl⟩)⟩

theorem schedule_leaders (count : Nat) (few : count ≤ 65535) :
    roundDevice.Schedule (fun sheet j k => roundDevice.InOrder true sheet j k ∧ roundDevice.NewId sheet j)
      (((List.range count).map fun j => (j, 0)).map some) {} := by
  induction count with
  | zero => trivial
  | succ count ih =>
    rw [range_succ_map, List.map_append]
    refine Device.schedule_append _ _ (ih (by omega)) ?_
    rw [play_leaders]
    exact ⟨⟨led_inOrder (by omega), led_newId (by omega)⟩, trivial⟩

variable {last : Nat}

theorem mem_trailers (isLast : last = 65535) {packet : Nat × Nat} (present : packet ∈ trailers last) :
    packet.1 ≤ last ∧ packet.2 = 1 := by
  simp only [trailers, List.mem_cons, List.mem_map, List.mem_range'_1] at present
  rcases present with rfl | rfl | ⟨j, inside, rfl⟩
  · exact ⟨Nat.zero_le _, rfl⟩
  · exact ⟨le_rfl, rfl⟩
  · exact ⟨by simp only; omega, rfl⟩

theorem otherTrailers_nodup : ((List.range' 1 (last - 1)).map fun j => (j, 1)).Nodup :=
  (List.nodup_range' 1).map fun _ _ same => (Prod.mk.inj same).1

theorem trailers_nodup (isLast : last = 65535) : (trailers last).Nodup := by
  refine List.nodup_cons.mpr ⟨?_, List.nodup_cons.mpr ⟨?_, otherTrailers_nodup⟩⟩
  · simp
    omega
  · simp
    omega

theorem roundPackets_inside (isLast : last = 65535) {packet : Nat × Nat}
    (present : packet ∈ roundPackets last ∨ packet ∈ mistakenPackets last) : packet.1 < 65536 ∧ packet.2 < 2 := by
  have inLeaders : packet ∈ leaders last → packet.1 < 65536 ∧ packet.2 < 2 := by
    intro isLeader
    obtain ⟨j, inside, rfl⟩ := List.mem_map.mp isLeader
    rw [List.mem_range] at inside
    exact ⟨by simp only; omega, Nat.two_pos⟩
  have inTrailers : packet ∈ trailers last → packet.1 < 65536 ∧ packet.2 < 2 := by
    intro isTrailer
    obtain ⟨inside, isOne⟩ := mem_trailers isLast isTrailer
    exact ⟨by omega, by omega⟩
  simp only [roundPackets, mistakenPackets, List.mem_append, List.mem_cons] at present
  rcases present with (isLeader | rfl | isTrailer) | (isLeader | rfl | isTrailer)
  · exact inLeaders isLeader
  · exact ⟨by simp only; omega, Nat.two_pos⟩
  · exact inTrailers isTrailer
  · exact inLeaders isLeader
  · decide
  · exact inTrailers isTrailer

theorem brings_arrivals {packets : List (Nat × Nat)} (inside : ∀ packet ∈ packets, packet.1 < 65536 ∧ packet.2 < 2) :
    List.Forall₂ roundDevice.Brings (packets.map some) (roundDevice.arrivals packets) := by
  rw [Device.arrivals, List.forall₂_map_left_iff, List.forall₂_map_right_iff, List.forall₂_same]
  intro packet present
  obtain ⟨isFrame, isPacket⟩ := inside packet present
  exact roundDevice_brings isFrame isPacket

theorem arrivals_mistaken (isLast : last = 65535) :
    roundDevice.arrivals (roundPackets last) = roundDevice.arrivals (mistakenPackets last) := by
  have same : roundDevice.datagram last 0 = roundDevice.datagram 0 0 := by
    have first_sent := roundDevice_isSent (show 0 < 65536 by decide)
    have last_sent := roundDevice_isSent (show last < 65536 by omega)
    have id : roundDevice.frameId last = roundDevice.frameId 0 := by
      rw [isLast]
      decide
    rw [Device.datagram, Device.datagram, first_sent, last_sent, id]
  rw [Device.arrivals, Device.arrivals, roundPackets, mistakenPackets, List.map_append, List.map_append, List.map_cons,
    List.map_cons]
  simp only [same]

theorem roundPackets_schedule (isLast : last = 65535) :
    roundDevice.Schedule (fun sheet j k => roundDevice.InOrder true sheet j k) ((roundPackets last).map some) {} := by
  rw [roundPackets, List.map_append]
  refine Device.schedule_append (leaders last) _
    ((schedule_leaders last isLast.le).imp (fun _ _ _ both => both.1) _) ?_
  rw [leaders, play_leaders]
  refine ⟨led_inOrder (by omega), ?_⟩
  rw [led_arrive]
  refine (Device.schedule_fresh (trailers last) (led_sound _ _) (fun packet present => ?_)
    (trailers_nodup isLast)).imp (fun _ _ _ both => both.1) _
  obtain ⟨inside, isOne⟩ := mem_trailers isLast present
  rw [isOne]
  refine ⟨Nat.lt_succ_of_le inside, ?_, blankFrame, roundDevice_isSent (by omega), by decide⟩
  simp [led]

theorem arrive_firstTrailer (several : 2 ≤ last) : roundDevice.arrive (led last 1) 0 1 =
    { led last 1 with
      closed := 1
      arrived := Function.update (led last 1).arrived 0 [0, 1] } := by
  have isOpen : 0 < last := by omega
  have arrived : (led last 1).arrived 0 = [0] := if_pos isOpen
  have entered : Device.enter (led last 1) 0 1 =
      { led last 1 with arrived := Function.update (led last 1).arrived 0 [0, 1] } := by
    have opened : max (led last 1).opened (0 + 1) = last := Nat.max_eq_left isOpen
    rw [Device.enter, arrived, opened]
    rfl
  have complete : roundDevice.complete
      { led last 1 with arrived := Function.update (led last 1).arrived 0 [0, 1] } 0 = true := by
    rw [Device.complete_iff (roundDevice_isSent (by decide)), blankFrame_nPackets]
    intro k inside
    simp only [Function.update_self]
    interval_cases k <;> simp
  have incomplete : roundDevice.complete
      { led last 1 with closed := 1, arrived := Function.update (led last 1).arrived 0 [0, 1] } 1 = false := by
    refine Bool.eq_false_iff.mpr fun complete => ?_
    have arrived := (Device.complete_iff (roundDevice_isSent (by decide))).mp complete 1 (by decide)
    simp only [Function.update_of_ne Nat.one_ne_zero] at arrived
    simp [led] at arrived
  rw [Device.arrive, if_neg (show ¬ 0 < (led last 1).closed from Nat.lt_irrefl 0), if_neg (by rw [arrived]; decide)]
  simp only [entered]
  obtain ⟨more, isMore⟩ : ∃ more, last = more + 1 := ⟨last - 1, by omega⟩
  rw [show (led last 1).opened - (led last 1).closed = more + 1 from isMore, Device.closeHeads,
    if_pos ⟨isOpen, complete⟩]
  exact Device.closeHeads_incomplete incomplete

theorem mistakenPackets_schedule (isLast : last = 65535) :
    roundDevice.Schedule (fun sheet j k => roundDevice.InOrder true sheet j k ∧ roundDevice.NewId sheet j)
      ((mistakenPackets last).map some) {} := by
  have some_open : 0 < last := by omega
  rw [mistakenPackets, List.map_append]
  refine Device.schedule_append (leaders last) _ (schedule_leaders last isLast.le) ?_
  rw [leaders, play_leaders]
  -- The repeated leader, the first trailer, and then the last frame.
  have opens : ∀ duplicates k, k < 2 → roundDevice.InOrder true (led last duplicates) 0 k ∧
      roundDevice.NewId (led last duplicates) 0 := fun duplicates k isPacket =>
    ⟨⟨⟨blankFrame, roundDevice_isSent (by decide), isPacket⟩, .inr (.inl ⟨le_rfl, some_open⟩)⟩,
      fun isNext => absurd isNext some_open.ne⟩
  have repeated : roundDevice.arrive (led last 0) 0 0 = led last 1 := by
    rw [Device.arrive, if_neg (show ¬ 0 < (led last 0).closed from Nat.lt_irrefl 0),
      if_pos (show 0 ∈ (led last 0).arrived 0 by simp [led, some_open])]
    rfl
  refine ⟨opens 0 0 (by decide), ?_⟩
  rw [repeated]
  refine ⟨opens 1 1 (by decide), ?_⟩
  have sound := (led_sound last 1).arrive 0 1
  rw [arrive_firstTrailer (by omega)] at sound ⊢
  refine ⟨⟨⟨⟨blankFrame, roundDevice_isSent (by omega), by decide⟩, .inr (.inr ⟨rfl, .inl rfl⟩)⟩, ?_⟩, ?_⟩
  · intro _ i unclosed isOpen
    have unclosed : 1 ≤ i := unclosed
    have isOpen : i < last := isOpen
    refine (roundDevice.frameId_ne isOpen ?_).symm
    show last < i + 65535
    omega
  · have opened : (roundDevice.arrive { led last 1 with
        closed := 1
        arrived := Function.update (led last 1).arrived 0 [0, 1] } last 1).opened = last + 1 := by
      rw [Device.arrive, if_neg (by simp only; omega), if_neg, (Device.closeHeads_arrived _ _).2]
      · exact Nat.max_eq_right (Nat.le_succ last)
      · simp only
        rw [Function.update_of_ne (by omega)]
        simp [led]
    refine Device.schedule_fresh _ (sound.arrive last 1) (fun packet present => ?_) otherTrailers_nodup
    obtain ⟨j, inside, rfl⟩ := List.mem_map.mp present
    rw [List.mem_range'_1] at inside
    refine ⟨?_, fun arrived => ?_, blankFrame, roundDevice_isSent (by simp only; omega), by
      rw [blankFrame_nPackets]
      exact Nat.one_lt_two⟩
    · rw [opened]
      simp only
      omega
    · rcases Device.arrive_arrived arrived with before | here
      · simp only at before
        rw [Function.update_of_ne (by omega)] at before
        simp [led] at before
      · have isHere := (Prod.mk.inj here).1
        omega

theorem mistakenPackets_length (isLast : last = 65535) : (mistakenPackets last).length = 131072 := by
  simp only [mistakenPackets, leaders, trailers, List.length_append, List.length_map, List.length_range,
    List.length_cons, List.length_range']
  omega

theorem spawn_pool : (StreamWorld.spawn ampleStream).fabric.pool.length = 2 ^ 18 := by
  simp only [StreamWorld.spawn, Fabric.newPool, List.length_map, List.length_range]
  rfl

theorem mistaken_unclosed (isLast : last = 65535) :
    (roundDevice.play ((mistakenPackets last).map some) {}).closed ≤ last := by
  by_contra closed
  have sound : roundDevice.Sound (roundDevice.play ((mistakenPackets last).map some) {}) :=
    Device.Sound.play _ fun j before => absurd before (Nat.not_lt_zero j)
  have arrived := (Device.complete_iff (roundDevice_isSent (show last < 65536 by omega))).mp
    (sound last (by omega)) 0 (by decide)
  rcases Device.play_arrived (mistakenPackets last) arrived with before | present
  · cases before
  · simp only [mistakenPackets, List.mem_append, List.mem_cons] at present
    rcases present with isLeader | isFirst | isTrailer
    · obtain ⟨j, inside, same⟩ := List.mem_map.mp isLeader
      rw [List.mem_range] at inside
      have isJ := (Prod.mk.inj same).1
      omega
    · have isZero := (Prod.mk.inj isFirst).1
      omega
    · have isOne := (mem_trailers isLast isTrailer).2
      cases isOne

theorem round_loses (isLast : last = 65535) :
    Along ampleStream (Unhindered ampleStream) (roundDevice.arrivals (roundPackets last)) (.spawn ampleStream) ∧
      ∃ later, (StreamWorld.spawn ampleStream).run ampleStream (roundDevice.arrivals (roundPackets last)) = .ok later ∧
        (deliveredFrames later.journal).map Frame.outcome ≠ roundDevice.outcomes := by
  have supported : ∀ sent ∈ roundDevice.frames, sent.Supported := fun sent present =>
    .inl (roundDevice_image sent present)
  have follows : Follows ampleStream roundDevice _ {} (.spawn ampleStream) :=
    follows_start (spawn_wellformed ampleStream) rfl (spawn_admits _ _ _)
  have tidy := roundDevice.tidy_start ampleStream.resendEnabled
  have schedule : roundDevice.Schedule (roundDevice.Allowed ampleStream.resendEnabled)
      ((mistakenPackets last).map some) {} :=
    (mistakenPackets_schedule isLast).imp (fun _ _ _ both => ⟨both.1, both.2, .inl supported⟩) _
  have brings := brings_arrivals fun _ present => roundPackets_inside isLast (.inr present)
  have unhindered := unhindered_of_ample roundDevice_suits (mistakenPackets last) follows tidy schedule brings (by
    rw [mistakenPackets_length isLast, spawn_pool]
    decide)
  obtain ⟨later, result, ends⟩ := run_follows roundDevice_suits brings follows tidy schedule unhindered
  rw [arrivals_mistaken isLast]
  refine ⟨unhindered, later, result, fun same => ?_⟩
  have delivered := congrArg List.length (ends.delivered.symm.trans same)
  have unclosed := mistaken_unclosed isLast
  have frames : roundDevice.outcomes.length = 65536 := by
    rw [Device.outcomes, List.length_mapIdx]
    exact List.length_replicate
  rw [List.length_append, List.length_take, frames] at delivered
  have none_before : (StreamWorld.origin roundDevice.firstId roundDevice.extendedIds
      (.spawn ampleStream)).delivered.length = 0 := rfl
  omega

theorem roundPackets_everything (isLast : last = 65535) (j : Nat) (sent : SentFrame)
    (isSent : roundDevice.frames[j]? = some sent) (k : Nat) (isPacket : k < sent.nPackets) :
    some (j, k) ∈ (roundPackets last).map some := by
  obtain ⟨inside, _⟩ := List.getElem?_eq_some_iff.mp isSent
  have isInside : j < 65536 := by
    rw [show roundDevice.frames.length = 65536 from List.length_replicate] at inside
    exact inside
  rw [roundDevice_isSent isInside] at isSent
  cases isSent
  rw [blankFrame_nPackets] at isPacket
  refine List.mem_map_of_mem ?_
  simp only [roundPackets, leaders, trailers, List.mem_append, List.mem_map, List.mem_cons, List.mem_range,
    List.mem_range'_1, Prod.mk.injEq]
  rcases Nat.lt_or_ge j last with before | isLastFrame
  · interval_cases k
    · exact .inl ⟨j, before, rfl, rfl⟩
    · rcases Nat.eq_zero_or_pos j with first | positive
      · exact .inr (.inr (.inl ⟨first, rfl⟩))
      · exact .inr (.inr (.inr (.inr ⟨j, by omega, rfl, rfl⟩)))
  · interval_cases k
    · exact .inr (.inl ⟨by omega, rfl⟩)
    · exact .inr (.inr (.inr (.inl ⟨by omega, rfl⟩)))

theorem exists_round (isLast : last = 65535) : ∃ packets : List (Nat × Nat),
    List.Forall₂ roundDevice.Brings (packets.map some) (roundDevice.arrivals packets) ∧
      roundDevice.Schedule (fun sheet j k => roundDevice.InOrder true sheet j k) (packets.map some) {} ∧
      (∀ j sent, roundDevice.frames[j]? = some sent → ∀ k < sent.nPackets, some (j, k) ∈ packets.map some) ∧
      Along ampleStream (Unhindered ampleStream) (roundDevice.arrivals packets) (.spawn ampleStream) ∧
      ∃ later, (StreamWorld.spawn ampleStream).run ampleStream (roundDevice.arrivals packets) = .ok later ∧
        (deliveredFrames later.journal).map Frame.outcome ≠ roundDevice.outcomes :=
  ⟨roundPackets last, brings_arrivals fun _ present => roundPackets_inside isLast (.inl present),
    roundPackets_schedule isLast, roundPackets_everything isLast, round_loses isLast⟩

end Round

/-- 65536 frames whose first packets arrive in id order, each packet once, and
with a buffer for every packet: the leader of the last frame goes to the first
one, and the last frame is never delivered. -/
theorem aliased_frame_lost :
    roundDevice.Suits ampleStream ∧ roundDevice.Consecutive ∧ ampleStream.resendEnabled = true ∧
      (∀ sent ∈ roundDevice.frames, sent.payloadType = some payloadTypeImage) ∧
      ∃ packets : List (Nat × Nat),
        List.Forall₂ roundDevice.Brings (packets.map some) (roundDevice.arrivals packets) ∧
        roundDevice.Schedule (fun sheet j k => roundDevice.InOrder true sheet j k) (packets.map some) {} ∧
        (∀ j sent, roundDevice.frames[j]? = some sent → ∀ k < sent.nPackets, some (j, k) ∈ packets.map some) ∧
        Along ampleStream (Unhindered ampleStream) (roundDevice.arrivals packets) (.spawn ampleStream) ∧
        ∃ later, (StreamWorld.spawn ampleStream).run ampleStream (roundDevice.arrivals packets) = .ok later ∧
          (deliveredFrames later.journal).map Frame.outcome ≠ roundDevice.outcomes :=
  ⟨roundDevice_suits, fun _ => rfl, rfl, roundDevice_image, exists_round rfl⟩

end Telegenic.Stream
