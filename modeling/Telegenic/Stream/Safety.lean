import Telegenic.Stream.Integrity

/-! The receiver stays in bounds and conserves its buffer slots on every run,
whatever arrives and whatever the other threads do. -/

set_option autoImplicit false

namespace Telegenic.Stream

open Library Proto Proto.Gvsp

theorem packetLimit_le (params : StreamParams) : packetLimit params ≤ min (max (params.payloadSize + 2) 3) (2 ^ 20) :=
  min_le_min (le_max_left _ _) (by decide)

/-- Every run succeeds: no index, slice, subtraction or division of the
receiver is out of range. Its frames in flight are in bounds, and so is every
frame it delivers. -/
theorem receiver_stays_in_bounds (params : StreamParams) (inputs : List StreamInput) :
    ∃ later, (StreamWorld.spawn params).run params inputs = .ok later ∧
      (∀ frame ∈ later.runner.frames,
        frame.slot.packets.length = frame.nPackets ∧
        1 ≤ frame.nPackets ∧ frame.nPackets ≤ min (max (params.payloadSize + 2) 3) (2 ^ 20) ∧
        -1 ≤ frame.lastValidPacket ∧ frame.lastValidPacket < frame.nPackets ∧
        (∀ position : Nat, position ≤ frame.lastValidPacket → isReceived frame.slot.packets position = true) ∧
        isReceived frame.slot.packets (frame.lastValidPacket + 1).toNat = false ∧
        1 ≤ frame.blockSize ∧
        (frame.held.map (·.2.length)).sum ≤ params.payloadSize + maximumPacketSize ∧
        frame.receivedSize ≤ frame.dataEnd ∧ frame.dataEnd ≤ params.payloadSize) ∧
      ∀ opening frame accepted, .delivered opening frame accepted ∈ later.journal →
        frame.receivedSize ≤ frame.data.length ∧ frame.data.length ≤ params.payloadSize := by
  obtain ⟨later, result, wellformed, _, delivered⟩ := run_tracks params
    (fun _ => True) (fun frame _ => frame.receivedSize ≤ frame.data.length ∧ frame.data.length ≤ params.payloadSize)
    (fun _ => ⟨fun _ _ _ _ => trivial, fun _ _ => trivial, fun _ => trivial, fun _ _ _ _ _ => trivial⟩)
    (fun valid _ _ => by
      rw [data_length valid.inBounds]
      exact ⟨valid.inBounds.receivedSize_le, valid.inBounds.dataEnd_le⟩)
    (.of_forall inputs (.spawn params) fun _ _ _ => trivial)
  refine ⟨later, result, fun frame present => ?_, delivered⟩
  have bounds := (wellformed.frames frame present).inBounds
  refine ⟨bounds.packets_length, bounds.nPackets_pos, bounds.nPackets_le.trans (packetLimit_le params),
    bounds.prefixEnd.lower, ?_, bounds.prefixEnd.received, bounds.prefixEnd.maximal, bounds.blockSize_pos,
    bounds.held_le, bounds.receivedSize_le, bounds.dataEnd_le⟩
  rw [← bounds.packets_length]
  exact bounds.prefixEnd.upper

theorem Fabric.Accounted.shared_nil {fabric : Fabric} (accounted : fabric.Accounted [])
    (dropped : fabric.handles = []) : fabric.shared = [] := by
  refine List.eq_nil_iff_forall_not_mem.mpr fun entry present => ?_
  have held := accounted.owned entry present
  rw [dropped] at held
  cases held

theorem Fabric.tryClaim_isSome (claims : Nat) : ∀ (fabric : Fabric), claims < fabric.pool.length →
    ((fun fabric => fabric.tryClaim.1)^[claims] fabric).tryClaim.2.isSome = true := by
  induction claims with
  | zero =>
    intro fabric free
    cases pool : fabric.pool with
    | nil =>
      rw [pool] at free
      cases free
    | cons slot rest => simp [tryClaim, pool]
  | succ claims ih =>
    intro fabric free
    cases pool : fabric.pool with
    | nil =>
      rw [pool] at free
      cases free
    | cons slot rest =>
      rw [Function.iterate_succ_apply]
      refine ih _ ?_
      rw [pool, List.length_cons] at free
      simp only [tryClaim, pool]
      omega

/-- Every slot is free, in flight or owned by a delivered frame that somebody
still holds. No returned slot ever finds the pool full, and once all handles
are dropped and nothing is in flight every slot can be claimed again. -/
theorem slots_conserved (params : StreamParams) (inputs : List StreamInput) :
    ∃ later, (StreamWorld.spawn params).run params inputs = .ok later ∧
      later.fabric.pool.length + later.runner.frames.length + later.fabric.shared.length = params.nBuffers ∧
      (later.fabric.pool.map (·.key) ++ later.fabric.shared.map (·.frame.slot.key) ++
        later.runner.frames.map (·.slot.key)).Perm (List.range params.nBuffers) ∧
      (∀ entry ∈ later.fabric.shared, entry.key ∈ later.fabric.heldHandles ∨
        ∃ subscription ∈ later.fabric.subscriptions, entry.key ∈ subscription.queue) ∧
      later.fabric.lost = [] ∧
      (later.runner.frames = [] → later.fabric.heldHandles = [] →
        (∀ subscription ∈ later.fabric.subscriptions, subscription.queue = []) →
        ∀ claims < params.nBuffers,
          ((fun fabric => fabric.tryClaim.1)^[claims] later.fabric).tryClaim.2.isSome = true) := by
  obtain ⟨later, result, wellformed, _⟩ := run_preserves params (fun _ => True)
    (fun _ _ _ _ _ _ => trivial) inputs (.spawn params) (spawn_wellformed params) trivial
    (.of_forall inputs (.spawn params) fun _ _ _ => trivial)
  have keys := wellformed.keys
  simp only [Fabric.slots, List.map_append, List.map_map] at keys
  have total := keys.length_eq
  simp only [List.length_append, List.length_map, List.length_range] at total
  refine ⟨later, result, by omega, keys, ?_, wellformed.lost, ?_⟩
  · intro entry present
    have held := wellformed.accounted.owned entry present
    simpa [Fabric.handles] using held
  · intro landed dropped drained claims few
    have handles : later.fabric.handles = [] := by
      rw [Fabric.handles, dropped, List.nil_append]
      exact List.flatMap_eq_nil_iff.mpr drained
    have shared := wellformed.accounted.shared_nil handles
    rw [landed, shared] at total
    refine Fabric.tryClaim_isSome claims later.fabric ?_
    simp only [List.length_nil] at total
    omega

end Telegenic.Stream
