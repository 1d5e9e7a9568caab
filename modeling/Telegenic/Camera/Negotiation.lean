import Telegenic.Control.Runner
import Telegenic.Library.Stateful

/-! Settling the packet size of a stream channel. A probe writes a candidate
size with the fire-test bit and listens for the test packet; a bisection over
the probes finds the largest size that the path carries. -/

set_option autoImplicit false

namespace Telegenic.Camera

open Library Proto Control

/-! ## Register transactions -/

/-- What comes of a register transaction. A caller that sees an error does not
know whether the device executed it. -/
inductive Outcome where
  | acknowledged
  | unacknowledged (error : CameraError)
  | unexecuted (error : CameraError)
  deriving DecidableEq

/-- What one read of the stream socket gives. -/
inductive Receive where
  | datagram (fromDevice : Bool) (length : Nat)
  | failed
  deriving DecidableEq

/-- How the device and the path behave: the outcome of each transaction, and
what the socket reads give during each probe. -/
structure Surroundings where
  outcome : Nat → Outcome
  receives : (number size : Nat) → List Receive

/-- The registers of the device, and how many transactions were made. -/
structure Line where
  registers : Nat → Nat
  transactions : Nat := 0
  /-- History variable: the sizes probed. -/
  probed : List Nat := []

/-- The register file after a transaction that writes one register. -/
def Outcome.store (outcome : Outcome) (address value : Nat) (registers : Nat → Nat) : Nat → Nat :=
  match outcome with
  | .unexecuted _ => registers
  | _ => Function.update registers address value

def Outcome.result : Outcome → Except CameraError Unit
  | .acknowledged => .ok ()
  | .unacknowledged error => .error error
  | .unexecuted error => .error error

/-- `write_register` and the wait for its acknowledge. -/
def writeRegister (around : Surroundings) (address value : Nat) : Stateful Line CameraError Unit := fun s =>
  let outcome := around.outcome s.transactions
  (outcome.result,
    { s with registers := outcome.store address value s.registers, transactions := s.transactions + 1 })

/-! ## Probes -/

def packetUdpOverhead : Nat := 20 + 8

def inc : Nat := 16
def minSize : Nat := 560
def maxSize : Nat := 9152

/-- The size a datagram stands for. The buffer takes 64 KiB of it. -/
def delivered (length : Nat) : Nat := (min length 0x10000 + packetUdpOverhead) % 2 ^ 16

/-- The largest size among the test packets read, up to the probed size. -/
def listen (size : Nat) : List Receive → Option Nat → Option Nat
  | [], achieved => achieved
  | .datagram true length :: rest, achieved =>
      if delivered length ≤ size then
        let achieved := some (max (achieved.getD 0) (delivered length))
        if delivered length = size then achieved else listen size rest achieved
      -- Oversized replies are stale probes; keep draining.
      else listen size rest achieved
  | _ :: rest, achieved => listen size rest achieved

/-- Returns the size of the test packet the device managed to deliver, if
any. -/
def probe (around : Surroundings) (scpsAddr size : Nat) (s : Line) : Option Nat × Line :=
  let number := s.probed.length
  let value := size ||| Bootstrap.scpsFireTestPacket ||| Bootstrap.scpsDoNotFragment
  let (written, s) := writeRegister around scpsAddr value { s with probed := s.probed ++ [size] }
  match written with
  | .ok _ => (listen size ((around.receives number size).take 3) none, s)
  | .error _ => (none, s)

/-! ## Bisection -/

/-- A size that got through and a larger one that did not, on the grid of the
probes. -/
structure Bracket where
  good : Nat
  bad : Nat
  goodAligned : inc ∣ good
  badAligned : inc ∣ bad
  ordered : good < bad

namespace Bracket

/-- The size probed next. -/
def mid (bracket : Bracket) : Nat := bracket.good + (bracket.bad - bracket.good) / 2 / inc * inc

theorem mid_aligned (bracket : Bracket) : inc ∣ bracket.mid :=
  (Nat.dvd_add_right bracket.goodAligned).mpr (Nat.dvd_mul_left _ _)

theorem mid_between (bracket : Bracket) (wide : inc < bracket.bad - bracket.good) :
    bracket.good < bracket.mid ∧ bracket.mid < bracket.bad := by
  obtain ⟨good, bad, goodAligned, badAligned, ordered⟩ := bracket
  simp only [inc, mid] at goodAligned badAligned wide ⊢
  omega

/-- The probe got through. -/
def raise (bracket : Bracket) (wide : inc < bracket.bad - bracket.good) : Bracket :=
  ⟨bracket.mid, bracket.bad, bracket.mid_aligned, bracket.badAligned, (bracket.mid_between wide).2⟩

/-- The probe did not get through. -/
def lower (bracket : Bracket) (wide : inc < bracket.bad - bracket.good) : Bracket :=
  ⟨bracket.good, bracket.mid, bracket.goodAligned, bracket.mid_aligned, (bracket.mid_between wide).1⟩

end Bracket

/-- Returns the largest size a test packet arrived with. -/
def bisect (around : Surroundings) (scpsAddr : Nat) (bracket : Bracket) (best : Nat) (s : Line) : Nat × Line :=
  if wide : inc < bracket.bad - bracket.good then
    match probe around scpsAddr bracket.mid s with
    | (some achieved, s) => bisect around scpsAddr (bracket.raise wide) (max best achieved) s
    | (none, s) => bisect around scpsAddr (bracket.lower wide) best s
  else
    (best, s)
termination_by bracket.bad - bracket.good
decreasing_by
  · have := bracket.mid_between wide
    simp only [Bracket.raise]
    omega
  · have := bracket.mid_between wide
    simp only [Bracket.lower]
    omega

/-- A size on the grid of the probes below the largest one. -/
structure Candidate where
  size : Nat
  aligned : inc ∣ size
  small : size < maxSize

def candidates : List Candidate :=
  [⟨1488, by decide, by decide⟩, ⟨1008, by decide, by decide⟩, ⟨minSize, by decide, by decide⟩]

/-- The first candidate that gets through, with the size it arrived with. -/
def findCandidate (around : Surroundings) (scpsAddr : Nat) : List Candidate → Line → Option (Candidate × Nat) × Line
  | [], s => (none, s)
  | candidate :: rest, s =>
      match probe around scpsAddr candidate.size s with
      | (some achieved, s) => (some (candidate, achieved), s)
      | (none, s) => findCandidate around scpsAddr rest s

def searchSize (around : Surroundings) (scpsAddr : Nat) (s : Line) : Nat × Line :=
  match probe around scpsAddr maxSize s with
  | (some achieved, s) => (achieved, s)
  | (none, s) =>
      match findCandidate around scpsAddr candidates s with
      | (some (candidate, achieved), s) =>
          bisect around scpsAddr ⟨candidate.size, maxSize, candidate.aligned, by decide, candidate.small⟩
            (max 0 achieved) s
      -- The device never produced a test packet: it likely does not implement
      -- the mechanism.
      | (none, s) => (1500, s)

/-- Fire-test bisection of the packet size. -/
def negotiatePacketSize (around : Surroundings) (scpsAddr : Nat) : Stateful Line CameraError Nat := fun s =>
  let (size, s) := searchSize around scpsAddr s
  let size := max size minSize
  (do writeRegister around scpsAddr size; return size : Stateful Line CameraError Nat) s

/-! ## Any behaviour of the probes -/

section Listening

variable {size : Nat}

theorem listen_forall (holds : Nat → Prop) {reads : List Receive} {achieved : Option Nat}
    (each : ∀ length, .datagram true length ∈ reads → delivered length ≤ size → holds (delivered length))
    (start : ∀ a, achieved = some a → holds a) : ∀ a, listen size reads achieved = some a → holds a := by
  -- The larger of the best so far and the one just read.
  have larger : ∀ (achieved : Option Nat) (length : Nat), (∀ a, achieved = some a → holds a) → holds (delivered length) →
      ∀ a, some (max (achieved.getD 0) (delivered length)) = some a → holds a := by
    rintro achieved length start here a ⟨⟩
    cases achieved with
    | none => rwa [Option.getD_none, Nat.zero_max]
    | some before =>
      rw [Option.getD_some]
      rcases max_choice before (delivered length) with old | new
      · rw [old]
        exact start before rfl
      · rw [new]
        exact here
  fun_induction listen size reads achieved with
  | case1 => exact start
  | case2 length rest achieved small best exact_size =>
    exact larger achieved length start (each length List.mem_cons_self small)
  | case3 length rest achieved small best inexact ih =>
    exact ih (fun other present => each other (List.mem_cons_of_mem _ present))
      (larger achieved length start (each length List.mem_cons_self small))
  | case4 length rest achieved large ih =>
    exact ih (fun other present => each other (List.mem_cons_of_mem _ present)) start
  | case5 achieved read rest other ih =>
    exact ih (fun other present => each other (List.mem_cons_of_mem _ present)) start

theorem listen_exact {reads : List Receive} {achieved : Option Nat} {length : Nat}
    (present : .datagram true length ∈ reads) (sized : delivered length = size) (start : ∀ a, achieved = some a → a ≤ size) :
    listen size reads achieved = some size := by
  have larger : ∀ (achieved : Option Nat) (length : Nat), (∀ a, achieved = some a → a ≤ size) → delivered length ≤ size →
      max (achieved.getD 0) (delivered length) ≤ size := by
    intro achieved length start small
    cases achieved with
    | none => rwa [Option.getD_none, Nat.zero_max]
    | some before => exact max_le (start before rfl) small
  fun_induction listen size reads achieved with
  | case1 => cases present
  | case2 other rest achieved small best exact_size =>
    rw [show best = some (max _ _) from rfl, exact_size, max_eq_right]
    cases achieved with
    | none => exact Nat.zero_le _
    | some before => exact start before rfl
  | case3 other rest achieved small best inexact ih =>
    rcases List.mem_cons.mp present with here | later
    · cases here
      exact absurd sized inexact
    · exact ih later fun a isA => Option.some.inj isA ▸ larger achieved other start small
  | case4 other rest achieved large ih =>
    rcases List.mem_cons.mp present with here | later
    · cases here
      exact absurd sized.le large
    · exact ih later start
  | case5 achieved read rest other ih =>
    rcases List.mem_cons.mp present with here | later
    · exact absurd here.symm (other length)
    · exact ih later start

theorem listen_nothing {reads : List Receive} (silent : ∀ length, .datagram true length ∉ reads) : listen size reads none = none := by
  by_contra heard
  obtain ⟨a, isA⟩ := Option.ne_none_iff_exists'.mp heard
  have absurd_of : ∀ a, listen size reads none = some a → False :=
    listen_forall _ (fun length present _ => silent length present) fun _ isSome => by cases isSome
  exact absurd_of a isA

theorem eq_of_delivered {length : Nat} (large : packetUdpOverhead < delivered length) :
    length + packetUdpOverhead = delivered length := by
  simp only [delivered, packetUdpOverhead] at large ⊢
  omega

theorem delivered_eq {length : Nat} (sized : length + packetUdpOverhead = size) (small : size ≤ maxSize) :
    delivered length = size := by
  simp only [delivered, packetUdpOverhead, maxSize] at sized small ⊢
  omega

end Listening

section Searching

variable {around : Surroundings} {scpsAddr : Nat}

/-- The size of a probe. -/
def OnGrid (size : Nat) : Prop := inc ∣ size ∧ minSize ≤ size ∧ size ≤ maxSize

instance (size : Nat) : Decidable (OnGrid size) := inferInstanceAs (Decidable (_ ∧ _))

/-- A test packet arrived with the size during one of the probes. -/
def Arrived (around : Surroundings) (probed : List Nat) (size : Nat) : Prop :=
  ∃ number probe length, probed[number]? = some probe ∧
    .datagram true length ∈ (around.receives number probe).take 3 ∧ delivered length = size

theorem Arrived.append {probed : List Nat} {size : Nat} (arrived : Arrived around probed size) (more : List Nat) :
    Arrived around (probed ++ more) size := by
  obtain ⟨number, probe, length, isProbe, present, sized⟩ := arrived
  have inside := (List.getElem?_eq_some_iff.mp isProbe).1
  exact ⟨number, probe, length, by rw [List.getElem?_append_left inside, isProbe], present, sized⟩

theorem probe_probed (around : Surroundings) (scpsAddr size : Nat) (s : Line) : (probe around scpsAddr size s).2.probed = s.probed ++ [size] := by
  unfold probe
  simp only
  split <;> rfl

theorem probe_some {size achieved : Nat} {s : Line} (result : (probe around scpsAddr size s).1 = some achieved) :
    achieved ≤ size ∧ Arrived around (s.probed ++ [size]) achieved := by
  unfold probe at result
  simp only at result
  split at result
  · refine listen_forall (fun a => a ≤ size ∧ Arrived around (s.probed ++ [size]) a)
      (fun length present small => ⟨small, ?_⟩) (fun _ isSome => by cases isSome) achieved result
    exact ⟨s.probed.length, size, length, List.getElem?_concat_length, present, rfl⟩
  · cases result

/-- Where the search stands: the probes made are on the grid, and the best size
so far is one that a test packet arrived with. -/
structure Searching (around : Surroundings) (best : Nat) (s : Line) : Prop where
  grid : ∀ size ∈ s.probed, OnGrid size
  small : best ≤ maxSize
  arrived : Arrived around s.probed best

theorem grid_snoc {probed : List Nat} {size : Nat} (grid : ∀ size ∈ probed, OnGrid size) (onGrid : OnGrid size) :
    ∀ other ∈ probed ++ [size], OnGrid other := by
  intro other present
  rcases List.mem_append.mp present with old | new
  · exact grid other old
  · exact List.mem_singleton.mp new ▸ onGrid

theorem Searching.better {best achieved size : Nat} {s later : Line} (searching : Searching around best s)
    (onGrid : OnGrid size) (result : probe around scpsAddr size s = (some achieved, later)) :
    Searching around (max best achieved) later := by
  obtain ⟨small, arrived⟩ := probe_some (congrArg Prod.fst result)
  have probed := probe_probed around scpsAddr size s
  rw [result] at probed
  refine ⟨probed ▸ grid_snoc searching.grid onGrid, max_le searching.small (small.trans onGrid.2.2), ?_⟩
  rw [probed]
  rcases max_choice best achieved with old | new
  · rw [old]
    exact searching.arrived.append _
  · rw [new]
    exact arrived

theorem Searching.unanswered {best size : Nat} {s later : Line} (searching : Searching around best s)
    (onGrid : OnGrid size) (result : probe around scpsAddr size s = (none, later)) : Searching around best later := by
  have probed := probe_probed around scpsAddr size s
  rw [result] at probed
  refine ⟨probed ▸ grid_snoc searching.grid onGrid, searching.small, ?_⟩
  rw [probed]
  exact searching.arrived.append _

theorem Bracket.mid_onGrid (bracket : Bracket) (wide : inc < bracket.bad - bracket.good) (above : minSize ≤ bracket.good)
    (below : bracket.bad ≤ maxSize) : OnGrid bracket.mid := by
  have between := bracket.mid_between wide
  exact ⟨bracket.mid_aligned, by omega, by omega⟩

theorem bisect_searching (scpsAddr : Nat) (bracket : Bracket) (best : Nat) (s : Line) (above : minSize ≤ bracket.good)
    (below : bracket.bad ≤ maxSize) (searching : Searching around best s) :
    Searching around (bisect around scpsAddr bracket best s).1 (bisect around scpsAddr bracket best s).2 := by
  fun_induction bisect around scpsAddr bracket best s with
  | case1 bracket best s wide achieved later result ih =>
    have between := bracket.mid_between wide
    exact ih (by simp only [Bracket.raise]; omega) below
      (searching.better (bracket.mid_onGrid wide above below) result)
  | case2 bracket best s wide later result ih =>
    have between := bracket.mid_between wide
    exact ih above (by simp only [Bracket.lower]; omega)
      (searching.unanswered (bracket.mid_onGrid wide above below) result)
  | case3 => exact searching

theorem grid_unanswered {size : Nat} {s later : Line} (grid : ∀ size ∈ s.probed, OnGrid size) (onGrid : OnGrid size)
    (result : probe around scpsAddr size s = (none, later)) : ∀ size ∈ later.probed, OnGrid size := by
  have probed := probe_probed around scpsAddr size s
  rw [result] at probed
  exact probed ▸ grid_snoc grid onGrid

theorem searching_first {size achieved : Nat} {s later : Line} (grid : ∀ size ∈ s.probed, OnGrid size) (onGrid : OnGrid size)
    (result : probe around scpsAddr size s = (some achieved, later)) : Searching around achieved later := by
  obtain ⟨small, arrived⟩ := probe_some (congrArg Prod.fst result)
  have probed := probe_probed around scpsAddr size s
  rw [result] at probed
  exact ⟨probed ▸ grid_snoc grid onGrid, small.trans onGrid.2.2, by rw [probed]; exact arrived⟩

theorem findCandidate_searching (candidates : List Candidate) (onGrid : ∀ candidate ∈ candidates, minSize ≤ candidate.size) :
    ∀ {s later : Line} {found : Option (Candidate × Nat)}, (∀ size ∈ s.probed, OnGrid size) →
      findCandidate around scpsAddr candidates s = (found, later) →
      (∀ size ∈ later.probed, OnGrid size) ∧ ∀ candidate achieved, found = some (candidate, achieved) →
        minSize ≤ candidate.size ∧ Searching around achieved later := by
  induction candidates with
  | nil =>
    intro s later found grid result
    cases result
    exact ⟨grid, fun _ _ isFound => by cases isFound⟩
  | cons candidate rest ih =>
    intro s later found grid result
    have large := onGrid candidate List.mem_cons_self
    have here : OnGrid candidate.size := ⟨candidate.aligned, large, candidate.small.le⟩
    rw [findCandidate] at result
    split at result
    · rename_i achieved next probed
      cases result
      have searching := searching_first grid here probed
      refine ⟨searching.grid, ?_⟩
      rintro _ _ ⟨⟩
      exact ⟨large, searching⟩
    · rename_i next probed
      exact ih (fun other present => onGrid other (List.mem_cons_of_mem _ present)) (grid_unanswered grid here probed) result

theorem searchSize_spec (around : Surroundings) (scpsAddr : Nat) {s : Line} (grid : ∀ size ∈ s.probed, OnGrid size) :
    (∀ size ∈ (searchSize around scpsAddr s).2.probed, OnGrid size) ∧ (searchSize around scpsAddr s).1 ≤ maxSize ∧
      ((searchSize around scpsAddr s).1 = 1500 ∨
        Arrived around (searchSize around scpsAddr s).2.probed (searchSize around scpsAddr s).1) := by
  have largest : OnGrid maxSize := by decide
  unfold searchSize
  split
  · rename_i achieved later probed
    have searching := searching_first grid largest probed
    exact ⟨searching.grid, searching.small, .inr searching.arrived⟩
  · rename_i later probed
    have still := grid_unanswered grid largest probed
    split
    · rename_i candidate achieved next found
      obtain ⟨_, known⟩ := findCandidate_searching candidates (by decide) still found
      obtain ⟨large, searching⟩ := known candidate achieved rfl
      rw [Nat.zero_max]
      have result := bisect_searching scpsAddr
        ⟨candidate.size, maxSize, candidate.aligned, by decide, candidate.small⟩ achieved next large le_rfl searching
      exact ⟨result.grid, result.small, .inr result.arrived⟩
    · rename_i next found
      exact ⟨(findCandidate_searching candidates (by decide) still found).1, show 1500 ≤ maxSize by decide, .inl rfl⟩

end Searching

/-! ## A path that carries packets up to a limit -/

/-- Every transaction is acknowledged, and a probe brings a test packet of
exactly its size when that is within the limit, and none otherwise. -/
structure Carries (around : Surroundings) (limit : Nat) : Prop where
  acknowledged : ∀ number, around.outcome number = .acknowledged
  arrives : ∀ number size, minSize ≤ size → size ≤ limit →
    ∃ length, .datagram true length ∈ (around.receives number size).take 3 ∧ length + packetUdpOverhead = size
  lost : ∀ number size length, limit < size → .datagram true length ∉ (around.receives number size).take 3

/-- The path that brings each test packet within the limit, and nothing else. -/
def exactPath (limit : Nat) : Surroundings where
  outcome _ := .acknowledged
  receives _ size := if size ≤ limit then [.datagram true (size - packetUdpOverhead)] else []

section Carried

variable {around : Surroundings} {limit : Nat}

theorem writeRegister_acknowledged (carries : Carries around limit) (address value : Nat) (s : Line) :
    writeRegister around address value s =
      (.ok (), { s with registers := Function.update s.registers address value, transactions := s.transactions + 1 }) := by
  simp only [writeRegister, carries.acknowledged, Outcome.result, Outcome.store]

theorem probe_carried (carries : Carries around limit) (scpsAddr : Nat) {size : Nat} (onGrid : OnGrid size) (s : Line) :
    (probe around scpsAddr size s).1 = if size ≤ limit then some size else none := by
  simp only [probe, writeRegister_acknowledged carries]
  split
  · rename_i within
    obtain ⟨length, present, sized⟩ := carries.arrives s.probed.length size onGrid.2.1 within
    exact listen_exact present (delivered_eq sized onGrid.2.2) fun _ isSome => by cases isSome
  · rename_i beyond
    exact listen_nothing fun length => carries.lost _ size length (Nat.lt_of_not_le beyond)

theorem bisect_carried (carries : Carries around limit) (scpsAddr : Nat) (bracket : Bracket) (best : Nat) (s : Line)
    (above : minSize ≤ bracket.good) (below : bracket.bad ≤ maxSize) (fits : bracket.good ≤ limit)
    (exceeds : limit < bracket.bad) (isBest : best = bracket.good) :
    (bisect around scpsAddr bracket best s).1 = 16 * (limit / 16) := by
  fun_induction bisect around scpsAddr bracket best s with
  | case1 bracket best s wide achieved later result ih =>
    have between := bracket.mid_between wide
    have heard := probe_carried carries scpsAddr (bracket.mid_onGrid wide above below) s
    rw [result] at heard
    split at heard
    · rename_i within
      cases heard
      exact ih (by simp only [Bracket.raise]; omega) below within exceeds (by simp only [Bracket.raise]; omega)
    · cases heard
  | case2 bracket best s wide later result ih =>
    have between := bracket.mid_between wide
    have heard := probe_carried carries scpsAddr (bracket.mid_onGrid wide above below) s
    rw [result] at heard
    split at heard
    · cases heard
    · rename_i beyond
      exact ih above (by simp only [Bracket.lower]; omega) fits (by simp only [Bracket.lower]; omega) isBest
  | case3 bracket best s narrow =>
    have goodAligned := bracket.goodAligned
    have badAligned := bracket.badAligned
    have ordered := bracket.ordered
    simp only [inc] at goodAligned badAligned narrow
    omega

/-- The largest size that the search can find on such a path. -/
def largestSize (limit : Nat) : Nat :=
  if maxSize ≤ limit then maxSize else if minSize ≤ limit then 16 * (limit / 16) else 1500

theorem minSize_le_largestSize (limit : Nat) : minSize ≤ largestSize limit := by
  unfold largestSize
  by_cases jumbo : maxSize ≤ limit
  · rw [if_pos jumbo]
    decide
  rw [if_neg jumbo]
  by_cases fits : minSize ≤ limit
  · rw [if_pos fits]
    simp only [minSize] at fits ⊢
    omega
  · rw [if_neg fits]
    decide

theorem findCandidate_carried (carries : Carries around limit) (scpsAddr : Nat) (candidates : List Candidate)
    (large : ∀ candidate ∈ candidates, minSize ≤ candidate.size) : ∀ s : Line,
      (findCandidate around scpsAddr candidates s).1 =
        (candidates.find? (·.size ≤ limit)).map fun candidate => (candidate, candidate.size) := by
  induction candidates with
  | nil => exact fun _ => rfl
  | cons candidate rest ih =>
    intro s
    have heard := probe_carried carries scpsAddr
      ⟨candidate.aligned, large candidate List.mem_cons_self, candidate.small.le⟩ s
    rw [findCandidate]
    by_cases within : candidate.size ≤ limit
    · rw [if_pos within] at heard
      rw [List.find?_cons_of_pos (by simpa using within)]
      split
      · rename_i probed
        rw [probed] at heard
        cases heard
        rfl
      · rename_i probed
        rw [probed] at heard
        cases heard
    · rw [if_neg within] at heard
      rw [List.find?_cons_of_neg (by simpa using within)]
      split
      · rename_i probed
        rw [probed] at heard
        cases heard
      · exact ih (fun other present => large other (List.mem_cons_of_mem _ present)) _

theorem searchSize_carried (carries : Carries around limit) (scpsAddr : Nat) (s : Line) :
    (searchSize around scpsAddr s).1 = largestSize limit := by
  have heard := probe_carried carries scpsAddr (show OnGrid maxSize by decide) s
  rw [searchSize, largestSize]
  split
  · rename_i achieved later probed
    rw [probed] at heard
    split at heard
    · rename_i within
      cases heard
      rw [if_pos within]
    · cases heard
  · rename_i later probed
    rw [probed] at heard
    split at heard
    · cases heard
    rename_i beyond
    rw [if_neg beyond]
    have found := findCandidate_carried carries scpsAddr candidates (by decide) later
    split
    · rename_i candidate achieved next search
      rw [search] at found
      obtain ⟨first, isFirst, same⟩ := Option.map_eq_some_iff.mp found.symm
      cases same
      have fits : candidate.size ≤ limit := by simpa using List.find?_some isFirst
      have large : minSize ≤ candidate.size :=
        (show ∀ other ∈ candidates, minSize ≤ other.size by decide) candidate (List.mem_of_find?_eq_some isFirst)
      rw [if_pos (large.trans fits), Nat.zero_max]
      exact bisect_carried carries scpsAddr _ _ next large le_rfl fits (Nat.lt_of_not_le beyond) rfl
    · rename_i next search
      rw [search] at found
      have none_fits := List.find?_eq_none.mp (Option.map_eq_none_iff.mp found.symm)
      have least := none_fits ⟨minSize, by decide, by decide⟩ (by simp [candidates])
      rw [if_neg (by simpa using least)]

end Carried

theorem negotiatePacketSize_eq (around : Surroundings) (scpsAddr : Nat) (s : Line) :
    negotiatePacketSize around scpsAddr s =
      ((around.outcome (searchSize around scpsAddr s).2.transactions).result.map
          fun _ => max (searchSize around scpsAddr s).1 minSize,
        (writeRegister around scpsAddr (max (searchSize around scpsAddr s).1 minSize)
          (searchSize around scpsAddr s).2).2) := by
  simp only [negotiatePacketSize, Stateful.bind_apply, writeRegister]
  cases around.outcome (searchSize around scpsAddr s).2.transactions <;> rfl

example : (negotiatePacketSize (exactPath 1500) 0xd04 ⟨fun _ => 0, 0, []⟩).1.toOption = some 1488 := by decide +kernel

end Telegenic.Camera
