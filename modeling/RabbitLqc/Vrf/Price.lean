import RabbitLqc.Config
import RabbitLqc.Lib.MulDiv
import RabbitLqc.Lib.RingBuffer

/-!
# The price of a request

The coordinator contract keeps a ring of observations of the pair's cumulative price, one every few minutes, and quotes
its fee at the average between the newest one and the newest that is old enough. Both versions of the contract share
the code; they differ in the base fee.
-/

namespace RabbitLqc
open Lib MulDiv

structure Observation where
  observedAt : Nat
  price0Cumulative : Word
deriving DecidableEq

def twapMinWindowSeconds : Nat := 1800

def twapObservationCadenceSeconds : Nat := 300

def twapMaxAgeSeconds : Nat := 3600

def twapObservationRingSize : Nat := 16

/-- The observations as the contract stores them. -/
abbrev PriceRing := RingBuffer Observation

def emptyPriceRing : PriceRing := ⟨fun _ => ⟨0, 0⟩, 0, 0⟩

/-! ### The pair's answer -/

/-- What the two calls to the pair return; a failed call returns nothing. -/
structure PairAnswer where
  price0CumulativeLast : Option Bytes
  getReserves : Option Bytes

structure PairState where
  price0CumulativeLast : Word
  reserve0 : Word
  reserve1 : Word
  blockTimestampLast : BitVec 32
deriving DecidableEq

def abiEncode (words : List Nat) : Bytes := words.flatMap (fixedBytes 32)

def loadWord (data : Bytes) (place : Nat) : Word := BitVec.ofNat 256 (natOfBytes ((data.drop (32 * place)).take 32))

def PairAnswer.state (answer : PairAnswer) : Option PairState := do
  let cumulativeData ← answer.price0CumulativeLast
  let reservesData ← answer.getReserves
  let reserve0 := loadWord reservesData 0
  let reserve1 := loadWord reservesData 1
  let timestamp := loadWord reservesData 2
  if cumulativeData.length = 32 ∧ reservesData.length = 96 ∧
      reserve0.toNat < 2 ^ 112 ∧ reserve1.toNat < 2 ^ 112 ∧ timestamp.toNat < 2 ^ 32 ∧ reserve0 ≠ 0 ∧ reserve1 ≠ 0 then
    some ⟨loadWord cumulativeData 0, reserve0, reserve1, timestamp.setWidth 32⟩
  else none

/-- The cumulative price brought forward to the block; the seconds passed wrap around as the pair's own clock does. -/
def PairState.cumulativeAt (state : PairState) (timestamp : Nat) : Word :=
  let elapsed32 : BitVec 32 := BitVec.ofNat 32 timestamp - state.blockTimestampLast
  if elapsed32 = 0 then state.price0CumulativeLast
  else
    let price0X112 := (state.reserve1 <<< 112) / state.reserve0
    state.price0CumulativeLast + price0X112 * elapsed32.setWidth 256

def currentPrice0Cumulative (answer : PairAnswer) (timestamp : Nat) : Option Word :=
  answer.state.map fun state => state.cumulativeAt timestamp

namespace PriceRing

variable (ring : PriceRing)

variable {newest baseline : Observation} {older : List Observation} {timestamp : Nat}

/-- `systemObservePrice`. Without a usable answer, or too soon after the newest observation, nothing is recorded. -/
def systemObservePrice (answer : PairAnswer) (timestamp : Nat) : PriceRing :=
  match currentPrice0Cumulative answer timestamp with
  | none => ring
  | some cumulative =>
    let newest := ring.cells ring.index
    if maxUint64 < timestamp then ring
    else if ring.count = 0 then ring.start ⟨timestamp, cumulative⟩
    else if timestamp < newest.observedAt then ring
    else if timestamp - newest.observedAt < twapObservationCadenceSeconds then ring
    else ring.push twapObservationRingSize ⟨timestamp, cumulative⟩

/-! ### The billing window -/

/-- The loop back through the older observations: the change of the cumulative price and the seconds it took. -/
def billingWindowFrom (timestamp : Nat) (latest : Observation) : List Nat → Option (Word × Nat)
  | [] => none
  | offset :: rest =>
    let baseline := ring.back twapObservationRingSize offset
    if latest.observedAt < baseline.observedAt then none
    else if latest.observedAt - baseline.observedAt < twapMinWindowSeconds then billingWindowFrom timestamp latest rest
    else if timestamp < baseline.observedAt then none
    else if twapMaxAgeSeconds < timestamp - baseline.observedAt then none
    else some (latest.price0Cumulative - baseline.price0Cumulative, latest.observedAt - baseline.observedAt)

def billingWindow (timestamp : Nat) : Option (Word × Nat) :=
  let latest := ring.cells ring.index
  if ring.count < 2 then none
  else if timestamp < latest.observedAt then none
  else if twapMaxAgeSeconds < timestamp - latest.observedAt then none
  else ring.billingWindowFrom timestamp latest (List.range' 1 (ring.count - 1))

/-- What the contract keeps true of its ring: retained observations are the cadence apart. -/
structure Kept : Prop where
  wellFormed : ring.WellFormed twapObservationRingSize
  spaced : (ring.retained twapObservationRingSize).Pairwise fun newer older =>
    older.observedAt + twapObservationCadenceSeconds ≤ newer.observedAt

variable {ring}

theorem kept_empty : emptyPriceRing.Kept := ⟨⟨by decide, by decide⟩, List.Pairwise.nil⟩

theorem retained_cons (wf : ring.WellFormed twapObservationRingSize)
    (shape : ring.retained twapObservationRingSize = newest :: older) :
    ring.cells ring.index = newest ∧
      older = (List.range' 1 (ring.count - 1)).map (ring.back twapObservationRingSize) := by
  have nonzero : ring.count ≠ 0 := by
    intro zero
    rw [RingBuffer.retained, zero] at shape
    simp at shape
  obtain ⟨count, isCount⟩ := Nat.exists_eq_succ_of_ne_zero nonzero
  rw [RingBuffer.retained, isCount, List.range_eq_range', List.range'_succ, List.map_cons, List.cons.injEq] at shape
  rw [← RingBuffer.back_zero wf, shape.1, isCount]
  exact ⟨rfl, shape.2.symm⟩

theorem systemObservePrice_cases (wf : ring.WellFormed twapObservationRingSize) (answer : PairAnswer)
    (timestamp : Nat) :
    ring.systemObservePrice answer timestamp = ring ∨
    ∃ cumulative, currentPrice0Cumulative answer timestamp = some cumulative ∧
      (ring.systemObservePrice answer timestamp).WellFormed twapObservationRingSize ∧
      (∀ newest ∈ (ring.retained twapObservationRingSize).head?,
        newest.observedAt + twapObservationCadenceSeconds ≤ timestamp) ∧
      (ring.systemObservePrice answer timestamp).retained twapObservationRingSize =
        (⟨timestamp, cumulative⟩ :: ring.retained twapObservationRingSize).take twapObservationRingSize := by
  rw [systemObservePrice]
  cases answered : currentPrice0Cumulative answer timestamp with
  | none => exact Or.inl rfl
  | some cumulative =>
    dsimp only
    by_cases late : maxUint64 < timestamp
    · exact Or.inl (if_pos late)
    rw [if_neg late]
    by_cases first : ring.count = 0
    · have empty : ring.retained twapObservationRingSize = [] := by simp [RingBuffer.retained, first]
      rw [if_pos first, empty]
      refine Or.inr ⟨cumulative, rfl, RingBuffer.wellFormed_start (by decide) _, ?_, RingBuffer.retained_start _⟩
      simp
    rw [if_neg first]
    by_cases before : timestamp < (ring.cells ring.index).observedAt
    · exact Or.inl (if_pos before)
    rw [if_neg before]
    by_cases soon : timestamp - (ring.cells ring.index).observedAt < twapObservationCadenceSeconds
    · exact Or.inl (if_pos soon)
    rw [if_neg soon]
    refine Or.inr ⟨cumulative, rfl, wf.push _, ?_, RingBuffer.retained_push wf _⟩
    intro newest isNewest
    obtain ⟨older, shape⟩ := List.head?_eq_some_iff.mp isNewest
    obtain ⟨rfl, _⟩ := retained_cons wf shape
    omega

theorem Kept.systemObservePrice (kept : ring.Kept) (answer : PairAnswer) (timestamp : Nat) :
    (ring.systemObservePrice answer timestamp).Kept := by
  rcases systemObservePrice_cases kept.wellFormed answer timestamp with same | ⟨cumulative, _, wf, after, retained⟩
  · rw [same]
    exact kept
  refine ⟨wf, ?_⟩
  rw [retained]
  apply List.Pairwise.sublist (List.take_sublist _ _)
  rw [List.pairwise_cons]
  refine ⟨?_, kept.spaced⟩
  intro older member
  cases shape : ring.retained twapObservationRingSize with
  | nil =>
    rw [shape] at member
    exact absurd member List.not_mem_nil
  | cons newest rest =>
    have spaced := kept.spaced
    have newestAfter := after newest (by rw [shape]; rfl)
    rw [shape] at member spaced
    rcases List.mem_cons.mp member with rfl | inRest
    · exact newestAfter
    · have apart := List.rel_of_pairwise_cons spaced inRest
      show older.observedAt + twapObservationCadenceSeconds ≤ timestamp
      omega

/-! ### Which window is billed -/

def OldEnough (newest older : Observation) : Prop := older.observedAt + twapMinWindowSeconds ≤ newest.observedAt

instance (newest older : Observation) : Decidable (OldEnough newest older) := Nat.decLe _ _

def WithinAge (timestamp : Nat) (observation : Observation) : Prop :=
  observation.observedAt ≤ timestamp ∧ timestamp - observation.observedAt ≤ twapMaxAgeSeconds

instance (timestamp : Nat) (observation : Observation) : Decidable (WithinAge timestamp observation) :=
  inferInstanceAs (Decidable (_ ∧ _))

/-- The newest retained observation that is old enough. -/
structure IsBaseline (retained : List Observation) (newest baseline : Observation) : Prop where
  mem : baseline ∈ retained
  oldEnough : OldEnough newest baseline
  newestSuch : ∀ other ∈ retained, OldEnough newest other → other.observedAt ≤ baseline.observedAt

structure Window (ring : PriceRing) (timestamp : Nat) (newest baseline : Observation) : Prop where
  head : (ring.retained twapObservationRingSize).head? = some newest
  isBaseline : IsBaseline (ring.retained twapObservationRingSize) newest baseline
  newestAge : WithinAge timestamp newest
  baselineAge : WithinAge timestamp baseline

theorem billingWindowFrom_eq {latest : Observation} {offsets : List Nat}
    (before : ∀ offset ∈ offsets, (ring.back twapObservationRingSize offset).observedAt ≤ latest.observedAt) :
    ring.billingWindowFrom timestamp latest offsets =
      ((offsets.map (ring.back twapObservationRingSize)).find? (OldEnough latest ·)).bind fun baseline =>
        if WithinAge timestamp baseline then
          some (latest.price0Cumulative - baseline.price0Cumulative, latest.observedAt - baseline.observedAt)
        else none := by
  induction offsets with
  | nil => rfl
  | cons offset rest ih =>
    have first := before offset List.mem_cons_self
    have later := ih fun other member => before other (List.mem_cons_of_mem _ member)
    rw [billingWindowFrom, List.map_cons, if_neg (Nat.not_lt.mpr first)]
    by_cases old : OldEnough latest (ring.back twapObservationRingSize offset)
    · rw [List.find?_cons, decide_eq_true old]
      dsimp only
      rw [Option.bind_some, if_neg (by rw [OldEnough] at old; omega)]
      by_cases age : WithinAge timestamp (ring.back twapObservationRingSize offset)
      · rw [if_neg (Nat.not_lt.mpr age.1), if_neg (Nat.not_lt.mpr age.2), if_pos age]
      · rw [if_neg age]
        by_cases ahead : timestamp < (ring.back twapObservationRingSize offset).observedAt
        · rw [if_pos ahead]
        · rw [if_neg ahead, if_pos]
          by_contra young
          exact age ⟨Nat.not_lt.mp ahead, Nat.not_lt.mp young⟩
    · rw [List.find?_cons, decide_eq_false old, if_pos (by rw [OldEnough] at old; omega), later]

theorem find_baseline_iff (spaced : (newest :: older).Pairwise fun newer older =>
        older.observedAt + twapObservationCadenceSeconds ≤ newer.observedAt) :
    older.find? (OldEnough newest ·) = some baseline ↔ IsBaseline (newest :: older) newest baseline := by
  have found {first : Observation} (find : older.find? (OldEnough newest ·) = some first) :
      IsBaseline (newest :: older) newest first := by
    obtain ⟨old, front, back, rfl, young⟩ := List.find?_eq_some_iff_append.mp find
    refine ⟨by simp, of_decide_eq_true old, ?_⟩
    intro other member otherOld
    rcases List.mem_cons.mp member with rfl | member
    · exact absurd otherOld (by simp [OldEnough, twapMinWindowSeconds])
    rcases List.mem_append.mp member with inFront | inBack
    · exact absurd otherOld (by simpa using young other inFront)
    rcases List.mem_cons.mp inBack with rfl | inRest
    · exact le_rfl
    · have apart := List.rel_of_pairwise_cons (List.pairwise_append.mp (List.pairwise_cons.mp spaced).2).2.1 inRest
      omega
  constructor
  · exact found
  · intro isBaseline
    have notNewest : baseline ≠ newest := by
      rintro rfl
      exact absurd isBaseline.oldEnough (by simp [OldEnough, twapMinWindowSeconds])
    have member : baseline ∈ older := (List.mem_cons.mp isBaseline.mem).resolve_left notNewest
    have some : (older.find? (OldEnough newest ·)).isSome :=
      List.find?_isSome.mpr ⟨baseline, member, decide_eq_true isBaseline.oldEnough⟩
    obtain ⟨first, find⟩ := Option.isSome_iff_exists.mp some
    have firstBaseline := found find
    have same : first.observedAt = baseline.observedAt :=
      Nat.le_antisymm (isBaseline.newestSuch first firstBaseline.mem firstBaseline.oldEnough)
        (firstBaseline.newestSuch baseline isBaseline.mem isBaseline.oldEnough)
    have distinct : ((newest :: older).map Observation.observedAt).Nodup := by
      refine List.pairwise_map.mpr (spaced.imp ?_)
      intro newer other apart
      rw [twapObservationCadenceSeconds] at apart
      omega
    rw [find, List.inj_on_of_nodup_map distinct firstBaseline.mem isBaseline.mem same]

theorem Kept.billingWindow_eq (kept : ring.Kept) (shape : ring.retained twapObservationRingSize = newest :: older)
    (timestamp : Nat) :
    ring.billingWindow timestamp = if WithinAge timestamp newest then
        (older.find? (OldEnough newest ·)).bind fun baseline =>
          if WithinAge timestamp baseline then
            some (newest.price0Cumulative - baseline.price0Cumulative, newest.observedAt - baseline.observedAt)
          else none
      else none := by
  obtain ⟨latest, isOlder⟩ := retained_cons kept.wellFormed shape
  rw [billingWindow, latest]
  by_cases few : ring.count < 2
  · have alone : older = [] := by
      rw [isOlder, show ring.count - 1 = 0 by omega]
      rfl
    rw [if_pos few, alone]
    simp
  rw [if_neg few]
  by_cases ahead : timestamp < newest.observedAt
  · rw [if_pos ahead, if_neg fun age => absurd age.1 (Nat.not_le.mpr ahead)]
  rw [if_neg ahead]
  by_cases stale : twapMaxAgeSeconds < timestamp - newest.observedAt
  · rw [if_pos stale, if_neg fun age => absurd age.2 (Nat.not_le.mpr stale)]
  rw [if_neg stale, if_pos ⟨Nat.not_lt.mp ahead, Nat.not_lt.mp stale⟩, billingWindowFrom_eq, ← isOlder]
  intro offset member
  have inOlder : ring.back twapObservationRingSize offset ∈ older := by
    rw [isOlder]
    exact List.mem_map_of_mem member
  have spaced := kept.spaced
  rw [shape] at spaced
  exact le_trans (Nat.le_add_right _ _) (List.rel_of_pairwise_cons spaced inOlder)

theorem Kept.billingWindow_iff (kept : ring.Kept) {window : Word × Nat} :
    ring.billingWindow timestamp = some window ↔ ∃ newest baseline, Window ring timestamp newest baseline ∧
      window = (newest.price0Cumulative - baseline.price0Cumulative, newest.observedAt - baseline.observedAt) := by
  cases shape : ring.retained twapObservationRingSize with
  | nil =>
    have zero : ring.count = 0 := by simpa [RingBuffer.retained] using shape
    constructor
    · intro billed
      simp [billingWindow, zero] at billed
    · rintro ⟨newest, baseline, valid, _⟩
      have head := valid.head
      rw [shape] at head
      exact absurd head (by simp)
  | cons newest older =>
    have spaced := kept.spaced
    rw [shape] at spaced
    rw [kept.billingWindow_eq shape]
    constructor
    · intro billed
      by_cases age : WithinAge timestamp newest
      · rw [if_pos age, Option.bind_eq_some_iff] at billed
        obtain ⟨baseline, find, billed⟩ := billed
        by_cases baselineAge : WithinAge timestamp baseline
        · rw [if_pos baselineAge, Option.some.injEq] at billed
          refine ⟨newest, baseline, ⟨by rw [shape]; rfl, ?_, age, baselineAge⟩, billed.symm⟩
          rw [shape]
          exact (find_baseline_iff spaced).mp find
        · rw [if_neg baselineAge] at billed
          exact absurd billed (by simp)
      · rw [if_neg age] at billed
        exact absurd billed (by simp)
    · rintro ⟨head, baseline, valid, rfl⟩
      have isHead := valid.head
      have isBaseline := valid.isBaseline
      rw [shape] at isHead isBaseline
      obtain rfl : newest = head := by simpa using isHead
      rw [if_pos valid.newestAge, (find_baseline_iff spaced).mpr isBaseline, Option.bind_some, if_pos valid.baselineAge]

theorem Window.elapsed (window : Window ring timestamp newest baseline) :
    twapMinWindowSeconds ≤ newest.observedAt - baseline.observedAt ∧
      newest.observedAt - baseline.observedAt ≤ twapMaxAgeSeconds := by
  have old := window.isBaseline.oldEnough
  have newestAge := window.newestAge.1
  have baselineAge := window.baselineAge.2
  rw [OldEnough] at old
  omega

end PriceRing

/-! ### The quote -/

/-- What the contract reverts with. -/
inductive CoordinatorError where
  | onlySystem
  | pricingUnavailable
  | feeOverflow
  | callbackFundingUnavailable
  | requestBlockOverflow
  | requestNonceOverflow (requester : Address)
  | incorrectRequestFee (expected actual : Word)
  | requestAlreadyExists (requestId : Hash)
  | requestNotPending (requestId : Hash) (status : Nat)
  | invalidRequestFinalization (requestId : Hash)
  /-- Checked arithmetic overflowed. -/
  | arithmetic
  /-- Value sent to a function that takes none. -/
  | notPayable
deriving DecidableEq

def Coordinator.mulDivRoundingUp (x y denominator : Word) : Except CoordinatorError Word :=
  orFail .feeOverflow (MulDiv.mulDivRoundingUp x y denominator)

/-- The ceiling of the quotient whenever there is one and it fits into a word; a revert otherwise. -/
theorem Coordinator.fee_division (x y denominator : Word) :
    (∀ result, Coordinator.mulDivRoundingUp x y denominator = .ok result ↔
      denominator ≠ 0 ∧ result.toNat = x.toNat * y.toNat ⌈/⌉ denominator.toNat) ∧
    (Coordinator.mulDivRoundingUp x y denominator = .error .feeOverflow ↔
      denominator = 0 ∨ 2 ^ 256 ≤ x.toNat * y.toNat ⌈/⌉ denominator.toNat) := by
  unfold Coordinator.mulDivRoundingUp
  rw [mulDivRoundingUp_eq]
  by_cases fits : denominator ≠ 0 ∧ x.toNat * y.toNat ⌈/⌉ denominator.toNat < 2 ^ 256
  · rw [if_pos fits]
    obtain ⟨nonzero, small⟩ := fits
    refine ⟨fun result => ?_, ?_⟩
    · rw [orFail_ok_iff, Option.some.injEq, ← BitVec.toNat_inj, BitVec.toNat_ofNat, Nat.mod_eq_of_lt small]
      exact ⟨fun same => ⟨nonzero, same.symm⟩, fun both => both.2.symm⟩
    · constructor
      · intro failed
        cases failed
      · rintro (zero | large)
        · exact absurd zero nonzero
        · exact absurd small (Nat.not_lt.mpr large)
  · rw [if_neg fits]
    refine ⟨fun result => ?_, ?_⟩
    · rw [orFail_ok_iff]
      constructor
      · intro found
        cases found
      · intro both
        refine absurd ⟨both.1, ?_⟩ fits
        rw [← both.2]
        exact result.isLt
    · refine ⟨fun _ => ?_, fun _ => rfl⟩
      by_cases zero : denominator = 0
      · exact .inl zero
      · exact .inr (Nat.le_of_not_lt fun small => fits ⟨zero, small⟩)

def vrfBaseFeeTrusdBaseUnits (economicsV2 : Bool) : Word := if economicsV2 then 5000 else 1000

def q112 : Nat := 2 ^ 112

namespace PriceRing

variable (ring : PriceRing)

variable {timestamp : Nat}

def quoteProtocolFee (economicsV2 : Bool) (timestamp : Nat) : Except CoordinatorError Word := do
  let window ← orFail .pricingUnavailable (ring.billingWindow timestamp)
  ensure (window.2 * q112 < 2 ^ 256) .arithmetic
  Coordinator.mulDivRoundingUp (vrfBaseFeeTrusdBaseUnits economicsV2) window.1 (BitVec.ofNat 256 (window.2 * q112))

variable {ring}

def averageFee (economicsV2 : Bool) (newest baseline : Observation) : Nat :=
  (vrfBaseFeeTrusdBaseUnits economicsV2).toNat * (newest.price0Cumulative - baseline.price0Cumulative).toNat ⌈/⌉
    ((newest.observedAt - baseline.observedAt) * q112)

theorem baseFee_bounds (economicsV2 : Bool) :
    1 ≤ (vrfBaseFeeTrusdBaseUnits economicsV2).toNat ∧ (vrfBaseFeeTrusdBaseUnits economicsV2).toNat ≤ 5000 := by
  cases economicsV2 <;> decide

theorem denominator_bounds {elapsed : Nat} (long : twapMinWindowSeconds ≤ elapsed)
    (short : elapsed ≤ twapMaxAgeSeconds) :
    5000 ≤ elapsed * q112 ∧ elapsed * q112 < 2 ^ 256 := by
  rw [twapMinWindowSeconds] at long
  rw [twapMaxAgeSeconds] at short
  rw [q112]
  omega

theorem Kept.quoteProtocolFee_ok (kept : ring.Kept) {newest baseline : Observation}
    (window : Window ring timestamp newest baseline) (economicsV2 : Bool) :
    averageFee economicsV2 newest baseline < 2 ^ 256 ∧
    ring.quoteProtocolFee economicsV2 timestamp = .ok (BitVec.ofNat 256 (averageFee economicsV2 newest baseline)) := by
  have billed := kept.billingWindow_iff.mpr ⟨newest, baseline, window, rfl⟩
  obtain ⟨large, small⟩ := denominator_bounds window.elapsed.1 window.elapsed.2
  have base := (baseFee_bounds economicsV2).2
  have denominator : (BitVec.ofNat 256 ((newest.observedAt - baseline.observedAt) * q112)).toNat =
      (newest.observedAt - baseline.observedAt) * q112 := by
    rw [BitVec.toNat_ofNat, Nat.mod_eq_of_lt small]
  have fits : averageFee economicsV2 newest baseline < 2 ^ 256 := by
    have product : (vrfBaseFeeTrusdBaseUnits economicsV2).toNat *
        (newest.price0Cumulative - baseline.price0Cumulative).toNat ≤
        (newest.observedAt - baseline.observedAt) * q112 * (2 ^ 256 - 1) :=
      Nat.mul_le_mul (base.trans large) (Nat.le_sub_one_of_lt (BitVec.isLt _))
    have bound := (ceilDiv_le_iff_le_mul (lt_of_lt_of_le (by decide) large)).mpr product
    exact lt_of_le_of_lt bound (Nat.sub_lt (Nat.two_pow_pos 256) Nat.one_pos)
  refine ⟨fits, ?_⟩
  simp only [quoteProtocolFee, bind_ok_iff, orFail_ok_iff, ensure_ok_iff, exists_unit]
  refine ⟨_, billed, small, ?_⟩
  have nonzero : BitVec.ofNat 256 ((newest.observedAt - baseline.observedAt) * q112) ≠ 0 := by
    intro zero
    rw [zero] at denominator
    exact absurd (lt_of_lt_of_le (by decide) large) (Nat.not_lt.mpr (le_of_eq denominator.symm))
  rw [Coordinator.mulDivRoundingUp, mulDivRoundingUp_eq, denominator, if_pos ⟨nonzero, fits⟩]
  rfl

theorem Kept.quoteProtocolFee_iff (kept : ring.Kept) {economicsV2 : Bool} {fee : Word} :
    ring.quoteProtocolFee economicsV2 timestamp = .ok fee ↔
      ∃ newest baseline, Window ring timestamp newest baseline ∧
        fee.toNat = averageFee economicsV2 newest baseline := by
  constructor
  · intro quoted
    have ok := quoted
    simp only [quoteProtocolFee, bind_ok_iff, orFail_ok_iff] at ok
    obtain ⟨_, billed, _⟩ := ok
    obtain ⟨newest, baseline, window, _⟩ := kept.billingWindow_iff.mp billed
    obtain ⟨fits, isFee⟩ := kept.quoteProtocolFee_ok window economicsV2
    rw [isFee, Except.ok.injEq] at quoted
    refine ⟨newest, baseline, window, ?_⟩
    rw [← quoted, BitVec.toNat_ofNat, Nat.mod_eq_of_lt fits]
  · rintro ⟨newest, baseline, window, isFee⟩
    rw [(kept.quoteProtocolFee_ok window economicsV2).2, ← isFee, BitVec.ofNat_toNat, BitVec.setWidth_eq]

end PriceRing

/-! ### The pair -/

/-- The reserves of a pair since the second it was created, and what its accumulator was then. -/
structure PairHistory where
  created : Nat
  initial : Word
  reserve0 : Nat → Nat
  reserve1 : Nat → Nat
  reserve0_bounds : ∀ second, created ≤ second → 0 < reserve0 second ∧ reserve0 second < 2 ^ 112
  reserve1_bounds : ∀ second, created ≤ second → 0 < reserve1 second ∧ reserve1 second < 2 ^ 112

namespace PairHistory

variable (history : PairHistory)

variable {start stop : Nat}

def price0X112 (second : Nat) : Nat := history.reserve1 second * 2 ^ 112 / history.reserve0 second

/-- The accumulator goes round at 256 bits, as the pair's does. -/
def price0Cumulative (timestamp : Nat) : Word :=
  history.initial + BitVec.ofNat 256 (∑ second ∈ Finset.Ico history.created timestamp, history.price0X112 second)

/-- How the pair keeps its accumulator: brought up to the second it was last touched, with the reserves in force since
then. The pair's clock has 32 bits, so it is touched more often than that clock goes round. -/
structure Touched (timestamp : Nat) (state : PairState) (touched : Nat) : Prop where
  created : history.created ≤ touched
  past : touched ≤ timestamp
  recent : timestamp - touched < 2 ^ 32
  last : state.blockTimestampLast = BitVec.ofNat 32 touched
  stored : state.price0CumulativeLast = history.price0Cumulative touched
  unchanged : ∀ second, touched ≤ second → second < timestamp →
    history.reserve0 second = state.reserve0.toNat ∧ history.reserve1 second = state.reserve1.toNat

def Reports (timestamp : Nat) (state : PairState) : Prop := ∃ touched, history.Touched timestamp state touched

variable {history}

theorem price0X112_bounds {second : Nat} (since : history.created ≤ second) :
    1 ≤ history.price0X112 second ∧ history.price0X112 second < 2 ^ 224 := by
  obtain ⟨positive0, small0⟩ := history.reserve0_bounds second since
  obtain ⟨positive1, small1⟩ := history.reserve1_bounds second since
  rw [price0X112]
  constructor
  · rw [Nat.le_div_iff_mul_le positive0]
    omega
  · refine lt_of_le_of_lt (Nat.div_le_self _ _) ?_
    omega

theorem price0Cumulative_add (since : history.created ≤ start) (ordered : start ≤ stop) :
    history.price0Cumulative stop =
      history.price0Cumulative start + BitVec.ofNat 256
        (∑ second ∈ Finset.Ico start stop, history.price0X112 second) := by
  rw [price0Cumulative, price0Cumulative, ← Finset.sum_Ico_consecutive _ since ordered, BitVec.ofNat_add,
    BitVec.add_assoc]

theorem Reports.cumulativeAt {timestamp : Nat} {state : PairState} (reports : history.Reports timestamp state) :
    state.cumulativeAt timestamp = history.price0Cumulative timestamp := by
  obtain ⟨touched, created, past, recent, last, stored, unchanged⟩ := reports
  obtain ⟨seconds, rfl⟩ := Nat.exists_eq_add_of_le past
  rw [Nat.add_sub_cancel_left] at recent
  have elapsed : BitVec.ofNat 32 (touched + seconds) - state.blockTimestampLast = BitVec.ofNat 32 seconds := by
    rw [last, BitVec.ofNat_add]
    exact add_sub_cancel_left _ _
  rw [PairState.cumulativeAt, elapsed]
  dsimp only
  by_cases none : seconds = 0
  · rw [none, if_pos (show BitVec.ofNat 32 0 = 0 from rfl), stored, Nat.add_zero]
  have nonzero : BitVec.ofNat 32 seconds ≠ 0 := by
    intro zero
    have value := congrArg BitVec.toNat zero
    rw [BitVec.toNat_ofNat, Nat.mod_eq_of_lt recent] at value
    exact none value
  obtain ⟨same0, same1⟩ := unchanged touched le_rfl (by omega)
  have price : (state.reserve1 <<< 112) / state.reserve0 = BitVec.ofNat 256 (history.price0X112 touched) := by
    have small := (history.reserve1_bounds touched created).2
    apply BitVec.eq_of_toNat_eq
    rw [BitVec.toNat_udiv, BitVec.toNat_shiftLeft, ← same0, ← same1, Nat.shiftLeft_eq, Nat.mod_eq_of_lt (by omega),
      BitVec.toNat_ofNat, Nat.mod_eq_of_lt ((price0X112_bounds created).2.trans (by decide))]
    rfl
  have steady : ∑ second ∈ Finset.Ico touched (touched + seconds), history.price0X112 second =
      history.price0X112 touched * seconds := by
    rw [Finset.sum_congr rfl (g := fun _ => history.price0X112 touched)]
    · rw [Finset.sum_const, Nat.card_Ico, Nat.add_sub_cancel_left, smul_eq_mul, Nat.mul_comm]
    · intro second inside
      obtain ⟨since, before⟩ := Finset.mem_Ico.mp inside
      obtain ⟨second0, second1⟩ := unchanged second since before
      rw [price0X112, price0X112, second0, second1, same0, same1]
  have wide : (BitVec.ofNat 32 seconds).setWidth 256 = BitVec.ofNat 256 seconds := by
    apply BitVec.eq_of_toNat_eq
    rw [BitVec.toNat_setWidth, BitVec.toNat_ofNat, Nat.mod_eq_of_lt recent, BitVec.toNat_ofNat]
  rw [if_neg nonzero, price, stored, wide, price0Cumulative_add created (Nat.le_add_right touched seconds), steady,
    BitVec.ofNat_mul]

theorem price0Cumulative_window (since : history.created ≤ start) (before : start < stop)
    (short : stop - start ≤ twapMaxAgeSeconds) :
    0 < (history.price0Cumulative stop - history.price0Cumulative start).toNat := by
  -- What the accumulator was at the creation, and how often it went round since, cancels in the difference.
  have growth : history.price0Cumulative stop - history.price0Cumulative start =
      BitVec.ofNat 256 (∑ second ∈ Finset.Ico start stop, history.price0X112 second) := by
    rw [price0Cumulative_add since before.le]
    exact add_sub_cancel_left _ _
  have positive : 0 < ∑ second ∈ Finset.Ico start stop, history.price0X112 second :=
    Finset.sum_pos (fun second inside => (price0X112_bounds (since.trans (Finset.mem_Ico.mp inside).1)).1)
      (Finset.nonempty_Ico.mpr before)
  have small : ∑ second ∈ Finset.Ico start stop, history.price0X112 second < 2 ^ 256 := by
    have each := Finset.sum_le_card_nsmul (Finset.Ico start stop) history.price0X112 (2 ^ 224)
      fun second inside => (price0X112_bounds (since.trans (Finset.mem_Ico.mp inside).1)).2.le
    rw [Nat.card_Ico, smul_eq_mul] at each
    refine lt_of_le_of_lt (each.trans (Nat.mul_le_mul_right _ short)) (by decide)
  rw [growth, BitVec.toNat_ofNat, Nat.mod_eq_of_lt small]
  exact positive

end PairHistory

namespace PriceRing

variable {ring : PriceRing} {history : PairHistory}

variable {timestamp : Nat}

def Follows (ring : PriceRing) (history : PairHistory) : Prop :=
  ∀ observation ∈ ring.retained twapObservationRingSize,
    history.created ≤ observation.observedAt ∧
      observation.price0Cumulative = history.price0Cumulative observation.observedAt

def Answers (history : PairHistory) (answer : PairAnswer) (timestamp : Nat) : Prop :=
  ∀ state ∈ answer.state, history.Reports timestamp state

theorem Follows.systemObservePrice (kept : ring.Kept) (follows : ring.Follows history) {answer : PairAnswer}
    (answers : Answers history answer timestamp) : (ring.systemObservePrice answer timestamp).Follows history := by
  rcases systemObservePrice_cases kept.wellFormed answer timestamp with same | ⟨cumulative, answered, _, _, retained⟩
  · rw [same]
    exact follows
  intro observation member
  rw [retained] at member
  rcases List.mem_cons.mp (List.mem_of_mem_take member) with rfl | older
  · obtain ⟨state, isState, isCumulative⟩ := Option.map_eq_some_iff.mp answered
    obtain ⟨_, touched⟩ := answers state isState
    rw [← isCumulative]
    exact ⟨touched.created.trans touched.past, (answers state isState).cumulativeAt⟩
  · exact follows observation older

theorem Follows.averageFee_pos (follows : ring.Follows history) {newest baseline : Observation}
    (window : Window ring timestamp newest baseline) (economicsV2 : Bool) :
    1 ≤ averageFee economicsV2 newest baseline := by
  obtain ⟨long, short⟩ := window.elapsed
  have old := window.isBaseline.oldEnough
  have before : baseline.observedAt < newest.observedAt := by
    rw [OldEnough, twapMinWindowSeconds] at old
    omega
  obtain ⟨created, isBaseline⟩ := follows baseline window.isBaseline.mem
  have growth := PairHistory.price0Cumulative_window created before short
  rw [← (follows newest (List.mem_of_mem_head? window.head)).2, ← isBaseline] at growth
  have divisor : 0 < (newest.observedAt - baseline.observedAt) * q112 :=
    lt_of_lt_of_le (by decide) (denominator_bounds long short).1
  have product := Nat.mul_pos (baseFee_bounds economicsV2).1 growth
  rw [averageFee, Nat.one_le_iff_ne_zero]
  intro zero
  have bound := (ceilDiv_le_iff_le_mul divisor).mp (Nat.le_of_eq zero)
  rw [Nat.mul_zero] at bound
  exact absurd product (Nat.not_lt.mpr bound)

end PriceRing

end RabbitLqc
