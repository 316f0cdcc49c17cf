import RabbitLqc.Rewards.Split
import RabbitLqc.Claims.Participation
import RabbitLqc.Work.Epoch

/-!
# Rewards for committee claims

From the third liveness fork on, a committee is paid for the claims that later blocks carry. Every
position of the committee is worth the same fixed share of its block's reward, whichever block pays
it; what is not claimed is never issued.
-/

namespace RabbitLqc
open Lib

def committeeClaimProducerBpsV1 : Nat := 7000

structure CommitteeClaimRewardResultV1 where
  credits : List WorkSeatRewardV1 := []
  committeePool : Uint256 := 0
  committeeIssued : Uint256 := 0
  committeeUnissued : Uint256 := 0
  deriving DecidableEq, Repr

def checkCommitteeSeats (seenParticipants : List Address) (seenTickets : List Hash) :
    List WorkSeatV1 → Except LqcError Unit
  | [] => .ok ()
  | seat :: rest => do
    ensure (seat.participant ≠ 0 ∧ seat.ticketHash ≠ 0) .invalidCommitteeClaimRewardV1
    ensure (seat.participant ∉ seenParticipants) .invalidCommitteeClaimRewardV1
    ensure (seat.ticketHash ∉ seenTickets) .invalidCommitteeClaimRewardV1
    checkCommitteeSeats (seat.participant :: seenParticipants) (seat.ticketHash :: seenTickets) rest

/-- The credits for claims in the order of their positions: `previousPosition` is the last one, if any,
and `targetBlock` the block of the earlier claims, or zero. -/
def creditClaims (committee : List WorkSeatV1) (perSeat : Uint256) (previousPosition : Option Nat)
    (targetBlock : Nat) (result : CommitteeClaimRewardResultV1) :
    List VerifiedCommitteeParticipationV1 → Except LqcError CommitteeClaimRewardResultV1
  | [] => .ok result
  | item :: rest => do
    let position := item.position.toNat
    ensure (item.targetBlock ≠ 0 ∧ (targetBlock ≠ 0 → item.targetBlock = targetBlock) ∧
      (∀ previous ∈ previousPosition, previous < position) ∧ committee[position]? = some item.seat)
      .invalidCommitteeClaimRewardV1
    let result := if perSeat = 0 then result
      else { result with
        credits := result.credits ++ [⟨item.seat.participant, perSeat⟩]
        committeeIssued := result.committeeIssued + perSeat }
    creditClaims committee perSeat (some position) item.targetBlock result rest

def committeeClaimRewardCreditsV1 (totalBlockReward : Uint256) (committee : List WorkSeatV1)
    (verified : List VerifiedCommitteeParticipationV1) : Except LqcError CommitteeClaimRewardResultV1 := do
  ensure (committee.length ≤ maxCommitteeParticipationsV1) .invalidCommitteeClaimRewardV1
  if committee = [] then do
    ensure (verified = []) .invalidCommitteeClaimRewardV1
    .ok {}
  else if totalBlockReward = 0 then .ok {}
  else do
    checkCommitteeSeats [] [] committee
    let committeePool := totalBlockReward - basisPoints totalBlockReward committeeClaimProducerBpsV1
    let perSeat := committeePool / BitVec.ofNat 256 committee.length
    let result ← creditClaims committee perSeat none 0 { committeePool := committeePool } verified
    .ok { result with committeeUnissued := committeePool - result.committeeIssued }

def workV1EngineLabProducerRewardForSelectionV3 (totalReward : Uint256) (selection : HybridSelection) : Uint256 :=
  if totalReward = 0 then 0
  else if selection.committee = [] then totalReward
  else basisPoints totalReward committeeClaimProducerBpsV1

/-! ### Claims of one committee -/

/-- Verified claims on a committee as one block pays them: for one target block and by position. -/
structure Payable (committee : List WorkSeatV1) (items : List VerifiedCommitteeParticipationV1) : Prop where
  target : ∃ block, block ≠ 0 ∧ ∀ item ∈ items, item.targetBlock = block
  seats : ∀ item ∈ items, committee[item.position.toNat]? = some item.seat
  ascending : items.Pairwise fun earlier later => earlier.position.toNat < later.position.toNat

section Call

variable {committee : List WorkSeatV1} {perSeat total : Uint256} {items : List VerifiedCommitteeParticipationV1}
  {result : CommitteeClaimRewardResultV1}

theorem checkCommitteeSeats_ok {participants : List Address} {tickets : List Hash} (seats : SeatSet committee)
    (newParticipants : ∀ seat ∈ committee, seat.participant ∉ participants)
    (newTickets : ∀ seat ∈ committee, seat.ticketHash ∉ tickets) :
    checkCommitteeSeats participants tickets committee = .ok () := by
  induction committee generalizing participants tickets with
  | nil => rfl
  | cons seat rest ih =>
    obtain ⟨named, later⟩ := List.forall_mem_cons.mp seats.nonzero
    obtain ⟨hash, hashes⟩ := List.nodup_cons.mp seats.hashes
    obtain ⟨participant, others⟩ := List.nodup_cons.mp seats.participants
    obtain ⟨newParticipant, newParticipants⟩ := List.forall_mem_cons.mp newParticipants
    obtain ⟨newTicket, newTickets⟩ := List.forall_mem_cons.mp newTickets
    simp only [checkCommitteeSeats, ensure_bind_ok_iff]
    refine ⟨named.symm, newParticipant, newTicket, ih ⟨later, hashes, others⟩ ?_ ?_⟩
    · intro other member again
      rcases List.mem_cons.mp again with same | old
      · exact participant (List.mem_map.mpr ⟨other, member, same⟩)
      · exact newParticipants other member old
    · intro other member again
      rcases List.mem_cons.mp again with same | old
      · exact hash (List.mem_map.mpr ⟨other, member, same⟩)
      · exact newTickets other member old

def creditedClaims (perSeat : Uint256) (items : List VerifiedCommitteeParticipationV1) : List WorkSeatRewardV1 :=
  if perSeat = 0 then [] else items.map (⟨·.seat.participant, perSeat⟩)

theorem creditClaims_ok {previous : Option Nat} {block : Nat} (payable : Payable committee items)
    (after : ∀ position ∈ previous, ∀ item ∈ items, position < item.position.toNat)
    (same : ∀ item ∈ items, block ≠ 0 → item.targetBlock = block) :
    creditClaims committee perSeat previous block result items = .ok { result with
      credits := result.credits ++ creditedClaims perSeat items
      committeeIssued := result.committeeIssued + BitVec.ofNat 256 items.length * perSeat } := by
  induction items generalizing previous block result with
  | nil => simp [creditClaims, creditedClaims]
  | cons item rest ih =>
    obtain ⟨target, nonzero, all⟩ := payable.target
    obtain ⟨here, later⟩ := List.forall_mem_cons.mp all
    obtain ⟨seat, seats⟩ := List.forall_mem_cons.mp payable.seats
    obtain ⟨first, ascending⟩ := List.pairwise_cons.mp payable.ascending
    have rest := @ih (if perSeat = 0 then result
      else { result with
        credits := result.credits ++ [⟨item.seat.participant, perSeat⟩]
        committeeIssued := result.committeeIssued + perSeat }) (some item.position.toNat) item.targetBlock
      ⟨⟨target, nonzero, later⟩, seats, ascending⟩
      (fun position last next member => by rw [← Option.some.inj last]; exact first next member)
      (fun next member _ => (later next member).trans here.symm)
    simp only [creditClaims, ensure_bind_ok_iff]
    refine ⟨⟨here ▸ nonzero, same item List.mem_cons_self,
      fun position last => after position last item List.mem_cons_self, seat⟩, rest.trans (congrArg Except.ok ?_)⟩
    unfold creditedClaims
    by_cases none : perSeat = 0
    · rw [if_pos none, if_pos none, if_pos none, none]
      simp
    · rw [if_neg none, if_neg none, if_neg none]
      simp only [List.append_assoc, List.map_cons, List.singleton_append, List.length_cons, BitVec.ofNat_add]
      congr 1
      rw [BitVec.add_assoc, BitVec.add_mul, BitVec.one_mul, BitVec.add_comm perSeat]

theorem committeeClaimRewardCreditsV1_ok (few : committee.length ≤ maxCommitteeParticipationsV1)
    (seats : SeatSet committee) (payable : Payable committee items) (some : committee ≠ []) (nonzero : total ≠ 0) :
    let pool := total - basisPoints total committeeClaimProducerBpsV1
    let perSeat := pool / BitVec.ofNat 256 committee.length
    let issued := BitVec.ofNat 256 items.length * perSeat
    committeeClaimRewardCreditsV1 total committee items =
      .ok ⟨creditedClaims perSeat items, pool, issued, pool - issued⟩ := by
  intro pool perSeat issued
  have credited := @creditClaims_ok committee perSeat items { committeePool := pool } none 0 payable
    (fun _ none => absurd none (by simp)) (fun _ _ none => absurd rfl none)
  have issue : (0 : Uint256) + issued = issued := BitVec.zero_add _
  unfold committeeClaimRewardCreditsV1
  rw [if_neg some, if_neg nonzero]
  simp only [bind_ok_iff, ensure_ok_iff, exists_unit]
  refine ⟨few, checkCommitteeSeats_ok seats (fun _ _ => List.not_mem_nil) (fun _ _ => List.not_mem_nil), _,
    credited, ?_⟩
  simp only [List.nil_append]
  rw [issue]

end Call

/-! ### Shares -/

/-- What a block leaves its committee, and what of that a position is worth. -/
def claimPool (reward : Nat) : Nat := reward - 7 * reward / 10

def claimShare (reward seats : Nat) : Nat := claimPool reward / seats

section Shares

variable {committee : List WorkSeatV1} {total : Uint256} {items : List VerifiedCommitteeParticipationV1}

theorem toNat_producerReward (fits : 7000 * total.toNat < 2 ^ 256) :
    (basisPoints total committeeClaimProducerBpsV1).toNat = 7 * total.toNat / 10 := by
  rw [Nat.mul_comm] at fits
  have part := @toNat_basisPoints_of_product total committeeClaimProducerBpsV1 (by decide) fits
  unfold committeeClaimProducerBpsV1 at part ⊢
  omega

theorem toNat_claimPool (fits : 7000 * total.toNat < 2 ^ 256) :
    (total - basisPoints total committeeClaimProducerBpsV1).toNat = claimPool total.toNat := by
  have own := toNat_producerReward fits
  have below : basisPoints total committeeClaimProducerBpsV1 ≤ total := by
    show _ ≤ total.toNat
    rw [own]
    omega
  rw [BitVec.toNat_sub_of_le below, own]
  rfl

theorem claims_length_le (seats : ∀ item ∈ items, committee[item.position.toNat]? = some item.seat)
    (distinct : (items.map (·.position.toNat)).Nodup) : items.length ≤ committee.length := by
  have within : items.map (·.position.toNat) ⊆ List.range committee.length := by
    intro position member
    obtain ⟨item, listed, rfl⟩ := List.mem_map.mp member
    exact List.mem_range.mpr (List.getElem?_eq_some_iff.mp (seats item listed)).1
  have bound := (List.subperm_of_subset distinct within).length_le
  rwa [List.length_map, List.length_range] at bound

theorem SeatSet.position_eq (seats : SeatSet committee) {left right : Nat} {first second : WorkSeatV1}
    (here : committee[left]? = some first) (there : committee[right]? = some second)
    (same : first.participant = second.participant) : left = right := by
  have inside : left < (committee.map (·.participant)).length := by
    rw [List.length_map]
    exact (List.getElem?_eq_some_iff.mp here).1
  refine (List.getElem?_inj inside seats.participants).mp ?_
  rw [List.getElem?_map, List.getElem?_map, here, there, Option.map_some, Option.map_some, same]

theorem Payable.distinct (payable : Payable committee items) : (items.map (·.position.toNat)).Nodup :=
  (List.pairwise_map.mpr payable.ascending).imp fun less => less.ne

theorem Payable.participants (payable : Payable committee items) (seats : SeatSet committee) :
    (items.map (·.seat.participant)).Nodup := by
  refine List.pairwise_map.mpr (payable.ascending.imp_of_mem fun earlier later less same => ?_)
  exact less.ne (seats.position_eq (payable.seats _ earlier) (payable.seats _ later) same)

theorem Payable.creditTo (payable : Payable committee items) (seats : SeatSet committee) {perSeat : Uint256}
    {position : Nat} {seat : WorkSeatV1} (here : committee[position]? = some seat) :
    RabbitLqc.creditTo (creditedClaims perSeat items) seat.participant =
      if ∃ item ∈ items, item.position.toNat = position then perSeat.toNat else 0 := by
  unfold creditedClaims
  by_cases none : perSeat = 0
  · rw [if_pos none, none]
    simp [RabbitLqc.creditTo]
  rw [if_neg none]
  have addresses : (items.map fun item => (⟨item.seat.participant, perSeat⟩ : WorkSeatRewardV1)).map (·.address) =
      items.map (·.seat.participant) := by
    rw [List.map_map]
    rfl
  split
  · next claimed =>
    obtain ⟨item, member, rfl⟩ := claimed
    obtain rfl : item.seat = seat := Option.some.inj ((payable.seats item member).symm.trans here)
    exact creditTo_of_mem (addresses ▸ payable.participants seats) (List.mem_map.mpr ⟨item, member, rfl⟩)
  · next unclaimed =>
    refine creditTo_eq_zero fun listed => unclaimed ?_
    rw [addresses] at listed
    obtain ⟨item, member, same⟩ := List.mem_map.mp listed
    exact ⟨item, member, seats.position_eq (payable.seats item member) here same⟩

theorem creditTotal_creditedClaims {perSeat : Uint256} :
    creditTotal (creditedClaims perSeat items) = items.length * perSeat.toNat := by
  unfold creditedClaims
  by_cases none : perSeat = 0
  · rw [if_pos none, none]
    simp [creditTotal]
  · rw [if_neg none]
    unfold creditTotal
    rw [List.map_map, Function.comp_def]
    dsimp only
    rw [List.map_const', List.sum_replicate, smul_eq_mul]

structure Paid (reward : Nat) (committee : List WorkSeatV1) (items : List VerifiedCommitteeParticipationV1)
    (result : CommitteeClaimRewardResultV1) : Prop where
  credited : ∀ position seat, committee[position]? = some seat → creditTo result.credits seat.participant =
    if ∃ item ∈ items, item.position.toNat = position then claimShare reward committee.length else 0
  pool : result.committeePool.toNat = if committee = [] then 0 else claimPool reward
  issued : result.committeeIssued.toNat = items.length * claimShare reward committee.length
  total : creditTotal result.credits = result.committeeIssued.toNat
  unissued : result.committeeIssued.toNat + result.committeeUnissued.toNat = result.committeePool.toNat

theorem Paid.nothing (none : claimShare total.toNat committee.length = 0)
    (empty : (if committee = [] then 0 else claimPool total.toNat) = 0) : Paid total.toNat committee items {} where
  credited position seat _ := by rw [none, ite_self]; rfl
  pool := empty.symm
  issued := by rw [none, Nat.mul_zero]; rfl
  total := rfl
  unissued := rfl

theorem Payable.paid (payable : Payable committee items) (few : committee.length ≤ maxCommitteeParticipationsV1)
    (seats : SeatSet committee) (fits : 7000 * total.toNat < 2 ^ 256) :
    ∃ result, committeeClaimRewardCreditsV1 total committee items = .ok result ∧
      Paid total.toNat committee items result := by
  by_cases empty : committee = []
  · have none : items = [] := List.length_eq_zero_iff.mp
      (Nat.le_zero.mp (by simpa [empty] using claims_length_le payable.seats payable.distinct))
    refine ⟨{}, ?_, .nothing (by rw [empty]; exact Nat.div_zero _) (if_pos empty)⟩
    rw [empty, none]
    rfl
  by_cases nothing : total = 0
  · refine ⟨{}, ?_, .nothing ?_ ?_⟩
    · unfold committeeClaimRewardCreditsV1
      rw [if_neg empty, if_pos nothing]
      simp only [ensure_bind_ok_iff]
      exact ⟨few, trivial⟩
    · rw [nothing]
      exact Nat.zero_div _
    · rw [nothing, if_neg empty]
      rfl
  -- From here on the call reaches its loop and every claim is worth a share.
  have ran := committeeClaimRewardCreditsV1_ok few seats payable empty nothing
  have small : committee.length < 2 ^ 256 := lt_of_le_of_lt few (by decide)
  have pool := toNat_claimPool fits
  have count := claims_length_le payable.seats payable.distinct
  obtain ⟨share, -⟩ := @equalShares_amounts (total - basisPoints total committeeClaimProducerBpsV1) committee.length
    (List.length_pos_of_ne_nil empty) small
  rw [pool] at share
  have within : items.length * claimShare total.toNat committee.length ≤ claimPool total.toNat :=
    le_trans (Nat.mul_le_mul_right _ count) (Nat.mul_div_le _ _)
  dsimp only at ran
  generalize total - basisPoints total committeeClaimProducerBpsV1 = left at ran pool share
  generalize left / BitVec.ofNat 256 committee.length = perSeat at ran share
  have issued : (BitVec.ofNat 256 items.length * perSeat).toNat =
      items.length * claimShare total.toNat committee.length := by
    rw [BitVec.toNat_mul, share, BitVec.toNat_ofNat, Nat.mod_eq_of_lt (lt_of_le_of_lt count small)]
    exact Nat.mod_eq_of_lt (lt_of_le_of_lt within (pool ▸ left.isLt))
  refine ⟨_, ran, ?_, pool.trans (if_neg empty).symm, issued, ?_, ?_⟩
  · intro position seat here
    rw [payable.creditTo seats here, share]
    rfl
  · rw [issued, creditTotal_creditedClaims, share]
    rfl
  · rw [BitVec.toNat_sub_of_le (by show _ ≤ left.toNat; rw [issued, pool]; exact within), issued, pool]
    exact Nat.add_sub_cancel' within

end Shares

/-! ### Batches -/

def PositionsApart (earlier later : List VerifiedCommitteeParticipationV1) : Prop :=
  ∀ first ∈ earlier, ∀ second ∈ later, first.position ≠ second.position

section Batches

variable {committee : List WorkSeatV1} {batches : List (List VerifiedCommitteeParticipationV1)}

theorem batches_length_le (payable : ∀ batch ∈ batches, Payable committee batch)
    (disjoint : batches.Pairwise PositionsApart) :
    batches.flatten.length ≤ committee.length := by
  refine claims_length_le ?_ ?_
  · intro item member
    obtain ⟨batch, listed, member⟩ := List.mem_flatten.mp member
    exact (payable batch listed).seats item member
  · rw [List.map_flatten]
    refine List.nodup_flatten.mpr ⟨?_, ?_⟩
    · intro positions member
      obtain ⟨batch, listed, rfl⟩ := List.mem_map.mp member
      exact (payable batch listed).distinct
    · refine List.pairwise_map.mpr (disjoint.imp fun apart => ?_)
      intro position here there
      obtain ⟨first, earlier, rfl⟩ := List.mem_map.mp here
      obtain ⟨second, later, same⟩ := List.mem_map.mp there
      exact apart first earlier second later (UInt8.toNat_inj.mp same.symm)

theorem sum_issued {reward : Nat} {results : List CommitteeClaimRewardResultV1}
    (paid : List.Forall₂ (Paid reward committee) batches results) :
    (results.map (·.committeeIssued.toNat)).sum = batches.flatten.length * claimShare reward committee.length := by
  induction paid with
  | nil => simp
  | cons first _ ih =>
    rw [List.map_cons, List.sum_cons, ih, first.issued, List.flatten_cons, List.length_append, Nat.add_mul]

end Batches

/-- However the positions of a committee are spread over blocks, every call pays each of its positions the same
share, issued and unissued make up the pool, and all of them together stay within the pool and, with what the
producer got, within the reward. -/
theorem claim_reward_split (total : Uint256) (fits : 7000 * total.toNat < 2 ^ 256) (committee : List WorkSeatV1)
    (few : committee.length ≤ maxCommitteeParticipationsV1) (seats : SeatSet committee) (selection : HybridSelection)
    (selected : selection.committee = committee.map (·.participant))
    (batches : List (List VerifiedCommitteeParticipationV1)) (payable : ∀ batch ∈ batches, Payable committee batch)
    (disjoint : batches.Pairwise PositionsApart) :
    ∃ results, batches.mapM (committeeClaimRewardCreditsV1 total committee) = .ok results ∧
      List.Forall₂ (Paid total.toNat committee) batches results ∧
      (results.map (·.committeeIssued.toNat)).sum ≤ claimPool total.toNat ∧
      (workV1EngineLabProducerRewardForSelectionV3 total selection).toNat +
        (results.map (·.committeeIssued.toNat)).sum ≤ total.toNat := by
  obtain ⟨results, ran, paid⟩ : ∃ results, batches.mapM (committeeClaimRewardCreditsV1 total committee) = .ok results ∧
      List.Forall₂ (Paid total.toNat committee) batches results := by
    clear disjoint
    induction batches with
    | nil => exact ⟨[], rfl, .nil⟩
    | cons batch rest ih =>
      obtain ⟨here, later⟩ := List.forall_mem_cons.mp payable
      obtain ⟨result, first, once⟩ := here.paid few seats fits
      obtain ⟨results, others, all⟩ := ih later
      refine ⟨result :: results, ?_, .cons once all⟩
      simp only [List.mapM_cons, bind_ok_iff, pure_ok_iff]
      exact ⟨result, first, results, others, rfl⟩
  have within : (results.map (·.committeeIssued.toNat)).sum ≤ claimPool total.toNat := by
    rw [sum_issued paid]
    exact le_trans (Nat.mul_le_mul_right _ (batches_length_le payable disjoint)) (Nat.mul_div_le _ _)
  refine ⟨results, ran, paid, within, ?_⟩
  unfold workV1EngineLabProducerRewardForSelectionV3
  rw [selected]
  split
  · next none =>
    rw [none] at within ⊢
    exact Nat.le_trans (Nat.le_of_eq (Nat.zero_add _)) within
  split
  · next empty =>
    rw [sum_issued paid, List.map_eq_nil_iff.mp empty, List.length_nil, claimShare, Nat.div_zero, Nat.mul_zero,
      Nat.add_zero]
  · rw [toNat_producerReward fits]
    unfold claimPool at within
    omega

/-- A committee of three, the claims of its first and last seat paid by different blocks. -/
theorem claim_reward_split_three : ∃ results,
    [[⟨9, 0, ⟨1, 1⟩, 5⟩], [⟨9, 2, ⟨3, 3⟩, 6⟩]].mapM (committeeClaimRewardCreditsV1 101 [⟨1, 1⟩, ⟨2, 2⟩, ⟨3, 3⟩]) =
      .ok results ∧ (results.map (·.committeeIssued.toNat)).sum ≤ claimPool 101 := by
  obtain ⟨results, ran, -, within, -⟩ := claim_reward_split 101 (by decide) [⟨1, 1⟩, ⟨2, 2⟩, ⟨3, 3⟩] (by decide)
    ⟨by decide, by decide, by decide⟩ { committee := [1, 2, 3] } rfl [[⟨9, 0, ⟨1, 1⟩, 5⟩], [⟨9, 2, ⟨3, 3⟩, 6⟩]]
    (by
      intro batch member
      have one : batch = [⟨9, 0, ⟨1, 1⟩, 5⟩] ∨ batch = [⟨9, 2, ⟨3, 3⟩, 6⟩] := by simpa using member
      rcases one with rfl | rfl
      · exact ⟨⟨9, by decide, by decide⟩, by decide, by decide⟩
      · exact ⟨⟨9, by decide, by decide⟩, by decide, by decide⟩)
    (by simp [PositionsApart])
  exact ⟨results, ran, within⟩

end RabbitLqc
