import RabbitLqc.Registry.Queue

/-!
# Splitting a block reward

Before claims the committee of a block shares a part of its reward at once: the same amount for every
distinct member other than the author, with what the division leaves over going to the first. The seat
path collects its credits by address; the older path adds them to the balances one by one.
-/

namespace RabbitLqc
open Lib

abbrev Uint256 := BitVec 256

structure WorkSeatRewardV1 where
  address : Address
  amount : Uint256
  deriving DecidableEq, Repr

def creditTo (credits : List WorkSeatRewardV1) (address : Address) : Nat :=
  ((credits.filter (·.address = address)).map (·.amount.toNat)).sum

def creditTotal (credits : List WorkSeatRewardV1) : Nat := (credits.map (·.amount.toNat)).sum

/-! ### Shares -/

def basisPoints (total : Uint256) (bps : Nat) : Uint256 := total * BitVec.ofNat 256 bps / 10000

def LqcConfig.workV1EngineLabCommitteeBps (config : LqcConfig) : Nat :=
  min (orDefault config.committeeRatioBps 3000) 10000

/-- The members that share: the author and the zero address do not, nor does a member twice. -/
def rewardCommitteeAddresses (author : Address) (seen : List Address) : List Address → List Address
  | [] => []
  | address :: rest =>
    if address = 0 ∨ address = author ∨ address ∈ seen then rewardCommitteeAddresses author seen rest
    else address :: rewardCommitteeAddresses author (address :: seen) rest

def equalShares (pool : Uint256) (members : List Address) : List WorkSeatRewardV1 :=
  let count := BitVec.ofNat 256 members.length
  let each := pool / count
  let remainder := pool - each * count
  match members with
  | [] => []
  | first :: rest => ⟨first, each + remainder⟩ :: rest.map (⟨·, each⟩)

def rewardShares (total : Uint256) (author : Address) (committee : List Address) (committeeBps : Nat) :
    List WorkSeatRewardV1 :=
  let producerReward := basisPoints total (10000 - committeeBps)
  let committeeReward := total - producerReward
  let members := rewardCommitteeAddresses author [] committee
  if members = [] ∨ committeeReward = 0 then [⟨author, total⟩]
  else ⟨author, producerReward⟩ :: equalShares committeeReward members

/-! ### Credits by seat -/

def addCredit (amounts : KeyedList WorkSeatRewardV1 (·.address.toNat)) (credit : WorkSeatRewardV1) :
    KeyedList WorkSeatRewardV1 (·.address.toNat) :=
  if credit.address = 0 ∨ credit.amount = 0 then amounts
  else
    let current := ((amounts.get? credit.address.toNat).map (·.amount)).getD 0
    amounts.put ⟨credit.address, current + credit.amount⟩

def workV1EngineLabSeatRewardCredits (total : Uint256) (producer : Address) (committee : List Address)
    (committeeBps : Nat) : List WorkSeatRewardV1 :=
  if total = 0 ∨ producer = 0 then []
  else
    ((rewardShares total producer committee (min committeeBps 10000)).foldl addCredit KeyedList.empty).items

/-! ### Credits on the older path -/

/-- What is added to the balances for a block that the seat path leaves, in the order it is added. -/
def LqcConfig.distributeRewards (config : LqcConfig) (total : Uint256) (coinbase : Address)
    (committee : List Address) : List WorkSeatRewardV1 :=
  if total = 0 then []
  else
    match rewardShares total coinbase committee config.workV1EngineLabCommitteeBps with
    | [] => []
    | own :: shares => own :: shares.filter (·.amount ≠ 0)

/-! ### Sums of credits -/

section Credits

variable {credits others : List WorkSeatRewardV1} {address : Address}

theorem creditTo_perm (perm : credits.Perm others) : creditTo credits address = creditTo others address :=
  ((perm.filter _).map _).sum_eq

theorem creditTotal_perm (perm : credits.Perm others) : creditTotal credits = creditTotal others :=
  (perm.map _).sum_eq

theorem creditTotal_nonzero : creditTotal (credits.filter (·.amount ≠ 0)) = creditTotal credits := by
  refine sum_map_filter fun credit _ none => ?_
  have zero : credit.amount = 0 := by simpa using none
  rw [zero]
  rfl

theorem creditTo_nonzero : creditTo (credits.filter (·.amount ≠ 0)) address = creditTo credits address := by
  unfold creditTo
  rw [List.filter_comm]
  refine sum_map_filter fun credit _ none => ?_
  have zero : credit.amount = 0 := by simpa using none
  rw [zero]
  rfl

theorem creditTo_cons {credit : WorkSeatRewardV1} :
    creditTo (credit :: credits) address = (if credit.address = address then credit.amount.toNat else 0) +
      creditTo credits address := by
  unfold creditTo
  by_cases own : credit.address = address
  · rw [List.filter_cons_of_pos (by simpa using own), List.map_cons, List.sum_cons, if_pos own]
  · rw [List.filter_cons_of_neg (by simpa using own), if_neg own, Nat.zero_add]

theorem creditTo_eq_zero (absent : address ∉ credits.map (·.address)) : creditTo credits address = 0 := by
  have none : credits.filter (·.address = address) = [] := by
    rw [List.filter_eq_nil_iff]
    intro credit member own
    exact absent (List.mem_map.mpr ⟨credit, member, by simpa using own⟩)
  unfold creditTo
  rw [none]
  rfl

theorem creditTo_of_mem (distinct : (credits.map (·.address)).Nodup) {credit : WorkSeatRewardV1}
    (member : credit ∈ credits) : creditTo credits credit.address = credit.amount.toNat := by
  induction credits with
  | nil => cases member
  | cons first rest ih =>
    obtain ⟨fresh, distinct⟩ := List.nodup_cons.mp distinct
    rw [creditTo_cons]
    rcases List.mem_cons.mp member with rfl | later
    · rw [if_pos rfl, creditTo_eq_zero fresh, Nat.add_zero]
    · have other : first.address ≠ credit.address := by
        intro same
        exact fresh (List.mem_map.mpr ⟨credit, later, same.symm⟩)
      rw [if_neg other, Nat.zero_add]
      exact ih distinct later

end Credits

/-! ### Members -/

section Members

variable {author : Address} {seen committee : List Address}

theorem mem_committeeAddresses {address : Address} :
    address ∈ rewardCommitteeAddresses author seen committee ↔
      address ∈ committee ∧ address ≠ 0 ∧ address ≠ author ∧ address ∉ seen := by
  induction committee generalizing seen with
  | nil => simp [rewardCommitteeAddresses]
  | cons head rest ih =>
    unfold rewardCommitteeAddresses
    split
    · next skipped =>
      rw [ih, List.mem_cons]
      constructor
      · rintro ⟨member, valid⟩
        exact ⟨.inr member, valid⟩
      · rintro ⟨rfl | member, valid⟩
        · exact absurd skipped (by tauto)
        · exact ⟨member, valid⟩
    · next taken =>
      rw [List.mem_cons, ih, List.mem_cons, List.mem_cons]
      by_cases here : address = head
      · subst here
        simp only [true_or, true_and, true_iff]
        tauto
      · simp only [here, false_or]

theorem committeeAddresses_nodup : (rewardCommitteeAddresses author seen committee).Nodup := by
  induction committee generalizing seen with
  | nil => exact List.nodup_nil
  | cons head rest ih =>
    unfold rewardCommitteeAddresses
    split
    · exact ih
    · refine List.nodup_cons.mpr ⟨fun again => ?_, ih⟩
      exact (mem_committeeAddresses.mp again).2.2.2 List.mem_cons_self

theorem head?_committeeAddresses :
    (rewardCommitteeAddresses author seen committee).head? =
      committee.find? fun address => address ≠ 0 ∧ address ≠ author ∧ address ∉ seen := by
  induction committee with
  | nil => rfl
  | cons head rest ih =>
    unfold rewardCommitteeAddresses
    split
    · next skipped =>
      rw [List.find?_cons_of_neg (by simpa using by tauto), ih]
    · next taken =>
      rw [List.find?_cons_of_pos (by simpa using by tauto)]
      rfl

theorem length_committeeAddresses_lt : (rewardCommitteeAddresses author seen committee).length < 2 ^ 256 := by
  have bound := @committeeAddresses_nodup author seen committee |>.length_le_card
  have count : Fintype.card Address = 2 ^ 160 := by
    rw [Fintype.card_congr BitVec.equivFin.toEquiv, Fintype.card_fin]
  rw [count] at bound
  exact lt_of_le_of_lt bound (Nat.pow_lt_pow_right Nat.one_lt_two (by decide))

end Members

/-! ### Arithmetic in words -/

section Words

variable {total pool : Uint256} {bps : Nat} {members : List Address}

theorem toNat_basisPoints_of_product (small : bps < 2 ^ 256) (product : total.toNat * bps < 2 ^ 256) :
    (basisPoints total bps).toNat = total.toNat * bps / 10000 := by
  unfold basisPoints
  rw [BitVec.toNat_udiv, BitVec.toNat_mul, BitVec.toNat_ofNat, Nat.mod_eq_of_lt small, Nat.mod_eq_of_lt product]
  rfl

theorem toNat_basisPoints (fits : total.toNat * 10000 < 2 ^ 256) (part : bps ≤ 10000) :
    (basisPoints total bps).toNat = total.toNat * bps / 10000 :=
  toNat_basisPoints_of_product (lt_of_le_of_lt part (by decide)) (lt_of_le_of_lt (Nat.mul_le_mul_left _ part) fits)

theorem basisPoints_le (fits : total.toNat * 10000 < 2 ^ 256) (part : bps ≤ 10000) : basisPoints total bps ≤ total := by
  show (basisPoints total bps).toNat ≤ total.toNat
  rw [toNat_basisPoints fits part]
  exact Nat.div_le_of_le_mul (by rw [Nat.mul_comm]; exact Nat.mul_le_mul_right _ part)

theorem equalShares_amounts {count : Nat} (positive : 0 < count) (small : count < 2 ^ 256) :
    (pool / BitVec.ofNat 256 count).toNat = pool.toNat / count ∧
      (pool / BitVec.ofNat 256 count + (pool - pool / BitVec.ofNat 256 count * BitVec.ofNat 256 count)).toNat =
        pool.toNat / count + pool.toNat % count := by
  have each : (pool / BitVec.ofNat 256 count).toNat = pool.toNat / count := by
    rw [BitVec.toNat_udiv, BitVec.toNat_ofNat, Nat.mod_eq_of_lt small]
  have below := Nat.div_mul_le_self pool.toNat count
  have allocated : (pool / BitVec.ofNat 256 count * BitVec.ofNat 256 count).toNat = pool.toNat / count * count := by
    rw [BitVec.toNat_mul, each, BitVec.toNat_ofNat, Nat.mod_eq_of_lt small,
      Nat.mod_eq_of_lt (lt_of_le_of_lt below pool.isLt)]
  have left : (pool - pool / BitVec.ofNat 256 count * BitVec.ofNat 256 count).toNat = pool.toNat % count := by
    rw [BitVec.toNat_sub_of_le (by show _ ≤ pool.toNat; rw [allocated]; exact below), allocated]
    have := Nat.div_add_mod' pool.toNat count
    omega
  have room : pool.toNat / count + pool.toNat % count ≤ pool.toNat := by
    have := Nat.div_add_mod' pool.toNat count
    have := Nat.le_mul_of_pos_right (pool.toNat / count) positive
    omega
  refine ⟨each, ?_⟩
  rw [BitVec.toNat_add, each, left, Nat.mod_eq_of_lt (lt_of_le_of_lt room pool.isLt)]

theorem equalShares_addresses : (equalShares pool members).map (·.address) = members := by
  cases members with
  | nil => rfl
  | cons first rest => simp [equalShares, Function.comp_def]

theorem equalShares_getElem? (small : members.length < 2 ^ 256) {index : Nat} {address : Address}
    (here : members[index]? = some address) :
    ∃ credit ∈ equalShares pool members, credit.address = address ∧
      credit.amount.toNat = pool.toNat / members.length + if index = 0 then pool.toNat % members.length else 0 := by
  cases members with
  | nil => cases here
  | cons first rest =>
    obtain ⟨each, more⟩ := @equalShares_amounts pool (first :: rest).length (Nat.succ_pos _) small
    cases index with
    | zero =>
      obtain rfl : first = address := Option.some.inj here
      refine ⟨_, List.mem_cons_self, rfl, ?_⟩
      rw [if_pos rfl]
      exact more
    | succ index =>
      have later : address ∈ rest := List.mem_of_getElem? here
      refine ⟨_, List.mem_cons_of_mem _ (List.mem_map.mpr ⟨address, later, rfl⟩), rfl, ?_⟩
      rw [if_neg (Nat.succ_ne_zero index), Nat.add_zero]
      exact each

theorem creditTotal_equalShares (some : members ≠ []) (small : members.length < 2 ^ 256) :
    creditTotal (equalShares pool members) = pool.toNat := by
  cases members with
  | nil => exact absurd rfl some
  | cons first rest =>
    obtain ⟨each, more⟩ := @equalShares_amounts pool (first :: rest).length (Nat.succ_pos _) small
    have whole := Nat.div_add_mod' pool.toNat (first :: rest).length
    unfold creditTotal equalShares
    dsimp only
    rw [List.map_cons, List.sum_cons, more, List.map_map, Function.comp_def]
    dsimp only
    rw [each, List.map_const', List.sum_replicate, smul_eq_mul]
    have others : pool.toNat / (first :: rest).length * (first :: rest).length =
        pool.toNat / (first :: rest).length * rest.length + pool.toNat / (first :: rest).length := Nat.mul_succ _ _
    rw [others] at whole
    rw [Nat.mul_comm rest.length]
    omega

end Words

/-! ### Both paths -/

section Paths

variable {total : Uint256} {author : Address} {committee : List Address} {bps : Nat}

theorem rewardShares_addresses_nodup : ((rewardShares total author committee bps).map (·.address)).Nodup := by
  unfold rewardShares
  dsimp only
  split
  · exact List.nodup_singleton _
  · rw [List.map_cons, equalShares_addresses]
    exact List.nodup_cons.mpr ⟨fun again => (mem_committeeAddresses.mp again).2.2.1 rfl, committeeAddresses_nodup⟩

theorem rewardShares_addresses_ne_zero (named : author ≠ 0) {credit : WorkSeatRewardV1}
    (member : credit ∈ rewardShares total author committee bps) : credit.address ≠ 0 := by
  unfold rewardShares at member
  dsimp only at member
  split at member
  · rw [List.mem_singleton.mp member]
    exact named
  · rcases List.mem_cons.mp member with rfl | share
    · exact named
    · have listed : credit.address ∈ (equalShares (total - basisPoints total (10000 - bps))
          (rewardCommitteeAddresses author [] committee)).map (·.address) := List.mem_map.mpr ⟨credit, share, rfl⟩
      rw [equalShares_addresses] at listed
      exact (mem_committeeAddresses.mp listed).2.1

theorem addCredit_items_perm {credit : WorkSeatRewardV1} {amounts : KeyedList WorkSeatRewardV1 (·.address.toNat)}
    (named : credit.address ≠ 0) (some : credit.amount ≠ 0)
    (fresh : ∀ known ∈ amounts.items, known.address ≠ credit.address) :
    (addCredit amounts credit).items.Perm (credit :: amounts.items) := by
  have absent : amounts.get? credit.address.toNat = none := by
    rw [Option.eq_none_iff_forall_ne_some]
    intro known found
    obtain ⟨listed, same⟩ := KeyedList.get?_eq_some.mp found
    exact fresh known listed (BitVec.eq_of_toNat_eq same)
  unfold addCredit
  rw [if_neg (not_or.mpr ⟨named, some⟩), absent]
  have whole : (0 : Uint256) + credit.amount = credit.amount := BitVec.zero_add _
  show (KeyedList.insert _ ⟨credit.address, 0 + credit.amount⟩ amounts.items).Perm _
  rw [whole]
  exact KeyedList.insert_perm fun known listed same => fresh known listed (BitVec.eq_of_toNat_eq same)

theorem foldl_addCredit_perm {credits : List WorkSeatRewardV1} {amounts : KeyedList WorkSeatRewardV1 (·.address.toNat)}
    (distinct : (credits.map (·.address)).Nodup) (named : ∀ credit ∈ credits, credit.address ≠ 0)
    (fresh : ∀ credit ∈ credits, ∀ known ∈ amounts.items, known.address ≠ credit.address) :
    (credits.foldl addCredit amounts).items.Perm (amounts.items ++ credits.filter (·.amount ≠ 0)) := by
  induction credits generalizing amounts with
  | nil => simp
  | cons credit rest ih =>
    obtain ⟨unlisted, distinct⟩ := List.nodup_cons.mp distinct
    obtain ⟨address, named⟩ := List.forall_mem_cons.mp named
    obtain ⟨absent, fresh⟩ := List.forall_mem_cons.mp fresh
    rw [List.foldl_cons]
    by_cases none : credit.amount = 0
    · rw [addCredit, if_pos (.inr none), List.filter_cons_of_neg (by simpa using none)]
      exact ih distinct named fresh
    · have entered := addCredit_items_perm address none absent
      rw [List.filter_cons_of_pos (by simpa using none)]
      refine (ih distinct named fun later member known listed => ?_).trans
        ((entered.append_right _).trans List.perm_middle.symm)
      rcases List.mem_cons.mp (entered.mem_iff.mp listed) with rfl | old
      · exact fun same => unlisted (List.mem_map.mpr ⟨later, member, same.symm⟩)
      · exact fresh later member known old

theorem seatRewardCredits_perm (nonzero : total ≠ 0) (named : author ≠ 0) :
    (workV1EngineLabSeatRewardCredits total author committee bps).Perm
      ((rewardShares total author committee (min bps 10000)).filter (·.amount ≠ 0)) := by
  unfold workV1EngineLabSeatRewardCredits
  rw [if_neg (not_or.mpr ⟨nonzero, named⟩)]
  exact foldl_addCredit_perm rewardShares_addresses_nodup (fun _ => rewardShares_addresses_ne_zero named)
    (fun _ _ known none => absurd none List.not_mem_nil)

theorem distributeRewards_filter {config : LqcConfig} (nonzero : total ≠ 0) :
    (config.distributeRewards total author committee).filter (·.amount ≠ 0) =
      (rewardShares total author committee config.workV1EngineLabCommitteeBps).filter (·.amount ≠ 0) := by
  unfold LqcConfig.distributeRewards
  rw [if_neg nonzero]
  split
  · next none => rw [none]
  · next own shares all => rw [all, List.filter_cons, List.filter_cons, List.filter_filter]; simp

theorem creditTotal_rewardShares (fits : total.toNat * 10000 < 2 ^ 256) :
    creditTotal (rewardShares total author committee bps) = total.toNat := by
  have part : 10000 - bps ≤ 10000 := Nat.sub_le _ _
  unfold rewardShares
  dsimp only
  split
  · simp [creditTotal]
  · next shared =>
    obtain ⟨some, _⟩ := not_or.mp shared
    have whole := @creditTotal_equalShares (total - basisPoints total (10000 - bps)) _ some length_committeeAddresses_lt
    have below := basisPoints_le fits part
    unfold creditTotal at whole ⊢
    rw [List.map_cons, List.sum_cons, whole, BitVec.toNat_sub_of_le below]
    exact Nat.add_sub_cancel' below

theorem committeeBps_bounds (config : LqcConfig) :
    0 < config.workV1EngineLabCommitteeBps ∧ config.workV1EngineLabCommitteeBps ≤ 10000 := by
  unfold LqcConfig.workV1EngineLabCommitteeBps orDefault
  refine ⟨lt_min ?_ (by decide), Nat.min_le_right _ _⟩
  split
  · decide
  · next set => exact Nat.pos_of_ne_zero set

theorem basisPoints_lt (nonzero : total ≠ 0) (fits : total.toNat * 10000 < 2 ^ 256) (ratio : 0 < bps) :
    (basisPoints total (10000 - bps)).toNat < total.toNat := by
  have positive : 0 < total.toNat := Nat.pos_of_ne_zero fun zero => nonzero (BitVec.eq_of_toNat_eq zero)
  rw [toNat_basisPoints fits (Nat.sub_le _ _), Nat.div_lt_iff_lt_mul (by decide)]
  exact Nat.mul_lt_mul_of_pos_left (by omega) positive

theorem rewardShares_of_nil (none : rewardCommitteeAddresses author [] committee = []) :
    rewardShares total author committee bps = [⟨author, total⟩] :=
  if_pos (.inl none)

theorem rewardShares_of_ne_nil (nonzero : total ≠ 0) (fits : total.toNat * 10000 < 2 ^ 256) (ratio : 0 < bps)
    (some : rewardCommitteeAddresses author [] committee ≠ []) :
    rewardShares total author committee bps = ⟨author, basisPoints total (10000 - bps)⟩ ::
      equalShares (total - basisPoints total (10000 - bps)) (rewardCommitteeAddresses author [] committee) := by
  refine if_neg (not_or.mpr ⟨some, fun zero => ?_⟩)
  have below := basisPoints_lt nonzero fits ratio
  have left := BitVec.toNat_sub_of_le (basisPoints_le fits (Nat.sub_le 10000 bps))
  rw [zero, show (0 : Uint256).toNat = 0 from rfl] at left
  omega

theorem creditTo_rewardShares_getElem? (nonzero : total ≠ 0) (fits : total.toNat * 10000 < 2 ^ 256) (ratio : 0 < bps)
    {index : Nat} {address : Address} (here : (rewardCommitteeAddresses author [] committee)[index]? = some address) :
    let members := rewardCommitteeAddresses author [] committee
    let pool := total.toNat - total.toNat * (10000 - bps) / 10000
    creditTo (rewardShares total author committee bps) address =
      pool / members.length + if index = 0 then pool % members.length else 0 := by
  intro members pool
  have all := rewardShares_of_ne_nil nonzero fits ratio (List.ne_nil_of_mem (List.mem_of_getElem? here))
  have distinct := @rewardShares_addresses_nodup total author committee bps
  obtain ⟨credit, member, rfl, amount⟩ := @equalShares_getElem? (total - basisPoints total (10000 - bps)) members
    length_committeeAddresses_lt index address here
  rw [BitVec.toNat_sub_of_le (basisPoints_le fits (Nat.sub_le 10000 bps)),
    toNat_basisPoints fits (Nat.sub_le 10000 bps)] at amount
  rw [all] at distinct ⊢
  rw [creditTo_of_mem distinct (List.mem_cons_of_mem _ member), amount]

end Paths

/-- Before claims every reward is given out whole, on both paths and to the same addresses: the author alone
where the committee has no other member, otherwise its own part to the author and equal shares of the rest to
the distinct other members, the remainder to the first of them. -/
theorem reward_conservation (config : LqcConfig) (total : Uint256) (nonzero : total ≠ 0)
    (fits : total.toNat * 10000 < 2 ^ 256) (author : Address) (named : author ≠ 0) (committee : List Address) :
    let bps := config.workV1EngineLabCommitteeBps
    let credits := workV1EngineLabSeatRewardCredits total author committee bps
    let legacy := config.distributeRewards total author committee
    let members := rewardCommitteeAddresses author [] committee
    let pool := total.toNat - total.toNat * (10000 - bps) / 10000
    (creditTotal credits = total.toNat ∧ creditTotal legacy = total.toNat) ∧
    (members.Nodup ∧ (∀ address, address ∈ members ↔ address ∈ committee ∧ address ≠ 0 ∧ address ≠ author) ∧
      members.head? = committee.find? fun address => address ≠ 0 ∧ address ≠ author) ∧
    (members = [] → creditTo credits author = total.toNat) ∧
    (members ≠ [] → creditTo credits author = total.toNat * (10000 - bps) / 10000) ∧
    (∀ index address, members[index]? = some address → creditTo credits address =
      pool / members.length + if index = 0 then pool % members.length else 0) ∧
    credits.Perm (legacy.filter (·.amount ≠ 0)) := by
  intro bps credits legacy members pool
  obtain ⟨ratio, part⟩ := committeeBps_bounds config
  have perm : credits.Perm ((rewardShares total author committee bps).filter (·.amount ≠ 0)) := by
    have collected := @seatRewardCredits_perm total author committee bps nonzero named
    rw [Nat.min_eq_left part] at collected
    exact collected
  have alike : legacy.filter (·.amount ≠ 0) = (rewardShares total author committee bps).filter (·.amount ≠ 0) :=
    distributeRewards_filter nonzero
  have given (address : Address) :
      creditTo credits address = creditTo (rewardShares total author committee bps) address := by
    rw [creditTo_perm perm, creditTo_nonzero]
  have whole : creditTotal (rewardShares total author committee bps) = total.toNat := creditTotal_rewardShares fits
  have distinct := @rewardShares_addresses_nodup total author committee bps
  refine ⟨⟨?_, ?_⟩, ⟨committeeAddresses_nodup, ?_, ?_⟩, ?_, ?_, ?_, ?_⟩
  · rw [creditTotal_perm perm, creditTotal_nonzero, whole]
  · rw [← creditTotal_nonzero, alike, creditTotal_nonzero, whole]
  · intro address
    rw [mem_committeeAddresses]
    simp
  · rw [head?_committeeAddresses]
    simp
  · intro none
    rw [given, rewardShares_of_nil none]
    simp [creditTo]
  · intro some
    have all := rewardShares_of_ne_nil nonzero fits ratio some
    rw [given, ← toNat_basisPoints fits (Nat.sub_le 10000 bps)]
    rw [all] at distinct ⊢
    exact creditTo_of_mem distinct List.mem_cons_self
  · intro index address here
    rw [given]
    exact creditTo_rewardShares_getElem? nonzero fits ratio here
  · rw [alike]
    exact perm

/-- A reward shared by the author, a member that is listed twice and another one. -/
theorem reward_conservation_shared :
    (workV1EngineLabSeatRewardCredits 101 1 [2, 0, 1, 2, 3] 3000) = [⟨1, 70⟩, ⟨2, 16⟩, ⟨3, 15⟩] ∧
      creditTotal (({} : LqcConfig).distributeRewards 101 1 [2, 0, 1, 2, 3]) = 101 :=
  ⟨by decide, (reward_conservation {} 101 (by decide) (by decide) 1 (by decide) [2, 0, 1, 2, 3]).1.2⟩

end RabbitLqc
