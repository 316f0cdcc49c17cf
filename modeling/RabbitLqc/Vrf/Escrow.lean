import RabbitLqc.Lib.Balances
import RabbitLqc.Vrf.Coordinator

/-!
# Fees in escrow

What requesters pay stays with the coordinator until their request is finalized; then the state processor takes the fee
out of the coordinator's balance and divides it between the block's producer, the members that took part and the
allocation. The contract itself never sends value, so its balance covers every request still pending.
-/

namespace RabbitLqc
open Lib MulDiv Balances

def rabbitVRFAllocationV1Address : Address := 0x62B39E4f8e56a10Fc1CA65A7da1c46A02E9DB6e2

structure RabbitVRFValidatedFinalization where
  requestID : Hash
  epoch : UInt64
  round : UInt64
  randomness : Hash
  proofHash : Hash
  participants : List Address

inductive SettlementError where
  | invalidProducer
  | invalidFinalization
  | nonCanonicalOrder
  | invalidParticipant
  | duplicateParticipant
  | systemCallFailed (requestID : Hash) (error : CoordinatorError)
  | feeReturn (requestID : Hash)
  | zeroFee
  | insufficientBalance
  | invalidSplitInput
  | invalidSplitConservation
deriving DecidableEq

/-! ### Dividing a fee -/

structure FeeSplit where
  producer : Nat
  eachParticipant : Nat
  rabbitAllocation : Nat

def rabbitVRFBPSDenominatorV1 : Nat := 10000

/-- The producer and the participants get their parts rounded down, the allocation all the rest. -/
def splitProtocolFee (producerBPS participantsBPS fee participantCount : Nat) : Except SettlementError FeeSplit := do
  ensure (0 < participantCount) .invalidSplitInput
  let producer := fee * producerBPS / rabbitVRFBPSDenominatorV1
  let participantPool := fee * participantsBPS / rabbitVRFBPSDenominatorV1
  let eachParticipant := participantPool / participantCount
  let paidParticipants := eachParticipant * participantCount
  ensure (producer + paidParticipants ≤ fee) .invalidSplitConservation
  .ok ⟨producer, eachParticipant, fee - producer - paidParticipants⟩

def rabbitVRFSplitProtocolFeeV1 : Nat → Nat → Except SettlementError FeeSplit := splitProtocolFee 3000 5000

def rabbitVRFSplitProtocolFeeV2 : Nat → Nat → Except SettlementError FeeSplit := splitProtocolFee 2000 3000

def LqcConfig.isRabbitVRFEconomicsV2 (config : LqcConfig) (block : Nat) : Bool :=
  config.isRabbitVRF block && forkActive config.vrfEconomicsV2Block block

def LqcConfig.splitFee (config : LqcConfig) (block : Nat) : Nat → Nat → Except SettlementError FeeSplit :=
  if config.isRabbitVRFEconomicsV2 block then rabbitVRFSplitProtocolFeeV2 else rabbitVRFSplitProtocolFeeV1

/-! ### Settlement -/

/-- The balances of all accounts and the contract's storage. -/
structure EscrowState where
  balance : Address → Word
  coordinator : CoordinatorState

structure EscrowBlock where
  number : Nat
  timestamp : Nat
  chainId : Nat
  coinbase : Address

def EscrowBlock.systemContext (config : LqcConfig) (block : EscrowBlock) : CallContext :=
  ⟨block.number, block.timestamp, block.chainId, config.isRabbitVRFEconomicsV2 block.number, systemAddress, 0⟩

namespace RabbitVRFValidatedFinalization

variable (value : RabbitVRFValidatedFinalization)

def check : Except SettlementError Unit :=
  ensure (value.requestID ≠ 0 ∧ value.epoch ≠ 0 ∧ value.round ≠ 0 ∧ value.randomness ≠ 0 ∧ value.proofHash ≠ 0 ∧
    value.participants ≠ [] ∧ value.participants.length ≤ 128) .invalidFinalization

def checkParticipants : List Address → List Address → Except SettlementError Unit
  | _, [] => .ok ()
  | seen, participant :: rest => do
    ensure (participant ≠ 0) .invalidParticipant
    ensure (participant ∉ seen) .duplicateParticipant
    checkParticipants (participant :: seen) rest

def call : CoordinatorCall :=
  .systemFinalizeRequest value.requestID value.epoch value.round value.randomness value.proofHash

end RabbitVRFValidatedFinalization

namespace EscrowState

variable {participants : List Address} {split : FeeSplit} {fee participantCount : Nat}
  {before after : CoordinatorState} {requestId : Hash} {value : RabbitVRFValidatedFinalization}
  {previous : Option Hash} {values : List RabbitVRFValidatedFinalization}

def credit (balance : Address → Word) (account : Address) (amount : Word) : Address → Word :=
  if amount ≠ 0 then addBalance balance account amount else balance

def creditEach (balance : Address → Word) (accounts : List Address) (amount : Word) : Address → Word :=
  if amount ≠ 0 then addEach balance accounts amount else balance

def pay (balance : Address → Word) (coinbase : Address) (participants : List Address) (fee : Word) (split : FeeSplit) :
    Address → Word :=
  let balance := subBalance balance rabbitVRFCoordinatorV1Address fee
  let balance := credit balance coinbase (BitVec.ofNat 256 split.producer)
  let balance := creditEach balance participants (BitVec.ofNat 256 split.eachParticipant)
  credit balance rabbitVRFAllocationV1Address (BitVec.ofNat 256 split.rabbitAllocation)

variable (crypto : Crypto) (config : LqcConfig) (block : EscrowBlock)

def settle (state : EscrowState) (value : RabbitVRFValidatedFinalization) : Except SettlementError EscrowState :=
  match state.coordinator.call crypto (block.systemContext config) value.call with
  | .error error => .error (.systemCallFailed value.requestID error)
  | .ok (_, none) => .error (.feeReturn value.requestID)
  | .ok (coordinator, some feePaid) => do
    ensure (feePaid ≠ 0) .zeroFee
    ensure (feePaid ≤ state.balance rabbitVRFCoordinatorV1Address) .insufficientBalance
    let split ← config.splitFee block.number feePaid.toNat value.participants.length
    .ok ⟨pay state.balance block.coinbase value.participants feePaid split, coordinator⟩

/-- The loop over the finalizations of a block, with the request settled before. -/
def settleFrom : Option Hash → EscrowState → List RabbitVRFValidatedFinalization → Except SettlementError EscrowState
  | _, state, [] => .ok state
  | previous, state, value :: rest => do
    value.check
    ensure (∀ requestID ∈ previous, requestID < value.requestID) .nonCanonicalOrder
    RabbitVRFValidatedFinalization.checkParticipants [] value.participants
    let state ← state.settle crypto config block value
    settleFrom (some value.requestID) state rest

def processRabbitVRFFinalizations (state : EscrowState) (values : List RabbitVRFValidatedFinalization) :
    Except SettlementError EscrowState := do
  ensure (values = [] ∨ block.coinbase ≠ 0) .invalidProducer
  settleFrom crypto config block none state values

/-- A message to the contract: its value moves first, and a call that fails takes everything back. -/
def message (state : EscrowState) (context : CallContext) (call : CoordinatorCall) : Option EscrowState :=
  if context.value ≤ state.balance context.sender then
    match state.coordinator.call crypto context call with
    | .error _ => none
    | .ok (coordinator, _) =>
      some ⟨addBalance (subBalance state.balance context.sender context.value)
          rabbitVRFCoordinatorV1Address context.value, coordinator⟩
  else none

/-! ### Where a fee goes -/

theorem credit_spec {balance : Address → Word} {amount : Nat} (fits : supply balance + amount < 2 ^ 256)
    (account : Address) :
    supply (credit balance account (BitVec.ofNat 256 amount)) = supply balance + amount ∧
    ∀ other, (credit balance account (BitVec.ofNat 256 amount) other).toNat =
      (balance other).toNat + if other = account then amount else 0 := by
  have value : (BitVec.ofNat 256 amount).toNat = amount := by
    rw [BitVec.toNat_ofNat, Nat.mod_eq_of_lt (by omega)]
  rw [credit]
  by_cases zero : BitVec.ofNat 256 amount = 0
  · have none : amount = 0 := by
      rw [zero] at value
      exact value.symm
    rw [if_neg (not_not.mpr zero), none]
    simp
  · rw [if_pos zero, supply_addBalance (by rw [value]; exact fits), value]
    refine ⟨rfl, ?_⟩
    intro other
    rw [toNat_addBalance (by rw [value]; exact fits), value]

theorem creditEach_spec {balance : Address → Word} {accounts : List Address} {amount : Nat} (small : amount < 2 ^ 256)
    (fits : supply balance + accounts.length * amount < 2 ^ 256) :
    supply (creditEach balance accounts (BitVec.ofNat 256 amount)) = supply balance + accounts.length * amount ∧
    ∀ other, (creditEach balance accounts (BitVec.ofNat 256 amount) other).toNat =
      (balance other).toNat + accounts.count other * amount := by
  have value : (BitVec.ofNat 256 amount).toNat = amount := by rw [BitVec.toNat_ofNat, Nat.mod_eq_of_lt small]
  have added := @addEach_spec _ _ _ balance (BitVec.ofNat 256 amount) _ accounts (by rw [value]; exact fits)
  rw [value] at added
  rw [creditEach]
  by_cases zero : BitVec.ofNat 256 amount = 0
  · have none : amount = 0 := by
      rw [zero] at value
      exact value.symm
    rw [if_neg (not_not.mpr zero), none]
    simp
  · rw [if_pos zero]
    exact added

/-- Exactly the fee leaves the coordinator, and exactly its parts arrive, whoever the recipients are. -/
structure Moves (before after : Address → Word) (coinbase : Address) (participants : List Address) (fee : Word)
    (split : FeeSplit) : Prop where
  whole : split.producer + participants.length * split.eachParticipant + split.rabbitAllocation = fee.toNat
  account : ∀ account, (after account).toNat + (if account = rabbitVRFCoordinatorV1Address then fee.toNat else 0) =
    (before account).toNat + (if account = coinbase then split.producer else 0) +
      participants.count account * split.eachParticipant +
      (if account = rabbitVRFAllocationV1Address then split.rabbitAllocation else 0)

theorem pay_spec {balance : Address → Word} {coinbase : Address} {fee : Word} (supplied : supply balance < 2 ^ 256)
    (enough : fee ≤ balance rabbitVRFCoordinatorV1Address) (some : 0 < participants.length)
    (whole : split.producer + participants.length * split.eachParticipant + split.rabbitAllocation = fee.toNat) :
    supply (pay balance coinbase participants fee split) = supply balance ∧
    Moves balance (pay balance coinbase participants fee split) coinbase participants fee split := by
  have taken := supply_subBalance enough
  have debited := toNat_subBalance enough
  have small : split.eachParticipant < 2 ^ 256 := by
    have bound : split.eachParticipant ≤ participants.length * split.eachParticipant := Nat.le_mul_of_pos_left _ some
    have feeSmall := fee.isLt
    omega
  rw [pay]
  generalize subBalance balance rabbitVRFCoordinatorV1Address fee = debit at taken debited
  obtain ⟨producerSupply, producer⟩ := credit_spec (show supply debit + split.producer < 2 ^ 256 by omega) coinbase
  generalize credit debit coinbase (BitVec.ofNat 256 split.producer) = withProducer at producerSupply producer
  obtain ⟨participantSupply, participant⟩ := @creditEach_spec withProducer participants _ small (by omega)
  generalize creditEach withProducer participants (BitVec.ofNat 256 split.eachParticipant) = withParticipants
    at participantSupply participant
  obtain ⟨allocationSupply, allocation⟩ := @credit_spec withParticipants split.rabbitAllocation (by omega)
    rabbitVRFAllocationV1Address
  refine ⟨by omega, whole, ?_⟩
  intro account
  rw [allocation account, participant account, producer account, ← debited account]
  omega

theorem splitProtocolFee_ok {producerBPS participantsBPS : Nat}
    (ok : splitProtocolFee producerBPS participantsBPS fee participantCount = .ok split) :
    0 < participantCount ∧ split.producer + participantCount * split.eachParticipant + split.rabbitAllocation =
      fee := by
  simp only [splitProtocolFee, ensure_bind_ok_iff, Except.ok.injEq] at ok
  obtain ⟨some, within, rfl⟩ := ok
  refine ⟨some, ?_⟩
  rw [Nat.mul_comm participantCount]
  dsimp only
  omega

theorem splitFee_ok {config : LqcConfig} {block : Nat} (ok : config.splitFee block fee participantCount = .ok split) :
    0 < participantCount ∧ split.producer + participantCount * split.eachParticipant + split.rabbitAllocation =
      fee := by
  rw [LqcConfig.splitFee] at ok
  split at ok
  · exact splitProtocolFee_ok ok
  · exact splitProtocolFee_ok ok

theorem splitFee_error {config : LqcConfig} {block : Nat} {error : SettlementError}
    (failed : config.splitFee block fee participantCount = .error error) : error ≠ .insufficientBalance := by
  have each {producerBPS participantsBPS : Nat}
      (failed : splitProtocolFee producerBPS participantsBPS fee participantCount = .error error) :
      error ≠ .insufficientBalance := by
    simp only [splitProtocolFee, bind_error_iff, ensure_error_iff, ensure_ok_iff, exists_unit, reduceCtorEq,
      and_false,
      or_false] at failed
    rcases failed with ⟨_, rfl⟩ | ⟨_, _, rfl⟩
    · exact SettlementError.noConfusion
    · exact SettlementError.noConfusion
  rw [LqcConfig.splitFee] at failed
  split at failed
  · exact each failed
  · exact each failed

/-! ### What stays in escrow -/

def held (request : Request) : Nat := if request.status = requestStatusPending then request.feePaid.toNat else 0

def pendingFees (coordinator : CoordinatorState) : Nat := ∑ requestId, held (coordinator.requests requestId)

theorem held_le_pendingFees (coordinator : CoordinatorState) (requestId : Hash) :
    held (coordinator.requests requestId) ≤ pendingFees coordinator :=
  Finset.single_le_sum (f := fun id => held (coordinator.requests id)) (fun _ _ => Nat.zero_le _)
    (Finset.mem_univ requestId)

variable {crypto : Crypto} {config : LqcConfig} {block : EscrowBlock} {state next : EscrowState}

theorem pendingFees_requested {context : CallContext}
    (made : CoordinatorState.Requested context before after requestId) :
    pendingFees after = pendingFees before + context.value.toNat := by
  obtain ⟨requesterNonce, callbackGasLimit, appDataHash, stored⟩ := made.stored
  have change := sum_update_add held before.requests requestId
    (newRequest context requesterNonce callbackGasLimit context.value appDataHash)
  rw [← stored] at change
  have nothing : held (before.requests requestId) = 0 := by
    rw [held, made.free]
    rfl
  rw [nothing, Nat.add_zero] at change
  exact change

theorem pendingFees_finalized (made : CoordinatorState.Finalized before after requestId) :
    pendingFees after + (before.requests requestId).feePaid.toNat = pendingFees before := by
  obtain ⟨request, stored, completed, _⟩ := made.completed
  have change := sum_update_add held before.requests requestId request
  rw [← stored] at change
  have released : held request = 0 := by
    rw [held, completed]
    rfl
  have kept : held (before.requests requestId) = (before.requests requestId).feePaid.toNat := by
    rw [held, if_pos made.pending]
  rw [released, kept, Nat.add_zero] at change
  exact change

/-- What holds between any two steps: no balance can wrap, and the coordinator's covers what it holds. -/
structure Solvent (state : EscrowState) : Prop where
  supplied : supply state.balance < 2 ^ 256
  covered : pendingFees state.coordinator ≤ (state.balance rabbitVRFCoordinatorV1Address).toNat

/-- What one settlement did: the request was pending, its fee moved, and only its entry changed. -/
structure Settled (config : LqcConfig) (block : EscrowBlock) (state next : EscrowState)
    (value : RabbitVRFValidatedFinalization) : Prop where
  finalized : CoordinatorState.Finalized state.coordinator next.coordinator value.requestID
  moves : ∃ split, config.splitFee block.number (state.coordinator.requests value.requestID).feePaid.toNat
      value.participants.length = .ok split ∧
    Moves state.balance next.balance block.coinbase value.participants
      (state.coordinator.requests value.requestID).feePaid split

theorem call_ok {context : CallContext} {returned : Option Word}
    (ok : before.call crypto context value.call = .ok (after, returned)) :
    CoordinatorState.Finalized before after value.requestID ∧
      returned = some (before.requests value.requestID).feePaid := by
  simp only [RabbitVRFValidatedFinalization.call, CoordinatorState.call, bind_ok_iff, ensure_ok_iff, exists_unit,
    Except.ok.injEq, Prod.mk.injEq] at ok
  obtain ⟨_, _, result, made, rfl, rfl⟩ := ok
  obtain ⟨finalized, isFee⟩ := CoordinatorState.systemFinalizeRequest_ok made
  exact ⟨finalized, by rw [isFee]⟩

theorem Solvent.settle_ok (solvent : state.Solvent) (ok : state.settle crypto config block value = .ok next) :
    next.Solvent ∧ Settled config block state next value := by
  rw [settle] at ok
  split at ok
  · exact absurd ok (by simp)
  · exact absurd ok (by simp)
  rename_i coordinator feePaid called
  obtain ⟨finalized, isFee⟩ := call_ok called
  obtain rfl := Option.some.inj isFee
  simp only [bind_ok_iff, ensure_ok_iff, exists_unit, Except.ok.injEq] at ok
  obtain ⟨_, enough, split, isSplit, rfl⟩ := ok
  obtain ⟨some, whole⟩ := splitFee_ok isSplit
  obtain ⟨supplied, moves⟩ := pay_spec solvent.supplied enough some whole
  refine ⟨⟨by rw [supplied]; exact solvent.supplied, ?_⟩, finalized, split, isSplit, moves⟩
  have released := pendingFees_finalized finalized
  have account := moves.account rabbitVRFCoordinatorV1Address
  rw [if_pos rfl] at account
  have covered := solvent.covered
  dsimp only
  omega

theorem Solvent.enough (solvent : state.Solvent)
    (pending : (state.coordinator.requests requestId).status = requestStatusPending) :
    (state.coordinator.requests requestId).feePaid ≤ state.balance rabbitVRFCoordinatorV1Address := by
  have part := held_le_pendingFees state.coordinator requestId
  rw [held, if_pos pending] at part
  exact part.trans solvent.covered

theorem Solvent.settle_balance (solvent : state.Solvent) (value : RabbitVRFValidatedFinalization) :
    state.settle crypto config block value ≠ .error .insufficientBalance := by
  intro failed
  rw [settle] at failed
  split at failed
  · exact absurd failed (by simp)
  · exact absurd failed (by simp)
  rename_i coordinator feePaid called
  obtain ⟨finalized, isFee⟩ := call_ok called
  obtain rfl := Option.some.inj isFee
  have enough := solvent.enough finalized.pending
  simp only [bind_error_iff, ensure_error_iff, ensure_ok_iff, exists_unit, reduceCtorEq, and_false, false_or, enough,
    not_true_eq_false, false_and, true_and, exists_false, or_false] at failed
  exact splitFee_error failed.2 rfl

/-- The coordinator is solvent, and the requests settled so far are distinct and stay completed. -/
structure Escrowed (settled : List Hash) (state : EscrowState) : Prop where
  solvent : state.Solvent
  distinct : settled.Nodup
  completed : ∀ requestId ∈ settled, (state.coordinator.requests requestId).status = requestStatusCompleted

variable {settled : List Hash}

theorem Escrowed.settle_ok (escrowed : Escrowed settled state)
    (ok : state.settle crypto config block value = .ok next) : Escrowed (value.requestID :: settled) next := by
  obtain ⟨solvent, finalized, _⟩ := escrowed.solvent.settle_ok ok
  obtain ⟨request, stored, completed, _⟩ := finalized.completed
  have fresh : value.requestID ∉ settled := by
    intro member
    have done := escrowed.completed value.requestID member
    rw [finalized.pending] at done
    exact absurd done (by decide)
  refine ⟨solvent, List.nodup_cons.mpr ⟨fresh, escrowed.distinct⟩, ?_⟩
  intro requestId member
  rw [stored]
  by_cases same : requestId = value.requestID
  · rw [same, Function.update_self]
    exact completed
  · rw [Function.update_of_ne same]
    exact escrowed.completed requestId ((List.mem_cons.mp member).resolve_left same)

theorem Escrowed.settleFrom_ok (escrowed : Escrowed settled state)
    (ok : settleFrom crypto config block previous state values = .ok next) :
    Escrowed ((values.map (·.requestID)).reverse ++ settled) next := by
  induction values generalizing previous state settled with
  | nil =>
    obtain rfl := Except.ok.inj ok
    exact escrowed
  | cons value rest ih =>
    simp only [settleFrom, bind_ok_iff, exists_unit] at ok
    obtain ⟨_, _, _, middle, settles, others⟩ := ok
    have whole := ih (escrowed.settle_ok settles) others
    rw [List.map_cons, List.reverse_cons, List.append_assoc]
    exact whole

theorem checkParticipants_error {seen : List Address} {error : SettlementError}
    (failed : RabbitVRFValidatedFinalization.checkParticipants seen participants = .error error) :
    error ≠ .insufficientBalance := by
  induction participants generalizing seen with
  | nil => exact absurd failed (by simp [RabbitVRFValidatedFinalization.checkParticipants])
  | cons participant rest ih =>
    simp only [RabbitVRFValidatedFinalization.checkParticipants, bind_error_iff, ensure_error_iff, ensure_ok_iff,
      exists_unit] at failed
    rcases failed with ⟨_, rfl⟩ | ⟨_, ⟨_, rfl⟩ | ⟨_, others⟩⟩
    · exact SettlementError.noConfusion
    · exact SettlementError.noConfusion
    · exact ih others

theorem Escrowed.settleFrom_balance (escrowed : Escrowed settled state) :
    settleFrom crypto config block previous state values ≠ .error .insufficientBalance := by
  induction values generalizing previous state settled with
  | nil =>
    intro failed
    exact absurd failed (by simp [settleFrom])
  | cons value rest ih =>
    intro failed
    simp only [settleFrom, RabbitVRFValidatedFinalization.check, bind_error_iff, ensure_error_iff, ensure_ok_iff,
      exists_unit,
      reduceCtorEq, and_false, false_or] at failed
    obtain ⟨_, _, participants | ⟨_, settles | ⟨middle, settles, others⟩⟩⟩ := failed
    · exact checkParticipants_error participants rfl
    · exact escrowed.solvent.settle_balance value settles
    · exact ih (escrowed.settle_ok settles) others

/-! ### Runs -/

/-- States the chain comes to from the deployment on, with the requests settled on the way, the last one first. A
message to the contract, price observations of the system included, comes from another account: the contract's code
calls nobody but the pair, and an account with code signs no transactions. For the same reason whatever else happens
does not lower the contract's balance. -/
inductive Reaches (crypto : Crypto) (config : LqcConfig) : List Hash → EscrowState → Prop where
  | deployed {balance : Address → Word} (supplied : supply balance < 2 ^ 256) :
      Reaches crypto config [] ⟨balance, .deployed⟩
  | message {settled : List Hash} {state next : EscrowState} {context : CallContext} {call : CoordinatorCall}
      (before : Reaches crypto config settled state) (foreign : context.sender ≠ rabbitVRFCoordinatorV1Address)
      (ok : state.message crypto context call = some next) : Reaches crypto config settled next
  | block {settled : List Hash} {state next : EscrowState} {block : EscrowBlock}
      {values : List RabbitVRFValidatedFinalization} (before : Reaches crypto config settled state)
      (ok : state.processRabbitVRFFinalizations crypto config block values = .ok next) :
      Reaches crypto config ((values.map (·.requestID)).reverse ++ settled) next
  | elsewhere {settled : List Hash} {state : EscrowState} {balance : Address → Word}
      (before : Reaches crypto config settled state) (supplied : supply balance < 2 ^ 256)
      (kept : state.balance rabbitVRFCoordinatorV1Address ≤ balance rabbitVRFCoordinatorV1Address) :
      Reaches crypto config settled ⟨balance, state.coordinator⟩

theorem message_ok {context : CallContext} {call : CoordinatorCall}
    (ok : state.message crypto context call = some next) :
    context.value ≤ state.balance context.sender ∧
    (∃ returned, state.coordinator.call crypto context call = .ok (next.coordinator, returned)) ∧
    next.balance = addBalance (subBalance state.balance context.sender context.value) rabbitVRFCoordinatorV1Address
      context.value := by
  rw [message] at ok
  split at ok
  · rename_i enough
    split at ok
    · exact absurd ok (by simp)
    · rename_i coordinator returned called
      obtain rfl := Option.some.inj ok
      exact ⟨enough, ⟨returned, called⟩, rfl⟩
  · exact absurd ok (by simp)

theorem message_balance {context : CallContext} {call : CoordinatorCall} (supplied : supply state.balance < 2 ^ 256)
    (foreign : context.sender ≠ rabbitVRFCoordinatorV1Address) (ok : state.message crypto context call = some next) :
    supply next.balance = supply state.balance ∧ (next.balance rabbitVRFCoordinatorV1Address).toNat =
      (state.balance rabbitVRFCoordinatorV1Address).toNat + context.value.toNat := by
  obtain ⟨enough, _, balance⟩ := message_ok ok
  have taken := supply_subBalance enough
  have fits : supply (subBalance state.balance context.sender context.value) + context.value.toNat < 2 ^ 256 := by omega
  have debited := toNat_subBalance enough rabbitVRFCoordinatorV1Address
  rw [if_neg (Ne.symm foreign), Nat.add_zero] at debited
  rw [balance, supply_addBalance fits, toNat_addBalance fits, if_pos rfl, debited]
  exact ⟨taken, rfl⟩

theorem Escrowed.message_ok (escrowed : Escrowed settled state) {context : CallContext} {call : CoordinatorCall}
    (foreign : context.sender ≠ rabbitVRFCoordinatorV1Address)
    (ok : state.message crypto context call = some next) : Escrowed settled next := by
  obtain ⟨supplied, received⟩ := message_balance escrowed.solvent.supplied foreign ok
  obtain ⟨_, ⟨returned, called⟩, _⟩ := EscrowState.message_ok ok
  have covered := escrowed.solvent.covered
  have completed {requestId : Hash} (member : requestId ∈ settled) :
      (next.coordinator.requests requestId).status = requestStatusCompleted := by
    have done := escrowed.completed requestId member
    obtain same | ⟨made, _⟩ | ⟨_, completed, _⟩ := CoordinatorState.call_request called requestId
    · rw [same]
      exact done
    · rw [made.free] at done
      exact absurd done (by decide)
    · exact completed
  refine ⟨⟨by rw [supplied]; exact escrowed.solvent.supplied, ?_⟩, escrowed.distinct,
    fun _ member => completed member⟩
  obtain ⟨answer, _, _, isNext⟩ | ⟨requestId, made⟩ | ⟨requestId, _, system, made⟩ := CoordinatorState.call_cases called
  · have same : pendingFees next.coordinator = pendingFees state.coordinator := by rw [isNext]; rfl
    omega
  · have more := pendingFees_requested made
    omega
  · have less := pendingFees_finalized made
    omega

theorem Reaches.escrowed (reaches : Reaches crypto config settled state) : Escrowed settled state := by
  induction reaches with
  | deployed supplied =>
    refine ⟨⟨supplied, ?_⟩, List.nodup_nil, fun _ member => absurd member List.not_mem_nil⟩
    have nothing : pendingFees CoordinatorState.deployed = 0 := Finset.sum_eq_zero fun _ _ => rfl
    rw [nothing]
    exact Nat.zero_le _
  | message before foreign ok ih => exact ih.message_ok foreign ok
  | block before ok ih =>
    simp only [processRabbitVRFFinalizations, bind_ok_iff, exists_unit] at ok
    exact ih.settleFrom_ok ok.2
  | elsewhere before supplied kept ih =>
    exact ⟨⟨supplied, ih.solvent.covered.trans kept⟩, ih.distinct, ih.completed⟩

theorem settleFrom_split {front back : List RabbitVRFValidatedFinalization}
    (ok : settleFrom crypto config block previous state (front ++ value :: back) = .ok next) :
    ∃ middle after, settleFrom crypto config block previous state front = .ok middle ∧
      middle.settle crypto config block value = .ok after := by
  induction front generalizing previous state with
  | nil =>
    simp only [List.nil_append, settleFrom, bind_ok_iff, exists_unit] at ok
    obtain ⟨_, _, _, after, settles, _⟩ := ok
    exact ⟨state, after, rfl, settles⟩
  | cons first rest ih =>
    simp only [List.cons_append, settleFrom, bind_ok_iff, exists_unit] at ok
    obtain ⟨check, order, participants, second, settles, others⟩ := ok
    obtain ⟨middle, after, front, last⟩ := ih others
    refine ⟨middle, after, ?_, last⟩
    simp only [settleFrom, bind_ok_iff, exists_unit]
    exact ⟨check, order, participants, second, settles, front⟩

/-- In every run of requests and settlements, under either division of the fee: the coordinator's balance covers the
fees of all pending requests; no settlement fails for want of it; each one moves exactly the fee of its request, from
the coordinator to the recipients; and no request is settled twice. -/
theorem fee_escrow (crypto : Crypto) (config : LqcConfig) : ∀ settled state, Reaches crypto config settled state →
    pendingFees state.coordinator ≤ (state.balance rabbitVRFCoordinatorV1Address).toNat ∧
    settled.Nodup ∧
    ∀ block values,
      state.processRabbitVRFFinalizations crypto config block values ≠ .error .insufficientBalance ∧
      ∀ next, state.processRabbitVRFFinalizations crypto config block values = .ok next →
        ∀ front value back, values = front ++ value :: back → ∃ middle after,
          state.processRabbitVRFFinalizations crypto config block front = .ok middle ∧
          middle.settle crypto config block value = .ok after ∧ Settled config block middle after value := by
  intro settled state reaches
  have escrowed := reaches.escrowed
  refine ⟨escrowed.solvent.covered, escrowed.distinct, fun block values => ⟨?_, ?_⟩⟩
  · intro failed
    simp only [processRabbitVRFFinalizations, bind_error_iff, ensure_error_iff, reduceCtorEq, and_false, false_or,
      exists_unit] at failed
    exact escrowed.settleFrom_balance failed.2
  · intro next ok front value back shape
    simp only [processRabbitVRFFinalizations, ensure_bind_ok_iff] at ok ⊢
    rw [shape] at ok
    obtain ⟨middle, after, settles, last⟩ := settleFrom_split ok.2
    have producer : front = [] ∨ block.coinbase ≠ 0 := Or.inr (ok.1.resolve_left (by simp))
    exact ⟨middle, after, ⟨producer, settles⟩, last, ((escrowed.settleFrom_ok settles).solvent.settle_ok last).2⟩

/-! ### A first settlement -/

def funded (amount : Word) : Address → Word := addBalance (fun _ => 0) 0 amount

theorem supply_funded (amount : Word) : supply (funded amount) < 2 ^ 256 := by
  have nothing : supply (fun _ : Address => (0 : Word)) = 0 := Finset.sum_eq_zero fun _ _ => rfl
  rw [funded, supply_addBalance (by rw [nothing, Nat.zero_add]; exact amount.isLt), nothing, Nat.zero_add]
  exact amount.isLt

theorem Reaches.observe (reaches : Reaches crypto config settled state) (answer : PairAnswer) (timestamp : Nat) :
    Reaches crypto config settled ⟨state.balance,
      { state.coordinator with observations :=
        state.coordinator.observations.systemObservePrice answer timestamp }⟩ := by
  have sent : state.message crypto (CoordinatorState.systemContext timestamp) (.systemObservePrice answer) =
      some ⟨state.balance,
        { state.coordinator with observations :=
          state.coordinator.observations.systemObservePrice answer timestamp }⟩ := by
    have nothing : (CoordinatorState.systemContext timestamp).value = 0 := rfl
    have free : 0 ≤ state.balance (CoordinatorState.systemContext timestamp).sender := Nat.zero_le _
    simp only [EscrowState.message, CoordinatorState.call_observe, nothing, subBalance_zero, addBalance_zero,
      if_pos free]
  exact .message reaches (show systemAddress ≠ rabbitVRFCoordinatorV1Address by decide) sent

def firstFinalization (requestID : Hash) : RabbitVRFValidatedFinalization := ⟨requestID, 1, 1, 1, 1, [1]⟩

def firstBlock : EscrowBlock := ⟨2, 2220, 1, 1⟩

/-- The request of the first block is made, and settled in the second. -/
theorem exists_settlement : ∃ state next, Reaches plainCrypto {} [] state ∧
    (state.coordinator.requests CoordinatorState.firstRequest).feePaid ≠ 0 ∧
    state.processRabbitVRFFinalizations plainCrypto {} firstBlock [firstFinalization CoordinatorState.firstRequest] =
      .ok next := by
  have start : Reaches plainCrypto {} [] ⟨funded CoordinatorState.steadyFee, .deployed⟩ := .deployed (supply_funded _)
  have observed := (start.observe CoordinatorState.steadyAnswer 400).observe CoordinatorState.steadyAnswer 2200
  have run : (EscrowState.message plainCrypto ⟨funded CoordinatorState.steadyFee, CoordinatorState.steadyState⟩
      CoordinatorState.userContext (.requestRandomness 0 0)).any (fun state =>
        (state.coordinator.requests CoordinatorState.firstRequest).feePaid != 0 &&
        (state.settle plainCrypto {} firstBlock (firstFinalization CoordinatorState.firstRequest)).isOk) = true := by
    decide +kernel
  obtain ⟨state, sent, checks⟩ := (Option.any_eq_true _ _).mp run
  obtain ⟨paid, settles⟩ := Bool.and_eq_true_iff.mp checks
  obtain ⟨next, settles⟩ := exists_ok_of_isOk settles
  refine ⟨state, next, observed.message (show (0 : Address) ≠ rabbitVRFCoordinatorV1Address by decide) sent,
    bne_iff_ne.mp paid, ?_⟩
  have checked : (firstFinalization CoordinatorState.firstRequest).check = .ok () := by decide +kernel
  simp only [processRabbitVRFFinalizations, settleFrom, bind_ok_iff, ensure_ok_iff, exists_unit, settles]
  exact ⟨Or.inr (by decide), checked, by simp, rfl, _, rfl, rfl⟩

theorem fee_escrow_first : ∃ state middle next requestId, Reaches plainCrypto {} [] state ∧
    (state.coordinator.requests requestId).feePaid ≠ 0 ∧
    pendingFees state.coordinator ≤ (state.balance rabbitVRFCoordinatorV1Address).toNat ∧
    state.processRabbitVRFFinalizations plainCrypto {} firstBlock [] = .ok middle ∧
    middle.settle plainCrypto {} firstBlock (firstFinalization requestId) = .ok next ∧
    Settled {} firstBlock middle next (firstFinalization requestId) := by
  obtain ⟨state, next, reaches, paid, processed⟩ := exists_settlement
  obtain ⟨covered, _, blocks⟩ := fee_escrow plainCrypto {} [] state reaches
  obtain ⟨middle, after, before, settles, settled⟩ := (blocks firstBlock _).2 next processed [] _ [] rfl
  exact ⟨state, middle, after, _, reaches, paid, covered, before, settles, settled⟩

end EscrowState

end RabbitLqc
