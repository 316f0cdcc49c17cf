import RabbitLqc.Vrf.Price

/-!
# The coordinator contract

Requests are paid for when they are made, at the price of their block, and finalized once by the system. The contract
takes value with a request and never sends any.
-/

namespace RabbitLqc
open Lib MulDiv

def systemAddress : Address := 0xfffffffffffffffffffffffffffffffffffffffe

def rabbitVRFCoordinatorV1Address : Address := 0xdFc21aeA108e3F527E5f236ebf354dc8262719da

structure Request where
  requester : Address
  requesterNonce : UInt64
  requestBlock : UInt64
  epoch : UInt64
  round : UInt64
  callbackGasLimit : UInt32
  feePaid : Word
  appDataHash : Hash
  randomness : Hash
  proofHash : Hash
  status : Nat
deriving DecidableEq

def noRequest : Request := ⟨0, 0, 0, 0, 0, 0, 0, 0, 0, 0, 0⟩

def requestStatusPending : Nat := 1

def requestStatusCompleted : Nat := 2

structure CoordinatorState where
  observations : PriceRing
  nextRequestNonces : Address → UInt64
  requests : Hash → Request

def CoordinatorState.deployed : CoordinatorState := ⟨emptyPriceRing, fun _ => 0, fun _ => noRequest⟩

/-- The block a call runs in, which version of the code is installed there, and who calls. -/
structure CallContext where
  number : Nat
  timestamp : Nat
  chainId : Nat
  economicsV2 : Bool
  sender : Address
  value : Word

inductive CoordinatorCall where
  | systemObservePrice (answer : PairAnswer)
  | requestRandomness (callbackGasLimit : UInt32) (appDataHash : Hash)
  | systemFinalizeRequest (requestId : Hash) (epoch round : UInt64) (randomness proofHash : Hash)

def vrfRequestID (crypto : Crypto) (context : CallContext) (requesterNonce : UInt64) (callbackGasLimit : UInt32)
    (appDataHash : Hash) : Hash :=
  crypto.keccak256 <| abiEncode [(crypto.keccak256 (asciiBytes "RABBIT_VRF_REQUEST_V1")).toNat, context.chainId,
    rabbitVRFCoordinatorV1Address.toNat, context.sender.toNat, requesterNonce.toNat, callbackGasLimit.toNat,
    appDataHash.toNat]

def newRequest (context : CallContext) (requesterNonce : UInt64) (callbackGasLimit : UInt32) (feePaid : Word)
    (appDataHash : Hash) : Request :=
  { requester := context.sender, requesterNonce, requestBlock := UInt64.ofNat context.number, epoch := 0, round := 0,
    callbackGasLimit, feePaid, appDataHash, randomness := 0, proofHash := 0, status := requestStatusPending }

namespace CoordinatorState

variable (crypto : Crypto) (context : CallContext) (state : CoordinatorState)

def requestRandomness (callbackGasLimit : UInt32) (appDataHash : Hash) :
    Except CoordinatorError (CoordinatorState × Hash) := do
  ensure (callbackGasLimit = 0) .callbackFundingUnavailable
  ensure (context.number ≤ maxUint64) .requestBlockOverflow
  let fee ← state.observations.quoteProtocolFee context.economicsV2 context.timestamp
  ensure (context.value = fee) (.incorrectRequestFee fee context.value)
  let requesterNonce := state.nextRequestNonces context.sender
  ensure (requesterNonce.toNat ≠ maxUint64) (.requestNonceOverflow context.sender)
  let requestId := vrfRequestID crypto context requesterNonce callbackGasLimit appDataHash
  ensure ((state.requests requestId).status = 0) (.requestAlreadyExists requestId)
  .ok ({ state with
    requests := Function.update state.requests requestId
      (newRequest context requesterNonce callbackGasLimit fee appDataHash)
    nextRequestNonces := Function.update state.nextRequestNonces context.sender (requesterNonce + 1) }, requestId)

def systemFinalizeRequest (requestId : Hash) (epoch round : UInt64) (randomness proofHash : Hash) :
    Except CoordinatorError (CoordinatorState × Word) := do
  let request := state.requests requestId
  ensure (request.status = requestStatusPending) (.requestNotPending requestId request.status)
  ensure (request.requestBlock ≠ 0 ∧ request.epoch = 0 ∧ request.round = 0 ∧ request.randomness = 0 ∧
    request.proofHash = 0 ∧ epoch ≠ 0 ∧ round = request.requestBlock ∧ randomness ≠ 0 ∧ proofHash ≠ 0)
    (.invalidRequestFinalization requestId)
  ensure (request.feePaid ≠ 0) (.invalidRequestFinalization requestId)
  .ok ({ state with
    requests := Function.update state.requests requestId
      { request with epoch, round, randomness, proofHash, status := requestStatusCompleted } }, request.feePaid)

/-- A call of the contract and the word it returns, if any. A call that fails leaves no trace. -/
def call : CoordinatorCall → Except CoordinatorError (CoordinatorState × Option Word)
  | .systemObservePrice answer => do
    ensure (context.value = 0) .notPayable
    ensure (context.sender = systemAddress) .onlySystem
    .ok ({ state with observations := state.observations.systemObservePrice answer context.timestamp }, none)
  | .requestRandomness callbackGasLimit appDataHash => do
    let result ← state.requestRandomness crypto context callbackGasLimit appDataHash
    .ok (result.1, some result.2)
  | .systemFinalizeRequest requestId epoch round randomness proofHash => do
    ensure (context.value = 0) .notPayable
    ensure (context.sender = systemAddress) .onlySystem
    let result ← state.systemFinalizeRequest requestId epoch round randomness proofHash
    .ok (result.1, some result.2)

variable {crypto context state}

/-! ### What a call does -/

/-- A request made: paid at the quote, stored under an id that was free. -/
structure Requested (context : CallContext) (state next : CoordinatorState) (requestId : Hash) : Prop where
  numbered : context.number ≤ maxUint64
  quoted : state.observations.quoteProtocolFee context.economicsV2 context.timestamp = .ok context.value
  free : (state.requests requestId).status = 0
  observations : next.observations = state.observations
  stored : ∃ requesterNonce callbackGasLimit appDataHash, next.requests = Function.update state.requests requestId
    (newRequest context requesterNonce callbackGasLimit context.value appDataHash)

/-- A request finalized: it was pending and paid for, and only its entry changes. -/
structure Finalized (state next : CoordinatorState) (requestId : Hash) : Prop where
  pending : (state.requests requestId).status = requestStatusPending
  paid : (state.requests requestId).feePaid ≠ 0
  observations : next.observations = state.observations
  completed : ∃ request, next.requests = Function.update state.requests requestId request ∧
    request.status = requestStatusCompleted ∧ request.feePaid = (state.requests requestId).feePaid

theorem requestRandomness_ok {callbackGasLimit : UInt32} {appDataHash : Hash} {next : CoordinatorState}
    {requestId : Hash}
    (ok : state.requestRandomness crypto context callbackGasLimit appDataHash = .ok (next, requestId)) :
    Requested context state next requestId := by
  simp only [requestRandomness, bind_ok_iff, ensure_ok_iff, exists_unit, Except.ok.injEq, Prod.mk.injEq] at ok
  obtain ⟨_, numbered, fee, quoted, paid, _, free, rfl, rfl⟩ := ok
  rw [← paid] at quoted
  exact ⟨numbered, quoted, free, rfl, _, _, _, by rw [← paid]⟩

theorem systemFinalizeRequest_ok {requestId : Hash} {epoch round : UInt64} {randomness proofHash : Hash}
    {next : CoordinatorState} {feePaid : Word}
    (ok : state.systemFinalizeRequest requestId epoch round randomness proofHash = .ok (next, feePaid)) :
    Finalized state next requestId ∧ feePaid = (state.requests requestId).feePaid := by
  simp only [systemFinalizeRequest, ensure_bind_ok_iff, Except.ok.injEq, Prod.mk.injEq] at ok
  obtain ⟨pending, _, paid, rfl, rfl⟩ := ok
  exact ⟨⟨pending, paid, rfl, _, rfl, rfl, rfl⟩, rfl⟩

theorem call_cases {call : CoordinatorCall} {next : CoordinatorState} {returned : Option Word}
    (ok : state.call crypto context call = .ok (next, returned)) :
    (∃ answer, call = .systemObservePrice answer ∧ context.value = 0 ∧
      next = { state with observations := state.observations.systemObservePrice answer context.timestamp }) ∨
    (∃ requestId, Requested context state next requestId) ∨
    (∃ requestId, context.value = 0 ∧ context.sender = systemAddress ∧ Finalized state next requestId) := by
  cases call with
  | systemObservePrice answer =>
    simp only [CoordinatorState.call, bind_ok_iff, ensure_ok_iff, exists_unit, Except.ok.injEq, Prod.mk.injEq] at ok
    obtain ⟨value, _, rfl, _⟩ := ok
    exact Or.inl ⟨answer, rfl, value, rfl⟩
  | requestRandomness callbackGasLimit appDataHash =>
    simp only [CoordinatorState.call, bind_ok_iff, Except.ok.injEq, Prod.mk.injEq] at ok
    obtain ⟨result, made, rfl, _⟩ := ok
    exact Or.inr (Or.inl ⟨result.2, requestRandomness_ok made⟩)
  | systemFinalizeRequest requestId epoch round randomness proofHash =>
    simp only [CoordinatorState.call, bind_ok_iff, ensure_ok_iff, exists_unit, Except.ok.injEq, Prod.mk.injEq] at ok
    obtain ⟨value, system, result, made, rfl, _⟩ := ok
    exact Or.inr (Or.inr ⟨requestId, value, system, (systemFinalizeRequest_ok made).1⟩)

/-! ### Runs of the contract -/

/-- States a deployed contract comes to by calls in blocks after the genesis, where the pair's answers are as given. -/
inductive Reaches (crypto : Crypto) (answers : PairAnswer → Nat → Prop) : CoordinatorState → Prop where
  | deployed : Reaches crypto answers deployed
  | call {state next : CoordinatorState} {context : CallContext} {call : CoordinatorCall} {returned : Option Word}
      (before : Reaches crypto answers state) (number : context.number ≠ 0)
      (answered : ∀ answer, call = .systemObservePrice answer → answers answer context.timestamp)
      (ok : state.call crypto context call = .ok (next, returned)) : Reaches crypto answers next

variable {answers : PairAnswer → Nat → Prop}

theorem Reaches.kept (reaches : Reaches crypto answers state) : state.observations.Kept := by
  induction reaches with
  | deployed => exact PriceRing.kept_empty
  | call before number answered ok ih =>
    obtain ⟨answer, _, _, rfl⟩ | ⟨_, made⟩ | ⟨_, _, _, made⟩ := call_cases ok
    · exact ih.systemObservePrice answer _
    · rw [made.observations]
      exact ih
    · rw [made.observations]
      exact ih

theorem call_request {call : CoordinatorCall} {next : CoordinatorState} {returned : Option Word}
    (ok : state.call crypto context call = .ok (next, returned)) (requestId : Hash) :
    next.requests requestId = state.requests requestId ∨
    (Requested context state next requestId ∧ ∃ requesterNonce callbackGasLimit appDataHash,
      next.requests requestId = newRequest context requesterNonce callbackGasLimit context.value appDataHash) ∨
    (Finalized state next requestId ∧ (next.requests requestId).status = requestStatusCompleted ∧
      (next.requests requestId).feePaid = (state.requests requestId).feePaid) := by
  obtain ⟨_, _, _, rfl⟩ | ⟨changed, made⟩ | ⟨changed, _, _, made⟩ := call_cases ok
  · exact Or.inl rfl
  · obtain ⟨requesterNonce, callbackGasLimit, appDataHash, stored⟩ := made.stored
    by_cases same : requestId = changed
    · subst same
      exact Or.inr (Or.inl ⟨made, requesterNonce, callbackGasLimit, appDataHash, by rw [stored,
        Function.update_self]⟩)
    · exact Or.inl (by rw [stored, Function.update_of_ne same])
  · obtain ⟨request, stored, status, feePaid⟩ := made.completed
    by_cases same : requestId = changed
    · subst same
      refine Or.inr (Or.inr ⟨made, ?_⟩)
      rw [stored, Function.update_self]
      exact ⟨status, feePaid⟩
    · exact Or.inl (by rw [stored, Function.update_of_ne same])

/-- A request as `requestRandomness` leaves it, but for what was paid. -/
structure Awaiting (request : Request) : Prop where
  pending : request.status = requestStatusPending
  block : request.requestBlock ≠ 0
  epoch : request.epoch = 0
  round : request.round = 0
  randomness : request.randomness = 0
  proofHash : request.proofHash = 0

theorem newRequest_awaiting {context : CallContext} (number : context.number ≠ 0)
    (numbered : context.number ≤ maxUint64)
    (requesterNonce : UInt64) (callbackGasLimit : UInt32) (feePaid : Word) (appDataHash : Hash) :
    Awaiting (newRequest context requesterNonce callbackGasLimit feePaid appDataHash) := by
  refine ⟨rfl, ?_, rfl, rfl, rfl, rfl⟩
  intro zero
  have value := congrArg UInt64.toNat zero
  rw [newRequest, UInt64.toNat_ofNat', Nat.mod_eq_of_lt (by rw [maxUint64] at numbered; omega)] at value
  exact number value

theorem Reaches.awaiting (reaches : Reaches crypto answers state) {requestId : Hash}
    (pending : (state.requests requestId).status = requestStatusPending) : Awaiting (state.requests requestId) := by
  induction reaches with
  | deployed => exact absurd pending (by decide : (0 : Nat) ≠ requestStatusPending)
  | call before number answered ok ih =>
    obtain same | ⟨made, _, _, _, stored⟩ | ⟨_, completed, _⟩ := call_request ok requestId
    · rw [same] at pending ⊢
      exact ih pending
    · rw [stored]
      exact newRequest_awaiting number made.numbered _ _ _ _
    · rw [completed] at pending
      exact absurd pending (by decide)

theorem systemFinalizeRequest_awaiting {requestId : Hash} (awaiting : Awaiting (state.requests requestId))
    (paid : (state.requests requestId).feePaid ≠ 0) {epoch : UInt64} {randomness proofHash : Hash}
    (hasEpoch : epoch ≠ 0) (hasRandomness : randomness ≠ 0) (hasProof : proofHash ≠ 0) :
    ∃ next, state.systemFinalizeRequest requestId epoch (state.requests requestId).requestBlock randomness proofHash =
      .ok (next, (state.requests requestId).feePaid) := by
  simp only [systemFinalizeRequest, ensure_bind_ok_iff, Except.ok.injEq, Prod.mk.injEq]
  exact ⟨_, awaiting.pending, ⟨awaiting.block, awaiting.epoch, awaiting.round, awaiting.randomness, awaiting.proofHash,
    hasEpoch, trivial, hasRandomness, hasProof⟩, paid, rfl, trivial⟩

section Priced

variable {history : PairHistory}

theorem Reaches.follows (reaches : Reaches crypto (PriceRing.Answers history) state) :
    state.observations.Follows history := by
  induction reaches with
  | deployed => exact fun _ member => absurd member List.not_mem_nil
  | call before number answered ok ih =>
    obtain ⟨answer, isCall, _, rfl⟩ | ⟨_, made⟩ | ⟨_, _, _, made⟩ := call_cases ok
    · exact ih.systemObservePrice before.kept (answered answer isCall)
    · rw [made.observations]
      exact ih
    · rw [made.observations]
      exact ih

theorem Reaches.paid (reaches : Reaches crypto (PriceRing.Answers history) state) {requestId : Hash}
    (stored : (state.requests requestId).status ≠ 0) : 1 ≤ (state.requests requestId).feePaid.toNat := by
  induction reaches with
  | deployed => exact absurd rfl stored
  | call before number answered ok ih =>
    obtain same | ⟨made, _, _, _, isNew⟩ | ⟨made, _, feePaid⟩ := call_request ok requestId
    · rw [same] at stored ⊢
      exact ih stored
    · obtain ⟨newest, baseline, window, isFee⟩ := before.kept.quoteProtocolFee_iff.mp made.quoted
      rw [isNew, newRequest, isFee]
      exact before.follows.averageFee_pos window _
    · rw [feePaid]
      exact ih (by rw [made.pending]; decide)

end Priced

/-- Whatever observations, requests and finalizations a contract has seen: its observations are the cadence apart; a
window is billed exactly between the newest observation and the newest that is old enough, both of age; a quote then
always succeeds; and with a pair that keeps its accumulator every request was paid for and can be finalized. -/
theorem twap_pricing (crypto : Crypto) (history : PairHistory) :
    (∀ state, Reaches crypto (fun _ _ => True) state →
      ((state.observations.retained twapObservationRingSize).Pairwise fun newer older =>
        older.observedAt + twapObservationCadenceSeconds ≤ newer.observedAt) ∧
      ∀ timestamp,
        (∀ window, state.observations.billingWindow timestamp = some window ↔
          ∃ newest baseline, PriceRing.Window state.observations timestamp newest baseline ∧ window =
            (newest.price0Cumulative - baseline.price0Cumulative, newest.observedAt - baseline.observedAt)) ∧
        ∀ economicsV2, (state.observations.billingWindow timestamp).isSome →
          ∃ fee, state.observations.quoteProtocolFee economicsV2 timestamp = .ok fee) ∧
    (∀ state, Reaches crypto (PriceRing.Answers history) state →
      ∀ requestId, (state.requests requestId).status ≠ 0 →
        1 ≤ (state.requests requestId).feePaid.toNat ∧
        ((state.requests requestId).status = requestStatusPending →
          ∀ epoch randomness proofHash, epoch ≠ 0 → randomness ≠ 0 → proofHash ≠ 0 →
            ∃ next, state.systemFinalizeRequest requestId epoch (state.requests requestId).requestBlock randomness
              proofHash = .ok (next, (state.requests requestId).feePaid))) := by
  refine ⟨fun state reaches => ⟨reaches.kept.spaced, fun timestamp => ⟨?_, ?_⟩⟩, ?_⟩
  · intro window
    exact reaches.kept.billingWindow_iff
  · intro economicsV2 billed
    obtain ⟨window, isWindow⟩ := Option.isSome_iff_exists.mp billed
    obtain ⟨newest, baseline, valid, _⟩ := reaches.kept.billingWindow_iff.mp isWindow
    exact ⟨_, (reaches.kept.quoteProtocolFee_ok valid economicsV2).2⟩
  · intro state reaches requestId stored
    have paid := reaches.paid stored
    refine ⟨paid, ?_⟩
    intro pending epoch randomness proofHash hasEpoch hasRandomness hasProof
    refine systemFinalizeRequest_awaiting (reaches.awaiting pending) ?_ hasEpoch hasRandomness hasProof
    intro zero
    rw [zero] at paid
    exact absurd paid (by decide)

/-! ### A first request -/

/-- A pair created at second 100 with the reserves 2 and 5 and not touched since, whose accumulator started at 7. -/
def steadyHistory : PairHistory := ⟨100, 7, fun _ => 2, fun _ => 5, fun _ _ => by decide, fun _ _ => by decide⟩

def steadyAnswer : PairAnswer := ⟨some (abiEncode [7]), some (abiEncode [2, 5, 100])⟩

theorem steadyAnswer_state : steadyAnswer.state = some ⟨7, 2, 5, 100⟩ := by
  decide +kernel

theorem steadyHistory_reports {timestamp : Nat} (since : 100 ≤ timestamp) (early : timestamp < 2 ^ 32) :
    steadyHistory.Reports timestamp ⟨7, 2, 5, 100⟩ := by
  refine ⟨100, le_rfl, since, by omega, rfl, ?_, fun _ _ _ => ⟨rfl, rfl⟩⟩
  rw [PairHistory.price0Cumulative, show steadyHistory.created = 100 from rfl, Finset.Ico_self, Finset.sum_empty]
  rfl

theorem steadyAnswer_answers {timestamp : Nat} (since : 100 ≤ timestamp) (early : timestamp < 2 ^ 32) :
    PriceRing.Answers steadyHistory steadyAnswer timestamp := by
  intro state isState
  rw [steadyAnswer_state, Option.mem_some_iff] at isState
  subst isState
  exact steadyHistory_reports since early

def systemContext (timestamp : Nat) : CallContext := ⟨1, timestamp, 1, false, systemAddress, 0⟩

theorem call_observe (crypto : Crypto) (state : CoordinatorState) (answer : PairAnswer) (timestamp : Nat) :
    state.call crypto (systemContext timestamp) (.systemObservePrice answer) =
      .ok ({ state with observations := state.observations.systemObservePrice answer timestamp }, none) := by
  simp only [CoordinatorState.call, ensure_bind_ok_iff]
  exact ⟨rfl, rfl, rfl⟩

/-- The ring after two observations of the steady pair half an hour apart. -/
def steadyRing : PriceRing := (emptyPriceRing.systemObservePrice steadyAnswer 400).systemObservePrice steadyAnswer 2200

def steadyState : CoordinatorState := { deployed with observations := steadyRing }

theorem steadyState_reaches (crypto : Crypto) : Reaches crypto (PriceRing.Answers steadyHistory) steadyState := by
  have observe {state : CoordinatorState} {timestamp : Nat} (since : 100 ≤ timestamp) (early : timestamp < 2 ^ 32)
      (reaches : Reaches crypto (PriceRing.Answers steadyHistory) state) :
        Reaches crypto (PriceRing.Answers steadyHistory)
        { state with observations := state.observations.systemObservePrice steadyAnswer timestamp } := by
    refine .call reaches Nat.one_ne_zero ?_ (call_observe crypto state steadyAnswer timestamp)
    intro answer same
    cases same
    exact steadyAnswer_answers since early
  exact observe (show 100 ≤ 2200 by decide) (by decide) (observe (show 100 ≤ 400 by decide) (by decide) .deployed)

def steadyFee : Word := ((steadyRing.quoteProtocolFee false 2200).toOption).getD 0

/-- Somebody pays the quoted fee for a request. -/
def userContext : CallContext := ⟨1, 2200, 1, false, 0, steadyFee⟩

def firstRequest : Hash := vrfRequestID plainCrypto userContext 0 0 0

theorem exists_request : ∃ called, steadyState.call plainCrypto userContext (.requestRandomness 0 0) = .ok called ∧
    (called.1.requests firstRequest).status = requestStatusPending :=
  exists_ok_of_any (by decide +kernel)

theorem twap_pricing_steady : ∃ state requestId,
    Reaches plainCrypto (PriceRing.Answers steadyHistory) state ∧
    (state.requests requestId).status = requestStatusPending ∧
    1 ≤ (state.requests requestId).feePaid.toNat ∧
    ∃ next, state.systemFinalizeRequest requestId 1 (state.requests requestId).requestBlock 1 1 =
      .ok (next, (state.requests requestId).feePaid) := by
  obtain ⟨⟨state, _⟩, called, pending⟩ := exists_request
  have reaches : Reaches plainCrypto (PriceRing.Answers steadyHistory) state :=
    .call (steadyState_reaches plainCrypto) Nat.one_ne_zero (fun _ other => by cases other) called
  have stored : (state.requests firstRequest).status ≠ 0 := by
    rw [pending]
    decide
  obtain ⟨paid, finalizes⟩ := (twap_pricing plainCrypto steadyHistory).2 state reaches _ stored
  exact ⟨state, _, reaches, pending, paid, finalizes pending 1 1 1 (by decide) (by decide) (by decide)⟩

end CoordinatorState

end RabbitLqc
