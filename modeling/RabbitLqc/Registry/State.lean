import RabbitLqc.Config
import RabbitLqc.Lib.KeyedList
import RabbitLqc.Registry.Operation

/-!
# The canonical registry

The participants by address, and the operations that change them: signed registry operations,
open activation, and the record of produced and missed turns.
-/

namespace RabbitLqc
open Lib RlpCodec

structure CanonicalParticipant where
  address : Address
  registeredAt : Nat := 0
  lastHeartbeat : Nat := 0
  missedTurns : Nat := 0
  jailedUntil : Nat := 0
  sequence : Nat := 0
  active : Bool := false
  deriving DecidableEq, Repr

def CanonicalParticipant.item (participant : CanonicalParticipant) : Rlp.Item :=
  .list [toItem participant.address, natItem participant.registeredAt,
    natItem participant.lastHeartbeat, natItem participant.missedTurns,
    natItem participant.jailedUntil, natItem participant.sequence, toItem participant.active]

def CanonicalParticipant.cleared (participant : CanonicalParticipant) : CanonicalParticipant :=
  { participant with missedTurns := 0, jailedUntil := 0 }

/-- One more missed turn. The last one a participant may miss jails it; a running jail is neither
counted against nor extended. -/
def CanonicalParticipant.missTurn (blockNumber maxMissedTurns jailBlocks : Nat)
    (participant : CanonicalParticipant) : CanonicalParticipant :=
  if participant.jailedUntil > blockNumber then participant
  else
    let maxMissedTurns := if maxMissedTurns = 0 then 3 else maxMissedTurns
    let jailBlocks := if jailBlocks = 0 then 256 else jailBlocks
    let missed := if participant.missedTurns = maxUint64 then maxUint64 else participant.missedTurns + 1
    if missed ≥ maxMissedTurns then
      { participant with
        missedTurns := 0
        jailedUntil := (checkedRegistryBlockAdd [blockNumber, jailBlocks]).getD maxUint64 }
    else { participant with missedTurns := missed }

/-- At most one participant per address, in address order. -/
abbrev CanonicalRegistry := KeyedList CanonicalParticipant (·.address.toNat)

namespace CanonicalRegistry

variable (registry : CanonicalRegistry)

def participant? (address : Address) : Option CanonicalParticipant := registry.get? address.toNat

def participants : List CanonicalParticipant := registry.items

def root (crypto : Crypto) : Hash :=
  crypto.keccak256 <| Rlp.encode <| .list [textItem "RABBIT-LQC-REGISTRY-ROOT-V1",
    .list (registry.participants.map CanonicalParticipant.item)]

theorem participant?_eq_some {registry : CanonicalRegistry} {address : Address}
    {participant : CanonicalParticipant} :
    registry.participant? address = some participant ↔
      participant ∈ registry.participants ∧ participant.address = address := by
  unfold participant?
  rw [KeyedList.get?_eq_some, BitVec.toNat_inj]
  rfl

theorem participant?_put (participant : CanonicalParticipant) (address : Address) :
    CanonicalRegistry.participant? (registry.put participant) address =
      if address = participant.address then some participant else registry.participant? address := by
  unfold participant?
  split
  · rename_i same
    rw [same]
    exact KeyedList.get?_put_same registry participant
  · rename_i different
    exact KeyedList.get?_put_other registry fun same => different (BitVec.toNat_inj.mp same)

/-! ### Signed operations -/

def operationResult (blockNumber : Nat) (operation : RegistryOperation) :
    Option CanonicalParticipant → Except LqcError CanonicalParticipant
  | found => match operation.kind with
    | some .register =>
      if found.any (·.active) then .error .participantAlreadyActive
      else
        .ok { address := operation.address, registeredAt := blockNumber,
              lastHeartbeat := blockNumber, sequence := operation.sequence.toNat, active := true }
    | some .heartbeat => match found with
      | none => .error .participantNotActive
      | some participant =>
        .ok { participant with lastHeartbeat := blockNumber, sequence := operation.sequence.toNat }
    | some .exit => match found with
      | none => .error .participantNotActive
      | some participant =>
        if participant.active then
          .ok { participant with sequence := operation.sequence.toNat, active := false }
        else .error .participantNotActive
    | none => .error .invalidRegistryAction

def wantSequence : Option CanonicalParticipant → Nat
  | none => 1
  | some participant => participant.sequence + 1

def applyOperation (crypto : Crypto) (chainID blockNumber proofDifficulty : Nat)
    (operation : RegistryOperation) : Except LqcError CanonicalRegistry := do
  validateRegistryOperation crypto chainID blockNumber proofDifficulty operation
  let found := registry.participant? operation.address
  ensure (wantSequence found ≤ maxUint64) .invalidRegistrySequence
  ensure (operation.sequence.toNat = wantSequence found) .invalidRegistrySequence
  let participant ← operationResult blockNumber operation found
  .ok (registry.put participant)

def applyOperations (crypto : Crypto) (chainID blockNumber proofDifficulty : Nat) :
    CanonicalRegistry → List RegistryOperation → Except LqcError CanonicalRegistry :=
  List.foldlM fun registry operation =>
    registry.applyOperation crypto chainID blockNumber proofDifficulty operation

/-! ### Open activation -/

def activatePermissionlessProducer (address : Address) (blockNumber : Nat) :
    Except LqcError CanonicalRegistry := do
  ensure (address ≠ 0) .invalidRegistryAddress
  .ok <| registry.put
    { address, registeredAt := blockNumber, lastHeartbeat := blockNumber, active := true }

def recoverPermissionlessProducer (address : Address) (blockNumber : Nat) :
    Except LqcError CanonicalRegistry := do
  ensure (address ≠ 0) .invalidRegistryAddress
  match registry.participant? address with
  | none => registry.activatePermissionlessProducer address blockNumber
  | some participant =>
    .ok (registry.put { participant.cleared with active := true, lastHeartbeat := blockNumber })

/-! ### Turns -/

def clearAll (registry : CanonicalRegistry) (fresh : Address → CanonicalParticipant) :
    List Address → CanonicalRegistry :=
  List.foldl (fun registry address =>
    registry.put ((CanonicalRegistry.participant? registry address).getD (fresh address)).cleared) registry

def restoreWith (fresh : Address → CanonicalParticipant) (addresses : List Address) :
    Except LqcError CanonicalRegistry := do
  ensure (distinctParticipants addresses) .invalidRegistryAddress
  .ok (registry.clearAll fresh addresses)

def restoreWorkSeatLiveness (addresses : List Address) (blockNumber : Nat) :
    Except LqcError CanonicalRegistry :=
  registry.restoreWith (fun address =>
    { address, registeredAt := blockNumber, lastHeartbeat := blockNumber }) addresses

def restoreWorkSeatLivenessLegacy (addresses : List Address) (blockNumber : Nat) :
    Except LqcError CanonicalRegistry :=
  registry.restoreWith (fun address => { address, registeredAt := blockNumber }) addresses

def markWorkSeatProducerHeartbeat (address : Address) (blockNumber : Nat) :
    Except LqcError CanonicalRegistry := do
  ensure (address ≠ 0) .invalidRegistryAddress
  let participant := (registry.participant? address).getD { address, registeredAt := blockNumber }
  .ok (registry.put { participant.cleared with lastHeartbeat := blockNumber })

def applyWorkSeatMissedTurn (address : Address) (blockNumber maxMissedTurns jailBlocks : Nat) :
    Except LqcError CanonicalRegistry :=
  match registry.participant? address with
  | none => .error .participantNotActive
  | some participant => .ok (registry.put (participant.missTurn blockNumber maxMissedTurns jailBlocks))

def markProducerHeartbeat (address : Address) (blockNumber : Nat) :
    Except LqcError CanonicalRegistry :=
  match registry.participant? address with
  | none => .error .participantNotActive
  | some participant =>
    if participant.active then
      .ok (registry.put { participant.cleared with lastHeartbeat := blockNumber })
    else .error .participantNotActive

def applyMissedTurn (address : Address) (blockNumber maxMissedTurns jailBlocks : Nat) :
    Except LqcError CanonicalRegistry :=
  match registry.participant? address with
  | none => .error .participantNotActive
  | some participant =>
    if participant.active then
      .ok (registry.put (participant.missTurn blockNumber maxMissedTurns jailBlocks))
    else .error .participantNotActive

end CanonicalRegistry

end RabbitLqc
