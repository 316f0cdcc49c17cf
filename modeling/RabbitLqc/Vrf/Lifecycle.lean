import RabbitLqc.Lib.RlpRecord
import RabbitLqc.Vrf.Committee

/-!
# Lifecycle records

A node keeps one public record for each key generation session, stored under the session's identifier. What became a
record is recomputed from the committee when a bridge arrives, and again when the record is read.
-/

namespace RabbitLqc
open Lib RlpCodec

/-! ### Records -/

structure RabbitVRFDKGLifecycleV1 where
  version : UInt8
  phase : UInt8
  sessionID : Hash
  sourceWorkEpoch : Nat
  preparationEpoch : Nat
  targetVRFEpoch : Nat
  selectionRoot : Hash
  datasetKey : Hash
  entropy : Hash
  committeeSeed : Hash
  committeeRoot : Hash
  session : RabbitVRFDKGSessionContextV1

def RabbitVRFDKGBridgeV1.lifecycle (bridge : RabbitVRFDKGBridgeV1) : RabbitVRFDKGLifecycleV1 where
  version := 1
  phase := 1
  sessionID := bridge.sessionID
  sourceWorkEpoch := bridge.sourceWorkEpoch
  preparationEpoch := bridge.preparationEpoch
  targetVRFEpoch := bridge.targetVRFEpoch
  selectionRoot := bridge.selectionRoot
  datasetKey := bridge.datasetKey
  entropy := bridge.entropy
  committeeSeed := bridge.committeeSeed
  committeeRoot := bridge.committeeRoot
  session := bridge.session

/-! ### Validation -/

/-- Members numbered in order from one, each with a ticket and a participant. -/
def membersNumbered (members : List RabbitVRFCommitteeMemberV1) : Bool :=
  decide (members.map (·.shareID) = members.mapIdx (fun index _ => UInt64.ofNat (index + 1)) ∧
    ∀ member ∈ members, member.ticketHash ≠ 0 ∧ member.participant ≠ 0)

def committeeOfMembers (members : List RabbitVRFCommitteeMemberV1) : List WorkSeatV1 :=
  members.map fun member => ⟨member.ticketHash, member.participant⟩

section Lifecycle

variable (crypto : Crypto)

def validateRabbitVRFDKGLifecycleV1 (state : RabbitVRFDKGLifecycleV1) : Except LqcError Unit := do
  let invalid := LqcError.invalidRabbitVRFDKGLifecycleV1
  ensure (state.version = 1 ∧ state.phase = 1 ∧ state.sessionID ≠ 0 ∧ state.sourceWorkEpoch ≠ 0 ∧
    state.preparationEpoch ≠ 0 ∧ state.targetVRFEpoch ≠ 0 ∧ state.selectionRoot ≠ 0 ∧ state.datasetKey ≠ 0 ∧
    state.entropy ≠ 0 ∧ state.committeeSeed ≠ 0 ∧ state.committeeRoot ≠ 0) invalid
  ensure (state.session.valid) invalid
  ensure (rabbitVRFDKGSessionIDV1 crypto state.session = some state.sessionID) invalid
  let preparationEpoch ← failAs invalid (rabbitVRFDKGPreparationEpochForSourceV1 state.sourceWorkEpoch)
  ensure (preparationEpoch = state.preparationEpoch) invalid
  let targetEpoch ← failAs invalid (rabbitVRFTargetEpochForSourceWorkEpochV1 state.sourceWorkEpoch)
  ensure (targetEpoch = state.targetVRFEpoch) invalid
  ensure (state.session.targetVRFEpoch = state.targetVRFEpoch ∧ state.session.committeeRoot = state.committeeRoot)
    invalid

/-- The members rebuild the root that the record carries, in the order they stand. -/
def checkCommitteeRoot (invalid : LqcError) (state : RabbitVRFDKGLifecycleV1)
    (members : List RabbitVRFCommitteeMemberV1) : Except LqcError Unit := do
  ensure (membersNumbered members) invalid
  let rooted ← failAs invalid (rabbitVRFCommitteeRootV1 crypto state.session.chainID state.sourceWorkEpoch
    state.selectionRoot state.committeeSeed (committeeOfMembers members))
  ensure (rooted.1 = state.committeeRoot ∧ rooted.2 = members) invalid

/-- A bridge is checked in what becomes its record, and then in its members. -/
def validateRabbitVRFDKGBridgeLifecycleInputV1 (bridge : RabbitVRFDKGBridgeV1) : Except LqcError Unit := do
  let invalid := LqcError.invalidRabbitVRFDKGLifecycleV1
  ensure (bridge.members ≠ []) invalid
  validateRabbitVRFDKGLifecycleV1 crypto bridge.lifecycle
  ensure (bridge.session.committeeSize = bridge.members.length % 2 ^ 64) invalid
  checkCommitteeRoot crypto invalid bridge.lifecycle bridge.members

end Lifecycle

end RabbitLqc
