import RabbitLqc.Vrf.Randomness

/-!
# Stored threshold partials

A committee member writes each threshold partial it makes to a file of its own, named after a hash of the session, the
keyset, the request and the share. A file that is there is never replaced, so a member cannot answer one request with
two partials, whatever calls run side by side.
-/

namespace RabbitLqc
open Lib RlpCodec

/-! ### Packets -/

structure RabbitVRFThresholdPartialV1 where
  sessionID : Hash
  keysetRoot : Hash
  requestID : Hash
  messageHash : Hash
  shareID : UInt64
  signature : VrfSignature
  compactParticipationSignature : VrfSignature
  participationSignature : BitVec 512
  deriving DecidableEq

def rabbitVRFThresholdPartialMessageIDV1 (crypto : Crypto) (packet : RabbitVRFThresholdPartialV1) : Option Hash :=
  if packet.sessionID = 0 ∨ packet.keysetRoot = 0 ∨ packet.requestID = 0 ∨ packet.messageHash = 0 ∨
    packet.shareID = 0 then
    none
  else
    let messageID := crypto.keccak256 <| Rlp.encode <| .list [toItem packet.sessionID, toItem packet.keysetRoot,
      toItem packet.requestID, toItem packet.messageHash, toItem packet.shareID, toItem packet.signature,
      toItem packet.compactParticipationSignature]
    if messageID = 0 then none else some messageID

inductive PartialStoreError where
  | invalidThresholdPartialStoreV1
  | thresholdPartialStoreConflictV1
  | dkgTransportKeyStoreMissingV1
  | invalidDKGTransportKeyStoreV1
  | dkgTransportKeyStoreAlreadyExistsV1
  /-- an error of the file system -/
  | fileSystem
  deriving DecidableEq, Repr

def validateThresholdPartialV1 (crypto : Crypto) (context : RabbitVRFDKGSessionContextV1)
    (packet : RabbitVRFThresholdPartialV1) : Except PartialStoreError RabbitVRFThresholdPartialV1 := do
  ensure (rabbitVRFDKGSessionIDV1 crypto context = some packet.sessionID ∧ packet.sessionID ≠ 0 ∧
    packet.keysetRoot ≠ 0 ∧ packet.requestID ≠ 0 ∧ packet.messageHash ≠ 0 ∧ packet.shareID ≠ 0 ∧
    packet.shareID.toNat ≤ context.committeeSize) .invalidThresholdPartialStoreV1
  ensure ((rabbitVRFThresholdMessageV1 crypto context packet.keysetRoot packet.requestID).map Prod.snd =
    some packet.messageHash) .invalidThresholdPartialStoreV1
  ensure (rabbitVRFThresholdPartialMessageIDV1 crypto packet).isSome .invalidThresholdPartialStoreV1
  .ok packet

/-! ### Files -/

structure PartialSlot where
  sessionID : Hash
  keysetRoot : Hash
  requestID : Hash
  shareID : UInt64
  deriving DecidableEq

def PartialSlot.id (crypto : Crypto) (slot : PartialSlot) : Hash :=
  crypto.keccak256 (asciiBytes "RABBIT-VRF-THRESHOLD-PARTIAL-STORE-SLOT-V1" ++ fixedBytes 32 slot.sessionID.toNat ++
    fixedBytes 32 slot.keysetRoot.toNat ++ fixedBytes 32 slot.requestID.toNat ++ fixedBytes 8 slot.shareID.toNat)

def RabbitVRFThresholdPartialV1.slot (packet : RabbitVRFThresholdPartialV1) : PartialSlot :=
  ⟨packet.sessionID, packet.keysetRoot, packet.requestID, packet.shareID⟩

/-- `Path`, up to the text around the hash. -/
def thresholdPartialSlot (crypto : Crypto) (context : RabbitVRFDKGSessionContextV1) (keysetRoot requestID : Hash)
    (shareID : UInt64) : Except PartialStoreError PartialSlot := do
  ensure (keysetRoot ≠ 0 ∧ requestID ≠ 0 ∧ shareID ≠ 0 ∧ shareID.toNat ≤ context.committeeSize)
    .invalidThresholdPartialStoreV1
  let sessionID ← orFail .invalidThresholdPartialStoreV1 (rabbitVRFDKGSessionIDV1 crypto context)
  ensure (sessionID ≠ 0) .invalidThresholdPartialStoreV1
  .ok ⟨sessionID, keysetRoot, requestID, shareID⟩

def thresholdPartialStoreVersionV1 : UInt8 := 1

structure ThresholdPartialStoreFileV1 where
  storeVersion : UInt8
  sessionID : Hash
  keysetRoot : Hash
  requestID : Hash
  shareID : UInt64
  packet : RabbitVRFThresholdPartialV1

def maxDKGTransportKeyStoreFileSizeV1 : Nat := 2 ^ 20

/-- The JSON of a record. Decoding is strict: unknown fields and anything but white space after the record are
refused. -/
structure PartialFileCodec where
  marshalIndent : ThresholdPartialStoreFileV1 → Bytes
  decode : Bytes → Option ThresholdPartialStoreFileV1
  decode_marshalIndent : ∀ record, decode (marshalIndent record ++ [10]) = some record
  length_marshalIndent : ∀ record, (marshalIndent record).length < maxDKGTransportKeyStoreFileSizeV1

structure PrivateFile where
  content : Bytes
  perm : Nat
  deriving DecidableEq

/-- The directory: the files under the names of slots. -/
abbrev PartialFiles := Hash → Option PrivateFile

def readPrivateFileV1 : Option PrivateFile → Except PartialStoreError Bytes
  | none => .error .dkgTransportKeyStoreMissingV1
  | some file => do
    ensure (file.perm &&& 0x3f = 0) .invalidDKGTransportKeyStoreV1
    ensure (file.content.length ≠ 0 ∧ file.content.length ≤ maxDKGTransportKeyStoreFileSizeV1)
      .invalidDKGTransportKeyStoreV1
    .ok file.content

section Store

variable (crypto : Crypto) (codec : PartialFileCodec)

def loadThresholdPartial (files : PartialFiles) (context : RabbitVRFDKGSessionContextV1) (keysetRoot requestID : Hash)
    (shareID : UInt64) : Except PartialStoreError RabbitVRFThresholdPartialV1 := do
  let slot ← thresholdPartialSlot crypto context keysetRoot requestID shareID
  let encoded ← readPrivateFileV1 (files (slot.id crypto))
  let record ← orFail .invalidThresholdPartialStoreV1 (codec.decode encoded)
  ensure (record.storeVersion = thresholdPartialStoreVersionV1 ∧ record.sessionID = slot.sessionID ∧
    record.keysetRoot = keysetRoot ∧ record.requestID = requestID ∧ record.shareID = shareID)
    .invalidThresholdPartialStoreV1
  validateThresholdPartialV1 crypto context record.packet

def RabbitVRFThresholdPartialV1.record (packet : RabbitVRFThresholdPartialV1) : ThresholdPartialStoreFileV1 :=
  ⟨thresholdPartialStoreVersionV1, packet.sessionID, packet.keysetRoot, packet.requestID, packet.shareID, packet⟩

def partialFile (packet : RabbitVRFThresholdPartialV1)  : PrivateFile :=
  ⟨codec.marshalIndent packet.record ++ [10], 0x180⟩

/-! ### Calls -/

/-- Where a call of `Store` stands: each phase is one operation on the directory. -/
inductive StorePhase where
  | stat
  /-- the file is there: it is loaded and compared -/
  | compare
  /-- the directory is made, and the file must not be there -/
  | inspect
  | writeTemp
  | inspectAgain
  | link
  | removeTemp
  | syncDirectory
  /-- writing has failed: is the file there now? -/
  | statAgain (error : PartialStoreError)
  | compareAgain (error : PartialStoreError)
  | done (result : Except PartialStoreError Unit)

def compareStored (packet existing : RabbitVRFThresholdPartialV1) : Except PartialStoreError Unit :=
  if existing = packet then .ok () else .error .thresholdPartialStoreConflictV1

/-- One operation of a call of `Store` with a valid packet; `fault` says that the file system fails it. -/
def storeStep (files : PartialFiles) (context : RabbitVRFDKGSessionContextV1) (packet : RabbitVRFThresholdPartialV1)
    (fault : Bool) : StorePhase → Option (PartialFiles × StorePhase)
  | .stat =>
    if fault then some (files, .done (.error .fileSystem))
    else if (files (packet.slot.id crypto)).isSome then some (files, .compare)
    else some (files, .inspect)
  | .compare =>
    if fault then some (files, .done (.error .fileSystem))
    else some (files, .done (loadThresholdPartial crypto codec files context packet.keysetRoot packet.requestID
      packet.shareID
      >>= compareStored packet))
  | .inspect =>
    if fault then some (files, .statAgain .fileSystem)
    else if (files (packet.slot.id crypto)).isSome then some (files, .statAgain .dkgTransportKeyStoreAlreadyExistsV1)
    else some (files, .writeTemp)
  | .writeTemp => some (files, if fault then .statAgain .fileSystem else .inspectAgain)
  | .inspectAgain =>
    if fault then some (files, .statAgain .fileSystem)
    else if (files (packet.slot.id crypto)).isSome then some (files, .statAgain .dkgTransportKeyStoreAlreadyExistsV1)
    else some (files, .link)
  | .link =>
    if fault then some (files, .statAgain .fileSystem)
    else if (files (packet.slot.id crypto)).isSome then some (files, .statAgain .dkgTransportKeyStoreAlreadyExistsV1)
    else some (Function.update files (packet.slot.id crypto) (some (partialFile codec packet)), .removeTemp)
  | .removeTemp => some (files, if fault then .statAgain .fileSystem else .syncDirectory)
  | .syncDirectory => some (files, if fault then .statAgain .fileSystem else .done (.ok ()))
  | .statAgain error =>
    if fault = false ∧ (files (packet.slot.id crypto)).isSome then some (files, .compareAgain error)
    else some (files, .done (.error error))
  | .compareAgain error =>
    match loadThresholdPartial crypto codec files context packet.keysetRoot packet.requestID packet.shareID with
    | .ok existing => some (files, .done (if fault then .error error else compareStored packet existing))
    | .error _ => some (files, .done (.error error))
  | .done _ => none

structure StoreCall where
  context : RabbitVRFDKGSessionContextV1
  packet : RabbitVRFThresholdPartialV1
  phase : StorePhase
  /-- some operation of the call has failed -/
  faulty : Bool := false

structure LoadCall where
  context : RabbitVRFDKGSessionContextV1
  keysetRoot : Hash
  requestID : Hash
  shareID : UInt64
  result : Option (Except PartialStoreError RabbitVRFThresholdPartialV1) := none
  faulty : Bool := false

inductive PartialCall where
  | store (call : StoreCall)
  | load (call : LoadCall)

/-- A call of `Store` as far as it goes without the directory. -/
def startStore (context : RabbitVRFDKGSessionContextV1) (packet : RabbitVRFThresholdPartialV1) : StoreCall :=
  let checked := do
    let validated ← validateThresholdPartialV1 crypto context packet
    thresholdPartialSlot crypto context validated.keysetRoot validated.requestID validated.shareID
  match checked with
  | .ok _ => { context := context, packet := packet, phase := .stat }
  | .error error => { context := context, packet := packet, phase := .done (.error error) }

/-- A call of `Load`; the arguments are checked before the file system can fail. -/
def finishLoad (files : PartialFiles) (fault : Bool) (call : LoadCall) : LoadCall :=
  let found := match thresholdPartialSlot crypto call.context call.keysetRoot call.requestID call.shareID with
    | .error error => .error error
    | .ok _ =>
      if fault then .error .fileSystem
      else loadThresholdPartial crypto codec files call.context call.keysetRoot call.requestID call.shareID
  { call with result := some found, faulty := fault }

structure PartialSystem where
  files : PartialFiles := fun _ => none
  calls : Nat → Option PartialCall := fun _ => none
  next : Nat := 0

inductive PartialEvent where
  | store (context : RabbitVRFDKGSessionContextV1) (packet : RabbitVRFThresholdPartialV1)
  | load (context : RabbitVRFDKGSessionContextV1) (keysetRoot requestID : Hash) (shareID : UInt64)
  /-- the next operation of a call -/
  | advance (id : Nat) (fault : Bool)

namespace PartialSystem

def addCall (system : PartialSystem) (call : PartialCall) : PartialSystem :=
  { system with calls := Function.update system.calls system.next (some call), next := system.next + 1 }

def setCall (system : PartialSystem) (id : Nat) (call : PartialCall) : PartialSystem :=
  { system with calls := Function.update system.calls id (some call) }

def step (system : PartialSystem) : PartialEvent → Option PartialSystem
  | .store context packet => some (system.addCall (.store (startStore crypto context packet)))
  | .load context keysetRoot requestID shareID =>
      some (system.addCall (.load ⟨context, keysetRoot, requestID, shareID, none, false⟩))
  | .advance id fault => match system.calls id with
    | none => none
    | some (.store call) =>
      (storeStep crypto codec system.files call.context call.packet fault call.phase).map fun after =>
        { system.setCall id (.store { call with phase := after.2, faulty := call.faulty || fault }) with files :=
          after.1 }
    | some (.load call) =>
      if call.result.isSome then none
      else some (system.setCall id (.load (finishLoad crypto codec system.files fault call)))

def About (slots : Set PartialSlot) : PartialEvent → Prop
  | .store context packet => validateThresholdPartialV1 crypto context packet = .ok packet → packet.slot ∈ slots
  | .load context keysetRoot requestID shareID =>
    ∀ slot, thresholdPartialSlot crypto context keysetRoot requestID shareID = .ok slot → slot ∈ slots
  | .advance _ _ => True

/-- The states of every interleaving of calls about some slots, from an empty directory. -/
inductive Reachable (slots : Set PartialSlot) : PartialSystem → Prop where
  | start : Reachable slots {}
  | next {system after : PartialSystem} {event : PartialEvent} : Reachable slots system → About crypto slots event →
      system.step crypto codec event = some after → Reachable slots after

def Persisted (system : PartialSystem) (slot : PartialSlot) (packet : RabbitVRFThresholdPartialV1) : Prop :=
  packet.slot = slot ∧ system.files (slot.id crypto) = some (partialFile codec packet)

end PartialSystem

end Store

end RabbitLqc
