import RabbitLqc.Lib.RlpSize
import RabbitLqc.Vrf.Availability
import RabbitLqc.Vrf.PartialStore

/-!
# Stored threshold partials over all interleavings

Calls of `Store` and `Load` run side by side, in any number of processes on one directory, and the file system may fail
any of their operations. A file that is there stays as it is; what it holds is the packet of the call that linked it.
-/

namespace RabbitLqc
open Lib

variable {crypto : Crypto} {codec : PartialFileCodec}

variable {context other : RabbitVRFDKGSessionContextV1} {keysetRoot requestID : Hash} {shareID : UInt64}

/-! ### What a file holds -/

structure ValidPartial (crypto : Crypto) (context : RabbitVRFDKGSessionContextV1)
    (packet : RabbitVRFThresholdPartialV1) :
    Prop where
  session : rabbitVRFDKGSessionIDV1 crypto context = some packet.sessionID
  keyset : packet.keysetRoot ≠ 0
  request : packet.requestID ≠ 0
  hashed : packet.messageHash ≠ 0
  share : packet.shareID ≠ 0
  inside : packet.shareID.toNat ≤ context.committeeSize
  message : (rabbitVRFThresholdMessageV1 crypto context packet.keysetRoot packet.requestID).map Prod.snd =
    some packet.messageHash
  identified : (rabbitVRFThresholdPartialMessageIDV1 crypto packet).isSome

theorem validateThresholdPartialV1_ok_iff {packet validated : RabbitVRFThresholdPartialV1} :
    validateThresholdPartialV1 crypto context packet = .ok validated ↔
      ValidPartial crypto context packet ∧ validated = packet := by
  simp only [validateThresholdPartialV1, ensure_bind_ok_iff, Except.ok.injEq]
  constructor
  · rintro ⟨⟨session, _, keyset, request, hashed, share, inside⟩, message, identified, rfl⟩
    exact ⟨⟨session, keyset, request, hashed, share, inside, message, identified⟩, rfl⟩
  · rintro ⟨valid, rfl⟩
    exact ⟨⟨valid.session, rabbitVRFDKGSessionIDV1_ne_zero valid.session, valid.keyset, valid.request, valid.hashed,
      valid.share, valid.inside⟩, valid.message, valid.identified, rfl⟩

theorem validateThresholdPartialV1_error {packet : RabbitVRFThresholdPartialV1}
    (invalid : ¬ ValidPartial crypto context packet) :
    validateThresholdPartialV1 crypto context packet = .error .invalidThresholdPartialStoreV1 := by
  cases checked : validateThresholdPartialV1 crypto context packet with
  | ok validated => exact absurd (validateThresholdPartialV1_ok_iff.mp checked).1 invalid
  | error error =>
    simp only [validateThresholdPartialV1, bind_error_iff, ensure_error_iff, ensure_ok_iff, exists_unit, reduceCtorEq,
      and_false, or_false] at checked
    obtain ⟨_, rfl⟩ | ⟨_, ⟨_, rfl⟩ | ⟨_, _, rfl⟩⟩ := checked <;> rfl

theorem thresholdPartialSlot_ok_iff {slot : PartialSlot} :
    thresholdPartialSlot crypto context keysetRoot requestID shareID = .ok slot ↔
      (keysetRoot ≠ 0 ∧ requestID ≠ 0 ∧ shareID ≠ 0 ∧ shareID.toNat ≤ context.committeeSize) ∧
        ∃ sessionID, rabbitVRFDKGSessionIDV1 crypto context = some sessionID ∧
          slot = ⟨sessionID, keysetRoot, requestID, shareID⟩ := by
  simp only [thresholdPartialSlot, bind_ok_iff, ensure_ok_iff, exists_unit, orFail_ok_iff, Except.ok.injEq]
  constructor
  · rintro ⟨arguments, sessionID, session, _, rfl⟩
    exact ⟨arguments, sessionID, session, rfl⟩
  · rintro ⟨arguments, sessionID, session, rfl⟩
    exact ⟨arguments, sessionID, session, rabbitVRFDKGSessionIDV1_ne_zero session, rfl⟩

theorem ValidPartial.slot {packet : RabbitVRFThresholdPartialV1} (valid : ValidPartial crypto context packet) :
    thresholdPartialSlot crypto context packet.keysetRoot packet.requestID packet.shareID = .ok packet.slot :=
  thresholdPartialSlot_ok_iff.mpr ⟨⟨valid.keyset, valid.request, valid.share, valid.inside⟩, _, valid.session, rfl⟩

theorem ValidPartial.of_slot {packet : RabbitVRFThresholdPartialV1} (valid : ValidPartial crypto context packet)
    (slot : thresholdPartialSlot crypto other keysetRoot requestID shareID = .ok packet.slot) :
    ValidPartial crypto other packet ∧ keysetRoot = packet.keysetRoot ∧ requestID = packet.requestID ∧
      shareID = packet.shareID := by
  obtain ⟨⟨_, _, _, inside⟩, sessionID, session, same⟩ := thresholdPartialSlot_ok_iff.mp slot
  simp only [RabbitVRFThresholdPartialV1.slot, PartialSlot.mk.injEq] at same
  obtain ⟨rfl, rfl, rfl, rfl⟩ := same
  refine ⟨⟨session, valid.keyset, valid.request, valid.hashed, valid.share, inside, ?_, valid.identified⟩, rfl,
    rfl, rfl⟩
  have message := valid.message
  simp only [rabbitVRFThresholdMessageV1, valid.session, session] at message ⊢
  exact message

@[simp] theorem partialFile_inj {packet other : RabbitVRFThresholdPartialV1} :
    partialFile codec packet = partialFile codec other ↔ packet = other := by
  constructor
  · intro same
    have read := codec.decode_marshalIndent packet.record
    rw [show codec.marshalIndent packet.record ++ [10] = codec.marshalIndent other.record ++ [10] from
      congrArg PrivateFile.content same, codec.decode_marshalIndent] at read
    exact (congrArg ThresholdPartialStoreFileV1.packet (Option.some.inj read)).symm
  · rintro rfl
    rfl

theorem readPrivateFileV1_partialFile (packet : RabbitVRFThresholdPartialV1) :
    readPrivateFileV1 (some (partialFile codec packet)) = .ok (codec.marshalIndent packet.record ++ [10]) := by
  have small := codec.length_marshalIndent packet.record
  have private' : (partialFile codec packet).perm &&& 0x3f = 0 := by
    show 0x180 &&& 0x3f = 0
    decide
  have size : (partialFile codec packet).content.length = (codec.marshalIndent packet.record).length + 1 := by
    simp [partialFile]
  simp only [readPrivateFileV1, ensure_bind_ok_iff, size]
  exact ⟨private', ⟨by omega, by omega⟩, rfl⟩

theorem load_partialFile {files : PartialFiles} {packet : RabbitVRFThresholdPartialV1}
    (valid : ValidPartial crypto other packet)
    (slot : thresholdPartialSlot crypto context keysetRoot requestID shareID = .ok packet.slot)
    (found : files (packet.slot.id crypto) = some (partialFile codec packet)) :
    loadThresholdPartial crypto codec files context keysetRoot requestID shareID = .ok packet := by
  obtain ⟨valid', rfl, rfl, rfl⟩ := valid.of_slot slot
  simp only [loadThresholdPartial, bind_ok_iff, orFail_ok_iff, ensure_ok_iff, exists_unit]
  refine ⟨packet.slot, slot, _, by rw [found]; exact readPrivateFileV1_partialFile packet, packet.record,
    codec.decode_marshalIndent _, ⟨rfl, rfl, rfl, rfl, rfl⟩, ?_⟩
  exact validateThresholdPartialV1_ok_iff.mpr ⟨valid', rfl⟩

theorem load_missing {files : PartialFiles} {slot : PartialSlot}
    (found : thresholdPartialSlot crypto context keysetRoot requestID shareID = .ok slot)
    (absent : files (slot.id crypto) = none) :
    loadThresholdPartial crypto codec files context keysetRoot requestID shareID =
      .error .dkgTransportKeyStoreMissingV1 := by
  rw [loadThresholdPartial, found]
  show (readPrivateFileV1 (files (slot.id crypto)) >>= _) = _
  rw [absent]
  rfl

namespace PartialSystem

variable {name : Hash} {slots : Set PartialSlot} {before after : PartialFiles} {call : StoreCall}
  {system : PartialSystem} {id : Nat} {phase : StorePhase}

/-! ### The directory -/

def Filed (crypto : Crypto) (codec : PartialFileCodec) (slots : Set PartialSlot) (files : PartialFiles) : Prop :=
  ∀ name file, files name = some file → ∃ context packet, ValidPartial crypto context packet ∧ packet.slot ∈ slots ∧
    packet.slot.id crypto = name ∧ file = partialFile codec packet

def Keeps (before after : PartialFiles) : Prop := ∀ name file, before name = some file → after name = some file

theorem Keeps.refl (files : PartialFiles) : Keeps files files := fun _ _ found => found

theorem Keeps.update {files : PartialFiles} {file : PrivateFile} (absent : files name = none) :
    Keeps files (Function.update files name (some file)) := by
  intro other kept found
  have apart : other ≠ name := by
    rintro rfl
    rw [absent] at found
    cases found
  rw [Function.update_of_ne apart, found]

section Slots

variable {slots : Set PartialSlot} (separated : Set.InjOn (PartialSlot.id crypto) slots)

include separated

theorem Filed.packet {files : PartialFiles} (filed : Filed crypto codec slots files) {slot : PartialSlot}
    (listed : slot ∈ slots) {file : PrivateFile} (found : files (slot.id crypto) = some file) :
    ∃ context packet, ValidPartial crypto context packet ∧ packet.slot = slot ∧ file = partialFile codec packet := by
  obtain ⟨context, packet, valid, known, name, rfl⟩ := filed _ _ found
  exact ⟨context, packet, valid, separated known listed name, rfl⟩

theorem Filed.load {files : PartialFiles} (filed : Filed crypto codec slots files) {slot : PartialSlot}
    (listed : slot ∈ slots) {context : RabbitVRFDKGSessionContextV1} {keysetRoot requestID : Hash} {shareID : UInt64}
    (slotted : thresholdPartialSlot crypto context keysetRoot requestID shareID = .ok slot)
    (there : (files (slot.id crypto)).isSome) :
    ∃ packet, packet.slot = slot ∧ files (slot.id crypto) = some (partialFile codec packet) ∧
      loadThresholdPartial crypto codec files context keysetRoot requestID shareID = .ok packet := by
  obtain ⟨file, found⟩ := Option.isSome_iff_exists.mp there
  obtain ⟨other, packet, valid, rfl, rfl⟩ := filed.packet separated listed found
  exact ⟨packet, rfl, found, load_partialFile valid slotted found⟩

end Slots

theorem Filed.update {files : PartialFiles} (filed : Filed crypto codec slots files)
    {packet : RabbitVRFThresholdPartialV1} (valid : ValidPartial crypto context packet) (listed : packet.slot ∈ slots) :
    Filed crypto codec slots (Function.update files (packet.slot.id crypto) (some (partialFile codec packet))) := by
  intro name file found
  by_cases same : name = packet.slot.id crypto
  · subst same
    rw [Function.update_self, Option.some.injEq] at found
    exact ⟨context, packet, valid, listed, rfl, found.symm⟩
  · rw [Function.update_of_ne same] at found
    exact filed name file found

/-! ### Calls of `Store` -/

def Stored (crypto : Crypto) (codec : PartialFileCodec) (files : PartialFiles) (packet : RabbitVRFThresholdPartialV1) :
    Prop :=
  files (packet.slot.id crypto) = some (partialFile codec packet)

def Conflicting (crypto : Crypto) (codec : PartialFileCodec) (files : PartialFiles)
    (packet : RabbitVRFThresholdPartialV1) :
    Prop :=
  ∃ other, other ≠ packet ∧ other.slot = packet.slot ∧ files (packet.slot.id crypto) = some (partialFile codec other)

/-- What a call that has ended says about the directory. -/
structure Ended (crypto : Crypto) (codec : PartialFileCodec) (files : PartialFiles) (call : StoreCall)
    (result : Except PartialStoreError Unit) : Prop where
  stored : result = .ok () → ValidPartial crypto call.context call.packet ∧ Stored crypto codec files call.packet
  conflict : result = .error .thresholdPartialStoreConflictV1 →
    ValidPartial crypto call.context call.packet ∧ Conflicting crypto codec files call.packet
  exact' : call.faulty = false →
    ValidPartial crypto call.context call.packet ∧
        (result = .ok () ∨ result = .error .thresholdPartialStoreConflictV1) ∨
      ¬ ValidPartial crypto call.context call.packet ∧ result = .error .invalidThresholdPartialStoreV1

def PhaseSound (crypto : Crypto) (codec : PartialFileCodec) (files : PartialFiles) (call : StoreCall) : Prop :=
  match call.phase with
  | .stat | .inspect | .writeTemp | .inspectAgain | .link => True
  | .compare => (files (call.packet.slot.id crypto)).isSome
  | .removeTemp | .syncDirectory => Stored crypto codec files call.packet
  | .statAgain error => error ≠ .thresholdPartialStoreConflictV1 ∧
      (call.faulty = false → (files (call.packet.slot.id crypto)).isSome)
  | .compareAgain error => error ≠ .thresholdPartialStoreConflictV1 ∧ (files (call.packet.slot.id crypto)).isSome
  | .done _ => True

/-- A call that has not ended has a valid packet of one of the slots. -/
structure StoreSound (crypto : Crypto) (codec : PartialFileCodec) (slots : Set PartialSlot) (files : PartialFiles)
    (call : StoreCall) : Prop where
  ongoing : (∀ result, call.phase ≠ .done result) →
    ValidPartial crypto call.context call.packet ∧ call.packet.slot ∈ slots
  phase : PhaseSound crypto codec files call
  ended : ∀ result, call.phase = .done result → Ended crypto codec files call result

theorem isSome_keeps (keeps : Keeps before after) (there : (before name).isSome) : (after name).isSome := by
  obtain ⟨file, found⟩ := Option.isSome_iff_exists.mp there
  rw [keeps name file found]
  rfl

theorem StoreSound.keeps (sound : StoreSound crypto codec slots before call) (keeps : Keeps before after) :
    StoreSound crypto codec slots after call where
  ongoing := sound.ongoing
  phase := by
    have phase := sound.phase
    unfold PhaseSound at phase ⊢
    split <;> simp_all only
    · exact isSome_keeps keeps phase
    · exact keeps _ _ phase
    · exact keeps _ _ phase
    · exact ⟨fun same => phase.1 same, fun clean => isSome_keeps keeps (phase.2 clean)⟩
    · exact ⟨phase.1, isSome_keeps keeps phase.2⟩
  ended := by
    intro result done
    have ended := sound.ended result done
    refine ⟨fun ok => ⟨(ended.stored ok).1, keeps _ _ (ended.stored ok).2⟩, ?_, ended.exact'⟩
    intro conflict
    obtain ⟨valid, other, apart, slot, found⟩ := ended.conflict conflict
    exact ⟨valid, other, apart, slot, keeps _ _ found⟩

theorem StoreSound.of_ongoing {files : PartialFiles} (valid : ValidPartial crypto call.context call.packet)
    (listed : call.packet.slot ∈ slots) (ongoing : ∀ result, call.phase ≠ .done result)
    (phase : PhaseSound crypto codec files call) : StoreSound crypto codec slots files call :=
  ⟨fun _ => ⟨valid, listed⟩, phase, fun result done => absurd done (ongoing result)⟩

theorem StoreSound.of_ended {files : PartialFiles} {result : Except PartialStoreError Unit}
    (done : call.phase = .done result) (ended : Ended crypto codec files call result) :
    StoreSound crypto codec slots files call := by
  refine ⟨fun ongoing => absurd done (ongoing result), ?_, ?_⟩
  · rw [PhaseSound, done]
    trivial
  · intro other same
    rw [done, StorePhase.done.injEq] at same
    exact same ▸ ended

theorem ended_compareStored {files : PartialFiles} {existing : RabbitVRFThresholdPartialV1}
    (valid : ValidPartial crypto call.context call.packet) (slot : existing.slot = call.packet.slot)
    (found : files (call.packet.slot.id crypto) = some (partialFile codec existing)) :
    Ended crypto codec files call (compareStored call.packet existing) := by
  by_cases same : existing = call.packet
  · rw [compareStored, if_pos same]
    refine ⟨fun _ => ⟨valid, same ▸ found⟩, ?_, fun _ => .inl ⟨valid, .inl rfl⟩⟩
    intro conflict
    cases conflict
  · rw [compareStored, if_neg same]
    refine ⟨?_, fun _ => ⟨valid, existing, same, slot, found⟩, fun _ => .inl ⟨valid, .inr rfl⟩⟩
    intro ok
    cases ok

theorem ended_faulty {files : PartialFiles} {error : PartialStoreError}
    (other : error ≠ .thresholdPartialStoreConflictV1) (faulty : call.faulty = true) :
    Ended crypto codec files call (.error error) := by
  refine ⟨?_, ?_, ?_⟩
  · intro ok
    cases ok
  · intro conflict
    exact absurd (Except.error.inj conflict) other
  · intro clean
    rw [faulty] at clean
    cases clean

/-- The directory, and a call after one of its operations. -/
structure StepSound (crypto : Crypto) (codec : PartialFileCodec) (slots : Set PartialSlot) (before : PartialFiles)
    (call : StoreCall) (fault : Bool) (after : PartialFiles × StorePhase) : Prop where
  filed : Filed crypto codec slots after.1
  keeps : Keeps before after.1
  call : StoreSound crypto codec slots after.1 { call with phase := after.2, faulty := call.faulty || fault }

section Steps

variable {slots : Set PartialSlot} (separated : Set.InjOn (PartialSlot.id crypto) slots) {files : PartialFiles}
  {call : StoreCall} {fault : Bool} {after : PartialFiles × StorePhase}

theorem StepSound.stay (filed : Filed crypto codec slots files) (valid : ValidPartial crypto call.context call.packet)
    (listed : call.packet.slot ∈ slots) {phase : StorePhase} (ongoing : ∀ result, phase ≠ .done result)
    (sound : PhaseSound crypto codec files { call with phase := phase, faulty := call.faulty || fault }) :
    StepSound crypto codec slots files call fault (files, phase) :=
  ⟨filed, .refl files, .of_ongoing valid listed ongoing sound⟩

theorem StepSound.finish (filed : Filed crypto codec slots files) {result : Except PartialStoreError Unit}
    (ended : Ended crypto codec files { call with phase := .done result, faulty := call.faulty || fault } result) :
    StepSound crypto codec slots files call fault (files, .done result) :=
  ⟨filed, .refl files, .of_ended rfl ended⟩

include separated

theorem stepSound_compare (filed : Filed crypto codec slots files) (sound : StoreSound crypto codec slots files call)
    (phase : call.phase = .compare)
    (stepped : storeStep crypto codec files call.context call.packet fault .compare = some after) :
    StepSound crypto codec slots files call fault after := by
  obtain ⟨valid, listed⟩ := sound.ongoing (by simp [phase])
  have there := sound.phase
  rw [PhaseSound, phase] at there
  cases fault with
  | true =>
    cases stepped
    exact .finish filed (ended_faulty (by decide) (by simp))
  | false =>
    obtain ⟨existing, slot, found, loaded⟩ := filed.load separated listed valid.slot there
    rw [storeStep, loaded] at stepped
    cases stepped
    exact .finish filed (ended_compareStored valid slot found)

theorem stepSound_compareAgain (filed : Filed crypto codec slots files)
    (sound : StoreSound crypto codec slots files call)
    {error : PartialStoreError} (phase : call.phase = .compareAgain error)
    (stepped : storeStep crypto codec files call.context call.packet fault (.compareAgain error) = some after) :
    StepSound crypto codec slots files call fault after := by
  obtain ⟨valid, listed⟩ := sound.ongoing (by simp [phase])
  have there := sound.phase
  rw [PhaseSound, phase] at there
  obtain ⟨existing, slot, found, loaded⟩ := filed.load separated listed valid.slot there.2
  rw [storeStep, loaded] at stepped
  cases fault with
  | true =>
    cases stepped
    exact .finish filed (ended_faulty there.1 (by simp))
  | false =>
    cases stepped
    exact .finish filed (ended_compareStored valid slot found)

omit separated

theorem stepSound_link (filed : Filed crypto codec slots files) (sound : StoreSound crypto codec slots files call)
    (phase : call.phase = .link)
    (stepped : storeStep crypto codec files call.context call.packet fault .link = some after) :
    StepSound crypto codec slots files call fault after := by
  obtain ⟨valid, listed⟩ := sound.ongoing (by simp [phase])
  rw [storeStep] at stepped
  split at stepped
  · rename_i failed
    cases stepped
    exact .stay filed valid listed (by simp) ⟨by decide, by simp [failed]⟩
  split at stepped
  · rename_i there
    cases stepped
    exact .stay filed valid listed (by simp) ⟨by decide, fun _ => there⟩
  · rename_i absent
    cases stepped
    have free : files (call.packet.slot.id crypto) = none := by simpa using absent
    refine ⟨filed.update valid listed, .update free, .of_ongoing valid listed (by simp) ?_⟩
    exact Function.update_self _ _ _

theorem stepSound_inspect (filed : Filed crypto codec slots files)
    (valid : ValidPartial crypto call.context call.packet)
    (listed : call.packet.slot ∈ slots) (next : StorePhase) (ongoing : ∀ result, next ≠ .done result)
    (sound : PhaseSound crypto codec files { call with phase := next, faulty := call.faulty || fault })
    (stepped : (if fault then some (files, .statAgain .fileSystem)
      else if (files (call.packet.slot.id crypto)).isSome then
        some (files, .statAgain .dkgTransportKeyStoreAlreadyExistsV1)
      else some (files, next)) = some after) :
    StepSound crypto codec slots files call fault after := by
  split at stepped
  · rename_i failed
    cases stepped
    exact .stay filed valid listed (by simp) ⟨by decide, by simp [failed]⟩
  split at stepped
  · rename_i there
    cases stepped
    exact .stay filed valid listed (by simp) ⟨by decide, fun _ => there⟩
  · cases stepped
    exact .stay filed valid listed ongoing sound

theorem stepSound_goOn (filed : Filed crypto codec slots files) (valid : ValidPartial crypto call.context call.packet)
    (listed : call.packet.slot ∈ slots) (next : StorePhase) (ongoing : ∀ result, next ≠ .done result)
    (sound : fault = false → PhaseSound crypto codec files { call with phase := next, faulty := call.faulty || fault })
    (stepped : some (files, if fault then .statAgain .fileSystem else next) = some after) :
    StepSound crypto codec slots files call fault after := by
  cases fault <;> cases stepped
  · exact .stay filed valid listed ongoing (sound rfl)
  · exact .stay filed valid listed (by simp) ⟨by decide, by simp⟩

include separated

theorem storeStep_sound (filed : Filed crypto codec slots files) (sound : StoreSound crypto codec slots files call)
    (stepped : storeStep crypto codec files call.context call.packet fault call.phase = some after) :
    StepSound crypto codec slots files call fault after := by
  have phaseSound := sound.phase
  have ongoing := sound.ongoing
  rw [PhaseSound] at phaseSound
  cases phase : call.phase <;> rw [phase] at stepped phaseSound ongoing
  case compare => exact stepSound_compare separated filed sound phase stepped
  case compareAgain error => exact stepSound_compareAgain separated filed sound phase stepped
  case link => exact stepSound_link filed sound phase stepped
  case done => cases stepped
  all_goals obtain ⟨valid, listed⟩ := ongoing (by simp)
  case stat =>
    rw [storeStep] at stepped
    split at stepped
    · rename_i failed
      cases stepped
      exact .finish filed (ended_faulty (by decide) (by simp [failed]))
    split at stepped
    · rename_i there
      cases stepped
      exact .stay filed valid listed (by simp) there
    · cases stepped
      exact .stay filed valid listed (by simp) trivial
  case inspect => exact stepSound_inspect filed valid listed .writeTemp (by simp) trivial stepped
  case inspectAgain => exact stepSound_inspect filed valid listed .link (by simp) trivial stepped
  case writeTemp => exact stepSound_goOn filed valid listed .inspectAgain (by simp) (fun _ => trivial) stepped
  case removeTemp => exact stepSound_goOn filed valid listed .syncDirectory (by simp) (fun _ => phaseSound) stepped
  case syncDirectory =>
    cases fault <;> cases stepped
    · refine .finish filed ⟨fun _ => ⟨valid, phaseSound⟩, ?_, fun _ => .inl ⟨valid, .inl rfl⟩⟩
      intro conflict
      cases conflict
    · exact .stay filed valid listed (by simp) ⟨by decide, by simp⟩
  case statAgain error =>
    rw [storeStep] at stepped
    split at stepped
    · rename_i there
      cases stepped
      exact .stay filed valid listed (by simp) ⟨phaseSound.1, there.2⟩
    · rename_i gone
      cases stepped
      refine .finish filed (ended_faulty phaseSound.1 ?_)
      -- without a failed operation the file would be there
      by_contra clean
      simp only [Bool.or_eq_true, not_or, Bool.not_eq_true] at clean
      exact gone ⟨clean.2, phaseSound.2 clean.1⟩

end Steps

/-! ### All calls together -/

/-- What a call of `Load` has found. -/
structure LoadSound (crypto : Crypto) (codec : PartialFileCodec) (slots : Set PartialSlot) (files : PartialFiles)
    (call : LoadCall) : Prop where
  listed : ∀ slot, thresholdPartialSlot crypto call.context call.keysetRoot call.requestID call.shareID = .ok slot →
    slot ∈ slots
  found : ∀ packet, call.result = some (.ok packet) →
    thresholdPartialSlot crypto call.context call.keysetRoot call.requestID call.shareID = .ok packet.slot ∧
      Stored crypto codec files packet

theorem LoadSound.keeps {call : LoadCall} (sound : LoadSound crypto codec slots before call)
    (keeps : Keeps before after) : LoadSound crypto codec slots after call := by
  refine ⟨sound.listed, ?_⟩
  intro packet result
  obtain ⟨slotted, stored⟩ := sound.found packet result
  exact ⟨slotted, keeps _ _ stored⟩

def CallSound (crypto : Crypto) (codec : PartialFileCodec) (slots : Set PartialSlot) (files : PartialFiles) :
    PartialCall → Prop
  | .store call => StoreSound crypto codec slots files call
  | .load call => LoadSound crypto codec slots files call

theorem CallSound.keeps (keeps : Keeps before after) :
    ∀ {call : PartialCall}, CallSound crypto codec slots before call → CallSound crypto codec slots after call
  | .store _, sound => StoreSound.keeps sound keeps
  | .load _, sound => LoadSound.keeps sound keeps

structure Sound (crypto : Crypto) (codec : PartialFileCodec) (slots : Set PartialSlot) (system : PartialSystem) :
    Prop where
  filed : Filed crypto codec slots system.files
  calls : ∀ id call, system.calls id = some call → CallSound crypto codec slots system.files call

theorem Sound.put {after : PartialSystem} (sound : Sound crypto codec slots system)
    (filed : Filed crypto codec slots after.files) (keeps : Keeps system.files after.files) {call : PartialCall}
    (calls : after.calls = Function.update system.calls id (some call))
    (its : CallSound crypto codec slots after.files call) : Sound crypto codec slots after := by
  refine ⟨filed, ?_⟩
  intro other otherCall found
  rw [calls] at found
  by_cases same : other = id
  · rw [same, Function.update_self, Option.some.injEq] at found
    exact found ▸ its
  · rw [Function.update_of_ne same] at found
    exact (sound.calls other otherCall found).keeps keeps

theorem startStore_valid {packet : RabbitVRFThresholdPartialV1} (valid : ValidPartial crypto context packet) :
    startStore crypto context packet = { context := context, packet := packet, phase := .stat } := by
  have checked : (validateThresholdPartialV1 crypto context packet >>= fun validated =>
      thresholdPartialSlot crypto context validated.keysetRoot validated.requestID validated.shareID) =
        .ok packet.slot :=
    bind_ok_iff.mpr ⟨packet, validateThresholdPartialV1_ok_iff.mpr ⟨valid, rfl⟩, valid.slot⟩
  unfold startStore
  dsimp only
  rw [checked]

theorem startStore_sound {files : PartialFiles} {packet : RabbitVRFThresholdPartialV1}
    (about : About crypto slots (.store context packet)) :
    StoreSound crypto codec slots files (startStore crypto context packet) := by
  by_cases valid : ValidPartial crypto context packet
  · rw [startStore_valid valid]
    exact .of_ongoing valid (about (validateThresholdPartialV1_ok_iff.mpr ⟨valid, rfl⟩)) (by simp) trivial
  · have refused : startStore crypto context packet =
        { context := context, packet := packet, phase := .done (.error .invalidThresholdPartialStoreV1) } := by
      rw [startStore, validateThresholdPartialV1_error valid]
      rfl
    rw [refused]
    refine .of_ended rfl ⟨?_, ?_, fun _ => .inr ⟨valid, rfl⟩⟩ <;>
    · intro impossible
      cases impossible

section Runs

variable {slots : Set PartialSlot} (separated : Set.InjOn (PartialSlot.id crypto) slots)

include separated

theorem finishLoad_sound {files : PartialFiles} (filed : Filed crypto codec slots files) {call : LoadCall}
    (sound : LoadSound crypto codec slots files call) (fault : Bool) :
    LoadSound crypto codec slots files (finishLoad crypto codec files fault call) := by
  refine ⟨sound.listed, ?_⟩
  intro packet result
  have found := Option.some.inj result
  dsimp only [finishLoad] at found ⊢
  split at found
  · cases found
  rename_i slot slotted
  split at found
  · cases found
  have listed := sound.listed slot slotted
  cases there : files (slot.id crypto) with
  | none =>
    rw [load_missing slotted there] at found
    cases found
  | some file =>
    obtain ⟨stored, rfl, at', loaded⟩ := filed.load separated listed slotted (by rw [there]; rfl)
    rw [loaded, Except.ok.injEq] at found
    exact ⟨found ▸ slotted, found ▸ at'⟩

theorem Sound.step {system after : PartialSystem} {event : PartialEvent} (sound : Sound crypto codec slots system)
    (about : About crypto slots event) (stepped : system.step crypto codec event = some after) :
    Sound crypto codec slots after ∧ Keeps system.files after.files := by
  cases event with
  | store context packet =>
    cases stepped
    exact ⟨sound.put sound.filed (.refl _) rfl (startStore_sound about), .refl _⟩
  | load context keysetRoot requestID shareID =>
    cases stepped
    refine ⟨sound.put sound.filed (.refl _) rfl ⟨about, ?_⟩, .refl _⟩
    intro packet result
    cases result
  | advance id fault =>
    rw [PartialSystem.step] at stepped
    split at stepped
    · cases stepped
    · rename_i call known
      obtain ⟨next, moved, rfl⟩ := Option.map_eq_some_iff.mp stepped
      have stepSound := storeStep_sound separated sound.filed (sound.calls id _ known) moved
      exact ⟨sound.put stepSound.filed stepSound.keeps rfl stepSound.call, stepSound.keeps⟩
    · rename_i call known
      split at stepped
      · cases stepped
      cases stepped
      have loaded := finishLoad_sound separated sound.filed (sound.calls id _ known) fault
      exact ⟨sound.put sound.filed (.refl _) rfl loaded, .refl _⟩

theorem Reachable.sound {system : PartialSystem} (reachable : Reachable crypto codec slots system) :
    Sound crypto codec slots system := by
  induction reachable with
  | start =>
    refine ⟨?_, ?_⟩
    · intro name file found
      cases found
    · intro id call found
      cases found
  | next _ about stepped ih => exact (ih.step separated about stepped).1

end Runs

/-! ### Where packets come from, and how calls end -/

theorem storeStep_files {files : PartialFiles} {packet : RabbitVRFThresholdPartialV1} {fault : Bool}
    {after : PartialFiles × StorePhase}
    (stepped : storeStep crypto codec files context packet fault phase = some after) :
    after.1 = files ∨ phase = .link ∧
      after.1 = Function.update files (packet.slot.id crypto) (some (partialFile codec packet)) := by
  cases phase <;> simp only [storeStep] at stepped
  case link =>
    split at stepped
    · cases stepped
      exact .inl rfl
    split at stepped
    · cases stepped
      exact .inl rfl
    · cases stepped
      exact .inr ⟨rfl, rfl⟩
  case compareAgain =>
    split at stepped <;> cases stepped <;> exact .inl rfl
  case done => cases stepped
  case stat | inspect | inspectAgain =>
    split at stepped
    · cases stepped
      exact .inl rfl
    split at stepped <;> cases stepped <;> exact .inl rfl
  case compare | statAgain =>
    split at stepped <;> cases stepped <;> exact .inl rfl
  all_goals
    cases stepped
    exact .inl rfl

/-- The packet of a call of `Store`. -/
def handedIn : PartialCall → Option RabbitVRFThresholdPartialV1
  | .store call => some call.packet
  | .load _ => none

/-- Each file is that of a packet some call was given. -/
structure Origin (crypto : Crypto) (codec : PartialFileCodec) (system : PartialSystem) : Prop where
  fresh : ∀ id, system.next ≤ id → system.calls id = none
  files : ∀ name file, system.files name = some file → ∃ id call packet, system.calls id = some call ∧
    handedIn call = some packet ∧ packet.slot.id crypto = name ∧ file = partialFile codec packet

theorem Origin.put {after : PartialSystem} (origin : Origin crypto codec system) {call : PartialCall}
    (calls : after.calls = Function.update system.calls id (some call)) (below : id < after.next)
    (grows : system.next ≤ after.next)
    (kept : ∀ before, system.calls id = some before → handedIn call = handedIn before)
    (files : ∀ name file, after.files name = some file → system.files name = some file ∨
        ∃ packet, handedIn call = some packet ∧ packet.slot.id crypto = name ∧ file = partialFile codec packet) :
    Origin crypto codec after := by
  refine ⟨?_, ?_⟩
  · intro other above
    rw [calls, Function.update_of_ne (Nat.ne_of_gt (Nat.lt_of_lt_of_le below above))]
    exact origin.fresh other (Nat.le_trans grows above)
  · intro name file found
    obtain old | ⟨packet, given, named, rfl⟩ := files name file found
    · obtain ⟨other, its, packet, known, given, named, rfl⟩ := origin.files name file old
      by_cases same : other = id
      · subst same
        exact ⟨other, call, packet, by rw [calls, Function.update_self], (kept its known).trans given, named, rfl⟩
      · exact ⟨other, its, packet, by rw [calls, Function.update_of_ne same, known], given, named, rfl⟩
    · exact ⟨id, call, packet, by rw [calls, Function.update_self], given, named, rfl⟩

theorem Origin.addCall (origin : Origin crypto codec system) (call : PartialCall) :
    Origin crypto codec (system.addCall call) := by
  refine origin.put rfl (Nat.lt_succ_self _) (Nat.le_succ _) ?_ fun _ _ found => .inl found
  intro before known
  rw [origin.fresh _ le_rfl] at known
  cases known

theorem Origin.below (origin : Origin crypto codec system) {call : PartialCall} (known : system.calls id = some call) :
    id < system.next := by
  by_contra above
  rw [origin.fresh id (Nat.le_of_not_lt above)] at known
  cases known

theorem Origin.step {system after : PartialSystem} {event : PartialEvent} (origin : Origin crypto codec system)
    (stepped : system.step crypto codec event = some after) : Origin crypto codec after := by
  cases event with
  | store context packet =>
    cases stepped
    exact origin.addCall _
  | load context keysetRoot requestID shareID =>
    cases stepped
    exact origin.addCall _
  | advance id fault =>
    rw [PartialSystem.step] at stepped
    split at stepped
    · cases stepped
    · rename_i call known
      obtain ⟨next, moved, rfl⟩ := Option.map_eq_some_iff.mp stepped
      refine origin.put rfl (origin.below known) le_rfl ?_ ?_
      · intro before same
        rw [known, Option.some.injEq] at same
        exact same ▸ rfl
      · intro name file found
        obtain same | ⟨_, linked⟩ := storeStep_files moved
        · exact .inl (same ▸ found)
        · dsimp only at found
          rw [linked] at found
          by_cases here : name = call.packet.slot.id crypto
          · rw [here, Function.update_self, Option.some.injEq] at found
            exact .inr ⟨call.packet, rfl, here.symm, found.symm⟩
          · rw [Function.update_of_ne here] at found
            exact .inl found
    · rename_i call known
      split at stepped
      · cases stepped
      cases stepped
      refine origin.put rfl (origin.below known) le_rfl ?_ fun _ _ found => .inl found
      intro before same
      rw [known, Option.some.injEq] at same
      exact same ▸ rfl

theorem Reachable.origin (reachable : Reachable crypto codec slots system) : Origin crypto codec system := by
  induction reachable with
  | start =>
    refine ⟨fun _ _ => rfl, ?_⟩
    intro name file found
    cases found
  | next _ _ stepped ih => exact ih.step stepped

def phaseRank : StorePhase → Nat
  | .stat => 10
  | .inspect => 9
  | .writeTemp => 8
  | .inspectAgain => 7
  | .link => 6
  | .removeTemp => 5
  | .syncDirectory => 4
  | .statAgain _ => 2
  | .compare | .compareAgain _ => 1
  | .done _ => 0

theorem storeStep_rank (files : PartialFiles) (context : RabbitVRFDKGSessionContextV1)
    (packet : RabbitVRFThresholdPartialV1) (fault : Bool) (ongoing : ∀ result, phase ≠ .done result) :
    ∃ after, storeStep crypto codec files context packet fault phase = some after ∧
      phaseRank after.2 < phaseRank phase := by
  cases phase <;> simp only [storeStep]
  case done result => exact absurd rfl (ongoing result)
  case stat | inspect | inspectAgain | link =>
    split
    · exact ⟨_, rfl, by simp [phaseRank]⟩
    split <;> exact ⟨_, rfl, by simp [phaseRank]⟩
  case compare | compareAgain | statAgain => split <;> exact ⟨_, rfl, by simp [phaseRank]⟩
  case writeTemp | removeTemp | syncDirectory => cases fault <;> exact ⟨_, rfl, by simp [phaseRank]⟩

/-- One call makes some operations, none of which fails, and the others wait. -/
def advances (crypto : Crypto) (codec : PartialFileCodec) (id : Nat) : Nat → PartialSystem → Option PartialSystem
  | 0, system => some system
  | count + 1, system => (system.step crypto codec (.advance id false)).bind (advances crypto codec id count)

theorem store_first (known : system.calls id = some (.store call)) (start : call.phase = .stat)
    (absent : system.files (call.packet.slot.id crypto) = none) :
    ∃ after, advances crypto codec id 7 system = some after ∧
      after.calls id = some (.store { call with phase := .done (.ok ()) }) ∧
        Stored crypto codec after.files call.packet := by
  obtain ⟨files, calls, next⟩ := system
  obtain ⟨context, packet, phase, faulty⟩ := call
  dsimp only at known start absent
  subst start
  refine ⟨⟨Function.update files (packet.slot.id crypto) (some (partialFile codec packet)),
    Function.update calls id (some (.store ⟨context, packet, .done (.ok ()), faulty⟩)), next⟩, ?_, ?_, ?_⟩
  · simp [advances, PartialSystem.step, known, storeStep, absent, setCall]
  · exact Function.update_self _ _ _
  · exact Function.update_self _ _ _

end PartialSystem

open PartialSystem in
/-- The store of threshold partials over every interleaving of calls about slots whose names differ, with any failures
of the file system: a file is never changed, so a slot has one packet for good, and that packet was given to some call
of `Store`. A call that succeeds has found or left its own valid packet there; a conflict is with another one. A call
without a failed operation succeeds exactly if its packet is valid and is the one of the slot, and the first one
always is. Loads return the packet of the slot. No call gets stuck. -/
theorem threshold_partials_never_equivocate (crypto : Crypto) (codec : PartialFileCodec) (slots : Set PartialSlot)
    (separated : Set.InjOn (PartialSlot.id crypto) slots) (system : PartialSystem)
    (reachable : Reachable crypto codec slots system) :
    (∀ event after, About crypto slots event → system.step crypto codec event = some after →
      ∀ name file, system.files name = some file → after.files name = some file) ∧
    (∀ slot first second, system.Persisted crypto codec slot first → system.Persisted crypto codec slot second →
      first = second) ∧
    (∀ slot ∈ slots, (system.files (slot.id crypto)).isSome → ∃ packet, system.Persisted crypto codec slot packet ∧
      ∃ id call, system.calls id = some (.store call) ∧ call.packet = packet) ∧
    (∀ id call result, system.calls id = some (.store call) → call.phase = .done result →
      (result = .ok () → validateThresholdPartialV1 crypto call.context call.packet = .ok call.packet ∧
        system.Persisted crypto codec call.packet.slot call.packet) ∧
      (result = .error .thresholdPartialStoreConflictV1 →
        ∃ other, other ≠ call.packet ∧ system.Persisted crypto codec call.packet.slot other) ∧
      (call.faulty = false →
        (validateThresholdPartialV1 crypto call.context call.packet = .ok call.packet →
          ∃ stored, system.Persisted crypto codec call.packet.slot stored ∧
            result = if stored = call.packet then .ok () else .error .thresholdPartialStoreConflictV1) ∧
        (validateThresholdPartialV1 crypto call.context call.packet ≠ .ok call.packet →
          result = .error .invalidThresholdPartialStoreV1))) ∧
    (∀ id call, system.calls id = some (.store call) → call.phase = .stat →
      system.files (call.packet.slot.id crypto) = none →
      ∃ after, advances crypto codec id 7 system = some after ∧
        after.calls id = some (.store { call with phase := .done (.ok ()) }) ∧
        after.Persisted crypto codec call.packet.slot call.packet) ∧
    (∀ id call packet, system.calls id = some (.load call) → call.result = some (.ok packet) →
      thresholdPartialSlot crypto call.context call.keysetRoot call.requestID call.shareID = .ok packet.slot ∧
        system.Persisted crypto codec packet.slot packet) ∧
    (∀ context keysetRoot requestID shareID slot packet, slot ∈ slots →
      thresholdPartialSlot crypto context keysetRoot requestID shareID = .ok slot →
      system.Persisted crypto codec slot packet →
      loadThresholdPartial crypto codec system.files context keysetRoot requestID shareID = .ok packet) ∧
    (∀ id call fault, system.calls id = some (.store call) → (∀ result, call.phase ≠ .done result) →
      ∃ after, storeStep crypto codec system.files call.context call.packet fault call.phase = some after ∧
        phaseRank after.2 < phaseRank call.phase) := by
  have sound := reachable.sound separated
  refine ⟨?_, ?_, ?_, ?_, ?_, ?_, ?_, ?_⟩
  · intro event after about stepped
    exact (sound.step separated about stepped).2
  · intro slot first second here there
    exact partialFile_inj.mp (Option.some.inj (here.2.symm.trans there.2))
  · intro slot listed there
    obtain ⟨file, found⟩ := Option.isSome_iff_exists.mp there
    obtain ⟨_, packet, _, rfl, rfl⟩ := sound.filed.packet separated listed found
    refine ⟨packet, ⟨rfl, found⟩, ?_⟩
    obtain ⟨id, call, given, known, handed, _, same⟩ := reachable.origin.files _ _ found
    rw [partialFile_inj] at same
    cases call with
    | store call => exact ⟨id, call, known, (Option.some.inj handed).trans same.symm⟩
    | load call => cases handed
  · intro id call result known done
    have ended := StoreSound.ended (sound.calls id _ known) result done
    refine ⟨?_, ?_, ?_⟩
    · intro ok
      obtain ⟨valid, stored⟩ := ended.stored ok
      exact ⟨validateThresholdPartialV1_ok_iff.mpr ⟨valid, rfl⟩, rfl, stored⟩
    · intro conflict
      obtain ⟨_, other, apart, slot, found⟩ := ended.conflict conflict
      exact ⟨other, apart, slot, found⟩
    · intro clean
      obtain ⟨valid, either⟩ | ⟨invalid, refused⟩ := ended.exact' clean
      · refine ⟨?_, fun wrong => absurd (validateThresholdPartialV1_ok_iff.mpr ⟨valid, rfl⟩) wrong⟩
        intro _
        obtain ok | conflict := either
        · exact ⟨call.packet, ⟨rfl, (ended.stored ok).2⟩, by rw [if_pos rfl, ok]⟩
        · obtain ⟨_, other, apart, slot, found⟩ := ended.conflict conflict
          exact ⟨other, ⟨slot, found⟩, by rw [if_neg apart, conflict]⟩
      · exact ⟨fun right => absurd (validateThresholdPartialV1_ok_iff.mp right).1 invalid, fun _ => refused⟩
  · intro id call known start absent
    obtain ⟨after, advanced, done, stored⟩ := store_first known start absent
    exact ⟨after, advanced, done, rfl, stored⟩
  · intro id call packet known result
    obtain ⟨slotted, stored⟩ := LoadSound.found (sound.calls id _ known) packet result
    exact ⟨slotted, rfl, stored⟩
  · intro context keysetRoot requestID shareID slot packet listed slotted persisted
    obtain ⟨stored, _, found, loaded⟩ :=
      sound.filed.load separated listed slotted (by rw [persisted.2]; rfl)
    rw [loaded, partialFile_inj.mp (Option.some.inj (found.symm.trans persisted.2))]
  · intro id call fault known ongoing
    exact storeStep_rank _ _ _ _ ongoing

/-! ### Two packets for one slot -/

instance participationCodec : RlpCodec (BitVec 512) := RlpCodec.wordCodec 64

open RlpCodec in
instance : RlpCodec ThresholdPartialStoreFileV1 where
  toItem record := .list [toItem record.storeVersion, toItem record.sessionID, toItem record.keysetRoot,
    toItem record.requestID, toItem record.shareID, toItem record.packet.sessionID, toItem record.packet.keysetRoot,
    toItem record.packet.requestID, toItem record.packet.messageHash, toItem record.packet.shareID,
    toItem record.packet.signature, toItem record.packet.compactParticipationSignature,
    toItem record.packet.participationSignature]
  ofItem
    | .list [storeVersion, sessionID, keysetRoot, requestID, shareID, packetSession, packetKeyset, packetRequest,
        messageHash, packetShare, signature, compact, participation] => do
      some ⟨← ofItem storeVersion, ← ofItem sessionID, ← ofItem keysetRoot, ← ofItem requestID, ← ofItem shareID,
        ← ofItem packetSession, ← ofItem packetKeyset, ← ofItem packetRequest, ← ofItem messageHash,
          ← ofItem packetShare, ← ofItem signature, ← ofItem compact, ← ofItem participation⟩
    | _ => none
  ofItem_toItem record := by simp

open RlpCodec in
theorem size_record (record : ThresholdPartialStoreFileV1) : Rlp.size (toItem record) ≤ 1003 := by
  have version := Rlp.size_uint8_le record.storeVersion
  have share := Rlp.size_uint64_le record.shareID
  have packetShare := Rlp.size_uint64_le record.packet.shareID
  have signature : Rlp.size (toItem record.packet.signature) ≤ 2 + 96 :=
    @Rlp.size_word_le 96 record.packet.signature (by omega) (by omega)
  have compact : Rlp.size (toItem record.packet.compactParticipationSignature) ≤ 2 + 96 :=
    @Rlp.size_word_le 96 record.packet.compactParticipationSignature (by omega) (by omega)
  have participation : Rlp.size (toItem record.packet.participationSignature) ≤ 2 + 64 :=
    @Rlp.size_word_le 64 record.packet.participationSignature (by omega) (by omega)
  refine Rlp.size_list_le 1000 2 ?_ (by omega)
  simp only [Rlp.sizeAll, size_hash]
  omega

def plainFileCodec : PartialFileCodec where
  marshalIndent record := Rlp.encode (RlpCodec.toItem record)
  decode bytes := (Rlp.decode bytes.dropLast).bind RlpCodec.ofItem
  decode_marshalIndent record := by
    have small := size_record record
    rw [List.dropLast_concat, Rlp.decode_encode (by rw [Rlp.length_encode]; omega)]
    exact RlpCodec.ofItem_toItem record
  length_marshalIndent record := by
    have small := size_record record
    rw [Rlp.length_encode, maxDKGTransportKeyStoreFileSizeV1]
    omega

/-- A partial of the first member for the first request, signed in some way. -/
def plainPartial (signature : VrfSignature) : RabbitVRFThresholdPartialV1 where
  sessionID := (rabbitVRFDKGSessionIDV1 plainCrypto fullContext).getD 0
  keysetRoot := 1
  requestID := 1
  messageHash := ((rabbitVRFThresholdMessageV1 plainCrypto fullContext 1 1).map Prod.snd).getD 0
  shareID := 1
  signature
  compactParticipationSignature := 0
  participationSignature := 0

theorem plainPartial_slot (signature : VrfSignature) : (plainPartial signature).slot = (plainPartial 2).slot := by
  simp only [plainPartial, RabbitVRFThresholdPartialV1.slot]

/-- Two calls with different partials find no file; the first one links its own, and the second one has to read it. -/
def racingCalls : List PartialEvent :=
  [.store fullContext (plainPartial 1), .store fullContext (plainPartial 2), .advance 0 false, .advance 1 false,
    .advance 1 false, .advance 0 false, .advance 0 false, .advance 1 false, .advance 0 false, .advance 1 false,
    .advance 0 false, .advance 1 false, .advance 1 false, .advance 1 false, .advance 0 false, .advance 0 false]

namespace PartialSystem

/-- What a finished call of `Store` was about, and how it ended. -/
def ended (system : PartialSystem) (id : Nat) : Option (RabbitVRFThresholdPartialV1 × Except PartialStoreError Unit) :=
  match system.calls id with
  | some (.store ⟨_, packet, .done result, _⟩) => some (packet, result)
  | _ => none

theorem ended_some {system : PartialSystem} {id : Nat} {packet : RabbitVRFThresholdPartialV1}
    {result : Except PartialStoreError Unit}
    (ended : system.ended id = some (packet, result)) :
    ∃ call, system.calls id = some (.store call) ∧ call.packet = packet ∧ call.phase = .done result := by
  unfold PartialSystem.ended at ended
  split at ended
  · rename_i found
    obtain ⟨rfl, rfl⟩ := Prod.mk.inj (Option.some.inj ended)
    exact ⟨_, found, rfl, rfl⟩
  · cases ended

theorem Reachable.foldlM {system after : PartialSystem} {events : List PartialEvent}
    (reachable : Reachable crypto codec slots system) (about : ∀ event ∈ events, About crypto slots event)
    (run : events.foldlM (fun system event => system.step crypto codec event) system = some after) :
    Reachable crypto codec slots after := by
  induction events generalizing system with
  | nil =>
    obtain rfl := Option.some.inj run
    exact reachable
  | cons event rest ih =>
    obtain ⟨here, later⟩ := List.forall_mem_cons.mp about
    rw [List.foldlM_cons] at run
    obtain ⟨middle, step, run⟩ := Option.bind_eq_some_iff.mp run
    exact ih (.next reachable here step) later run

end PartialSystem

open PartialSystem in
/-- The second of two racing calls ends with a conflict, and the partial of the first one is what is stored and read. -/
theorem threshold_partials_never_equivocate_conflict :
    ∃ system, racingCalls.foldlM (fun system event => step plainCrypto plainFileCodec system event) {} = some system ∧
      system.ended 0 = some (plainPartial 1, .ok ()) ∧
      system.ended 1 = some (plainPartial 2, .error .thresholdPartialStoreConflictV1) ∧
      system.Persisted plainCrypto plainFileCodec (plainPartial 2).slot (plainPartial 1) ∧
      ∀ other, system.Persisted plainCrypto plainFileCodec (plainPartial 2).slot other → other = plainPartial 1 := by
  have run : (racingCalls.foldlM (fun system event => step plainCrypto plainFileCodec system event) {}).any
      (fun system =>
      decide (system.ended 0 = some (plainPartial 1, .ok ()) ∧
        system.ended 1 = some (plainPartial 2, .error .thresholdPartialStoreConflictV1))) = true := by
    decide +kernel
  obtain ⟨system, run, checks⟩ := (Option.any_eq_true _ _).mp run
  obtain ⟨first, second⟩ := of_decide_eq_true checks
  have reachable : Reachable plainCrypto plainFileCodec {(plainPartial 2).slot} system := by
    refine Reachable.start.foldlM (fun event member => ?_) run
    cases event with
    | store context packet =>
      intro _
      simp only [racingCalls, List.mem_cons, PartialEvent.store.injEq, reduceCtorEq, List.not_mem_nil,
        or_false] at member
      obtain ⟨_, rfl⟩ | ⟨_, rfl⟩ := member <;> exact plainPartial_slot _
    | load _ _ _ _ => simp [racingCalls] at member
    | advance _ _ => trivial
  obtain ⟨_, unique, _, results, _⟩ := threshold_partials_never_equivocate plainCrypto plainFileCodec _
    (Set.injOn_singleton _ _) system reachable
  obtain ⟨call, known, packet, phase⟩ := ended_some first
  have stored := ((results 0 call _ known phase).1 rfl).2
  rw [packet, plainPartial_slot] at stored
  exact ⟨system, run, first, second, stored, fun other persisted => unique _ _ _ persisted stored⟩

end RabbitLqc
