import RabbitLqc.Vrf.Keyset

/-!
# Randomness finalizations

The outcome of a randomness request as a header carries it. A header lists finalizations of
distinct requests in request order.
-/

namespace RabbitLqc
open Lib RlpCodec

structure RabbitVRFFinalizationV1 where
  version : UInt8
  requestID : Hash
  keysetRoot : Hash
  epoch : UInt64
  round : UInt64
  randomness : Hash
  proofHash : Hash
  signature : VrfSignature
  participationBitmap : BitVec 128
  participationAggregateSignature : VrfSignature
  deriving DecidableEq, Repr

instance : RlpCodec RabbitVRFFinalizationV1 where
  toItem value := .list [toItem value.version, toItem value.requestID, toItem value.keysetRoot,
    toItem value.epoch, toItem value.round, toItem value.randomness, toItem value.proofHash,
    toItem value.signature, toItem value.participationBitmap,
    toItem value.participationAggregateSignature]
  ofItem
    | .list [version, requestID, keysetRoot, epoch, round, randomness, proofHash, signature,
        participationBitmap, participationAggregateSignature] => do
      some ⟨← ofItem version, ← ofItem requestID, ← ofItem keysetRoot, ← ofItem epoch,
        ← ofItem round, ← ofItem randomness, ← ofItem proofHash, ← ofItem signature,
        ← ofItem participationBitmap, ← ofItem participationAggregateSignature⟩
    | _ => none
  ofItem_toItem value := by simp

namespace RabbitVRFFinalizationV1

def validate (value : RabbitVRFFinalizationV1) : Except LqcError Unit :=
  ensure (value.version = 1 ∧ value.requestID ≠ 0 ∧ value.keysetRoot ≠ 0 ∧ value.epoch ≠ 0 ∧
    value.randomness ≠ 0 ∧ value.proofHash ≠ 0 ∧ value.signature ≠ 0 ∧
    value.participationBitmap ≠ 0 ∧ value.participationAggregateSignature ≠ 0)
    .invalidRabbitVRFFinalizationV1

def sorted (values : List RabbitVRFFinalizationV1) : List RabbitVRFFinalizationV1 :=
  sortOn (fun value => value.requestID.toNat) values

end RabbitVRFFinalizationV1

def canonicalRabbitVRFFinalizationsV1 (values : List RabbitVRFFinalizationV1) :
    Except LqcError (List RabbitVRFFinalizationV1) := do
  values.forM RabbitVRFFinalizationV1.validate
  let out := RabbitVRFFinalizationV1.sorted values
  ensure (out.IsChain fun before value => before.requestID ≠ value.requestID)
    .duplicateRabbitVRFFinalizationV1
  .ok out

def validateCanonicalRabbitVRFFinalizationsV1 (values : List RabbitVRFFinalizationV1) :
    Except LqcError Unit := do
  let canonical ← canonicalRabbitVRFFinalizationsV1 values
  ensure (canonical = values) .nonCanonicalRabbitVRFFinalizationsV1

/-! ### What the checks establish -/

/-- Finalizations that each pass their check, of distinct requests. -/
structure FinalizationList (values : List RabbitVRFFinalizationV1) : Prop where
  each : ∀ value ∈ values, value.validate = .ok ()
  requests : (values.map (·.requestID)).Nodup

theorem sorted_isChain_iff {values : List RabbitVRFFinalizationV1} :
    ((RabbitVRFFinalizationV1.sorted values).IsChain fun before value =>
        before.requestID ≠ value.requestID) ↔ (values.map (·.requestID)).Nodup := by
  have keys : (values.map fun value => value.requestID.toNat) =
      (values.map (·.requestID)).map BitVec.toNat := by rw [List.map_map]; rfl
  rw [← List.nodup_map_iff (fun _ _ same => BitVec.toNat_inj.mp same), ← keys, ← sortOn_neighbours_iff]
  exact List.IsChain.iff fun before value => not_congr BitVec.toNat_inj.symm

theorem canonicalRabbitVRFFinalizationsV1_ok_iff {values canonical : List RabbitVRFFinalizationV1} :
    canonicalRabbitVRFFinalizationsV1 values = .ok canonical ↔
      FinalizationList values ∧ canonical = RabbitVRFFinalizationV1.sorted values := by
  simp only [canonicalRabbitVRFFinalizationsV1, bind_ok_iff, ensure_ok_iff, exists_unit, forM_ok_iff,
    sorted_isChain_iff, Except.ok.injEq, eq_comm (a := canonical)]
  constructor
  · intro checks
    obtain ⟨each, requests, same⟩ := checks
    exact ⟨⟨each, requests⟩, same⟩
  · intro listed
    obtain ⟨valid, same⟩ := listed
    exact ⟨valid.each, valid.requests, same⟩

/-! ### Finalizations of numbered requests -/

def numberedFinalizations (count : Nat) : List RabbitVRFFinalizationV1 :=
  (List.range count).map fun index => ⟨1, BitVec.ofNat 256 (index + 1), 1, 1, 0, 1, 1, 1, 1, 1⟩

theorem numberedFinalizations_valid {count : Nat} (few : count < 128) :
    FinalizationList (numberedFinalizations count) where
  each value member := by
    obtain ⟨index, inside, rfl⟩ := List.mem_map.mp member
    have small : index + 1 < 2 ^ 256 :=
      (Nat.add_lt_add (List.mem_range.mp inside) Nat.one_lt_two |>.trans (by omega : count + 2 < 256)).trans (by decide)
    exact ensure_ok_iff.mpr ⟨rfl, Word.ofNat_ne_zero (Nat.succ_ne_zero index) small, by simp⟩
  requests := by
    rw [numberedFinalizations, List.map_map]
    refine List.Nodup.map_on (fun left inLeft right inRight same => ?_) List.nodup_range
    have value := congrArg BitVec.toNat same
    have one := List.mem_range.mp inLeft
    have two := List.mem_range.mp inRight
    simp only [Function.comp_apply, BitVec.toNat_ofNat] at value
    omega

end RabbitLqc
