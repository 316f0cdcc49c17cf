import RabbitLqc.Lib.Shamir
import RabbitLqc.Vrf.Curve

/-!
# Threshold signatures

A key is shared by a polynomial: a verification share is its value at the number of the share, the threshold
key its value at zero. Enough partial signatures combine to the signature of the threshold key, and enough
verification shares determine all of them, by interpolation in the exponent.
-/

namespace RabbitLqc
open Lib RlpCodec

/-! ### Interpolation weights -/

def checkShareIDs : List Nat → List Nat → Except VrfError Unit
  | _, [] => .ok ()
  | seen, id :: rest => do
    ensure (id ≠ 0) .invalidShareID
    ensure (id ∉ seen) .duplicateShareID
    checkShareIDs (id :: seen) rest

/-- The weight of one share among those with the given numbers; `term` is what the number of another share
contributes to the numerator. -/
def lagrangeCoefficient (term : Scalar → Scalar) (sampleID : Nat) (ids : List Nat) : Except VrfError Scalar := do
  ensure (sampleID ≠ 0) .invalidShareID
  checkShareIDs [] ids
  ensure (sampleID ∈ ids) .invalidShareID
  let parts ← (ids.filter (· ≠ sampleID)).foldlM (fun (parts : Scalar × Scalar) (id : Nat) => do
    ensure ((sampleID : Scalar) - id ≠ 0) .duplicateShareID
    .ok (parts.1 * term id, parts.2 * ((sampleID : Scalar) - id))) (1, 1)
  ensure (parts.2 ≠ 0) .duplicateShareID
  .ok (parts.1 * parts.2⁻¹)

def lagrangeCoefficientAtZero (target : Nat) (ids : List Nat) : Except VrfError Scalar :=
  lagrangeCoefficient (fun other => -other) target ids

def lagrangeCoefficientAtX (sampleID : Nat) (ids : List Nat) (x : Nat) : Except VrfError Scalar :=
  lagrangeCoefficient (fun other => x - other) sampleID ids

/-- Share numbers as the code takes them: 64 bits, not zero, none twice. -/
structure ShareIDs (ids : List Nat) : Prop where
  small : ∀ id ∈ ids, id < 2 ^ 64
  positive : ∀ id ∈ ids, id ≠ 0
  distinct : ids.Nodup

theorem checkShareIDs_ok {seen ids : List Nat} (positive : ∀ id ∈ ids, id ≠ 0) (distinct : ids.Nodup)
    (fresh : ∀ id ∈ ids, id ∉ seen) : checkShareIDs seen ids = .ok () := by
  induction ids generalizing seen with
  | nil => rfl
  | cons id rest ih =>
    rw [List.nodup_cons] at distinct
    simp only [checkShareIDs, ensure_bind_ok_iff]
    refine ⟨positive id List.mem_cons_self, fresh id List.mem_cons_self, ?_⟩
    apply ih (fun other member => positive other (List.mem_cons_of_mem _ member)) distinct.2
    intro other member listed
    obtain rfl | listed := List.mem_cons.mp listed
    · exact distinct.1 member
    · exact fresh other (List.mem_cons_of_mem _ member) listed

theorem lagrangeParts_ok {term : Scalar → Scalar} {sampleID : Nat} {others : List Nat} {start : Scalar × Scalar}
    (apart : ∀ id ∈ others, (sampleID : Scalar) - id ≠ 0) :
    others.foldlM (fun (parts : Scalar × Scalar) (id : Nat) => do
        ensure ((sampleID : Scalar) - id ≠ 0) VrfError.duplicateShareID
        .ok (parts.1 * term id, parts.2 * ((sampleID : Scalar) - id))) start =
      .ok (start.1 * (others.map fun (id : Nat) => term id).prod,
        start.2 * (others.map fun (id : Nat) => (sampleID : Scalar) - id).prod) := by
  induction others generalizing start with
  | nil => simp [pure, Except.pure]
  | cons id rest ih =>
    rw [List.foldlM_cons, bind_ok_iff]
    refine ⟨(start.1 * term id, start.2 * ((sampleID : Scalar) - id)), ?_, ?_⟩
    · simp only [ensure_bind_ok_iff, and_true]
      exact apart id List.mem_cons_self
    · rw [ih fun other member => apart other (List.mem_cons_of_mem _ member)]
      simp only [List.map_cons, List.prod_cons, mul_assoc]

theorem lagrangeCoefficient_ok {ids : List Nat} (valid : ShareIDs ids) {x : Scalar} {term : Scalar → Scalar}
    (differences : ∀ other, term other = x - other) {id : Nat} (member : id ∈ ids) :
    lagrangeCoefficient term id ids = .ok (lagrangeWeight (fun id : Nat => (id : Scalar)) ids x id) := by
  have apart : ∀ other ∈ ids.filter (· ≠ id), (id : Scalar) - other ≠ 0 := by
    intro other listed zero
    obtain ⟨listed, differs⟩ := List.mem_filter.mp listed
    have same := shareScalar_injective (valid.small id member) (valid.small other listed) (sub_eq_zero.mp zero)
    exact of_decide_eq_true differs same.symm
  have nonzero : (1 : Scalar) * ((ids.filter (· ≠ id)).map fun (other : Nat) => (id : Scalar) - other).prod ≠ 0 := by
    rw [one_mul]
    apply List.prod_ne_zero
    intro zero
    obtain ⟨other, listed, zero⟩ := List.mem_map.mp zero
    exact apart other listed zero
  simp only [lagrangeCoefficient, bind_ok_iff, exists_unit, ensure_ok_iff]
  refine ⟨valid.positive id member, checkShareIDs_ok valid.positive valid.distinct (fun _ _ => List.not_mem_nil),
    member, _, lagrangeParts_ok apart, nonzero, ?_⟩
  simp only [one_mul, differences, lagrangeWeight]

/-! ### Shares and partial signatures -/

structure VerificationShare where
  shareID : Nat
  publicKey : VrfPublicKey

structure PartialSignature where
  shareID : Nat
  signature : VrfSignature

structure VerifiedPartialSignature where
  shareID : Nat
  signature : VrfSignature
  messageHash : Hash
  deriving DecidableEq

variable {G1 G2 GT : Type} [AddCommGroup G1] [Module Scalar G1] [AddCommGroup G2] [Module Scalar G2]
  [AddCommGroup GT] [Module Scalar GT]

/-- `MultiExp`. -/
def multiExp {G : Type} [AddCommGroup G] [Module Scalar G] (points : List G) (coefficients : List Scalar) : G :=
  (List.zipWith (fun (coefficient : Scalar) point => coefficient • point) coefficients points).sum

theorem multiExp_map {G Index : Type} [AddCommGroup G] [Module Scalar G] (indices : List Index) (point : Index → G)
    (coefficient : Index → Scalar) :
    multiExp (indices.map point) (indices.map coefficient) =
      (indices.map fun index => coefficient index • point index).sum := by
  rw [multiExp, List.zipWith_map, List.zipWith_self]

/-- The checks on the ordered partial signatures; `previous` is the share before. -/
def checkPartials (expected : Hash) : Option Nat → List VerifiedPartialSignature → Except VrfError Unit
  | _, [] => .ok ()
  | previous, verified :: rest => do
    ensure (verified.shareID ≠ 0) .invalidShareID
    ensure (previous ≠ some verified.shareID) .duplicateShareID
    ensure (verified.messageHash = expected) .partialMessageMismatch
    checkPartials expected (some verified.shareID) rest

namespace VrfCurve

variable [DecidableEq G1] [DecidableEq G2] [DecidableEq GT] (curve : VrfCurve G1 G2 GT) (crypto : Crypto)

def verifyPartial (share : VerificationShare) (message : Bytes) (signed : PartialSignature) :
    Except VrfError VerifiedPartialSignature := do
  ensure (share.shareID ≠ 0 ∧ signed.shareID ≠ 0 ∧ signed.shareID = share.shareID) .invalidShareID
  ensure (message ≠ []) .invalidMessage
  match curve.verify share.publicKey message signed.signature with
  | .error _ => .error .invalidPartial
  | .ok _ => .ok ⟨share.shareID, signed.signature, crypto.keccak256 message⟩

def partialPoint (verified : VerifiedPartialSignature) : Except VrfError G2 :=
  match curve.decodeSignature verified.signature with
  | .error _ => .error .invalidPartial
  | .ok point => .ok point

def combineVerifiedPartials (thresholdPublicKey : VrfPublicKey) (message : Bytes)
    (partials : List VerifiedPartialSignature) (threshold : Nat) : Except VrfError VrfSignature := do
  ensure (0 < threshold) .invalidThreshold
  ensure (message ≠ []) .invalidMessage
  ensure (threshold ≤ partials.length) .insufficientPartials
  let _ ← curve.decodePublicKey thresholdPublicKey
  let ordered := sortOn (·.shareID) partials
  checkPartials (crypto.keccak256 message) none ordered
  -- the lowest share numbers, as many as are needed
  let selected := ordered.take threshold
  let points ← selected.mapM curve.partialPoint
  let ids := selected.map (·.shareID)
  let coefficients ← ids.mapM (lagrangeCoefficientAtZero · ids)
  let combined := multiExp points coefficients
  ensure (combined ≠ 0) .invalidSignature
  let out := curve.encodeG2 combined
  match curve.verify thresholdPublicKey message out with
  | .error _ => .error .invalidSignature
  | .ok _ => .ok out

def interpolateVerificationPublicKeyAtV1 (target : Nat) (ids : List Nat) (points : List G1) :
    Except VrfError VrfPublicKey := do
  ensure (ids ≠ [] ∧ ids.length = points.length) .invalidPublicKey
  let coefficients ← ids.mapM (lagrangeCoefficientAtX · ids target)
  let interpolated := multiExp points coefficients
  ensure (interpolated ≠ 0) .invalidPublicKey
  let out := curve.encodeG1 interpolated
  let _ ← curve.decodePublicKey out
  .ok out

def bls : Bls where
  publicKeyOk key := (curve.decodePublicKey key).isOk
  interpolate target points :=
    match points.mapM fun sample => curve.decodePublicKey sample.2 with
    | .error _ => none
    | .ok decoded => (curve.interpolateVerificationPublicKeyAtV1 target (points.map (·.1)) decoded).toOption

end VrfCurve

/-! ### Shared keys -/

/-- A key shared among a committee by a polynomial in the exponent, with a coefficient for each of the shares
that are needed. Neither the key nor a share is the point at infinity. -/
structure SharedKey (G1 : Type) [AddCommGroup G1] [Module Scalar G1] where
  coefficients : List G1
  committeeSize : Nat
  needed : coefficients ≠ []
  threshold_le : coefficients.length ≤ committeeSize
  size_lt : committeeSize < 2 ^ 64
  keyFinite : evalAt coefficients (0 : Scalar) ≠ 0
  shareFinite : ∀ id : Nat, 1 ≤ id → id ≤ committeeSize → evalAt coefficients (id : Scalar) ≠ 0

namespace SharedKey

variable (key : SharedKey G1) (curve : VrfCurve G1 G2 GT)

def threshold : Nat := key.coefficients.length

def point (id : Nat) : G1 := evalAt key.coefficients (id : Scalar)

def publicKey : VrfPublicKey := curve.encodeG1 (key.point 0)

def share (id : Nat) : VerificationShare := ⟨id, curve.encodeG1 (key.point id)⟩

def wireShare (id : Nat) : RabbitVRFVerificationShareV1 := ⟨UInt64.ofNat id, curve.encodeG1 (key.point id)⟩

variable {key curve}

theorem point_zero_ne : key.point 0 ≠ 0 := by
  have finite := key.keyFinite
  unfold point
  rwa [Nat.cast_zero]

theorem sum_weights_point {ids : List Nat} (valid : ShareIDs ids) (enough : key.threshold ≤ ids.length) (target : Nat) :
    (ids.map fun id => lagrangeWeight (fun id : Nat => (id : Scalar)) ids target id • key.point id).sum =
      key.point target := by
  have distinct : (ids.map fun id : Nat => (id : Scalar)).Nodup := by
    apply valid.distinct.map_on
    intro left leftMember right rightMember same
    exact shareScalar_injective (valid.small left leftMember) (valid.small right rightMember) same
  exact sum_lagrangeWeight_evalAt distinct enough (target : Scalar)

end SharedKey

/-! ### Combining -/

section Combine

variable {curve : VrfCurve G1 G2 GT} {key : SharedKey G1} {message : Bytes}

theorem SharedKey.signs_combined {Index : Type} {indices : List Index} {id : Index → Nat} {point : Index → G2}
    (valid : ShareIDs (indices.map id)) (enough : key.threshold ≤ indices.length)
    (signs : ∀ index ∈ indices, curve.Signs (key.point (id index)) message (point index)) :
    curve.Signs (key.point 0) message
      (indices.map fun index =>
        lagrangeWeight (fun id : Nat => (id : Scalar)) (indices.map id) ((0 : Nat) : Scalar) (id index) •
          point index).sum := by
  obtain ⟨first, listed⟩ : ∃ first, first ∈ indices := by
    apply List.exists_mem_of_length_pos
    exact lt_of_lt_of_le (List.length_pos_iff.mpr key.needed) enough
  obtain ⟨hashed, hash, hashFinite, _⟩ := (signs first listed).pairs
  have interpolated := key.sum_weights_point valid (by rwa [List.length_map]) 0
  rw [List.map_map] at interpolated
  have pairs : curve.pairing (key.point 0) hashed = curve.pairing curve.generator (indices.map fun index =>
      lagrangeWeight (fun id : Nat => (id : Scalar)) (indices.map id) ((0 : Nat) : Scalar) (id index) •
        point index).sum := by
    have flipped := congrArg (curve.pairing.flip hashed) interpolated
    rw [map_list_sum, List.map_map, LinearMap.flip_apply] at flipped
    rw [← flipped, map_list_sum, List.map_map]
    congr 1
    refine List.map_congr_left fun index member => ?_
    obtain ⟨again, hashAgain, _, pairs⟩ := (signs index member).pairs
    obtain rfl := Option.some.inj (hash.symm.trans hashAgain)
    simp only [Function.comp_apply, map_smul, LinearMap.flip_apply, pairs]
  refine ⟨(signs first listed).nonempty, key.point_zero_ne, ?_, hashed, hash, hashFinite, pairs⟩
  intro zero
  rw [zero, map_zero] at pairs
  exact VrfCurve.pairing_ne_zero key.point_zero_ne hashFinite pairs

variable [DecidableEq G1] [DecidableEq G2] [DecidableEq GT] {crypto : Crypto}

/-- A partial signature that was verified against a share of the committee. -/
def SharedKey.Verified (key : SharedKey G1) (curve : VrfCurve G1 G2 GT) (crypto : Crypto) (message : Bytes)
    (verified : VerifiedPartialSignature) : Prop :=
  ∃ id signed, 1 ≤ id ∧ id ≤ key.committeeSize ∧
    curve.verifyPartial crypto (key.share curve id) message signed = .ok verified

theorem SharedKey.Verified.signs {verified : VerifiedPartialSignature}
    (given : key.Verified curve crypto message verified) :
    (1 ≤ verified.shareID ∧ verified.shareID ≤ key.committeeSize) ∧ verified.messageHash = crypto.keccak256 message ∧
      ∃ point, curve.partialPoint verified = .ok point ∧ curve.Signs (key.point verified.shareID) message point := by
  obtain ⟨id, signed, positive, inside, run⟩ := given
  obtain ⟨_, _, run⟩ := bind_ok run
  obtain ⟨_, _, run⟩ := bind_ok run
  split at run
  · cases run
  · rename_i valid
    obtain rfl := Except.ok.inj run
    obtain ⟨other, point, sameKey, bytes, signs⟩ := VrfCurve.verify_ok_iff.mp valid
    obtain rfl := VrfCurve.encodeG1_injective sameKey
    refine ⟨⟨positive, inside⟩, rfl, point, ?_, signs⟩
    unfold VrfCurve.partialPoint
    rw [VrfCurve.decodeSignature_ok_iff.mpr ⟨bytes, signs.finite⟩]

theorem checkPartials_ok {expected : Hash} {previous : Option Nat} {partials : List VerifiedPartialSignature}
    (positive : ∀ verified ∈ partials, verified.shareID ≠ 0)
    (hashes : ∀ verified ∈ partials, verified.messageHash = expected) (distinct : (partials.map (·.shareID)).Nodup)
    (fresh : ∀ verified ∈ partials, previous ≠ some verified.shareID) :
    checkPartials expected previous partials = .ok () := by
  induction partials generalizing previous with
  | nil => rfl
  | cons verified rest ih =>
    rw [List.map_cons, List.nodup_cons] at distinct
    simp only [checkPartials, ensure_bind_ok_iff]
    refine ⟨positive verified List.mem_cons_self, fresh verified List.mem_cons_self,
      hashes verified List.mem_cons_self, ?_⟩
    apply ih (fun other member => positive other (List.mem_cons_of_mem _ member))
      (fun other member => hashes other (List.mem_cons_of_mem _ member)) distinct.2
    intro other member same
    exact distinct.1 (List.mem_map.mpr ⟨other, member, (Option.some.inj same).symm⟩)

structure SharedKey.VerifiedList (key : SharedKey G1) (curve : VrfCurve G1 G2 GT) (crypto : Crypto) (message : Bytes)
    (partials : List VerifiedPartialSignature) : Prop where
  distinct : (partials.map (·.shareID)).Nodup
  each : ∀ verified ∈ partials, key.Verified curve crypto message verified

namespace SharedKey.VerifiedList

variable {partials : List VerifiedPartialSignature}

theorem ids (verified : key.VerifiedList curve crypto message partials) : ShareIDs (partials.map (·.shareID)) := by
  have size := key.size_lt
  refine ⟨?_, ?_, verified.distinct⟩
  · intro id listed
    obtain ⟨one, member, rfl⟩ := List.mem_map.mp listed
    have inside := (verified.each one member).signs.1
    omega
  · intro id listed
    obtain ⟨one, member, rfl⟩ := List.mem_map.mp listed
    have inside := (verified.each one member).signs.1
    omega

theorem sorted (verified : key.VerifiedList curve crypto message partials) :
    key.VerifiedList curve crypto message (sortOn (·.shareID) partials) :=
  ⟨((sortOn_perm.map _).nodup_iff).mpr verified.distinct, fun one member => verified.each one (mem_sortOn.mp member)⟩

theorem take (verified : key.VerifiedList curve crypto message partials) (count : Nat) :
    key.VerifiedList curve crypto message (partials.take count) := by
  refine ⟨?_, fun one member => verified.each one (List.mem_of_mem_take member)⟩
  rw [List.map_take]
  exact verified.distinct.sublist (List.take_sublist _ _)

theorem checked (verified : key.VerifiedList curve crypto message partials) :
    checkPartials (crypto.keccak256 message) none partials = .ok () := by
  apply checkPartials_ok _ (fun one member => (verified.each one member).signs.2.1) verified.distinct
  · intro one member
    simp
  · intro one member
    have inside := (verified.each one member).signs.1
    omega

theorem points (verified : key.VerifiedList curve crypto message partials) :
    ∃ pointOf : VerifiedPartialSignature → G2, partials.mapM curve.partialPoint = .ok (partials.map pointOf) ∧
      ∀ one ∈ partials, curve.Signs (key.point one.shareID) message (pointOf one) := by
  have each : ∀ one ∈ partials, curve.partialPoint one = .ok ((curve.partialPoint one).toOption.getD 0) ∧
      curve.Signs (key.point one.shareID) message ((curve.partialPoint one).toOption.getD 0) := by
    intro one member
    obtain ⟨_, _, point, run, signs⟩ := (verified.each one member).signs
    rw [run]
    exact ⟨rfl, signs⟩
  exact ⟨_, mapM_eq_map fun one member => (each one member).1, fun one member => (each one member).2⟩

theorem weights (verified : key.VerifiedList curve crypto message partials) :
    (partials.map (·.shareID)).mapM (lagrangeCoefficientAtZero · (partials.map (·.shareID))) =
      .ok (partials.map fun one => lagrangeWeight (fun id : Nat => (id : Scalar)) (partials.map (·.shareID))
        ((0 : Nat) : Scalar) one.shareID) := by
  have differences : ∀ other : Scalar, -other = ((0 : Nat) : Scalar) - other := by
    intro other
    rw [Nat.cast_zero, zero_sub]
  rw [mapM_ok_iff, List.forall₂_map_left_iff, List.forall₂_map_right_iff, List.forall₂_same]
  intro one member
  exact lagrangeCoefficient_ok verified.ids differences (List.mem_map_of_mem member)

end SharedKey.VerifiedList

theorem SharedKey.combine_ok {partials : List VerifiedPartialSignature} (enough : key.threshold ≤ partials.length)
    (verified : key.VerifiedList curve crypto message partials) :
    ∃ point, curve.Signs (key.point 0) message point ∧
      curve.combineVerifiedPartials crypto (key.publicKey curve) message partials key.threshold =
        .ok (curve.encodeG2 point) := by
  have selected := verified.sorted.take key.threshold
  obtain ⟨pointOf, decoded, each⟩ := selected.points
  have length : ((sortOn (·.shareID) partials).take key.threshold).length = key.threshold := by
    rw [List.length_take, length_sortOn]
    omega
  have signs := key.signs_combined selected.ids length.ge each
  refine ⟨_, signs, ?_⟩
  unfold VrfCurve.combineVerifiedPartials
  simp only [bind_ok_iff, exists_unit, ensure_ok_iff]
  refine ⟨List.length_pos_iff.mpr key.needed, signs.nonempty, enough, key.point 0,
    VrfCurve.decodePublicKey_ok_iff.mpr ⟨rfl, key.point_zero_ne⟩, verified.sorted.checked, _, decoded, _,
    selected.weights, ?_⟩
  rw [multiExp_map]
  refine ⟨signs.finite, ?_⟩
  have accepted := (VrfCurve.verify_ok_iff (u := ())).mpr ⟨_, _, rfl, rfl, signs⟩
  rw [show curve.verify (key.publicKey curve) message _ = .ok () from accepted]

end Combine

/-! ### Reconstruction -/

/-- A threshold of the shares, as a certificate carries them. -/
structure SharedKey.Samples (key : SharedKey G1) (curve : VrfCurve G1 G2 GT)
    (samples : List RabbitVRFVerificationShareV1) : Prop where
  count : samples.length = key.threshold
  distinct : (samples.map (·.shareID)).Nodup
  each : ∀ share ∈ samples, ∃ id, 1 ≤ id ∧ id ≤ key.committeeSize ∧ share = key.wireShare curve id

namespace SharedKey.Samples

variable {curve : VrfCurve G1 G2 GT} {key : SharedKey G1} {samples : List RabbitVRFVerificationShareV1}

theorem sorted (given : key.Samples curve samples) : key.Samples curve (sortOn (·.shareID.toNat) samples) :=
  ⟨length_sortOn.trans given.count, ((sortOn_perm.map _).nodup_iff).mpr given.distinct,
    fun share member => given.each share (mem_sortOn.mp member)⟩

theorem share_eq (given : key.Samples curve samples) {share : RabbitVRFVerificationShareV1} (member : share ∈ samples) :
    1 ≤ share.shareID.toNat ∧ share.shareID.toNat ≤ key.committeeSize ∧
      share.publicKey = curve.encodeG1 (key.point share.shareID.toNat) := by
  obtain ⟨id, positive, inside, rfl⟩ := given.each share member
  have size := key.size_lt
  have number : (key.wireShare curve id).shareID.toNat = id :=
    UInt64.toNat_ofNat_of_lt' (show id < 2 ^ 64 by omega)
  rw [number]
  exact ⟨positive, inside, rfl⟩

theorem ids (given : key.Samples curve samples) : ShareIDs (samples.map (·.shareID.toNat)) := by
  refine ⟨?_, ?_, ?_⟩
  · intro id listed
    obtain ⟨share, _, rfl⟩ := List.mem_map.mp listed
    exact share.shareID.toNat_lt
  · intro id listed
    obtain ⟨share, member, rfl⟩ := List.mem_map.mp listed
    have bounds := given.share_eq member
    omega
  · have distinct := given.distinct.map (f := UInt64.toNat) fun _ _ => UInt64.toNat_inj.mp
    rwa [List.map_map] at distinct

end SharedKey.Samples

section Reconstruct

variable {curve : VrfCurve G1 G2 GT} {key : SharedKey G1} [DecidableEq G1]

theorem VrfCurve.bls_publicKeyOk {point : G1} (finite : point ≠ 0) :
    curve.bls.publicKeyOk (curve.encodeG1 point) = true := by
  have decoded : curve.decodePublicKey (curve.encodeG1 point) = .ok point :=
    VrfCurve.decodePublicKey_ok_iff.mpr ⟨rfl, finite⟩
  simp only [VrfCurve.bls, decoded]
  rfl

variable {samples : List RabbitVRFVerificationShareV1}

theorem SharedKey.Samples.interpolate_ok (given : key.Samples curve samples) {target : Nat}
    (finite : key.point target ≠ 0) :
    curve.bls.interpolate target (samples.map fun share => (share.shareID.toNat, share.publicKey)) =
      some (curve.encodeG1 (key.point target)) := by
  have decoded : (samples.map fun share => (share.shareID.toNat, share.publicKey)).mapM
      (fun sample => curve.decodePublicKey sample.2) =
        .ok ((samples.map (·.shareID.toNat)).map key.point) := by
    rw [mapM_ok_iff, List.forall₂_map_left_iff, List.forall₂_map_right_iff, List.forall₂_map_right_iff,
      List.forall₂_same]
    intro share member
    obtain ⟨positive, inside, bytes⟩ := given.share_eq member
    exact VrfCurve.decodePublicKey_ok_iff.mpr ⟨bytes.symm, key.shareFinite _ positive inside⟩
  have numbers : (samples.map fun share => (share.shareID.toNat, share.publicKey)).map (·.1) =
      samples.map (·.shareID.toNat) := List.map_map
  have run : curve.interpolateVerificationPublicKeyAtV1 target (samples.map (·.shareID.toNat))
      ((samples.map (·.shareID.toNat)).map key.point) = .ok (curve.encodeG1 (key.point target)) := by
    have weights : (samples.map (·.shareID.toNat)).mapM
        (lagrangeCoefficientAtX · (samples.map (·.shareID.toNat)) target) =
        .ok ((samples.map (·.shareID.toNat)).map (lagrangeWeight (fun id : Nat => (id : Scalar))
          (samples.map (·.shareID.toNat)) (target : Scalar))) :=
      mapM_eq_map fun id member => lagrangeCoefficient_ok given.ids (fun _ => rfl) member
    have enough : key.threshold ≤ (samples.map (·.shareID.toNat)).length := by
      rw [List.length_map, given.count]
    have some : samples.map (·.shareID.toNat) ≠ [] :=
      List.ne_nil_of_length_pos (lt_of_lt_of_le (List.length_pos_iff.mpr key.needed) enough)
    simp only [VrfCurve.interpolateVerificationPublicKeyAtV1, bind_ok_iff, ensure_ok_iff, exists_unit]
    refine ⟨⟨some, by simp only [List.length_map]⟩, _, weights, ?_⟩
    rw [multiExp_map, key.sum_weights_point given.ids enough]
    exact ⟨finite, key.point target, VrfCurve.decodePublicKey_ok_iff.mpr ⟨rfl, finite⟩, rfl⟩
  simp only [VrfCurve.bls, decoded, numbers, run, Except.toOption]

theorem SharedKey.Samples.reconstruct_ok (given : key.Samples curve samples) :
    reconstructVerificationSharesV1 curve.bls key.committeeSize key.threshold (key.publicKey curve) samples =
      some ((List.range key.committeeSize).map fun index => key.wireShare curve (index + 1)) := by
  have needed : 0 < key.threshold := List.length_pos_iff.mpr key.needed
  have fits : key.threshold ≤ key.committeeSize := key.threshold_le
  have each : ∀ share ∈ samples, share.shareID ≠ 0 ∧ share.shareID.toNat ≤ key.committeeSize ∧
      curve.bls.publicKeyOk share.publicKey := by
    intro share member
    obtain ⟨positive, inside, bytes⟩ := given.share_eq member
    rw [bytes]
    refine ⟨?_, inside, VrfCurve.bls_publicKeyOk (key.shareFinite _ positive inside)⟩
    intro zero
    rw [zero] at positive
    cases positive
  unfold reconstructVerificationSharesV1
  rw [if_pos ⟨by omega, needed, fits, given.count, VrfCurve.bls_publicKeyOk key.point_zero_ne, given.distinct, each,
    given.sorted.interpolate_ok key.point_zero_ne⟩]
  refine mapM_eq_some_map fun index member => ?_
  have finite : key.point (index + 1) ≠ 0 :=
    key.shareFinite (index + 1) (by omega) (List.mem_range.mp member)
  rw [given.sorted.interpolate_ok finite, Option.bind_eq_bind, Option.bind_some,
    if_pos (VrfCurve.bls_publicKeyOk finite)]
  rfl

end Reconstruct

/-! ### One signature and one set of shares -/

section Threshold

variable [DecidableEq G1] [DecidableEq G2] [DecidableEq GT]

/-- Whatever partial signatures are combined, the signature is the same and valid; whatever shares a certificate
samples, all shares come back. -/
theorem threshold_reconstruction (curve : VrfCurve G1 G2 GT) (crypto : Crypto) (key : SharedKey G1) :
    (∀ message, ∃ signature, ∀ partials, key.VerifiedList curve crypto message partials →
      key.threshold ≤ partials.length →
        curve.combineVerifiedPartials crypto (key.publicKey curve) message partials key.threshold = .ok signature ∧
          curve.verify (key.publicKey curve) message signature = .ok ()) ∧
      ∀ samples, key.Samples curve samples →
        reconstructVerificationSharesV1 curve.bls key.committeeSize key.threshold (key.publicKey curve) samples =
          some ((List.range key.committeeSize).map fun index => key.wireShare curve (index + 1)) := by
  refine ⟨fun message => ?_, fun samples => SharedKey.Samples.reconstruct_ok⟩
  by_cases signed : ∃ point, curve.Signs (key.point 0) message point
  · obtain ⟨point, signs⟩ := signed
    refine ⟨curve.encodeG2 point, fun partials verified enough => ?_⟩
    obtain ⟨combined, combinedSigns, run⟩ := SharedKey.combine_ok enough verified
    obtain rfl := signs.unique combinedSigns
    exact ⟨run, VrfCurve.verify_ok_iff.mpr ⟨_, _, rfl, rfl, signs⟩⟩
  · refine ⟨0, fun partials verified enough => ?_⟩
    obtain ⟨combined, combinedSigns, _⟩ := SharedKey.combine_ok enough verified
    exact absurd ⟨combined, combinedSigns⟩ signed

end Threshold

/-- The polynomial `42 + 7 x + 11 x ^ 2`, shared among five. -/
def quadraticKey : SharedKey Scalar where
  coefficients := [42, 7, 11]
  committeeSize := 5
  needed := by simp
  threshold_le := by decide
  size_lt := by decide
  keyFinite := by
    rw [evalAt_zero_point]
    exact natScalar_ne_zero 42 (by decide) (by decide)
  shareFinite id positive inside := by
    have value : evalAt [(42 : Scalar), 7, 11] (id : Scalar) = ((42 + id * (7 + id * 11) : Nat) : Scalar) := by
      simp
    rw [value]
    apply natScalar_ne_zero _ (by omega)
    interval_cases id <;> decide

def quadraticPartial (id : Nat) : VerifiedPartialSignature :=
  ⟨id, plainCurve.encodeG2 (quadraticKey.point id), plainCrypto.keccak256 [1]⟩

theorem quadraticPartial_verifies : ∀ id ∈ [1, 2, 3, 4, 5], 1 ≤ id ∧ id ≤ quadraticKey.committeeSize ∧
    plainCurve.verifyPartial plainCrypto (quadraticKey.share plainCurve id) [1]
      ⟨id, plainCurve.encodeG2 (quadraticKey.point id)⟩ = .ok (quadraticPartial id) := by
  decide +kernel

/-- The members five, one and three sign; two, four and five are sampled. -/
theorem threshold_reconstruction_quadratic :
    (∃ partials signature, partials.map (·.shareID) = [5, 1, 3] ∧
      quadraticKey.VerifiedList plainCurve plainCrypto [1] partials ∧
      plainCurve.combineVerifiedPartials plainCrypto (quadraticKey.publicKey plainCurve) [1] partials 3 =
        .ok signature) ∧
    reconstructVerificationSharesV1 plainCurve.bls 5 3 (quadraticKey.publicKey plainCurve)
        ([2, 4, 5].map (quadraticKey.wireShare plainCurve)) =
      some ([1, 2, 3, 4, 5].map (quadraticKey.wireShare plainCurve)) := by
  obtain ⟨combines, reconstructs⟩ := threshold_reconstruction plainCurve plainCrypto quadraticKey
  constructor
  · have verified : quadraticKey.VerifiedList plainCurve plainCrypto [1] ([5, 1, 3].map quadraticPartial) := by
      refine ⟨by decide, fun verified member => ?_⟩
      obtain ⟨id, listed, rfl⟩ := List.mem_map.mp member
      have known : ∀ id ∈ [5, 1, 3], id ∈ [1, 2, 3, 4, 5] := by decide
      exact ⟨id, _, quadraticPartial_verifies id (known id listed)⟩
    obtain ⟨signature, combined⟩ := combines [1]
    exact ⟨_, signature, rfl, verified, (combined _ verified (by decide)).1⟩
  · apply reconstructs
    refine ⟨rfl, by decide, ?_⟩
    intro share member
    obtain ⟨id, listed, rfl⟩ := List.mem_map.mp member
    have bounds : ∀ id ∈ [2, 4, 5], 1 ≤ id ∧ id ≤ 5 := by decide
    exact ⟨id, (bounds id listed).1, (bounds id listed).2, rfl⟩

end RabbitLqc
