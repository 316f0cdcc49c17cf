import RabbitLqc.Vrf.Threshold

/-!
# Distributed key generation

Every member of the committee deals a polynomial: it commits to the coefficients in the exponent and sends each
member the value at its number. The final keyset is read off the commitments alone, and the values a member was
sent add up to the secret behind its verification share.
-/

namespace RabbitLqc
open Lib RlpCodec

/-! ### Dealt polynomials -/

abbrev DKGPolynomialEvaluationV1 := BitVec 256

abbrev DKGCoefficientCommitmentV1 := VrfPublicKey

/-- One dealer's private polynomial, coefficients from the constant one up. -/
structure DKGDealerPolynomialV1 where
  coefficients : List Scalar
  needed : coefficients ≠ []
  constant : coefficients.head needed ≠ 0
  leading : coefficients.getLast needed ≠ 0

def isEndpoint (count index : Nat) : Bool := index = 0 ∨ index = count - 1

def powerSum {G : Type} [AddCommGroup G] [Module Scalar G] (x : Scalar) (terms : List G) : G :=
  (terms.foldl (fun (state : G × Scalar) term => (state.1 + state.2 • term, state.2 * x)) (0, 1)).1

theorem powerSum_eq {G : Type} [AddCommGroup G] [Module Scalar G] (x : Scalar) (terms : List G) :
    powerSum x terms = evalAt terms x := by
  rw [powerSum, foldl_powers, zero_add, one_smul]

namespace DKGDealerPolynomialV1

variable (polynomial : DKGDealerPolynomialV1)

def threshold : Nat := polynomial.coefficients.length

def value (x : Nat) : Scalar := evalAt polynomial.coefficients (x : Scalar)

def evaluate (recipientShareID : Nat) : Except VrfError DKGPolynomialEvaluationV1 := do
  ensure (polynomial.coefficients ≠ [] ∧ recipientShareID ≠ 0) .invalidDKGDealerPolynomialV1
  let result := powerSum (recipientShareID : Scalar) polynomial.coefficients
  let encoded := scalarWord 256 result
  let _ ← orFail .invalidDKGDealerPolynomialV1 (wordScalar encoded)
  .ok encoded

end DKGDealerPolynomialV1

theorem scalarOrder_lt_word : scalarOrder < 2 ^ 256 := scalarOrder_lt (by decide)

theorem wordScalar_scalarWord (scalar : Scalar) : wordScalar (scalarWord 256 scalar) = some scalar :=
  (wordScalar_iff scalarOrder_lt_word _ _).mpr rfl

theorem DKGDealerPolynomialV1.evaluate_ok (polynomial : DKGDealerPolynomialV1) {recipientShareID : Nat}
    (positive : recipientShareID ≠ 0) :
    polynomial.evaluate recipientShareID = .ok (scalarWord 256 (polynomial.value recipientShareID)) := by
  simp only [evaluate, powerSum_eq, bind_ok_iff, exists_unit, ensure_ok_iff, orFail_ok_iff]
  exact ⟨⟨polynomial.needed, positive⟩, _, wordScalar_scalarWord _, rfl⟩

/-! ### Secret shares -/

structure SecretShare where
  id : Nat
  scalar : Scalar
  numbered : id ≠ 0
  secret : scalar ≠ 0

def newSecretShare (id : Nat) (scalar : Scalar) : Except VrfError SecretShare :=
  if numbered : id = 0 then .error .invalidShareID
  else if secret : scalar = 0 then .error .invalidSecretShare
  else .ok ⟨id, scalar, numbered, secret⟩

def aggregateDKGPolynomialEvaluationsV1 (recipientShareID : Nat) (evaluations : List DKGPolynomialEvaluationV1) :
    Except VrfError SecretShare := do
  ensure (recipientShareID ≠ 0 ∧ evaluations ≠ []) .invalidSecretShare
  let scalars ← evaluations.mapM fun evaluation => orFail .invalidDKGPolynomialEvaluationV1 (wordScalar evaluation)
  newSecretShare recipientShareID (scalars.foldl (· + ·) 0)

variable {G1 G2 GT : Type} [AddCommGroup G1] [Module Scalar G1] [AddCommGroup G2] [Module Scalar G2]
  [AddCommGroup GT] [Module Scalar GT] [DecidableEq G1]

namespace VrfCurve

variable (curve : VrfCurve G1 G2 GT)

def secretPublicKey (share : SecretShare) : Except VrfError VrfPublicKey := do
  let point := share.scalar • curve.generator
  ensure (point ≠ 0) .invalidPublicKey
  .ok (curve.encodeG1 point)

/-! ### Commitments to coefficients -/

def decodeDKGCoefficientCommitmentV1 (commitment : DKGCoefficientCommitmentV1) : Except VrfError G1 :=
  orFail .invalidDKGCoefficientCommitmentV1 (curve.decodeG1 commitment)

def validateDKGCoefficientCommitmentV1 (commitment : DKGCoefficientCommitmentV1) (allowInfinity : Bool) :
    Except VrfError Unit := do
  let point ← curve.decodeDKGCoefficientCommitmentV1 commitment
  ensure (point = 0 → allowInfinity = true) .invalidDKGCoefficientCommitmentV1

def commitCoefficient (endpoint : Bool) (scalar : Scalar) : Except VrfError DKGCoefficientCommitmentV1 := do
  ensure (endpoint = true → scalar ≠ 0) .invalidDKGDealerPolynomialV1
  let commitment := curve.encodeG1 (scalar • curve.generator)
  failAs .invalidDKGDealerPolynomialV1 (curve.validateDKGCoefficientCommitmentV1 commitment !endpoint)
  .ok commitment

def commitments (polynomial : DKGDealerPolynomialV1) : Except VrfError (List DKGCoefficientCommitmentV1) := do
  ensure (polynomial.coefficients ≠ []) .invalidDKGDealerPolynomialV1
  polynomial.coefficients.zipIdx.mapM fun entry =>
    curve.commitCoefficient (isEndpoint polynomial.coefficients.length entry.2) entry.1

def verifyDKGPolynomialEvaluationV1 (recipientShareID : Nat) (evaluation : DKGPolynomialEvaluationV1)
    (coefficients : List DKGCoefficientCommitmentV1) : Except VrfError Unit := do
  ensure (recipientShareID ≠ 0 ∧ coefficients ≠ []) .invalidDKGPolynomialEvaluationV1
  let scalar ← orFail .invalidDKGPolynomialEvaluationV1 (wordScalar evaluation)
  let points ← coefficients.mapM fun commitment =>
    failAs .invalidDKGPolynomialEvaluationV1 (curve.decodeDKGCoefficientCommitmentV1 commitment)
  ensure (curve.encodeG1 (scalar • curve.generator) = curve.encodeG1 (powerSum (recipientShareID : Scalar) points))
    .invalidDKGPolynomialEvaluationV1

def aggregateKey (infinity : VrfError) (points : List G1) : Except VrfError VrfPublicKey := do
  let aggregate := points.foldl (· + ·) 0
  ensure (aggregate ≠ 0) infinity
  let out := curve.encodeG1 aggregate
  let _ ← curve.decodePublicKey out
  .ok out

def dealerPoint (recipientShareID : Nat) (coefficients : List DKGCoefficientCommitmentV1) : Except VrfError G1 := do
  ensure (coefficients ≠ []) .invalidDKGPolynomialEvaluationV1
  let points ← coefficients.mapM fun commitment =>
    failAs .invalidDKGPolynomialEvaluationV1 (curve.decodeDKGCoefficientCommitmentV1 commitment)
  .ok (powerSum (recipientShareID : Scalar) points)

def dkgVerificationPublicKeyV1 (recipientShareID : Nat) (dealerCommitments : List (List DKGCoefficientCommitmentV1)) :
    Except VrfError VrfPublicKey := do
  ensure (recipientShareID ≠ 0 ∧ dealerCommitments ≠ []) .invalidDKGPolynomialEvaluationV1
  let dealerPoints ← dealerCommitments.mapM (curve.dealerPoint recipientShareID)
  curve.aggregateKey .invalidPublicKey dealerPoints

def constantPoint (commitment : DKGCoefficientCommitmentV1) : Except VrfError G1 := do
  curve.validateDKGCoefficientCommitmentV1 commitment false
  curve.decodeDKGCoefficientCommitmentV1 commitment

def aggregateDKGConstantCommitmentsV1 (commitments : List DKGCoefficientCommitmentV1) :
    Except VrfError VrfPublicKey := do
  ensure (commitments ≠ []) .invalidDKGCoefficientCommitmentV1
  let points ← commitments.mapM curve.constantPoint
  curve.aggregateKey .invalidDKGCoefficientCommitmentV1 points

end VrfCurve

/-! ### Commitments of a session -/

/-- The errors of the session's checks. -/
inductive DkgError where
  | invalidRabbitVRFDKGPolynomialCommitmentV1
  | invalidRabbitVRFKeysetV1
  | invalidRabbitVRFDKGPrivateEvaluationV1
  deriving DecidableEq, Repr

structure RabbitVRFDKGPolynomialCommitmentV1 where
  version : UInt8
  sessionID : Hash
  dealerShareID : UInt64
  coefficients : List DKGCoefficientCommitmentV1

def RabbitVRFDKGPolynomialCommitmentV1.root (crypto : Crypto) (commitment : RabbitVRFDKGPolynomialCommitmentV1) :
    Hash :=
  crypto.keccak256 <| Rlp.encode <| .list [textItem "RABBIT-VRF-DKG-POLY-COMMITMENT-V1",
    toItem commitment.version, toItem commitment.sessionID, toItem commitment.dealerShareID,
    toItem commitment.coefficients]

section Session

variable (curve : VrfCurve G1 G2 GT) (crypto : Crypto) (context : RabbitVRFDKGSessionContextV1)

def newRabbitVRFDKGPolynomialCommitmentV1 (dealerShareID : UInt64) (coefficients : List DKGCoefficientCommitmentV1) :
    Except DkgError (RabbitVRFDKGPolynomialCommitmentV1 × Hash) := do
  ensure (context.valid = true) .invalidRabbitVRFDKGPolynomialCommitmentV1
  ensure (dealerShareID ≠ 0 ∧ dealerShareID.toNat ≤ context.committeeSize ∧
    coefficients.length = context.threshold) .invalidRabbitVRFDKGPolynomialCommitmentV1
  ensure (coefficients ≠ []) .invalidRabbitVRFDKGPolynomialCommitmentV1
  coefficients.zipIdx.forM fun entry =>
    failAs .invalidRabbitVRFDKGPolynomialCommitmentV1
      (curve.validateDKGCoefficientCommitmentV1 entry.1 !(isEndpoint coefficients.length entry.2))
  let sessionID ← orFail .invalidRabbitVRFDKGPolynomialCommitmentV1 (rabbitVRFDKGSessionIDV1 crypto context)
  let out : RabbitVRFDKGPolynomialCommitmentV1 := ⟨1, sessionID, dealerShareID, coefficients⟩
  let root := out.root crypto
  ensure (root ≠ 0) .invalidRabbitVRFDKGPolynomialCommitmentV1
  .ok (out, root)

def validateRabbitVRFDKGPolynomialCommitmentV1 (commitment : RabbitVRFDKGPolynomialCommitmentV1) :
    Except DkgError Hash := do
  ensure (commitment.version = 1) .invalidRabbitVRFDKGPolynomialCommitmentV1
  let rebuilt ← newRabbitVRFDKGPolynomialCommitmentV1 curve crypto context commitment.dealerShareID
    commitment.coefficients
  ensure (rebuilt.1.sessionID = commitment.sessionID) .invalidRabbitVRFDKGPolynomialCommitmentV1
  .ok rebuilt.2

/-- The walk over the ordered commitments; `previous` is the dealer before. -/
def commitmentRoots : Option UInt64 → List RabbitVRFDKGPolynomialCommitmentV1 → Except DkgError (List Hash)
  | _, [] => .ok []
  | previous, commitment :: rest => do
    ensure (previous ≠ some commitment.dealerShareID) .invalidRabbitVRFDKGPolynomialCommitmentV1
    let root ← validateRabbitVRFDKGPolynomialCommitmentV1 curve crypto context commitment
    let roots ← commitmentRoots (some commitment.dealerShareID) rest
    .ok (root :: roots)

def canonicalRabbitVRFDKGPolynomialCommitmentsV1 (commitments : List RabbitVRFDKGPolynomialCommitmentV1) :
    Except DkgError (List RabbitVRFDKGPolynomialCommitmentV1 × List Hash) := do
  ensure (context.valid = true) .invalidRabbitVRFDKGPolynomialCommitmentV1
  ensure (commitments ≠ [] ∧ commitments.length ≤ context.committeeSize) .invalidRabbitVRFDKGPolynomialCommitmentV1
  let canonical := sortOn (·.dealerShareID.toNat) commitments
  let roots ← commitmentRoots curve crypto context none canonical
  .ok (canonical, roots)

def constantCommitment (commitment : RabbitVRFDKGPolynomialCommitmentV1) :
    Except DkgError DKGCoefficientCommitmentV1 :=
  orFail .invalidRabbitVRFDKGPolynomialCommitmentV1 commitment.coefficients.head?

def rabbitVRFDKGThresholdPublicKeyV1 (commitments : List RabbitVRFDKGPolynomialCommitmentV1) :
    Except DkgError (VrfPublicKey × List RabbitVRFDKGPolynomialCommitmentV1 × List Hash) := do
  let canonical ← canonicalRabbitVRFDKGPolynomialCommitmentsV1 curve crypto context commitments
  ensure (canonical.1.length = context.committeeSize) .invalidRabbitVRFDKGPolynomialCommitmentV1
  let constants ← canonical.1.mapM constantCommitment
  let publicKey ← failAs .invalidRabbitVRFDKGPolynomialCommitmentV1
    (curve.aggregateDKGConstantCommitmentsV1 constants)
  .ok (publicKey, canonical)

def rabbitVRFDKGTranscriptRootV1 (commitmentRoots : List Hash) : Except DkgError Hash := do
  ensure (context.valid = true) .invalidRabbitVRFDKGPolynomialCommitmentV1
  ensure (commitmentRoots.length = context.committeeSize) .invalidRabbitVRFDKGPolynomialCommitmentV1
  ensure (∀ root ∈ commitmentRoots, root ≠ 0) .invalidRabbitVRFDKGPolynomialCommitmentV1
  let sessionID ← orFail .invalidRabbitVRFDKGPolynomialCommitmentV1 (rabbitVRFDKGSessionIDV1 crypto context)
  let root := crypto.keccak256 <| Rlp.encode <| .list [textItem "RABBIT-VRF-DKG-TRANSCRIPT-ROOT-V1",
    toItem sessionID, toItem commitmentRoots]
  ensure (root ≠ 0) .invalidRabbitVRFDKGPolynomialCommitmentV1
  .ok root

structure FinalKeyset where
  root : Hash
  thresholdPublicKey : VrfPublicKey
  transcriptRoot : Hash
  verificationShares : List RabbitVRFVerificationShareV1

def dkgVerificationShare (dealerCommitments : List (List DKGCoefficientCommitmentV1)) (index : Nat) :
    Except DkgError RabbitVRFVerificationShareV1 := do
  let publicKey ← failAs .invalidRabbitVRFKeysetV1 (curve.dkgVerificationPublicKeyV1 (index + 1) dealerCommitments)
  .ok ⟨UInt64.ofNat (index + 1), publicKey⟩

def rabbitVRFDKGFinalKeysetV1 (commitments : List RabbitVRFDKGPolynomialCommitmentV1) :
    Except DkgError FinalKeyset := do
  let thresholdKey ← rabbitVRFDKGThresholdPublicKeyV1 curve crypto context commitments
  let transcriptRoot ← rabbitVRFDKGTranscriptRootV1 crypto context thresholdKey.2.2
  let verificationShares ← (List.range context.committeeSize).mapM
    (dkgVerificationShare curve (thresholdKey.2.1.map (·.coefficients)))
  let canonicalShares ← orFail .invalidRabbitVRFKeysetV1
    (canonicalRabbitVRFVerificationSharesV1 curve.bls context.committeeSize verificationShares)
  let root ← orFail .invalidRabbitVRFKeysetV1
    (rabbitVRFKeysetRootV1 crypto curve.bls context thresholdKey.1 transcriptRoot verificationShares)
  .ok ⟨root, thresholdKey.1, transcriptRoot, canonicalShares⟩

def verifyRabbitVRFDKGPrivateEvaluationV1 (commitment : RabbitVRFDKGPolynomialCommitmentV1) (recipientShareID : Nat)
    (evaluation : DKGPolynomialEvaluationV1) : Except DkgError Unit := do
  ensure (context.valid = true) .invalidRabbitVRFDKGPrivateEvaluationV1
  ensure (recipientShareID ≠ 0 ∧ recipientShareID ≤ context.committeeSize) .invalidRabbitVRFDKGPrivateEvaluationV1
  let _ ← failAs .invalidRabbitVRFDKGPrivateEvaluationV1
    (validateRabbitVRFDKGPolynomialCommitmentV1 curve crypto context commitment)
  failAs .invalidRabbitVRFDKGPrivateEvaluationV1
    (curve.verifyDKGPolynomialEvaluationV1 recipientShareID evaluation commitment.coefficients)

end Session

/-! ### What the operations compute -/

section Curve

variable {curve : VrfCurve G1 G2 GT}

variable {point : G1} {u : Unit} {scalar : Scalar} {recipientShareID : Nat} {polynomials : List DKGDealerPolynomialV1}
  {key : VrfPublicKey}

def VrfCurve.committed (curve : VrfCurve G1 G2 GT) (coefficients : List Scalar) : List DKGCoefficientCommitmentV1 :=
  coefficients.map fun scalar => curve.encodeG1 (scalar • curve.generator)

omit [DecidableEq G1] in
theorem VrfCurve.decodeDKGCoefficientCommitmentV1_ok_iff {commitment : DKGCoefficientCommitmentV1} :
    curve.decodeDKGCoefficientCommitmentV1 commitment = .ok point ↔ curve.encodeG1 point = commitment := by
  rw [decodeDKGCoefficientCommitmentV1, orFail_ok_iff, curve.decodeG1_iff]

theorem VrfCurve.validateDKGCoefficientCommitmentV1_encode {allowInfinity : Bool} :
    curve.validateDKGCoefficientCommitmentV1 (curve.encodeG1 point) allowInfinity = .ok u ↔
      (point = 0 → allowInfinity = true) := by
  simp only [validateDKGCoefficientCommitmentV1, bind_ok_iff, ensure_ok_iff, decodeDKGCoefficientCommitmentV1_ok_iff]
  constructor
  · intro checked
    obtain ⟨other, same, allowed⟩ := checked
    obtain rfl := encodeG1_injective same
    exact allowed
  · intro allowed
    exact ⟨point, rfl, allowed⟩

theorem DKGDealerPolynomialV1.endpoint_ne_zero (polynomial : DKGDealerPolynomialV1) {index : Nat}
    (member : (scalar, index) ∈ polynomial.coefficients.zipIdx)
    (endpoint : isEndpoint polynomial.coefficients.length index = true) : scalar ≠ 0 := by
  have found := List.mk_mem_zipIdx_iff_getElem?.mp member
  obtain rfl | rfl := of_decide_eq_true endpoint
  · rw [← List.head?_eq_getElem?, List.head?_eq_some_head polynomial.needed] at found
    exact Option.some.inj found ▸ polynomial.constant
  · rw [← List.getLast?_eq_getElem?, List.getLast?_eq_some_getLast polynomial.needed] at found
    exact Option.some.inj found ▸ polynomial.leading

theorem VrfCurve.commitCoefficient_ok {endpoint : Bool} (nonzero : endpoint = true → scalar ≠ 0) :
    curve.commitCoefficient endpoint scalar = .ok (curve.encodeG1 (scalar • curve.generator)) := by
  simp only [commitCoefficient, bind_ok_iff, exists_unit, ensure_ok_iff, failAs_ok_iff,
    validateDKGCoefficientCommitmentV1_encode, smul_generator_eq_zero, and_true]
  refine ⟨nonzero, fun zero => ?_⟩
  cases endpoint with
  | true => exact absurd zero (nonzero rfl)
  | false => rfl

theorem VrfCurve.commitments_ok (polynomial : DKGDealerPolynomialV1) :
    curve.commitments polynomial = .ok (curve.committed polynomial.coefficients) := by
  have each : polynomial.coefficients.zipIdx.mapM (fun entry =>
      curve.commitCoefficient (isEndpoint polynomial.coefficients.length entry.2) entry.1) =
      .ok (polynomial.coefficients.zipIdx.map fun entry => curve.encodeG1 (entry.1 • curve.generator)) :=
    mapM_eq_map fun entry member => commitCoefficient_ok (polynomial.endpoint_ne_zero member)
  have places := congrArg (List.map fun scalar => curve.encodeG1 (scalar • curve.generator))
    (List.zipIdx_map_fst 0 polynomial.coefficients)
  rw [List.map_map] at places
  unfold commitments committed
  rw [bind_ok_iff]
  exact ⟨(), ensure_ok_iff.mpr polynomial.needed, each.trans (congrArg Except.ok places)⟩

omit [DecidableEq G1] in
theorem VrfCurve.evalAt_smul_generator (coefficients : List Scalar) (x : Scalar) :
    evalAt (coefficients.map (· • curve.generator)) x = evalAt coefficients x • curve.generator :=
  (map_evalAt (LinearMap.toSpanSingleton Scalar G1 curve.generator) coefficients x).symm

omit [DecidableEq G1] in
theorem VrfCurve.decodeCommitted (error : VrfError) (coefficients : List Scalar) :
    (curve.committed coefficients).mapM (fun commitment =>
      failAs error (curve.decodeDKGCoefficientCommitmentV1 commitment)) =
        .ok (coefficients.map (· • curve.generator)) := by
  rw [committed, mapM_ok_iff, List.forall₂_map_left_iff, List.forall₂_map_right_iff, List.forall₂_same]
  intro scalar _
  rw [failAs_ok_iff, decodeDKGCoefficientCommitmentV1_ok_iff]

omit [DecidableEq G1] in
theorem VrfCurve.committed_ne_nil (polynomial : DKGDealerPolynomialV1) :
    curve.committed polynomial.coefficients ≠ [] := by
  unfold committed
  rw [Ne, List.map_eq_nil_iff]
  exact polynomial.needed

omit [DecidableEq G1] in
theorem VrfCurve.verifyDKGPolynomialEvaluationV1_ok_iff (positive : recipientShareID ≠ 0)
    {evaluation : DKGPolynomialEvaluationV1} (polynomial : DKGDealerPolynomialV1) :
    curve.verifyDKGPolynomialEvaluationV1 recipientShareID evaluation (curve.committed polynomial.coefficients) =
      .ok u ↔
      evaluation = scalarWord 256 (polynomial.value recipientShareID) := by
  simp only [verifyDKGPolynomialEvaluationV1, decodeCommitted, powerSum_eq, bind_ok_iff, exists_unit, ensure_ok_iff,
    orFail_ok_iff, wordScalar_iff scalarOrder_lt_word, Except.ok.injEq]
  constructor
  · intro checked
    obtain ⟨_, scalar, rfl, points, rfl, same⟩ := checked
    rw [evalAt_smul_generator] at same
    rw [smul_generator_inj.mp (encodeG1_injective same)]
    rfl
  · rintro rfl
    refine ⟨⟨positive, committed_ne_nil polynomial⟩, _, rfl, _, rfl, ?_⟩
    rw [evalAt_smul_generator]
    rfl

def dealtValue (polynomials : List DKGDealerPolynomialV1) (x : Nat) : Scalar := (polynomials.map (·.value x)).sum

theorem VrfCurve.aggregateKey_ok_iff (infinity : VrfError) {x : Nat} :
    curve.aggregateKey infinity (polynomials.map fun polynomial => polynomial.value x • curve.generator) = .ok key ↔
      dealtValue polynomials x ≠ 0 ∧ curve.encodeG1 (dealtValue polynomials x • curve.generator) = key := by
  have pushed := map_list_sum (LinearMap.toSpanSingleton Scalar G1 curve.generator) (polynomials.map (·.value x))
  rw [List.map_map] at pushed
  have aggregate : (polynomials.map fun polynomial => polynomial.value x • curve.generator).foldl (· + ·) 0 =
      dealtValue polynomials x • curve.generator := List.sum_eq_foldl.symm.trans pushed.symm
  simp only [aggregateKey, aggregate, bind_ok_iff, exists_unit, ensure_ok_iff, decodePublicKey_ok_iff,
    Except.ok.injEq, ne_eq, smul_generator_eq_zero]
  constructor
  · intro checked
    obtain ⟨finite, _, _, same⟩ := checked
    exact ⟨finite, same⟩
  · intro given
    obtain ⟨finite, same⟩ := given
    exact ⟨finite, _, ⟨rfl, smul_generator_eq_zero.not.mpr finite⟩, same⟩

omit [DecidableEq G1] in
theorem VrfCurve.dealerPoint_ok (polynomial : DKGDealerPolynomialV1) (recipientShareID : Nat) :
    curve.dealerPoint recipientShareID (curve.committed polynomial.coefficients) =
      .ok (polynomial.value recipientShareID • curve.generator) := by
  simp only [dealerPoint, bind_ok_iff, exists_unit, ensure_ok_iff, decodeCommitted, Except.ok.injEq, powerSum_eq]
  exact ⟨committed_ne_nil polynomial, _, rfl, evalAt_smul_generator _ _⟩

theorem VrfCurve.dkgVerificationPublicKeyV1_ok_iff (positive : recipientShareID ≠ 0) (dealt : polynomials ≠ []) :
    curve.dkgVerificationPublicKeyV1 recipientShareID
        (polynomials.map fun polynomial => curve.committed polynomial.coefficients) = .ok key ↔
      dealtValue polynomials recipientShareID ≠ 0 ∧
        curve.encodeG1 (dealtValue polynomials recipientShareID • curve.generator) = key := by
  have points : (polynomials.map fun polynomial => curve.committed polynomial.coefficients).mapM
      (curve.dealerPoint recipientShareID) =
      .ok (polynomials.map fun polynomial => polynomial.value recipientShareID • curve.generator) := by
    rw [mapM_ok_iff, List.forall₂_map_left_iff, List.forall₂_map_right_iff, List.forall₂_same]
    exact fun polynomial _ => dealerPoint_ok polynomial recipientShareID
  have checked : recipientShareID ≠ 0 ∧
      (polynomials.map fun polynomial => curve.committed polynomial.coefficients) ≠ [] :=
    ⟨positive, List.map_eq_nil_iff.not.mpr dealt⟩
  rw [← aggregateKey_ok_iff .invalidPublicKey]
  simp only [dkgVerificationPublicKeyV1, points, ensure, if_pos checked]
  rfl

theorem DKGDealerPolynomialV1.value_zero (polynomial : DKGDealerPolynomialV1) :
    polynomial.value 0 = polynomial.coefficients.head polynomial.needed := by
  rw [value, Nat.cast_zero, evalAt_zero_point, List.headD_eq_head?_getD, List.head?_eq_some_head polynomial.needed,
    Option.getD_some]

theorem VrfCurve.aggregateDKGConstantCommitmentsV1_ok_iff (dealt : polynomials ≠ []) :
    curve.aggregateDKGConstantCommitmentsV1
        (polynomials.map fun polynomial => curve.encodeG1 (polynomial.value 0 • curve.generator)) = .ok key ↔
      dealtValue polynomials 0 ≠ 0 ∧ curve.encodeG1 (dealtValue polynomials 0 • curve.generator) = key := by
  have points : (polynomials.map fun polynomial => curve.encodeG1 (polynomial.value 0 • curve.generator)).mapM
      curve.constantPoint = .ok (polynomials.map fun polynomial => polynomial.value 0 • curve.generator) := by
    rw [mapM_ok_iff, List.forall₂_map_left_iff, List.forall₂_map_right_iff, List.forall₂_same]
    intro polynomial _
    simp only [constantPoint, bind_ok_iff, exists_unit, validateDKGCoefficientCommitmentV1_encode,
      decodeDKGCoefficientCommitmentV1_ok_iff, smul_generator_eq_zero, and_true]
    intro zero
    rw [polynomial.value_zero] at zero
    exact absurd zero polynomial.constant
  have checked : (polynomials.map fun polynomial => curve.encodeG1 (polynomial.value 0 • curve.generator)) ≠ [] :=
    List.map_eq_nil_iff.not.mpr dealt
  rw [← aggregateKey_ok_iff .invalidDKGCoefficientCommitmentV1]
  simp only [aggregateDKGConstantCommitmentsV1, points, ensure, if_pos checked]
  rfl

theorem aggregateDKGPolynomialEvaluationsV1_eq (positive : recipientShareID ≠ 0) (dealt : polynomials ≠ []) :
    aggregateDKGPolynomialEvaluationsV1 recipientShareID
        (polynomials.map fun polynomial => scalarWord 256 (polynomial.value recipientShareID)) =
      newSecretShare recipientShareID (dealtValue polynomials recipientShareID) := by
  have scalars : (polynomials.map fun polynomial => scalarWord 256 (polynomial.value recipientShareID)).mapM
      (fun evaluation => orFail VrfError.invalidDKGPolynomialEvaluationV1 (wordScalar evaluation)) =
      .ok (polynomials.map (·.value recipientShareID)) := by
    rw [mapM_ok_iff, List.forall₂_map_left_iff, List.forall₂_map_right_iff, List.forall₂_same]
    exact fun polynomial _ => orFail_ok_iff.mpr (wordScalar_scalarWord _)
  have checked : recipientShareID ≠ 0 ∧
      (polynomials.map fun polynomial => scalarWord 256 (polynomial.value recipientShareID)) ≠ [] :=
    ⟨positive, List.map_eq_nil_iff.not.mpr dealt⟩
  simp only [aggregateDKGPolynomialEvaluationsV1, scalars, ensure, if_pos checked]
  show newSecretShare recipientShareID ((polynomials.map (·.value recipientShareID)).foldl (· + ·) 0) = _
  rw [← List.sum_eq_foldl]
  rfl

end Curve

/-! ### A session with all its dealers -/

/-- One dealer of a session: its polynomial and the commitment it published. -/
structure Dealer (curve : VrfCurve G1 G2 GT) (crypto : Crypto) (context : RabbitVRFDKGSessionContextV1) where
  shareID : UInt64
  polynomial : DKGDealerPolynomialV1
  commitment : RabbitVRFDKGPolynomialCommitmentV1
  root : Hash
  published : ∃ coefficients, curve.commitments polynomial = .ok coefficients ∧
    newRabbitVRFDKGPolynomialCommitmentV1 curve crypto context shareID coefficients = .ok (commitment, root)

/-- A dealer for every member, in the order their commitments came in. -/
structure DealerSet (curve : VrfCurve G1 G2 GT) (crypto : Crypto) (context : RabbitVRFDKGSessionContextV1) where
  dealers : List (Dealer curve crypto context)
  valid : context.valid = true
  full : dealers.length = context.committeeSize
  distinct : (dealers.map (·.shareID)).Nodup
  size_lt : context.committeeSize < 2 ^ 64

section Session

variable {curve : VrfCurve G1 G2 GT} {crypto : Crypto} {context : RabbitVRFDKGSessionContextV1}

variable {shareID : UInt64} {polynomial : DKGDealerPolynomialV1}

theorem committed_validated (polynomial : DKGDealerPolynomialV1) :
    (curve.committed polynomial.coefficients).zipIdx.forM (fun entry =>
      failAs DkgError.invalidRabbitVRFDKGPolynomialCommitmentV1 (curve.validateDKGCoefficientCommitmentV1 entry.1
        !(isEndpoint polynomial.threshold entry.2))) = .ok () := by
  rw [forM_ok_iff]
  intro entry member
  unfold VrfCurve.committed at member
  rw [List.zipIdx_map] at member
  obtain ⟨place, listed, rfl⟩ := List.mem_map.mp member
  have nonzero : isEndpoint polynomial.coefficients.length place.2 = true → place.1 ≠ 0 :=
    polynomial.endpoint_ne_zero listed
  rw [failAs_ok_iff]
  apply VrfCurve.validateDKGCoefficientCommitmentV1_encode.mpr
  intro zero
  rw [Bool.not_eq_eq_eq_not, Bool.not_true, Bool.eq_false_iff]
  exact fun endpoint => nonzero endpoint (VrfCurve.smul_generator_eq_zero.mp zero)

theorem newRabbitVRFDKGPolynomialCommitmentV1_ok_iff {commitment : RabbitVRFDKGPolynomialCommitmentV1} {root : Hash} :
    newRabbitVRFDKGPolynomialCommitmentV1 curve crypto context shareID (curve.committed polynomial.coefficients) =
        .ok (commitment, root) ↔
      context.valid = true ∧ (shareID ≠ 0 ∧ shareID.toNat ≤ context.committeeSize ∧
        polynomial.threshold = context.threshold) ∧
      ∃ sessionID, rabbitVRFDKGSessionIDV1 crypto context = some sessionID ∧ commitment = ⟨1, sessionID, shareID, curve.committed polynomial.coefficients⟩ ∧
        root = commitment.root crypto ∧ root ≠ 0 := by
  have length : (curve.committed polynomial.coefficients).length = polynomial.threshold := List.length_map _
  simp only [newRabbitVRFDKGPolynomialCommitmentV1, length, committed_validated, bind_ok_iff, exists_unit,
    ensure_ok_iff, orFail_ok_iff, Except.ok.injEq]
  constructor
  · intro checked
    obtain ⟨valid, bounds, _, _, sessionID, session, nonzero, same⟩ := checked
    obtain ⟨rfl, rfl⟩ := Prod.mk.inj same
    exact ⟨valid, bounds, sessionID, session, rfl, rfl, nonzero⟩
  · intro given
    obtain ⟨valid, bounds, sessionID, session, rfl, rfl, nonzero⟩ := given
    exact ⟨valid, bounds, VrfCurve.committed_ne_nil polynomial, trivial, sessionID, session, nonzero, rfl⟩

namespace Dealer

variable (dealer : Dealer curve crypto context)

theorem checks : context.valid = true ∧ (dealer.shareID ≠ 0 ∧ dealer.shareID.toNat ≤ context.committeeSize ∧
    dealer.polynomial.threshold = context.threshold) ∧
    ∃ sessionID, rabbitVRFDKGSessionIDV1 crypto context = some sessionID ∧
    dealer.commitment = ⟨1, sessionID, dealer.shareID, curve.committed dealer.polynomial.coefficients⟩ ∧
    dealer.root = dealer.commitment.root crypto ∧ dealer.root ≠ 0 := by
  obtain ⟨coefficients, committed, run⟩ := dealer.published
  obtain rfl := Except.ok.inj ((VrfCurve.commitments_ok dealer.polynomial).symm.trans committed)
  exact newRabbitVRFDKGPolynomialCommitmentV1_ok_iff.mp run

theorem commitment_coefficients : dealer.commitment.coefficients = curve.committed dealer.polynomial.coefficients := by
  obtain ⟨_, _, _, _, same, _⟩ := dealer.checks
  rw [same]

theorem commitment_dealerShareID : dealer.commitment.dealerShareID = dealer.shareID := by
  obtain ⟨_, _, _, _, same, _⟩ := dealer.checks
  rw [same]

theorem validated : validateRabbitVRFDKGPolynomialCommitmentV1 curve crypto context dealer.commitment =
    .ok dealer.root := by
  obtain ⟨valid, bounds, sessionID, session, same, root, nonzero⟩ := dealer.checks
  have rebuilt := newRabbitVRFDKGPolynomialCommitmentV1_ok_iff.mpr
    ⟨valid, bounds, sessionID, session, same, root, nonzero⟩
  simp only [validateRabbitVRFDKGPolynomialCommitmentV1, bind_ok_iff, exists_unit, ensure_ok_iff]
  rw [dealer.commitment_dealerShareID, dealer.commitment_coefficients]
  refine ⟨?_, _, rebuilt, rfl, rfl⟩
  rw [same]

theorem evaluation_ok_iff {recipientShareID : Nat} (positive : recipientShareID ≠ 0)
    (inside : recipientShareID ≤ context.committeeSize) {evaluation : DKGPolynomialEvaluationV1} {u : Unit} :
    verifyRabbitVRFDKGPrivateEvaluationV1 curve crypto context dealer.commitment recipientShareID evaluation = .ok u ↔
      evaluation = scalarWord 256 (dealer.polynomial.value recipientShareID) := by
  simp only [verifyRabbitVRFDKGPrivateEvaluationV1, dealer.validated, dealer.commitment_coefficients, bind_ok_iff,
    exists_unit, ensure_ok_iff, failAs_ok_iff, VrfCurve.verifyDKGPolynomialEvaluationV1_ok_iff positive]
  constructor
  · intro checked
    obtain ⟨_, _, _, _, same⟩ := checked
    exact same
  · intro same
    exact ⟨dealer.checks.1, ⟨positive, inside⟩, dealer.root, rfl, same⟩

end Dealer

theorem commitmentRoots_ok {previous : Option UInt64} {dealers : List (Dealer curve crypto context)}
    (distinct : (dealers.map (·.shareID)).Nodup) (fresh : ∀ dealer ∈ dealers, previous ≠ some dealer.shareID) :
    commitmentRoots curve crypto context previous (dealers.map (·.commitment)) = .ok (dealers.map (·.root)) := by
  induction dealers generalizing previous with
  | nil => rfl
  | cons dealer rest ih =>
    rw [List.map_cons, List.nodup_cons] at distinct
    simp only [List.map_cons, commitmentRoots, bind_ok_iff, exists_unit, ensure_ok_iff, dealer.validated,
      dealer.commitment_dealerShareID]
    refine ⟨fresh dealer List.mem_cons_self, dealer.root, rfl, _, ih distinct.2 ?_, rfl⟩
    intro other member same
    exact distinct.1 (List.mem_map.mpr ⟨other, member, (Option.some.inj same).symm⟩)

namespace DealerSet

variable (dealing : DealerSet curve crypto context)

def commitments : List RabbitVRFDKGPolynomialCommitmentV1 := dealing.dealers.map (·.commitment)

def polynomials : List DKGDealerPolynomialV1 := dealing.dealers.map (·.polynomial)

def value (x : Nat) : Scalar := dealtValue dealing.polynomials x

def ordered : List (Dealer curve crypto context) := sortOn (·.shareID.toNat) dealing.dealers

theorem ordered_perm : dealing.ordered.Perm dealing.dealers := sortOn_perm

theorem ordered_commitments : sortOn (·.dealerShareID.toNat) dealing.commitments =
    dealing.ordered.map (·.commitment) := by
  have keys : (fun dealer : Dealer curve crypto context => dealer.commitment.dealerShareID.toNat) =
      fun dealer => dealer.shareID.toNat := by
    funext dealer
    rw [dealer.commitment_dealerShareID]
  unfold commitments ordered
  rw [← keys, sortOn_map]

theorem dealtValue_ordered (x : Nat) : dealtValue (dealing.ordered.map (·.polynomial)) x = dealing.value x := by
  unfold value dealtValue polynomials
  exact ((dealing.ordered_perm.map _).map _).sum_eq

include dealing in
theorem committeeSize_ne_zero : context.committeeSize ≠ 0 := by
  have valid := dealing.valid
  simp only [RabbitVRFDKGSessionContextV1.valid, decide_eq_true_eq] at valid
  exact valid.2.2.2.2.1

theorem ordered_ne_nil : dealing.ordered ≠ [] := by
  apply List.ne_nil_of_length_pos
  rw [dealing.ordered_perm.length_eq, dealing.full]
  exact Nat.pos_of_ne_zero dealing.committeeSize_ne_zero

theorem canonical_ok : canonicalRabbitVRFDKGPolynomialCommitmentsV1 curve crypto context dealing.commitments =
    .ok (dealing.ordered.map (·.commitment), dealing.ordered.map (·.root)) := by
  have size : dealing.commitments.length = context.committeeSize := (List.length_map _).trans dealing.full
  have some : dealing.commitments ≠ [] := by
    apply List.ne_nil_of_length_pos
    rw [size]
    exact Nat.pos_of_ne_zero dealing.committeeSize_ne_zero
  have distinct : (dealing.ordered.map (·.shareID)).Nodup := (dealing.ordered_perm.map _).nodup_iff.mpr dealing.distinct
  simp only [canonicalRabbitVRFDKGPolynomialCommitmentsV1, dealing.ordered_commitments, bind_ok_iff, exists_unit,
    ensure_ok_iff]
  exact ⟨dealing.valid, ⟨some, size.le⟩, _, commitmentRoots_ok distinct (fun _ _ => by simp), rfl⟩

theorem constants_ok : (dealing.ordered.map (·.commitment)).mapM constantCommitment =
    .ok ((dealing.ordered.map (·.polynomial)).map fun polynomial =>
      curve.encodeG1 (polynomial.value 0 • curve.generator)) := by
  rw [mapM_ok_iff, List.forall₂_map_left_iff, List.forall₂_map_right_iff, List.forall₂_map_right_iff,
    List.forall₂_same]
  intro dealer _
  rw [constantCommitment, orFail_ok_iff, dealer.commitment_coefficients, dealer.polynomial.value_zero,
    VrfCurve.committed, List.head?_map, List.head?_eq_some_head dealer.polynomial.needed, Option.map_some]

theorem thresholdPublicKey_ok_iff
    {result : VrfPublicKey × List RabbitVRFDKGPolynomialCommitmentV1 × List Hash} :
    rabbitVRFDKGThresholdPublicKeyV1 curve crypto context dealing.commitments = .ok result ↔
      dealing.value 0 ≠ 0 ∧ (curve.encodeG1 (dealing.value 0 • curve.generator), dealing.ordered.map (·.commitment),
        dealing.ordered.map (·.root)) = result := by
  have size : (dealing.ordered.map (·.commitment)).length = context.committeeSize := by
    rw [List.length_map, dealing.ordered_perm.length_eq, dealing.full]
  have dealt : dealing.ordered.map (·.polynomial) ≠ [] := List.map_eq_nil_iff.not.mpr dealing.ordered_ne_nil
  simp only [rabbitVRFDKGThresholdPublicKeyV1, bind_ok_iff, exists_unit, ensure_ok_iff, failAs_ok_iff]
  constructor
  · intro checked
    obtain ⟨canonical, sorted, _, constants, first, key, aggregated, same⟩ := checked
    obtain rfl := Except.ok.inj (dealing.canonical_ok.symm.trans sorted)
    obtain rfl := Except.ok.inj (dealing.constants_ok.symm.trans first)
    obtain rfl := Except.ok.inj same
    obtain ⟨finite, rfl⟩ := (VrfCurve.aggregateDKGConstantCommitmentsV1_ok_iff dealt).mp aggregated
    rw [dealing.dealtValue_ordered] at finite ⊢
    exact ⟨finite, rfl⟩
  · intro given
    obtain ⟨finite, rfl⟩ := given
    rw [← dealing.dealtValue_ordered] at finite ⊢
    exact ⟨_, dealing.canonical_ok, size, _, dealing.constants_ok, _,
      (VrfCurve.aggregateDKGConstantCommitmentsV1_ok_iff dealt).mpr ⟨finite, rfl⟩, rfl⟩

theorem shares_ok_iff {shares : List RabbitVRFVerificationShareV1} :
    (List.range context.committeeSize).mapM (dkgVerificationShare curve
        ((dealing.ordered.map (·.commitment)).map (·.coefficients))) = .ok shares ↔
      (∀ index ∈ List.range context.committeeSize, dealing.value (index + 1) ≠ 0) ∧
        numberedShares context.committeeSize (fun id => curve.encodeG1 (dealing.value id • curve.generator)) =
          shares := by
  have committed : (dealing.ordered.map (·.commitment)).map (·.coefficients) =
      (dealing.ordered.map (·.polynomial)).map fun polynomial => curve.committed polynomial.coefficients := by
    rw [List.map_map, List.map_map]
    exact List.map_congr_left fun dealer _ => dealer.commitment_coefficients
  have dealt : dealing.ordered.map (·.polynomial) ≠ [] := List.map_eq_nil_iff.not.mpr dealing.ordered_ne_nil
  apply mapM_ok_map_iff
  intro index _ share
  simp only [dkgVerificationShare, bind_ok_iff, failAs_ok_iff, committed, dealing.dealtValue_ordered, Except.ok.injEq,
    VrfCurve.dkgVerificationPublicKeyV1_ok_iff (Nat.succ_ne_zero index) dealt]
  constructor
  · intro step
    obtain ⟨_, ⟨finite, rfl⟩, rfl⟩ := step
    exact ⟨finite, rfl⟩
  · intro given
    obtain ⟨finite, rfl⟩ := given
    exact ⟨_, ⟨finite, rfl⟩, rfl⟩

theorem finalKeyset_ok_iff {keyset : FinalKeyset} :
    rabbitVRFDKGFinalKeysetV1 curve crypto context dealing.commitments = .ok keyset ↔
      (∀ id ≤ context.committeeSize, dealing.value id ≠ 0) ∧
        keyset.thresholdPublicKey = curve.encodeG1 (dealing.value 0 • curve.generator) ∧
        keyset.verificationShares =
          numberedShares context.committeeSize (fun id => curve.encodeG1 (dealing.value id • curve.generator)) ∧
        rabbitVRFDKGTranscriptRootV1 crypto context (dealing.ordered.map (·.root)) = .ok keyset.transcriptRoot ∧
        rabbitVRFKeysetRootV1 crypto curve.bls context keyset.thresholdPublicKey keyset.transcriptRoot
          keyset.verificationShares = some keyset.root := by
  have canonical : ∀ {shares : List RabbitVRFVerificationShareV1},
      (∀ id ≤ context.committeeSize, dealing.value id ≠ 0) →
      (canonicalRabbitVRFVerificationSharesV1 curve.bls context.committeeSize (numberedShares context.committeeSize
        (fun id => curve.encodeG1 (dealing.value id • curve.generator))) = some shares ↔
      numberedShares context.committeeSize (fun id => curve.encodeG1 (dealing.value id • curve.generator)) =
        shares) := by
    intro shares finite
    rw [numberedShares_canonical dealing.committeeSize_ne_zero dealing.size_lt, Option.some.injEq]
    intro id _ inside
    exact VrfCurve.bls_publicKeyOk (VrfCurve.smul_generator_eq_zero.not.mpr (finite id inside))
  simp only [rabbitVRFDKGFinalKeysetV1, bind_ok_iff, orFail_ok_iff, Except.ok.injEq,
    dealing.thresholdPublicKey_ok_iff]
  constructor
  · intro checked
    obtain ⟨_, ⟨keyFinite, rfl⟩, transcript, hashed, shares, dealt, out, sorted, root, rooted, rfl⟩ := checked
    obtain ⟨finite, rfl⟩ := dealing.shares_ok_iff.mp dealt
    have each : ∀ id ≤ context.committeeSize, dealing.value id ≠ 0 := by
      intro id inside
      cases id with
      | zero => exact keyFinite
      | succ index => exact finite index (List.mem_range.mpr inside)
    obtain rfl := (canonical each).mp sorted
    exact ⟨each, rfl, rfl, hashed, rooted⟩
  · intro given
    obtain ⟨each, key, shares, hashed, rooted⟩ := given
    obtain ⟨root, thresholdPublicKey, transcriptRoot, verificationShares⟩ := keyset
    dsimp only at key shares hashed rooted
    subst key
    subst shares
    have finite : ∀ index ∈ List.range context.committeeSize, dealing.value (index + 1) ≠ 0 :=
      fun index member => each (index + 1) (List.mem_range.mp member)
    exact ⟨_, ⟨each 0 (Nat.zero_le _), rfl⟩, _, hashed, _, dealing.shares_ok_iff.mpr ⟨finite, rfl⟩, _,
      (canonical each).mpr rfl, _, rooted, rfl⟩

theorem finalKeyset_exists (hashes : ∀ bytes, crypto.keccak256 bytes ≠ 0)
    (finite : ∀ id ≤ context.committeeSize, dealing.value id ≠ 0) :
    ∃ keyset, rabbitVRFDKGFinalKeysetV1 curve crypto context dealing.commitments = .ok keyset := by
  have size : (dealing.ordered.map (·.root)).length = context.committeeSize := by
    rw [List.length_map, dealing.ordered_perm.length_eq, dealing.full]
  have nonzero : ∀ root ∈ dealing.ordered.map (·.root), root ≠ 0 := by
    intro root member
    obtain ⟨dealer, _, rfl⟩ := List.mem_map.mp member
    obtain ⟨_, _, _, _, _, _, nonzero⟩ := dealer.checks
    exact nonzero
  obtain ⟨first, _⟩ := List.exists_mem_of_ne_nil _ dealing.ordered_ne_nil
  obtain ⟨_, _, sessionID, session, _⟩ := first.checks
  obtain ⟨transcript, hashed⟩ : ∃ transcript,
      rabbitVRFDKGTranscriptRootV1 crypto context (dealing.ordered.map (·.root)) = .ok transcript ∧ transcript ≠ 0 := by
    simp only [rabbitVRFDKGTranscriptRootV1, bind_ok_iff, exists_unit, ensure_ok_iff, orFail_ok_iff]
    exact ⟨_, ⟨dealing.valid, size, nonzero, sessionID, session, hashes _, rfl⟩, hashes _⟩
  have keyOk : ∀ id ≤ context.committeeSize,
      curve.bls.publicKeyOk (curve.encodeG1 (dealing.value id • curve.generator)) = true :=
    fun id inside => VrfCurve.bls_publicKeyOk (VrfCurve.smul_generator_eq_zero.not.mpr (finite id inside))
  obtain ⟨root, rooted, _⟩ : ∃ root, rabbitVRFKeysetRootV1 crypto curve.bls context
      (curve.encodeG1 (dealing.value 0 • curve.generator)) transcript (numberedShares context.committeeSize fun id =>
        curve.encodeG1 (dealing.value id • curve.generator)) = some root ∧ root ≠ 0 :=
    numberedShares_root dealing.valid dealing.size_lt (fun id _ => keyOk id) hashes (keyOk 0 (Nat.zero_le _)) hashed.2
  exact ⟨⟨root, _, transcript, _⟩, dealing.finalKeyset_ok_iff.mpr ⟨finite, rfl, rfl, hashed.1, rooted⟩⟩

theorem secret_ok {id : Nat} (positive : id ≠ 0) (inside : id ≤ context.committeeSize)
    {evaluations : List DKGPolynomialEvaluationV1} (verified : List.Forall₂ (fun dealer evaluation =>
      verifyRabbitVRFDKGPrivateEvaluationV1 curve crypto context dealer.commitment id evaluation = .ok ())
      dealing.dealers evaluations) (finite : dealing.value id ≠ 0) :
    ∃ share, aggregateDKGPolynomialEvaluationsV1 id evaluations = .ok share ∧ share.id = id ∧
      share.scalar = dealing.value id ∧
      curve.secretPublicKey share = .ok (curve.encodeG1 (dealing.value id • curve.generator)) := by
  have sent : evaluations = dealing.polynomials.map fun polynomial => scalarWord 256 (polynomial.value id) := by
    rw [polynomials, List.map_map, eq_comm, ← List.forall₂_eq_eq_eq, List.forall₂_map_left_iff]
    refine verified.imp fun dealer evaluation ok => ?_
    exact ((dealer.evaluation_ok_iff positive inside).mp ok).symm
  have dealt : dealing.polynomials ≠ [] := by
    apply List.ne_nil_of_length_pos
    rw [polynomials, List.length_map, dealing.full]
    exact Nat.pos_of_ne_zero dealing.committeeSize_ne_zero
  refine ⟨⟨id, dealing.value id, positive, finite⟩, ?_, rfl, rfl, ?_⟩
  · rw [sent, aggregateDKGPolynomialEvaluationsV1_eq positive dealt]
    show newSecretShare id (dealing.value id) = _
    rw [newSecretShare, dif_neg positive, dif_neg finite]
  · simp only [VrfCurve.secretPublicKey, ensure_bind_ok_iff, and_true]
    exact VrfCurve.smul_generator_eq_zero.not.mpr finite

end DealerSet

theorem Dealer.exists_published (hashes : ∀ bytes, crypto.keccak256 bytes ≠ 0) (valid : context.valid = true)
    (positive : shareID ≠ 0) (inside : shareID.toNat ≤ context.committeeSize)
    (degree : polynomial.threshold = context.threshold) :
    ∃ dealer : Dealer curve crypto context, dealer.shareID = shareID ∧ dealer.polynomial = polynomial := by
  obtain ⟨sessionID, session⟩ : ∃ sessionID, rabbitVRFDKGSessionIDV1 crypto context = some sessionID :=
    ⟨_, if_pos ⟨valid, hashes _⟩⟩
  exact ⟨⟨shareID, polynomial, _, _, _, VrfCurve.commitments_ok polynomial,
    newRabbitVRFDKGPolynomialCommitmentV1_ok_iff.mpr
      ⟨valid, ⟨positive, inside, degree⟩, sessionID, session, rfl, rfl, hashes _⟩⟩, rfl, rfl⟩

theorem DealerSet.exists_dealing (hashes : ∀ bytes, crypto.keccak256 bytes ≠ 0) (valid : context.valid = true)
    (small : context.committeeSize < 2 ^ 64) {polynomials : List DKGDealerPolynomialV1}
    (full : polynomials.length = context.committeeSize)
    (degree : ∀ polynomial ∈ polynomials, polynomial.threshold = context.threshold) :
    ∃ dealing : DealerSet curve crypto context, dealing.polynomials = polynomials := by
  have number : ∀ index : Fin polynomials.length, (UInt64.ofNat (index + 1)).toNat = index + 1 := by
    intro index
    have below := index.isLt
    exact UInt64.toNat_ofNat_of_lt' (show index.val + 1 < 2 ^ 64 by omega)
  have each : ∀ index : Fin polynomials.length, ∃ dealer : Dealer curve crypto context,
      dealer.shareID = UInt64.ofNat (index + 1) ∧ dealer.polynomial = polynomials[index] := by
    intro index
    have below := index.isLt
    apply Dealer.exists_published hashes valid _ _ (degree _ (List.getElem_mem below))
    · intro zero
      have numbered := number index
      rw [zero] at numbered
      cases numbered
    · rw [number]
      omega
  choose dealer shareID polynomial using each
  refine ⟨⟨List.ofFn dealer, valid, ?_, ?_, small⟩, ?_⟩
  · rw [List.length_ofFn, full]
  · rw [List.map_ofFn, List.nodup_ofFn]
    intro left right same
    have numbers := congrArg UInt64.toNat ((shareID left).symm.trans (same.trans (shareID right)))
    rw [number, number] at numbers
    exact Fin.ext (Nat.succ.inj numbers)
  · show (List.ofFn dealer).map (·.polynomial) = polynomials
    rw [List.map_ofFn, show (fun dealer => dealer.polynomial) ∘ dealer = fun index => polynomials[index] from
      funext polynomial]
    exact List.ofFn_getElem

/-- The final keyset is the sum of the dealt polynomials in the exponent; a member accepts from a dealer the value
of its polynomial and nothing else, and what it accepted from all of them adds up to the secret of its share. -/
theorem key_generation_correct (curve : VrfCurve G1 G2 GT) (crypto : Crypto) (context : RabbitVRFDKGSessionContextV1)
    (dealing : DealerSet curve crypto context) :
    ((∀ keyset, rabbitVRFDKGFinalKeysetV1 curve crypto context dealing.commitments = .ok keyset →
        keyset.thresholdPublicKey = curve.encodeG1 (dealing.value 0 • curve.generator) ∧
          keyset.verificationShares =
            numberedShares context.committeeSize fun id => curve.encodeG1 (dealing.value id • curve.generator)) ∧
      ((∀ bytes, crypto.keccak256 bytes ≠ 0) → (∀ id ≤ context.committeeSize, dealing.value id ≠ 0) →
        ∃ keyset, rabbitVRFDKGFinalKeysetV1 curve crypto context dealing.commitments = .ok keyset)) ∧
    ∀ id, 1 ≤ id → id ≤ context.committeeSize →
      (∀ dealer ∈ dealing.dealers,
        dealer.polynomial.evaluate id = .ok (scalarWord 256 (dealer.polynomial.value id)) ∧
        ∀ evaluation, verifyRabbitVRFDKGPrivateEvaluationV1 curve crypto context dealer.commitment id evaluation =
          .ok () ↔
          evaluation = scalarWord 256 (dealer.polynomial.value id)) ∧
      ∀ evaluations, List.Forall₂ (fun dealer evaluation =>
          verifyRabbitVRFDKGPrivateEvaluationV1 curve crypto context dealer.commitment id evaluation = .ok ())
          dealing.dealers evaluations → dealing.value id ≠ 0 →
        ∃ share, aggregateDKGPolynomialEvaluationsV1 id evaluations = .ok share ∧ share.id = id ∧
          share.scalar = dealing.value id ∧
          curve.secretPublicKey share = .ok (curve.encodeG1 (dealing.value id • curve.generator)) := by
  refine ⟨⟨?_, dealing.finalKeyset_exists⟩, ?_⟩
  · intro keyset run
    obtain ⟨_, key, shares, _⟩ := dealing.finalKeyset_ok_iff.mp run
    exact ⟨key, shares⟩
  · intro id positive inside
    have numbered : id ≠ 0 := by omega
    refine ⟨?_, ?_⟩
    · intro dealer _
      exact ⟨dealer.polynomial.evaluate_ok numbered, fun evaluation => dealer.evaluation_ok_iff numbered inside⟩
    · intro evaluations verified finite
      exact dealing.secret_ok numbered inside verified finite

end Session

/-! ### Four dealers -/

def fourContext : RabbitVRFDKGSessionContextV1 := ⟨1, 1, 1, 1, 4, 3, 1⟩

def quadratic? (constant linear leading : Scalar) : Option DKGDealerPolynomialV1 :=
  if finite : constant ≠ 0 ∧ leading ≠ 0 then
    some ⟨[constant, linear, leading], List.cons_ne_nil _ _, finite.1, finite.2⟩
  else none

/-- Polynomials that add up to the one of the quadratic key. -/
def quadratics : List DKGDealerPolynomialV1 :=
  [quadratic? 10 1 2, quadratic? 20 2 3, quadratic? 4 3 2, quadratic? 8 1 4].reduceOption

theorem exists_quadratics :
    ∃ dealing : DealerSet plainCurve plainCrypto fourContext, dealing.polynomials = quadratics :=
  DealerSet.exists_dealing plainCrypto_keccak256_ne_zero (by decide) (by decide) (by decide +kernel) (by decide +kernel)

theorem quadratics_ne_zero : ∀ id ≤ 4, dealtValue quadratics id ≠ 0 := by
  decide +kernel

theorem key_generation_correct_quadratics :
    ∃ (dealing : DealerSet plainCurve plainCrypto fourContext) (keyset : FinalKeyset),
      rabbitVRFDKGFinalKeysetV1 plainCurve plainCrypto fourContext dealing.commitments = .ok keyset ∧
      keyset.thresholdPublicKey = quadraticKey.publicKey plainCurve ∧
      keyset.verificationShares = [1, 2, 3, 4].map (quadraticKey.wireShare plainCurve) ∧
      ∃ evaluations share, List.Forall₂ (fun dealer evaluation =>
          verifyRabbitVRFDKGPrivateEvaluationV1 plainCurve plainCrypto fourContext dealer.commitment 3 evaluation =
            .ok ())
          dealing.dealers evaluations ∧
        aggregateDKGPolynomialEvaluationsV1 3 evaluations = .ok share ∧ share.scalar = 162 := by
  obtain ⟨dealing, polynomials⟩ := exists_quadratics
  have value : dealing.value = dealtValue quadratics := by
    funext id
    rw [DealerSet.value, polynomials]
  obtain ⟨⟨keys, exists_keyset⟩, members⟩ := key_generation_correct plainCurve plainCrypto fourContext dealing
  rw [value] at keys exists_keyset members
  obtain ⟨keyset, run⟩ := exists_keyset plainCrypto_keccak256_ne_zero quadratics_ne_zero
  obtain ⟨key, shares⟩ := keys keyset run
  obtain ⟨evaluates, aggregates⟩ := members 3 (by decide) (by decide)
  have verified : List.Forall₂ (fun dealer evaluation =>
      verifyRabbitVRFDKGPrivateEvaluationV1 plainCurve plainCrypto fourContext dealer.commitment 3 evaluation = .ok ())
      dealing.dealers (dealing.dealers.map fun dealer => scalarWord 256 (dealer.polynomial.value 3)) := by
    rw [List.forall₂_map_right_iff, List.forall₂_same]
    exact fun dealer member => ((evaluates dealer member).2 _).mpr rfl
  obtain ⟨share, aggregated, _, scalar, _⟩ := aggregates _ verified (quadratics_ne_zero 3 (by decide))
  refine ⟨dealing, keyset, run, key.trans ?_, shares.trans ?_, _, share, verified, aggregated, scalar.trans ?_⟩
  · decide +kernel
  · decide +kernel
  · decide +kernel

end RabbitLqc
