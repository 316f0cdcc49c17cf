import RabbitLqc.Basic

/-!
# Signed registry operations

What a participant signs to register, to renew its heartbeat or to leave, and the checks that
need no registry.
-/

namespace RabbitLqc
open Lib RlpCodec

def registryProtocolVersion : UInt8 := 1

def maxRegistryOperationLifetime : Nat := 256

inductive RegistryAction where
  | register
  | heartbeat
  | exit
  deriving DecidableEq, Repr

/-- The action a wire code stands for; other codes are refused by validation. -/
def RegistryAction.ofCode (code : UInt8) : Option RegistryAction :=
  if code = 1 then some .register
  else if code = 2 then some .heartbeat
  else if code = 3 then some .exit
  else none

structure RegistryOperation where
  version : UInt8
  action : UInt8
  address : Address
  sequence : UInt64
  validUntil : UInt64
  proofNonce : UInt64
  signature : Bytes
  deriving DecidableEq, Repr

instance : RlpCodec RegistryOperation where
  toItem operation := .list [toItem operation.version, toItem operation.action,
    toItem operation.address, toItem operation.sequence, toItem operation.validUntil,
    toItem operation.proofNonce, toItem operation.signature]
  ofItem
    | .list [version, action, address, sequence, validUntil, proofNonce, signature] => do
      some ⟨← ofItem version, ← ofItem action, ← ofItem address, ← ofItem sequence,
        ← ofItem validUntil, ← ofItem proofNonce, ← ofItem signature⟩
    | _ => none
  ofItem_toItem operation := by simp

def RegistryOperation.kind (operation : RegistryOperation) : Option RegistryAction :=
  RegistryAction.ofCode operation.action

def registryOperationSigningHash (crypto : Crypto) (chainID : Nat) (operation : RegistryOperation) :
    Hash :=
  crypto.keccak256 <| Rlp.encode <| .list [textItem "RABBIT-LQC-REGISTRY-V1",
    toItem operation.version, natItem chainID, toItem operation.action, toItem operation.address,
    toItem operation.sequence, toItem operation.validUntil, toItem operation.proofNonce]

def lightHashMeetsDifficulty (hash : Hash) (difficulty : Nat) : Bool :=
  decide (difficulty ≠ 0 ∧ hash.toNat < 2 ^ 256 / difficulty)

def recoverRegistryOperationSigner (crypto : Crypto) (chainID : Nat) (operation : RegistryOperation) :
    Option Address :=
  crypto.recoverChecked (registryOperationSigningHash crypto chainID operation) operation.signature

/-! ### Wallet signatures -/

def hexDigit (n : Nat) : Char := Char.ofNat (if n < 10 then 48 + n else 87 + n)

def addressDigits (address : Address) : List Nat :=
  (fixedBytes 20 address.toNat).flatMap fun byte => [byte.toNat / 16, byte.toNat % 16]

/-- `common.Address.Hex`: the digits in mixed case, the case taken from their hash. -/
def addressHex (crypto : Crypto) (address : Address) : String :=
  let digits := addressDigits address
  let lower := digits.map hexDigit
  let hash := crypto.keccak256 (asciiBytes (String.ofList lower))
  let nibbles := (fixedBytes 32 hash.toNat).flatMap fun byte => [byte.toNat / 16, byte.toNat % 16]
  let mixed := (lower.zip nibbles).map fun (c, nibble) => if nibble > 7 then c.toUpper else c
  "0x" ++ String.ofList mixed

def registryOperationWalletMessage (crypto : Crypto) (chainID : Nat)
    (operation : RegistryOperation) : Bytes :=
  asciiBytes <| "Rabbit Chain LQC Registry\nDomain: RABBIT-LQC-REGISTRY-V1\nChain ID: " ++
    toString chainID ++ "\nVersion: " ++ toString operation.version.toNat ++ "\nAction: " ++
    toString operation.action.toNat ++ "\nAddress: " ++ addressHex crypto operation.address ++
    "\nSequence: " ++ toString operation.sequence.toNat ++ "\nValid Until: " ++
    toString operation.validUntil.toNat ++ "\nProof Nonce: " ++ toString operation.proofNonce.toNat

def registryOperationWalletSigningHash (crypto : Crypto) (chainID : Nat)
    (operation : RegistryOperation) : Hash :=
  let message := registryOperationWalletMessage crypto chainID operation
  crypto.keccak256 <|
    asciiBytes ("\x19Ethereum Signed Message:\n" ++ toString message.length) ++ message

def walletSignature (signature : Bytes) : Bytes :=
  let v := signature.getD 64 0
  if v < 27 then signature else signature.set 64 (v - 27)

def recoverRegistryOperationWalletSigner (crypto : Crypto) (chainID : Nat)
    (operation : RegistryOperation) : Option Address :=
  if operation.signature.length = signatureLength then
    let signature := walletSignature operation.signature
    if signature.getD 64 0 ≤ 1 then
      crypto.recoverChecked (registryOperationWalletSigningHash crypto chainID operation) signature
    else none
  else none

/-! ### Validation -/

def validateRegistryOperation (crypto : Crypto) (chainID blockNumber proofDifficulty : Nat)
    (operation : RegistryOperation) : Except LqcError Unit := do
  ensure (operation.version = registryProtocolVersion) .invalidRegistryVersion
  ensure (operation.kind ≠ none) .invalidRegistryAction
  ensure (operation.address ≠ 0) .invalidRegistryAddress
  ensure (operation.sequence ≠ 0) .invalidRegistrySequence
  ensure (blockNumber ≤ operation.validUntil.toNat) .expiredRegistryOperation
  ensure (∃ limit ∈ checkedRegistryBlockAdd [blockNumber, maxRegistryOperationLifetime],
    operation.validUntil.toNat ≤ limit) .registryOperationTooFar
  ensure (recoverRegistryOperationSigner crypto chainID operation = some operation.address ∨
    recoverRegistryOperationWalletSigner crypto chainID operation = some operation.address)
    .invalidRegistrySignature
  ensure (operation.kind = some .register →
    lightHashMeetsDifficulty (registryOperationSigningHash crypto chainID operation) proofDifficulty)
    .invalidLightHashProof

theorem validateRegistryOperation_signature_length {crypto : Crypto}
    {chainID blockNumber proofDifficulty : Nat} {operation : RegistryOperation} {u : Unit}
    (h : validateRegistryOperation crypto chainID blockNumber proofDifficulty operation = .ok u) :
    operation.signature.length = signatureLength := by
  simp only [validateRegistryOperation, ensure_bind_ok_iff] at h
  obtain ⟨_, _, _, _, _, _, signed | wallet, _⟩ := h
  · unfold recoverRegistryOperationSigner Crypto.recoverChecked at signed
    split at signed
    · rename_i shape
      exact signatureShapeOk_length shape
    · cases signed
  · unfold recoverRegistryOperationWalletSigner at wallet
    split at wallet
    · assumption
    · cases wallet

/-- A registry operation of one of the first participants, valid for a single block. -/
def plainOperation (action : UInt8) (signer : Nat) (sequence block : UInt64) : RegistryOperation :=
  ⟨registryProtocolVersion, action, BitVec.ofNat 160 signer, sequence, block, 0, plainSignature signer⟩

end RabbitLqc
