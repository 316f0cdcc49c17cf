import RabbitLqc.Header.RegistryExtra
import RabbitLqc.Lib.KeyedList

/-!
# The indexes of the registry pool

The relay pool stores operations under their signing hash, and for each address the hash of its operation. Adding
removes by one index and inserts by both, pruning deletes by both; at every moment the two are one correspondence.
-/

namespace RabbitLqc
open Lib

/-! ### The pool -/

def maxRegistryPoolOperations : Nat := 4096

structure HashedOperation where
  hash : Hash
  operation : RegistryOperation

structure AddressHash where
  address : Address
  hash : Hash

structure RegistryPoolIndexes where
  byHash : KeyedList HashedOperation (·.hash.toNat)
  byAddress : KeyedList AddressHash (·.address.toNat)

/-- The order in which a loop over a map meets its entries. -/
structure MapOrder (α : Type) where
  arrange : List α → List α
  perm : ∀ entries, (arrange entries).Perm entries

namespace RegistryPoolIndexes

def empty : RegistryPoolIndexes := ⟨.empty, .empty⟩

def operation? (pool : RegistryPoolIndexes) (hash : Hash) : Option RegistryOperation :=
  (pool.byHash.get? hash.toNat).map (·.operation)

def hashOf? (pool : RegistryPoolIndexes) (address : Address) : Option Hash :=
  (pool.byAddress.get? address.toNat).map (·.hash)

def size (pool : RegistryPoolIndexes) : Nat := pool.byHash.items.length

def store (hash : Hash) (operation : RegistryOperation) (pool : RegistryPoolIndexes) : RegistryPoolIndexes :=
  ⟨pool.byHash.put ⟨hash, operation⟩, pool.byAddress.put ⟨operation.address, hash⟩⟩

def dropHash (hash : Hash) (pool : RegistryPoolIndexes) : RegistryPoolIndexes :=
  { pool with byHash := pool.byHash.erase hash.toNat }

def zeroOperation : RegistryOperation := ⟨0, 0, 0, 0, 0, 0, []⟩

def add (crypto : Crypto) (chainID : Nat) (operation : RegistryOperation) (pool : RegistryPoolIndexes) :
    (Hash × Option LqcError) × RegistryPoolIndexes :=
  let hash := registryOperationSigningHash crypto chainID operation
  if (pool.operation? hash).isSome then ((hash, some .registryOperationKnown), pool)
  else match pool.hashOf? operation.address with
    | some previousHash =>
      let previous := (pool.operation? previousHash).getD zeroOperation
      if operation.sequence ≤ previous.sequence then ((0, some .registryOperationPending), pool)
      else ((hash, none), (pool.dropHash previousHash).store hash operation)
    | none =>
      if maxRegistryPoolOperations ≤ pool.size then ((0, some .registryPoolFull), pool)
      else ((hash, none), pool.store hash operation)

def pending (order : MapOrder HashedOperation) (blockNumber : UInt64) (pool : RegistryPoolIndexes) :
    List RegistryOperation :=
  canonicalRegistryOperations
    (((order.arrange pool.byHash.items).map (·.operation)).filter (blockNumber ≤ ·.validUntil))

def drop (entry : HashedOperation) (pool : RegistryPoolIndexes) : RegistryPoolIndexes :=
  ⟨pool.byHash.erase entry.hash.toNat, pool.byAddress.erase entry.operation.address.toNat⟩

def pruneOne (blockNumber : UInt64) (pool : RegistryPoolIndexes) (entry : HashedOperation) : RegistryPoolIndexes :=
  if entry.operation.validUntil < blockNumber then pool.drop entry else pool

def pruneExpired (order : MapOrder HashedOperation) (blockNumber : UInt64) (pool : RegistryPoolIndexes) :
    RegistryPoolIndexes :=
  (order.arrange pool.byHash.items).foldl (pruneOne blockNumber) pool

/-! ### Looking up -/

section Lookup

variable {pool : RegistryPoolIndexes} {hash key : Hash} {address : Address} {operation : RegistryOperation}

theorem operation?_eq_some : pool.operation? hash = some operation ↔ ⟨hash, operation⟩ ∈ pool.byHash.items := by
  simp only [operation?, Option.map_eq_some_iff, KeyedList.get?_eq_some]
  constructor
  · rintro ⟨entry, ⟨member, same⟩, rfl⟩
    obtain rfl : entry.hash = hash := BitVec.eq_of_toNat_eq same
    exact member
  · intro member
    exact ⟨_, ⟨member, rfl⟩, rfl⟩

theorem operation?_store : (pool.store hash operation).operation? key =
    if key = hash then some operation else pool.operation? key := by
  simp only [operation?, store, KeyedList.get?_put, BitVec.toNat_inj]
  split <;> rfl

theorem hashOf?_store : (pool.store hash operation).hashOf? address =
    if address = operation.address then some hash else pool.hashOf? address := by
  simp only [hashOf?, store, KeyedList.get?_put, BitVec.toNat_inj]
  split <;> rfl

theorem operation?_drop {entry : HashedOperation} :
    (pool.drop entry).operation? key = if key = entry.hash then none else pool.operation? key := by
  simp only [operation?, drop, KeyedList.get?_erase, BitVec.toNat_inj]
  split <;> rfl

theorem hashOf?_drop {entry : HashedOperation} :
    (pool.drop entry).hashOf? address = if address = entry.operation.address then none else pool.hashOf? address := by
  simp only [hashOf?, drop, KeyedList.get?_erase, BitVec.toNat_inj]
  split <;> rfl

theorem dropHash_store {previous : HashedOperation} (same : previous.operation.address = operation.address) :
    (pool.dropHash previous.hash).store hash operation = (pool.drop previous).store hash operation := by
  unfold dropHash store drop
  rw [same]
  exact congrArg _ (KeyedList.put_erase pool.byAddress ⟨operation.address, hash⟩).symm

end Lookup

/-! ### One correspondence -/

/-- The hash kept for an address is the hash of its operation, and every stored operation is so kept. -/
def Linked (pool : RegistryPoolIndexes) : Prop :=
  ∀ address hash, pool.hashOf? address = some hash ↔
    ∃ operation, pool.operation? hash = some operation ∧ operation.address = address

def stored? (pool : RegistryPoolIndexes) (address : Address) : Option RegistryOperation :=
  (pool.hashOf? address).bind pool.operation?

section Correspondence

variable {pool : RegistryPoolIndexes} {hash previousHash : Hash} {address : Address}
  {operation previous : RegistryOperation}

theorem empty_linked : empty.Linked := by
  intro address hash
  constructor
  · intro found
    cases found
  · rintro ⟨operation, found, _⟩
    cases found

theorem Linked.stored?_eq_some (linked : pool.Linked) :
    pool.stored? address = some operation ↔
      operation.address = address ∧ ∃ hash, pool.operation? hash = some operation := by
  simp only [stored?, Option.bind_eq_some_iff]
  constructor
  · rintro ⟨hash, kept, found⟩
    obtain ⟨other, same, own⟩ := (linked address hash).mp kept
    obtain rfl := Option.some.inj (found.symm.trans same)
    exact ⟨own, hash, found⟩
  · rintro ⟨own, hash, found⟩
    exact ⟨hash, (linked address hash).mpr ⟨operation, found, own⟩, found⟩

theorem Linked.store (linked : pool.Linked) (fresh : pool.operation? hash = none)
    (free : pool.hashOf? operation.address = none) : (pool.store hash operation).Linked := by
  intro address key
  rw [hashOf?_store, operation?_store]
  by_cases own : address = operation.address
  · subst own
    rw [if_pos rfl]
    constructor
    · intro same
      obtain rfl := Option.some.inj same
      exact ⟨operation, if_pos rfl, rfl⟩
    · rintro ⟨other, found, same⟩
      split at found
      · next at_hash => rw [at_hash]
      · -- another stored operation of the address would be kept for it
        have kept := (linked other.address key).mpr ⟨other, found, rfl⟩
        rw [same, free] at kept
        cases kept
  · rw [if_neg own, linked address key]
    refine exists_congr fun other => and_congr_left fun at_address => ?_
    split
    · next same =>
      subst same
      rw [fresh]
      constructor
      · intro found
        cases found
      · intro found
        exact absurd (at_address.symm.trans (congrArg RegistryOperation.address (Option.some.inj found)).symm) own
    · rfl

theorem Linked.drop (linked : pool.Linked) {entry : HashedOperation}
    (found : pool.operation? entry.hash = some entry.operation) : (pool.drop entry).Linked := by
  have kept := (linked entry.operation.address entry.hash).mpr ⟨entry.operation, found, rfl⟩
  intro address key
  rw [hashOf?_drop, operation?_drop]
  by_cases own : address = entry.operation.address
  · rw [if_pos own]
    constructor
    · intro none
      cases none
    · rintro ⟨other, at_key, same⟩
      split at at_key
      · cases at_key
      · next different =>
        have again := (linked other.address key).mpr ⟨other, at_key, rfl⟩
        rw [same, own, kept] at again
        exact absurd (Option.some.inj again).symm different
  · rw [if_neg own, linked address key]
    refine exists_congr fun other => and_congr_left fun at_address => ?_
    split
    · next same =>
      subst same
      rw [found]
      constructor
      · intro equal
        exact absurd (at_address.symm.trans (congrArg RegistryOperation.address (Option.some.inj equal)).symm) own
      · intro none
        cases none
    · rfl

/-- What a call of `add` does: nothing, store the operation of a new address while there is room, or put it in the place
of one with a lower sequence. -/
theorem Linked.add_cases (linked : pool.Linked) (crypto : Crypto) (chainID : Nat) (operation : RegistryOperation) :
    let hash := registryOperationSigningHash crypto chainID operation
    (∃ error, (pool.add crypto chainID operation).1.2 = some error ∧ (pool.add crypto chainID operation).2 = pool) ∨
      (pool.operation? hash = none ∧ pool.add crypto chainID operation = ((hash, none), pool.store hash operation) ∧
        pool.hashOf? operation.address = none ∧ pool.size < maxRegistryPoolOperations) ∨
      (pool.operation? hash = none ∧ ∃ previous : HashedOperation,
        pool.add crypto chainID operation = ((hash, none), (pool.drop previous).store hash operation) ∧
        pool.operation? previous.hash = some previous.operation ∧ previous.operation.address = operation.address ∧
        previous.operation.sequence < operation.sequence) := by
  intro hash
  unfold add
  dsimp only
  split
  · exact .inl ⟨_, rfl, rfl⟩
  · next unknown =>
    have fresh : pool.operation? hash = none := by simpa using unknown
    split
    · next previousHash kept =>
      obtain ⟨previous, found, same⟩ := (linked _ _).mp kept
      rw [found, Option.getD_some]
      split
      · exact .inl ⟨_, rfl, rfl⟩
      · next higher =>
        refine .inr (.inr ⟨fresh, ⟨previousHash, previous⟩, ?_, found, same, UInt64.not_le.mp higher⟩)
        rw [← dropHash_store same]
    · next free =>
      split
      · exact .inl ⟨_, rfl, rfl⟩
      · next room => exact .inr (.inl ⟨fresh, rfl, free, not_le.mp room⟩)

end Correspondence

/-! ### What the calls keep -/

structure Sound (pool : RegistryPoolIndexes) : Prop where
  linked : pool.Linked
  capacity : pool.size ≤ maxRegistryPoolOperations

section Calls

variable {pool : RegistryPoolIndexes} {hash : Hash} {address : Address} {operation old : RegistryOperation}

theorem empty_sound : empty.Sound := ⟨empty_linked, Nat.zero_le _⟩

theorem size_store (fresh : pool.operation? hash = none) : (pool.store hash operation).size = pool.size + 1 := by
  have free : pool.byHash.get? hash.toNat = none := by simpa [operation?] using fresh
  exact @KeyedList.length_put_of_fresh _ _ pool.byHash ⟨hash, operation⟩ free

theorem size_drop {entry : HashedOperation} (found : pool.operation? entry.hash = some entry.operation) :
    (pool.drop entry).size + 1 = pool.size :=
  KeyedList.length_erase_of_found (KeyedList.get?_eq_some.mpr ⟨operation?_eq_some.mp found, rfl⟩)

theorem Linked.stored?_store (linked : pool.Linked) (fresh : pool.operation? hash = none) :
    (pool.store hash operation).stored? address =
      if address = operation.address then some operation else pool.stored? address := by
  unfold stored?
  rw [hashOf?_store]
  split
  · rw [Option.bind_some, operation?_store, if_pos rfl]
  · cases kept : pool.hashOf? address with
    | none => rfl
    | some key =>
      obtain ⟨other, found, _⟩ := (linked address key).mp kept
      rw [Option.bind_some, Option.bind_some, operation?_store, if_neg]
      rintro rfl
      rw [fresh] at found
      cases found

theorem Linked.stored?_drop (linked : pool.Linked) {entry : HashedOperation}
    (found : pool.operation? entry.hash = some entry.operation) :
    (pool.drop entry).stored? address =
      if address = entry.operation.address then none else pool.stored? address := by
  unfold stored?
  rw [hashOf?_drop]
  split
  · rfl
  · next other =>
    cases kept : pool.hashOf? address with
    | none => rfl
    | some key =>
      obtain ⟨stored, at_key, own⟩ := (linked address key).mp kept
      rw [Option.bind_some, Option.bind_some, operation?_drop, if_neg]
      rintro rfl
      exact other (own.symm.trans (congrArg RegistryOperation.address (Option.some.inj (at_key.symm.trans found))))

/-- A call of `add` keeps the invariant. It changes what is stored for the address of its operation only, and only to an
operation with a higher sequence. -/
theorem Sound.add (sound : pool.Sound) (crypto : Crypto) (chainID : Nat) (operation : RegistryOperation) :
    (pool.add crypto chainID operation).2.Sound ∧ ∀ address,
      (pool.add crypto chainID operation).2.stored? address = pool.stored? address ∨
        (address = operation.address ∧ (pool.add crypto chainID operation).2.stored? address = some operation ∧
          ∀ old ∈ pool.stored? address, old.sequence < operation.sequence) := by
  have linked := sound.linked
  have capacity := sound.capacity
  rcases linked.add_cases crypto chainID operation with
    ⟨_, _, same⟩ | ⟨fresh, added, free, room⟩ | ⟨fresh, previous, added, found, same, higher⟩
  · rw [same]
    exact ⟨sound, fun _ => .inl rfl⟩
  · rw [added]
    refine ⟨⟨linked.store fresh free, ?_⟩, fun address => ?_⟩
    · rw [size_store fresh]
      exact room
    · rw [linked.stored?_store fresh]
      split
      · next own =>
        refine .inr ⟨own, rfl, fun old stored => ?_⟩
        rw [own, stored?, free] at stored
        cases stored
      · exact .inl rfl
  · rw [added]
    have dropped := linked.drop found
    have stillFresh : (pool.drop previous).operation? (registryOperationSigningHash crypto chainID operation) =
        none := by
      rw [operation?_drop, fresh, ite_self]
    have free : (pool.drop previous).hashOf? operation.address = none := by rw [hashOf?_drop, if_pos same.symm]
    refine ⟨⟨dropped.store stillFresh free, ?_⟩, fun address => ?_⟩
    · rw [size_store stillFresh, size_drop found]
      exact capacity
    · rw [dropped.stored?_store stillFresh, linked.stored?_drop found]
      split
      · next own =>
        refine .inr ⟨own, rfl, fun old stored => ?_⟩
        have before : pool.stored? address = some previous.operation :=
          linked.stored?_eq_some.mpr ⟨same.trans own.symm, previous.hash, found⟩
        rw [Option.mem_def, before] at stored
        obtain rfl := Option.some.inj stored
        exact higher
      · next other =>
        rw [if_neg (fun own => other (own.trans same))]
        exact .inl rfl

theorem Sound.pruneOne (sound : pool.Sound) {blockNumber : UInt64} {entry : HashedOperation}
    (found : pool.operation? entry.hash = some entry.operation) :
    (pool.pruneOne blockNumber entry).Sound ∧
      (∀ key, key ≠ entry.hash → (pool.pruneOne blockNumber entry).operation? key = pool.operation? key) ∧
      ∀ address, (pool.pruneOne blockNumber entry).stored? address =
        if address = entry.operation.address then (pool.stored? address).filter (blockNumber ≤ ·.validUntil)
        else pool.stored? address := by
  have own : pool.stored? entry.operation.address = some entry.operation :=
    sound.linked.stored?_eq_some.mpr ⟨rfl, entry.hash, found⟩
  unfold RegistryPoolIndexes.pruneOne
  split
  · next expired =>
    have size := size_drop found
    have capacity := sound.capacity
    refine ⟨⟨sound.linked.drop found, by omega⟩, fun key other => ?_, fun address => ?_⟩
    · rw [operation?_drop, if_neg other]
    · rw [sound.linked.stored?_drop found]
      split
      · next same =>
        rw [same, own, Option.filter_some, if_neg]
        simpa using expired
      · rfl
  · next current =>
    refine ⟨sound, fun _ _ => rfl, fun address => ?_⟩
    split
    · next same =>
      rw [same, own, Option.filter_some, if_pos]
      simpa using current
    · rfl

theorem Sound.foldl_pruneOne (sound : pool.Sound) {blockNumber : UInt64} {visited : List HashedOperation}
    (distinct : (visited.map (·.hash)).Nodup)
    (present : ∀ entry ∈ visited, pool.operation? entry.hash = some entry.operation) :
    (visited.foldl (RegistryPoolIndexes.pruneOne blockNumber) pool).Sound ∧
      ∀ address, (visited.foldl (RegistryPoolIndexes.pruneOne blockNumber) pool).stored? address =
        if address ∈ visited.map (·.operation.address) then (pool.stored? address).filter (blockNumber ≤ ·.validUntil)
        else pool.stored? address := by
  induction visited generalizing pool with
  | nil => exact ⟨sound, fun _ => rfl⟩
  | cons entry rest ih =>
    obtain ⟨apart, restDistinct⟩ := List.nodup_cons.mp distinct
    obtain ⟨found, others⟩ := List.forall_mem_cons.mp present
    obtain ⟨next, untouched, stored⟩ := @Sound.pruneOne pool sound blockNumber entry found
    obtain ⟨last, final⟩ := ih next restDistinct fun later member => by
      rw [untouched later.hash fun same => apart (List.mem_map.mpr ⟨later, member, same⟩)]
      exact others later member
    refine ⟨last, fun address => ?_⟩
    rw [List.foldl_cons, final, stored]
    simp only [List.map_cons, List.mem_cons]
    have again : ((pool.stored? address).filter (blockNumber ≤ ·.validUntil)).filter (blockNumber ≤ ·.validUntil) =
        (pool.stored? address).filter (blockNumber ≤ ·.validUntil) := by
      rw [Option.filter_filter]
      simp only [Bool.and_self]
    by_cases here : address = entry.operation.address
    · simp only [if_pos here, if_pos (Or.inl here), again, ite_self]
    · simp only [here, if_false, false_or]

theorem Sound.pruneExpired (sound : pool.Sound) (order : MapOrder HashedOperation) (blockNumber : UInt64) :
    (pool.pruneExpired order blockNumber).Sound ∧ ∀ address,
      (pool.pruneExpired order blockNumber).stored? address =
        (pool.stored? address).filter (blockNumber ≤ ·.validUntil) := by
  have visits := order.perm pool.byHash.items
  have hashes : (pool.byHash.items.map (·.hash)).Nodup := by
    have keys := strict_keys_nodup pool.byHash.sorted
    rw [show pool.byHash.items.map (·.hash.toNat) = (pool.byHash.items.map (·.hash)).map BitVec.toNat by simp] at keys
    exact keys.of_map _
  obtain ⟨kept, stored⟩ := @Sound.foldl_pruneOne pool sound blockNumber _ ((visits.map _).nodup_iff.mpr hashes)
    fun entry member => operation?_eq_some.mpr (visits.mem_iff.mp member)
  refine ⟨kept, fun address => ?_⟩
  rw [RegistryPoolIndexes.pruneExpired, stored]
  split
  · rfl
  · next unvisited =>
    cases found : pool.stored? address with
    | none => rfl
    | some old =>
      obtain ⟨own, hash, at_hash⟩ := sound.linked.stored?_eq_some.mp found
      exact absurd (List.mem_map.mpr ⟨_, visits.mem_iff.mpr (operation?_eq_some.mp at_hash), own⟩) unvisited

/-! ### Pending operations -/

/-- The output is canonical, holds the stored operations that are not expired and no two of one address. -/
structure Canonical (pool : RegistryPoolIndexes) (blockNumber : UInt64) (output : List RegistryOperation) : Prop where
  ordered : canonicalRegistryOperations output = output
  distinct : (output.map (·.address)).Nodup
  exact : ∀ operation, operation ∈ output ↔ pool.stored? operation.address = some operation ∧
    blockNumber ≤ operation.validUntil

theorem Linked.addresses_nodup (linked : pool.Linked) : (pool.byHash.items.map (·.operation.address)).Nodup := by
  refine List.pairwise_map.mpr (List.Pairwise.imp_of_mem ?_ pool.byHash.sorted)
  intro left right inLeft inRight below same
  have first := (linked _ _).mpr ⟨left.operation, operation?_eq_some.mpr inLeft, rfl⟩
  have second := (linked _ _).mpr ⟨right.operation, operation?_eq_some.mpr inRight, rfl⟩
  rw [same, second] at first
  rw [Option.some.inj first] at below
  exact lt_irrefl _ below

theorem orderKey_nodup {operations : List RegistryOperation} (distinct : (operations.map (·.address)).Nodup) :
    (operations.map RegistryOperation.orderKey).Nodup := by
  refine List.pairwise_map.mpr ((List.pairwise_map.mp distinct).imp ?_)
  intro left right different same
  exact different (BitVec.eq_of_toNat_eq (List.cons.inj same).1)

theorem Linked.pending_canonical (linked : pool.Linked) (order : MapOrder HashedOperation) (blockNumber : UInt64) :
    pool.Canonical blockNumber (pool.pending order blockNumber) := by
  have visits := order.perm pool.byHash.items
  have members (operation : RegistryOperation) : operation ∈ pool.pending order blockNumber ↔
      (∃ hash, pool.operation? hash = some operation) ∧ blockNumber ≤ operation.validUntil := by
    simp only [pending, canonicalRegistryOperations, mem_sortOn, List.mem_filter, List.mem_map, visits.mem_iff,
      decide_eq_true_eq]
    refine and_congr_left fun _ => ⟨?_, ?_⟩
    · rintro ⟨entry, member, rfl⟩
      exact ⟨entry.hash, operation?_eq_some.mpr member⟩
    · rintro ⟨hash, found⟩
      exact ⟨_, operation?_eq_some.mp found, rfl⟩
  refine ⟨sortOn_sortOn, ?_, fun operation => ?_⟩
  · have visited : (((order.arrange pool.byHash.items).map (·.operation)).map (·.address)).Nodup := by
      rw [List.map_map]
      exact (visits.map _).nodup_iff.mpr linked.addresses_nodup
    exact (sortOn_perm.map _).nodup_iff.mpr (visited.sublist (List.filter_sublist.map _))
  · rw [members, linked.stored?_eq_some]
    exact and_congr_left fun _ => (and_iff_right rfl).symm

theorem Canonical.unique {other : RegistryPoolIndexes} {blockNumber : UInt64} {left right : List RegistryOperation}
    (first : pool.Canonical blockNumber left) (second : other.Canonical blockNumber right)
    (same : ∀ address, pool.stored? address = other.stored? address) : left = right := by
  have members : left.Perm right := by
    refine (List.perm_ext_iff_of_nodup first.distinct.of_map second.distinct.of_map).mpr fun operation => ?_
    rw [first.exact, second.exact, same]
  rw [← first.ordered, ← second.ordered]
  exact sortOn_eq_of_perm members (orderKey_nodup first.distinct)

end Calls

end RegistryPoolIndexes

/-! ### Runs -/

inductive RegistryPoolCall where
  | add (chainID : Nat) (operation : RegistryOperation)
  | prune (order : MapOrder HashedOperation) (blockNumber : UInt64)

namespace RegistryPoolIndexes

variable (crypto : Crypto)

def step (pool : RegistryPoolIndexes) : RegistryPoolCall → RegistryPoolIndexes
  | .add chainID operation => (pool.add crypto chainID operation).2
  | .prune order blockNumber => pool.pruneExpired order blockNumber

def run (calls : List RegistryPoolCall) : RegistryPoolIndexes := calls.foldl (step crypto) empty

variable {crypto} {pool : RegistryPoolIndexes}

theorem Sound.step (sound : pool.Sound) (call : RegistryPoolCall) : (pool.step crypto call).Sound := by
  cases call with
  | add chainID operation => exact (sound.add crypto chainID operation).1
  | prune order blockNumber => exact (sound.pruneExpired order blockNumber).1

theorem run_sound (calls : List RegistryPoolCall) : (run crypto calls).Sound := by
  suffices every : ∀ pool : RegistryPoolIndexes, pool.Sound →
    (calls.foldl (RegistryPoolIndexes.step crypto) pool).Sound from
    every empty empty_sound
  induction calls with
  | nil => exact fun _ sound => sound
  | cons call rest ih => exact fun pool sound => ih _ (sound.step call)

theorem Sound.stored?_step (sound : pool.Sound) (call : RegistryPoolCall) {address : Address} {old : RegistryOperation}
    (stored : pool.stored? address = some old) :
    (pool.step crypto call).stored? address = some old ∨
      (∃ chainID new, call = .add chainID new ∧ (pool.step crypto call).stored? address = some new ∧
        old.sequence < new.sequence) ∨
      (∃ order blockNumber, call = .prune order blockNumber ∧ (pool.step crypto call).stored? address = none ∧
        old.validUntil < blockNumber) := by
  cases call with
  | add chainID operation =>
    rcases (sound.add crypto chainID operation).2 address with same | ⟨_, replaced, higher⟩
    · exact .inl (same.trans stored)
    · exact .inr (.inl ⟨chainID, operation, rfl, replaced, higher old stored⟩)
  | prune order blockNumber =>
    have after : (pool.step crypto (.prune order blockNumber)).stored? address =
        (some old).filter (blockNumber ≤ ·.validUntil) := stored ▸ (sound.pruneExpired order blockNumber).2 address
    by_cases current : blockNumber ≤ old.validUntil
    · left
      rw [after, Option.filter_some, if_pos (by simpa using current)]
    · refine .inr (.inr ⟨order, blockNumber, rfl, ?_, UInt64.not_le.mp current⟩)
      rw [after, Option.filter_some, if_neg (by simpa using current)]

end RegistryPoolIndexes

/-- After any calls the two indexes are one correspondence within the capacity. A further call changes the operation
of an address to one with a higher sequence or lets it go when expired. What is pending is canonical, and fixed by
what is stored, whatever the order of insertion and of the loop over the map. -/
theorem registry_pool_runs (crypto : Crypto) (calls : List RegistryPoolCall) :
    let pool := RegistryPoolIndexes.run crypto calls
    pool.Linked ∧ pool.size ≤ maxRegistryPoolOperations ∧
      (∀ call address old, pool.stored? address = some old →
        (pool.step crypto call).stored? address = some old ∨
          (∃ chainID new, call = .add chainID new ∧ (pool.step crypto call).stored? address = some new ∧
            old.sequence < new.sequence) ∨
          (∃ order blockNumber, call = .prune order blockNumber ∧ (pool.step crypto call).stored? address = none ∧
            old.validUntil < blockNumber)) ∧
      (∀ order blockNumber, pool.Canonical blockNumber (pool.pending order blockNumber)) ∧
      ∀ others order order' blockNumber,
        (∀ address, pool.stored? address = (RegistryPoolIndexes.run crypto others).stored? address) →
        pool.pending order blockNumber = (RegistryPoolIndexes.run crypto others).pending order' blockNumber := by
  intro pool
  have sound : pool.Sound := RegistryPoolIndexes.run_sound calls
  refine ⟨sound.linked, sound.capacity, fun call _ _ stored => sound.stored?_step call stored,
    sound.linked.pending_canonical, ?_⟩
  intro others order order' blockNumber same
  have linked := (@RegistryPoolIndexes.run_sound crypto others).linked
  exact (sound.linked.pending_canonical order blockNumber).unique (linked.pending_canonical order' blockNumber) same

end RabbitLqc
