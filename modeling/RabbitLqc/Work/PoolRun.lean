import RabbitLqc.Work.Pool

/-!
# Runs of the pool

Over any sequence of resets, admissions and removals, and whatever the database does meanwhile, both maps hold the same
candidates, one for each participant, and a call that fails leaves them as they were.
-/

namespace RabbitLqc
open Lib RlpCodec

namespace WorkCommitPoolV1

variable {left right : WorkCommitCandidateV1} {rest : WorkCommitPoolV1} {taken given : List WorkCommitCandidateV1}
  {capacity : Nat}

/-! ### The two maps -/

variable {pool other : WorkCommitPoolV1} {candidate : WorkCommitCandidateV1}

/-- The index of the semantic keys names exactly the candidates of the pool. -/
def Indexed (pool : WorkCommitPoolV1) : Prop :=
  ∀ key proofHash, pool.semantic.get key = some proofHash ↔
    ∃ candidate ∈ pool.candidates, candidate.semanticKey = key ∧ candidate.proofHash = proofHash

theorem eq_of_proofHash_eq (first : left ∈ pool.candidates) (second : right ∈ pool.candidates)
    (same : left.proofHash = right.proofHash) : left = right :=
  KeyedList.eq_of_key_eq first second (congrArg BitVec.toNat same)

theorem Indexed.eq_of_semanticKey_eq (indexed : pool.Indexed) (first : left ∈ pool.candidates)
    (second : right ∈ pool.candidates) (same : left.semanticKey = right.semanticKey) : left = right := by
  have found := (indexed left.semanticKey left.proofHash).mpr ⟨left, first, rfl, rfl⟩
  have again := (indexed left.semanticKey right.proofHash).mpr ⟨right, second, same.symm, rfl⟩
  exact eq_of_proofHash_eq first second (Option.some.inj (found.symm.trans again))

theorem Indexed.ext (indexed : pool.Indexed) (otherIndexed : other.Indexed) (epoch : pool.epoch = other.epoch)
    (capacity : pool.capacity = other.capacity)
    (same : ∀ candidate, candidate ∈ pool.candidates ↔ candidate ∈ other.candidates) : pool = other := by
  have byProof : pool.byProof = other.byProof := KeyedList.ext_mem same
  have semantic : pool.semantic = other.semantic := by
    refine Store.ext_get fun key proofHash => ?_
    rw [indexed key proofHash, otherIndexed key proofHash]
    exact exists_congr fun candidate => and_congr_left fun _ => same candidate
  cases pool
  cases other
  cases epoch
  cases capacity
  cases byProof
  cases semantic
  rfl

theorem not_has_semanticKey (indexed : pool.Indexed) :
    ¬ pool.semantic.has candidate.semanticKey = true ↔
      ∀ existing ∈ pool.candidates, existing.semanticKey ≠ candidate.semanticKey := by
  rw [Store.has_iff]
  constructor
  · intro absent existing member same
    exact absent ⟨_, (indexed _ _).mpr ⟨existing, member, same, rfl⟩⟩
  · rintro absent ⟨proofHash, found⟩
    obtain ⟨existing, member, same, _⟩ := (indexed _ _).mp found
    exact absent existing member same

/-- Two candidates that can be in one pool. -/
def Apart (left right : WorkCommitCandidateV1) : Prop :=
  left.proofHash ≠ right.proofHash ∧ left.semanticKey ≠ right.semanticKey

theorem mem_insert (fresh : ∀ existing ∈ pool.candidates, Apart existing candidate) {a : WorkCommitCandidateV1} :
    a ∈ (pool.insert candidate).candidates ↔ a = candidate ∨ a ∈ pool.candidates := by
  rw [candidates, insert, KeyedList.mem_put]
  refine or_congr_right (and_iff_left_of_imp fun member same => ?_)
  exact (fresh a member).1 (BitVec.eq_of_toNat_eq same)

theorem mem_delete (present : candidate ∈ pool.candidates) {a : WorkCommitCandidateV1} :
    a ∈ (pool.delete candidate).candidates ↔ a ∈ pool.candidates ∧ a ≠ candidate := by
  rw [candidates, delete, KeyedList.mem_erase]
  refine and_congr_right fun member => not_congr ⟨fun same => ?_, fun same => by rw [same]⟩
  exact KeyedList.eq_of_key_eq member present same

theorem Indexed.insert (indexed : pool.Indexed) (fresh : ∀ existing ∈ pool.candidates, Apart existing candidate) :
    (pool.insert candidate).Indexed := by
  intro key proofHash
  by_cases own : key = candidate.semanticKey
  · subst own
    rw [WorkCommitPoolV1.insert, Store.get_put_same, Option.some.injEq]
    constructor
    · rintro rfl
      exact ⟨candidate, (mem_insert fresh).mpr (.inl rfl), rfl, rfl⟩
    · rintro ⟨a, member, same, rfl⟩
      rcases (mem_insert fresh).mp member with rfl | old
      · rfl
      · exact absurd same (fresh a old).2
  · rw [WorkCommitPoolV1.insert, Store.get_put_other _ _ own, indexed key proofHash]
    constructor
    · rintro ⟨a, old, same, proof⟩
      exact ⟨a, (mem_insert fresh).mpr (.inr old), same, proof⟩
    · rintro ⟨a, member, rfl, proof⟩
      rcases (mem_insert fresh).mp member with rfl | old
      · exact absurd rfl own
      · exact ⟨a, old, rfl, proof⟩

theorem Indexed.delete (indexed : pool.Indexed) (present : candidate ∈ pool.candidates) :
    (pool.delete candidate).Indexed := by
  intro key proofHash
  by_cases own : key = candidate.semanticKey
  · subst own
    rw [WorkCommitPoolV1.delete, Store.get_erase_same]
    refine ⟨fun found => (Option.some_ne_none _ found.symm).elim, ?_⟩
    rintro ⟨a, member, same, _⟩
    obtain ⟨old, different⟩ := (mem_delete present).mp member
    exact absurd (indexed.eq_of_semanticKey_eq old present same) different
  · rw [WorkCommitPoolV1.delete, Store.get_erase_other _ own, indexed key proofHash]
    constructor
    · rintro ⟨a, old, same, proof⟩
      refine ⟨a, (mem_delete present).mpr ⟨old, fun equal => own ?_⟩, same, proof⟩
      rw [← same, equal]
    · rintro ⟨a, member, same, proof⟩
      exact ⟨a, ((mem_delete present).mp member).1, same, proof⟩

theorem insertAll {added : List WorkCommitCandidateV1} (indexed : pool.Indexed)
    (fresh : ∀ existing ∈ pool.candidates, ∀ a ∈ added, Apart existing a) (distinct : added.Pairwise Apart) :
    (added.foldl insert pool).Indexed ∧
      (∀ a, a ∈ (added.foldl insert pool).candidates ↔ a ∈ pool.candidates ∨ a ∈ added) ∧
      (added.foldl insert pool).epoch = pool.epoch ∧ (added.foldl insert pool).capacity = pool.capacity := by
  induction added generalizing pool with
  | nil => exact ⟨indexed, by simp, rfl, rfl⟩
  | cons first rest ih =>
    obtain ⟨ahead, others⟩ := List.pairwise_cons.mp distinct
    have new := fun existing old => fresh existing old first List.mem_cons_self
    have grown : ∀ existing ∈ (pool.insert first).candidates, ∀ a ∈ rest, Apart existing a := by
      intro existing member a later
      rcases (mem_insert new).mp member with rfl | old
      · exact ahead a later
      · exact fresh existing old a (List.mem_cons_of_mem _ later)
    obtain ⟨after, members, epoch, capacity⟩ := ih (indexed.insert new) grown others
    refine ⟨after, fun a => ?_, epoch, capacity⟩
    rw [List.foldl_cons, members, mem_insert new, List.mem_cons]
    tauto

/-! ### Taking out, and putting back -/

/-- What is left of a pool beside what was taken out of it. -/
structure SplitOf (pool rest : WorkCommitPoolV1) (taken : List WorkCommitCandidateV1) : Prop where
  indexed : rest.Indexed
  members : ∀ candidate, candidate ∈ pool.candidates ↔ candidate ∈ rest.candidates ∨ candidate ∈ taken
  fresh : ∀ kept ∈ rest.candidates, ∀ candidate ∈ taken, Apart kept candidate
  distinct : taken.Pairwise Apart
  epoch : rest.epoch = pool.epoch
  capacity : rest.capacity = pool.capacity
  shorter : rest.candidates.length ≤ pool.candidates.length

theorem SplitOf.whole (indexed : pool.Indexed) : SplitOf pool pool [] :=
  ⟨indexed, by simp, by simp, .nil, rfl, rfl, le_rfl⟩

theorem SplitOf.takeOut (split : SplitOf pool rest taken) (proofHash : Hash) :
    SplitOf pool (WorkCommitPoolV1.takeOut (rest, taken) proofHash).1
      (WorkCommitPoolV1.takeOut (rest, taken) proofHash).2 := by
  unfold WorkCommitPoolV1.takeOut
  dsimp only
  split
  · exact split
  · rename_i candidate found
    have present : candidate ∈ rest.candidates := (KeyedList.get?_eq_some.mp found).1
    have apart : ∀ kept ∈ (rest.delete candidate).candidates, Apart kept candidate := by
      intro kept member
      obtain ⟨old, different⟩ := (mem_delete present).mp member
      exact ⟨fun same => different (eq_of_proofHash_eq old present same),
        fun same => different (split.indexed.eq_of_semanticKey_eq old present same)⟩
    refine ⟨split.indexed.delete present, fun a => ?_, ?_, ?_, split.epoch, split.capacity,
      (KeyedList.length_erase_le ..).trans split.shorter⟩
    · rw [split.members, mem_delete present, List.mem_append, List.mem_singleton]
      by_cases own : a = candidate
      · subst own
        simp [present]
      · simp [own, or_comm]
    · intro kept member a gone
      rcases List.mem_append.mp gone with earlier | last
      · exact split.fresh kept ((mem_delete present).mp member).1 a earlier
      · rw [List.mem_singleton.mp last]
        exact apart kept member
    · refine List.pairwise_append.mpr ⟨split.distinct, List.pairwise_singleton .., fun a earlier b last => ?_⟩
      rw [List.mem_singleton.mp last]
      obtain ⟨proof, key⟩ := split.fresh candidate present a earlier
      exact ⟨proof.symm, key.symm⟩

theorem SplitOf.takeOutAll (split : SplitOf pool rest taken) (proofHashes : List Hash) :
    SplitOf pool (proofHashes.foldl WorkCommitPoolV1.takeOut (rest, taken)).1
      (proofHashes.foldl WorkCommitPoolV1.takeOut (rest, taken)).2 := by
  induction proofHashes generalizing rest taken with
  | nil => exact split
  | cons first later ih => exact ih (split.takeOut first)

theorem SplitOf.restored (split : SplitOf pool rest taken) (indexed : pool.Indexed) :
    taken.foldl insert rest = pool := by
  obtain ⟨after, members, epoch, capacity⟩ := insertAll split.indexed split.fresh split.distinct
  refine after.ext indexed (epoch.trans split.epoch) (capacity.trans split.capacity) fun a => ?_
  rw [members, split.members]

/-! ### The invariant -/

structure Sound (pool : WorkCommitPoolV1) : Prop where
  indexed : pool.Indexed
  proofs : ∀ candidate ∈ pool.candidates, candidate.proofHash ≠ 0
  shapes : ∀ candidate ∈ pool.candidates, TicketShape candidate.signed
  epochs : ∀ candidate ∈ pool.candidates, candidate.epoch = pool.epoch
  participants : ∀ left ∈ pool.candidates, ∀ right ∈ pool.candidates, left.participant = right.participant →
    left = right
  within : pool.candidates.length ≤ pool.capacity

theorem emptyWorkCommitPool_sound (epoch : UInt64) (capacity : Nat) : (emptyWorkCommitPool epoch capacity).Sound where
  indexed key proofHash := by simp [emptyWorkCommitPool, candidates, KeyedList.empty]
  proofs := by simp [emptyWorkCommitPool, candidates, KeyedList.empty]
  shapes := by simp [emptyWorkCommitPool, candidates, KeyedList.empty]
  epochs := by simp [emptyWorkCommitPool, candidates, KeyedList.empty]
  participants := by simp [emptyWorkCommitPool, candidates, KeyedList.empty]
  within := by simp [emptyWorkCommitPool, candidates, KeyedList.empty]

theorem nodup_candidates (pool : WorkCommitPoolV1) : pool.candidates.Nodup :=
  (strict_keys_nodup pool.byProof.sorted).of_map _

theorem Sound.candidateSet (sound : pool.Sound) : CandidateSet pool.epoch pool.candidates where
  proofs := sound.proofs
  shapes := sound.shapes
  epochs := sound.epochs
  distinctProofs := pool.nodup_candidates.map_on fun _ first _ second same => eq_of_proofHash_eq first second same
  distinctParticipants := pool.nodup_candidates.map_on fun left first right second same =>
    sound.participants left first right second same

theorem Sound.epoch_ne_zero (sound : pool.Sound) (member : candidate ∈ pool.candidates) : pool.epoch ≠ 0 := by
  rw [← sound.epochs candidate member]
  exact (sound.shapes candidate member).epoch

structure Admissible (pool : WorkCommitPoolV1) (candidate : WorkCommitCandidateV1) : Prop where
  proof : candidate.proofHash ≠ 0
  shape : TicketShape candidate.signed
  known : pool.epoch ≠ 0
  epoch : candidate.epoch = pool.epoch
  freshProof : ∀ existing ∈ pool.candidates, existing.proofHash ≠ candidate.proofHash
  freshParticipant : ∀ existing ∈ pool.candidates, existing.participant ≠ candidate.participant
  room : pool.candidates.length < pool.capacity

theorem checkAdmission_ok_iff (indexed : pool.Indexed) {u : Unit} :
    pool.checkAdmission candidate = .ok u ↔ pool.Admissible candidate := by
  simp only [checkAdmission, bind_ok_iff, ensure_ok_iff, exists_unit, validateWorkTicketHeaderShapeV3_ok_iff,
    not_has_semanticKey indexed, KeyedList.get?_eq_none]
  constructor
  · intro checks
    obtain ⟨proof, shape, known, epoch, freshProof, _, freshParticipant, room⟩ := checks
    exact ⟨proof, shape, known, epoch, fun existing member same =>
      freshProof existing member (congrArg BitVec.toNat same), freshParticipant, room⟩
  · intro admissible
    refine ⟨admissible.proof, admissible.shape, admissible.known, admissible.epoch, fun existing member same => ?_,
      fun existing member same => ?_, admissible.freshParticipant, admissible.room⟩
    · exact admissible.freshProof existing member (BitVec.eq_of_toNat_eq same)
    · exact admissible.freshParticipant existing member (WorkCommitCandidateV1.participant_eq_of_semanticKey same)

theorem Admissible.apart (admissible : pool.Admissible candidate) :
    ∀ existing ∈ pool.candidates, Apart existing candidate := by
  intro existing member
  refine ⟨admissible.freshProof existing member, fun same => ?_⟩
  exact admissible.freshParticipant existing member (WorkCommitCandidateV1.participant_eq_of_semanticKey same)

theorem Sound.insert (sound : pool.Sound) (admissible : pool.Admissible candidate) : (pool.insert candidate).Sound := by
  have members {a : WorkCommitCandidateV1} := @mem_insert pool candidate admissible.apart a
  refine ⟨sound.indexed.insert admissible.apart, ?_, ?_, ?_, ?_, ?_⟩
  · intro a member
    rcases members.mp member with rfl | old
    · exact admissible.proof
    · exact sound.proofs a old
  · intro a member
    rcases members.mp member with rfl | old
    · exact admissible.shape
    · exact sound.shapes a old
  · intro a member
    rcases members.mp member with rfl | old
    · exact admissible.epoch
    · exact sound.epochs a old
  · intro left first right second same
    rcases members.mp first with rfl | oldLeft
    · rcases members.mp second with rfl | oldRight
      · rfl
      · exact absurd same.symm (admissible.freshParticipant right oldRight)
    · rcases members.mp second with rfl | oldRight
      · exact absurd same (admissible.freshParticipant left oldLeft)
      · exact sound.participants left oldLeft right oldRight same
  · have fresh : pool.byProof.get? candidate.proofHash.toNat = none :=
      KeyedList.get?_eq_none.mpr fun a member same => admissible.freshProof a member (BitVec.eq_of_toNat_eq same)
    have grown : (pool.insert candidate).candidates.length = pool.candidates.length + 1 :=
      KeyedList.length_put_of_fresh fresh
    have room := admissible.room
    change (pool.insert candidate).candidates.length ≤ pool.capacity
    omega

theorem SplitOf.sound (split : SplitOf pool rest taken) (sound : pool.Sound) : rest.Sound := by
  have old := fun candidate member => (split.members candidate).mpr (.inl member)
  refine ⟨split.indexed, fun a member => sound.proofs a (old a member), fun a member => sound.shapes a (old a member),
    fun a member => ?_, fun left first right second =>
      sound.participants left (old left first) right (old right second), ?_⟩
  · rw [split.epoch]
    exact sound.epochs a (old a member)
  · rw [split.capacity]
    exact split.shorter.trans sound.within

theorem candidateSet_sound {epoch : UInt64} (valid : CandidateSet epoch given) (few : given.length ≤ capacity) :
    (given.foldl insert (emptyWorkCommitPool epoch capacity)).Sound ∧
      (∀ a, a ∈ (given.foldl insert (emptyWorkCommitPool epoch capacity)).candidates ↔ a ∈ given) ∧
      (given.foldl insert (emptyWorkCommitPool epoch capacity)).epoch = epoch ∧
      (given.foldl insert (emptyWorkCommitPool epoch capacity)).capacity = capacity := by
  have nothing : (emptyWorkCommitPool epoch capacity).candidates = [] := rfl
  have proofs := List.pairwise_map.mp valid.distinctProofs
  have owners := List.pairwise_map.mp valid.distinctParticipants
  have distinct : given.Pairwise Apart := proofs.imp₂
    (fun _ _ proof owner => ⟨proof, fun same => owner (WorkCommitCandidateV1.participant_eq_of_semanticKey same)⟩)
    owners
  obtain ⟨indexed, members, sameEpoch, sameCapacity⟩ :=
    insertAll (emptyWorkCommitPool_sound epoch capacity).indexed (by simp [nothing]) distinct
  have only : ∀ a, a ∈ (given.foldl insert (emptyWorkCommitPool epoch capacity)).candidates ↔ a ∈ given := by
    intro a
    rw [members, nothing]
    simp
  refine ⟨⟨indexed, fun a member => valid.proofs a ((only a).mp member), fun a member =>
    valid.shapes a ((only a).mp member),
    fun a member => (valid.epochs a ((only a).mp member)).trans sameEpoch.symm, ?_, ?_⟩, only, sameEpoch, sameCapacity⟩
  · intro left first right second same
    exact List.inj_on_of_nodup_map valid.distinctParticipants ((only left).mp first) ((only right).mp second) same
  · rw [sameCapacity]
    change _ ≤ capacity
    exact (((nodup_candidates _).subperm fun a member => (only a).mp member).length_le).trans few

theorem buildWorkCommitPoolStateV1_ok_iff {epoch : UInt64} :
    buildWorkCommitPoolStateV1 epoch capacity given = .ok pool ↔
      epoch ≠ 0 ∧ given.length ≤ capacity ∧ CandidateSet epoch given ∧
        given.foldl insert (emptyWorkCommitPool epoch capacity) = pool := by
  simp only [buildWorkCommitPoolStateV1, bind_ok_iff, ensure_ok_iff, exists_unit,
    checkWorkCommitCandidatesAfter_ok_iff,
    List.not_mem_nil, IsEmpty.forall_iff, implies_true, and_true, Except.ok.injEq]

theorem Sound.pendingV1 (crypto : Crypto) (sound : pool.Sound) (known : pool.epoch ≠ 0) :
    ∃ batch, pool.pendingV1 crypto = .ok batch := by
  simp only [WorkCommitPoolV1.pendingV1, selectWorkCommitBatchV1, bind_ok_iff, ensure_ok_iff, exists_unit,
    canonicalWorkCommitCandidatesV1_eq known sound.candidateSet, Except.ok.injEq, exists_eq_left']
  exact ⟨_, known, rfl⟩

end WorkCommitPoolV1

/-! ### One call -/

def WorkV1PoolJournal.Holds (journal : WorkV1PoolJournal) (pool : WorkCommitPoolV1) : Prop :=
  ∃ loaded, journal.loadWorkCommitPoolV1 .quiet pool.epoch = .ok loaded ∧ loaded.Perm pool.candidates

namespace PersistentWorkCommitPoolV1

open WorkCommitPoolV1

variable {state : PersistentWorkCommitPoolV1} (crypto : Crypto) (faults : JournalFaults)

variable {pool : WorkCommitPoolV1}

def Persisted (state : PersistentWorkCommitPoolV1) : Prop :=
  ∀ journal, state.persistence = some journal → journal.Holds state.pool

variable {crypto} {faults} in
theorem persistLockedV1_ok {before after : Option WorkV1PoolJournal} {u : Unit}
    (done : persistLockedV1 crypto faults pool before = (.ok u, after)) : Persisted ⟨pool, after⟩ := by
  intro journal kept
  cases before with
  | none =>
    obtain ⟨_, rfl⟩ := Prod.mk.inj done
    cases kept
  | some earlier =>
    unfold persistLockedV1 at done
    dsimp only at done
    split at done
    · cases done
    · rename_i canonical ordered
      obtain ⟨stored, rfl⟩ := Prod.mk.inj done
      obtain rfl := Option.some.inj kept
      have loads := WorkV1PoolJournal.load_stored (Prod.ext stored rfl)
      exact ⟨canonical, loads, (canonicalWorkCommitCandidatesV1_ok ordered).2.2⟩

theorem addVerifiedV1_cases (sound : state.pool.Sound) (candidate : WorkCommitCandidateV1) :
    (∃ error, (state.addVerifiedV1 crypto faults candidate).1 = .error error ∧
        (state.addVerifiedV1 crypto faults candidate).2.pool = state.pool) ∨
      ((state.addVerifiedV1 crypto faults candidate).1 = .ok () ∧ state.pool.Admissible candidate ∧
        (state.addVerifiedV1 crypto faults candidate).2.pool = state.pool.insert candidate ∧
        (state.addVerifiedV1 crypto faults candidate).2.Persisted) := by
  unfold addVerifiedV1
  split
  · exact .inl ⟨_, rfl, rfl⟩
  · rename_i checked
    have admissible := (checkAdmission_ok_iff sound.indexed).mp checked
    dsimp only
    split
    · rename_i done
      exact .inr ⟨rfl, admissible, rfl, persistLockedV1_ok (Prod.ext done rfl)⟩
    · refine .inl ⟨_, rfl, ?_⟩
      have present : candidate ∈ (state.pool.insert candidate).candidates :=
        (mem_insert admissible.apart).mpr (.inl rfl)
      refine Indexed.ext ((sound.indexed.insert admissible.apart).delete present) sound.indexed rfl rfl fun a => ?_
      rw [mem_delete present, mem_insert admissible.apart]
      constructor
      · rintro ⟨rfl | old, different⟩
        · exact absurd rfl different
        · exact old
      · intro old
        exact ⟨.inr old, fun same => (admissible.apart a old).1 (by rw [same])⟩

theorem removeIncludedV1_cases (sound : state.pool.Sound) (proofHashes : List Hash) :
    ((state.removeIncludedV1 crypto faults proofHashes).1 = 0 ∧
        (state.removeIncludedV1 crypto faults proofHashes).2.pool = state.pool) ∨
      (∃ taken, taken ≠ [] ∧ (state.removeIncludedV1 crypto faults proofHashes).1 = taken.length ∧
        taken = (proofHashes.foldl takeOut (state.pool, [])).2 ∧
        SplitOf state.pool (state.removeIncludedV1 crypto faults proofHashes).2.pool taken ∧
        (state.removeIncludedV1 crypto faults proofHashes).2.Persisted) := by
  have split := (SplitOf.whole sound.indexed).takeOutAll proofHashes
  unfold removeIncludedV1
  dsimp only
  split_ifs with nothing
  · refine .inl ⟨rfl, ?_⟩
    rw [nothing] at split
    exact split.restored sound.indexed
  · cases done : (persistLockedV1 crypto faults (proofHashes.foldl takeOut (state.pool, [])).1 state.persistence).1 with
    | ok u =>
      exact .inr ⟨_, nothing, rfl, rfl, split, persistLockedV1_ok (Prod.ext done rfl)⟩
    | error error => exact .inl ⟨rfl, split.restored sound.indexed⟩

theorem resetCommitEpochV1_cases (sound : state.pool.Sound) (epoch : UInt64) :
    (∃ error, state.resetCommitEpochV1 faults epoch = (.error error, state)) ∨
      ((state.resetCommitEpochV1 faults epoch).1 = .ok () ∧ (state.resetCommitEpochV1 faults epoch).2.pool.Sound ∧
        (state.resetCommitEpochV1 faults epoch).2.pool.epoch = epoch ∧
        (state.resetCommitEpochV1 faults epoch).2.pool.capacity = state.pool.capacity ∧
        (state.pool.epoch = epoch → (state.resetCommitEpochV1 faults epoch).2 = state)) := by
  unfold resetCommitEpochV1
  split
  · exact .inl ⟨_, rfl⟩
  · rename_i pool made
    refine .inr ⟨rfl, ?_⟩
    simp only [restoredPool, ensure_bind_ok_iff] at made
    obtain ⟨_, made⟩ := made
    split_ifs at made with same
    · obtain rfl := Except.ok.inj made
      exact ⟨sound, same, rfl, fun _ => rfl⟩
    · obtain ⟨restored, _, built⟩ := bind_ok made
      obtain ⟨_, few, valid, rfl⟩ := buildWorkCommitPoolStateV1_ok_iff.mp built
      obtain ⟨filled, _, sameEpoch, sameCapacity⟩ := candidateSet_sound valid few
      exact ⟨filled, sameEpoch, sameCapacity, fun already => absurd already same⟩

theorem persistLockedV1_isSome (pool : WorkCommitPoolV1) (persistence : Option WorkV1PoolJournal) :
    (persistLockedV1 crypto faults pool persistence).2.isSome = persistence.isSome := by
  cases persistence with
  | none => rfl
  | some journal =>
    unfold persistLockedV1
    dsimp only
    split <;> rfl

theorem restarted {journal : WorkV1PoolJournal} {capacity : Nat} (sound : pool.Sound) (known : pool.epoch ≠ 0)
    (room : pool.capacity = if capacity = 0 then defaultWorkCommitPoolCapacityV1 else capacity)
    (holds : journal.Holds pool) :
    (newPersistentWorkCommitPoolV1 capacity (some journal)).resetCommitEpochV1 .quiet pool.epoch =
      (.ok (), ⟨pool, some journal⟩) := by
  obtain ⟨loaded, loads, perm⟩ := holds
  have given := sound.candidateSet
  have valid : CandidateSet pool.epoch loaded :=
    ⟨fun a member => given.proofs a (perm.mem_iff.mp member), fun a member => given.shapes a (perm.mem_iff.mp member),
      fun a member => given.epochs a (perm.mem_iff.mp member), (perm.map _).nodup_iff.mpr given.distinctProofs,
      (perm.map _).nodup_iff.mpr given.distinctParticipants⟩
  have few : loaded.length ≤ pool.capacity := perm.length_eq.le.trans sound.within
  obtain ⟨filled, members, sameEpoch, sameCapacity⟩ := candidateSet_sound valid few
  have same : loaded.foldl WorkCommitPoolV1.insert (emptyWorkCommitPool pool.epoch pool.capacity) = pool :=
    filled.indexed.ext sound.indexed sameEpoch sameCapacity fun a => (members a).trans perm.mem_iff
  have made : (newPersistentWorkCommitPoolV1 capacity (some journal)).restoredPool .quiet pool.epoch = .ok pool := by
    simp only [restoredPool, ensure_bind_ok_iff]
    refine ⟨known, ?_⟩
    rw [if_neg (show ¬ (newPersistentWorkCommitPoolV1 capacity (some journal)).pool.epoch =
      pool.epoch from Ne.symm known)]
    refine bind_ok_iff.mpr ⟨loaded, loads, buildWorkCommitPoolStateV1_ok_iff.mpr ⟨known, ?_, valid, ?_⟩⟩
    · exact few.trans room.le
    · change loaded.foldl WorkCommitPoolV1.insert
        (emptyWorkCommitPool pool.epoch (if capacity = 0 then _ else _)) = pool
      rw [← room]
      exact same
  unfold resetCommitEpochV1
  rw [made]
  rfl

end PersistentWorkCommitPoolV1

/-! ### Runs -/

inductive PoolCall where
  | reset (epoch : UInt64)
  | add (candidate : WorkCommitCandidateV1)
  | remove (proofHashes : List Hash)

inductive PoolReply where
  | done (result : Except LqcError Unit)
  | removed (count : Nat)

def PoolReply.failed : PoolReply → Bool
  | .done (.ok _) => false
  | .done (.error _) => true
  | .removed count => count == 0

def PoolCall.changes : PoolCall → Bool
  | .reset _ => false
  | .add _ => true
  | .remove _ => true

section Runs

variable (crypto : Crypto)

def PersistentWorkCommitPoolV1.answer (state : PersistentWorkCommitPoolV1) (faults : JournalFaults) :
    PoolCall → PoolReply × PersistentWorkCommitPoolV1
  | .reset epoch => ((.done (state.resetCommitEpochV1 faults epoch).1), (state.resetCommitEpochV1 faults epoch).2)
  | .add candidate =>
    ((.done (state.addVerifiedV1 crypto faults candidate).1), (state.addVerifiedV1 crypto faults candidate).2)
  | .remove proofHashes =>
    ((.removed (state.removeIncludedV1 crypto faults proofHashes).1),
      (state.removeIncludedV1 crypto faults proofHashes).2)

def runPoolCalls (calls : List (PoolCall × JournalFaults)) (state : PersistentWorkCommitPoolV1) :
    PersistentWorkCommitPoolV1 :=
  calls.foldl (fun state call => (state.answer crypto call.2 call.1).2) state

end Runs

namespace PersistentWorkCommitPoolV1

variable (crypto : Crypto) {state : PersistentWorkCommitPoolV1}

structure Answered (state : PersistentWorkCommitPoolV1) (faults : JournalFaults) (call : PoolCall) :
    Prop where
  sound : (state.answer crypto faults call).2.pool.Sound
  capacity : (state.answer crypto faults call).2.pool.capacity = state.pool.capacity
  journal : (state.answer crypto faults call).2.persistence.isSome = state.persistence.isSome
  unchanged : (state.answer crypto faults call).1.failed = true → (state.answer crypto faults call).2.pool = state.pool
  written : call.changes = true → (state.answer crypto faults call).2.pool ≠ state.pool →
    (state.answer crypto faults call).2.Persisted ∧ (state.answer crypto faults call).2.pool.epoch ≠ 0

theorem answered (sound : state.pool.Sound) (faults : JournalFaults) (call : PoolCall) :
    Answered crypto state faults call := by
  cases call with
  | reset epoch =>
    have journal : (state.resetCommitEpochV1 faults epoch).2.persistence = state.persistence := by
      unfold resetCommitEpochV1
      split <;> rfl
    rcases resetCommitEpochV1_cases faults sound epoch with ⟨error, failed⟩ | ⟨done, after, _, capacity, _⟩
    · have kept : (state.resetCommitEpochV1 faults epoch).2.pool = state.pool := by rw [failed]
      refine ⟨?_, congrArg (·.capacity) kept, congrArg Option.isSome journal, fun _ => kept,
        fun changes => (Bool.false_ne_true changes).elim⟩
      change (state.resetCommitEpochV1 faults epoch).2.pool.Sound
      rw [kept]
      exact sound
    · refine ⟨after, capacity, congrArg Option.isSome journal, fun failed => ?_,
        fun changes => (Bool.false_ne_true changes).elim⟩
      simp [answer, done, PoolReply.failed] at failed
  | add candidate =>
    have journal : (state.addVerifiedV1 crypto faults candidate).2.persistence.isSome = state.persistence.isSome := by
      unfold addVerifiedV1
      split
      · rfl
      · dsimp only
        split <;> exact persistLockedV1_isSome ..
    rcases addVerifiedV1_cases crypto faults sound candidate with ⟨_, _, kept⟩ | ⟨done, admissible, grown, persisted⟩
    · refine ⟨?_, congrArg (·.capacity) kept, journal, fun _ => kept, fun _ changed => absurd kept changed⟩
      change (state.addVerifiedV1 crypto faults candidate).2.pool.Sound
      rw [kept]
      exact sound
    · refine ⟨?_, congrArg (·.capacity) grown, journal, fun failed => ?_, fun _ _ => ⟨persisted, ?_⟩⟩
      · change (state.addVerifiedV1 crypto faults candidate).2.pool.Sound
        rw [grown]
        exact sound.insert admissible
      · simp [answer, done, PoolReply.failed] at failed
      · change (state.addVerifiedV1 crypto faults candidate).2.pool.epoch ≠ 0
        rw [grown]
        exact admissible.known
  | remove proofHashes =>
    have journal : (state.removeIncludedV1 crypto faults proofHashes).2.persistence.isSome =
        state.persistence.isSome := by
      unfold removeIncludedV1
      dsimp only
      split_ifs
      · rfl
      · split <;> exact persistLockedV1_isSome ..
    rcases removeIncludedV1_cases crypto faults sound proofHashes with ⟨_, kept⟩ |
      ⟨taken, some, count, _, split, persisted⟩
    · refine ⟨?_, congrArg (·.capacity) kept, journal, fun _ => kept, fun _ changed => absurd kept changed⟩
      change (state.removeIncludedV1 crypto faults proofHashes).2.pool.Sound
      rw [kept]
      exact sound
    · refine ⟨split.sound sound, split.capacity, journal, fun failed => ?_, fun _ _ => ⟨persisted, ?_⟩⟩
      · simp [answer, count, PoolReply.failed, some] at failed
      · obtain ⟨candidate, rest, rfl⟩ := List.exists_cons_of_ne_nil some
        have present := (split.members candidate).mpr (.inr List.mem_cons_self)
        exact split.epoch ▸ sound.epoch_ne_zero present

theorem run_sound (sound : state.pool.Sound) (calls : List (PoolCall × JournalFaults)) :
    (runPoolCalls crypto calls state).pool.Sound ∧
      (runPoolCalls crypto calls state).pool.capacity = state.pool.capacity ∧
      (runPoolCalls crypto calls state).persistence.isSome = state.persistence.isSome := by
  induction calls generalizing state with
  | nil => exact ⟨sound, rfl, rfl⟩
  | cons call rest ih =>
    have first := answered crypto sound call.2 call.1
    obtain ⟨after, capacity, journal⟩ := ih first.sound
    exact ⟨after, capacity.trans first.capacity, journal.trans first.journal⟩

end PersistentWorkCommitPoolV1

/-- Whatever is called and whatever the database does, the pool is sound and offers its candidates, a failed call leaves
it as it was, and a changed pool is the one that a restart on the journal brings back. -/
theorem workCommitPool_runs (crypto : Crypto) (capacity : Nat) (persistence : Option WorkV1PoolJournal)
    (calls : List (PoolCall × JournalFaults)) :
    let state := runPoolCalls crypto calls (newPersistentWorkCommitPoolV1 capacity persistence)
    state.pool.Sound ∧
      state.pool.capacity = (if capacity = 0 then defaultWorkCommitPoolCapacityV1 else capacity) ∧
      (state.pool.epoch ≠ 0 → ∃ batch, state.pool.pendingV1 crypto = .ok batch) ∧
      ∀ faults call,
        let answered := state.answer crypto faults call
        (answered.1.failed = true → answered.2.pool = state.pool) ∧
          (call.changes = true → answered.2.pool ≠ state.pool → persistence.isSome = true →
            ∃ journal, answered.2.persistence = some journal ∧ journal.Holds answered.2.pool ∧
              (newPersistentWorkCommitPoolV1 capacity (some journal)).resetCommitEpochV1 .quiet answered.2.pool.epoch =
                (.ok (), answered.2)) := by
  intro state
  have start : (newPersistentWorkCommitPoolV1 capacity persistence).pool.Sound :=
    WorkCommitPoolV1.emptyWorkCommitPool_sound ..
  obtain ⟨sound, sameCapacity, journaled⟩ := PersistentWorkCommitPoolV1.run_sound crypto start calls
  refine ⟨sound, sameCapacity, sound.pendingV1 crypto, fun faults call => ?_⟩
  have step := PersistentWorkCommitPoolV1.answered crypto sound faults call
  refine ⟨step.unchanged, fun changes changed present => ?_⟩
  obtain ⟨persisted, known⟩ := step.written changes changed
  obtain ⟨journal, kept⟩ := Option.isSome_iff_exists.mp (step.journal.trans (journaled.trans present))
  have holds := persisted journal kept
  refine ⟨journal, kept, holds, ?_⟩
  rw [PersistentWorkCommitPoolV1.restarted step.sound known (step.capacity.trans sameCapacity) holds, ← kept]

end RabbitLqc
