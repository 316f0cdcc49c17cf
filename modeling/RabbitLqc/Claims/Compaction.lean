import RabbitLqc.Claims.Participation
import RabbitLqc.Lib.RlpCommit

/-!
# Compact participation proofs

On the wire a proof is a committee position and a signature. Compaction puts a batch of proofs of one
block into position order and drops what the committee and the block supply; expansion puts it back.
-/

namespace RabbitLqc
open Lib RlpCodec

variable {chainID : Nat} {proof : CommitteeParticipationV1} {proofHash : Hash}

/-! ### Canonical order -/

/-- The committee loop: no zero seat, no participant and no ticket twice. -/
def indexSelectedFrom : List WorkSeatV1 → List WorkSeatV1 → Except LqcError Unit
  | _, [] => .ok ()
  | seen, seat :: rest => do
    ensure (seat.participant ≠ 0 ∧ seat.ticketHash ≠ 0) .committeeParticipantNotSelectedV1
    ensure (∀ earlier ∈ seen, earlier.participant ≠ seat.participant) .duplicateCommitteeParticipationV1
    ensure (∀ earlier ∈ seen, earlier.ticketHash ≠ seat.ticketHash) .duplicateCommitteeParticipationV1
    indexSelectedFrom (seat :: seen) rest

/-- `selectedByParticipant`, a map with one entry a seat once the committee loop has passed. -/
def selectedByParticipant (selected : List WorkSeatV1) (participant : Address) : Option Nat :=
  selected.findIdx? fun seat => decide (seat.participant = participant)

def seatAt (selected : List WorkSeatV1) (position : Nat) : WorkSeatV1 := selected.getD position ⟨0, 0⟩

def CommitteeParticipationV1.SameContext (proof context : CommitteeParticipationV1) : Prop :=
  proof.version = context.version ∧ proof.blockNumber = context.blockNumber ∧
    proof.parentHash = context.parentHash ∧ proof.selectionRoot = context.selectionRoot

instance (proof context : CommitteeParticipationV1) : Decidable (proof.SameContext context) :=
  inferInstanceAs (Decidable (_ ∧ _))

/-- The proof loop: every proof with its position; `seen` are the proofs before. -/
def indexProofsFrom (selected : List WorkSeatV1) (context : CommitteeParticipationV1) :
    List CommitteeParticipationV1 → List CommitteeParticipationV1 →
    Except LqcError (List (Nat × CommitteeParticipationV1))
  | _, [] => .ok []
  | seen, proof :: rest => do
    ensure (proof.SameContext context) .mixedCommitteeParticipationV1
    let position ← orFail .committeeParticipantNotSelectedV1 (selectedByParticipant selected proof.participant)
    ensure ((seatAt selected position).ticketHash = proof.ticketHash) .committeeParticipantNotSelectedV1
    ensure (∀ earlier ∈ seen, earlier.participant ≠ proof.participant) .duplicateCommitteeParticipationV1
    ensure (∀ earlier ∈ seen, earlier.ticketHash ≠ proof.ticketHash) .duplicateCommitteeParticipationV1
    let indexed ← indexProofsFrom selected context (proof :: seen) rest
    .ok ((position, proof) :: indexed)

def canonicalizeCommitteeParticipationsV1 (selected : List WorkSeatV1) (proofs : List CommitteeParticipationV1) :
    Except LqcError (List CommitteeParticipationV1) := do
  ensure (selected.length ≤ maxCommitteeParticipationsV1 ∧ proofs.length ≤ maxCommitteeParticipationsV1 ∧
    proofs.length ≤ selected.length) .tooManyCommitteeParticipationsV1
  match proofs with
  | [] => .ok []
  | context :: rest => do
    indexSelectedFrom [] selected
    let indexed ← indexProofsFrom selected context [] (context :: rest)
    .ok ((sortOn (·.1) indexed).map (·.2))

/-! ### The wire form -/

def compactProof (selected : List WorkSeatV1) (proof : CommitteeParticipationV1) :
    Except LqcError CompactCommitteeParticipationV1 := do
  ensure (proof.signature.length = signatureLength) .invalidCompactCommitteeParticipationV1
  .ok ⟨UInt8.ofNat ((selectedByParticipant selected proof.participant).getD 0), proof.signature⟩

def compactCommitteeParticipationsV1 (selected : List WorkSeatV1) (proofs : List CommitteeParticipationV1) :
    Except LqcError (List CompactCommitteeParticipationV1) := do
  let canonical ← canonicalizeCommitteeParticipationsV1 selected proofs
  canonical.mapM (compactProof selected)

/-- The proofs alone, without the seats the verification keeps beside them. -/
def expandedProofs (blockNumber : Nat) (parentHash selectionRoot : Hash) (selected : List WorkSeatV1)
    (compact : List CompactCommitteeParticipationV1) : Except LqcError (List CommitteeParticipationV1) := do
  let expanded ← expandCommitteeParticipationsV1 blockNumber parentHash selectionRoot selected compact
  .ok (expanded.map (·.2.2))

/-! ### What compaction accepts -/

def CommitteeParticipationV1.seat (proof : CommitteeParticipationV1) : WorkSeatV1 :=
  ⟨proof.ticketHash, proof.participant⟩

/-- Proofs of one block, each for a seat of the committee and no two for the same one. -/
structure ParticipationBatch (selected : List WorkSeatV1) (proofs : List CommitteeParticipationV1) : Prop where
  context : ∀ proof ∈ proofs, ∀ other ∈ proofs, proof.SameContext other
  seats : ∀ proof ∈ proofs, proof.seat ∈ selected
  distinct : (proofs.map (·.participant)).Nodup

section Committee

variable {selected : List WorkSeatV1}

variable {left right : WorkSeatV1} {position : Nat} {proofs : List CommitteeParticipationV1}
  {compact : List CompactCommitteeParticipationV1}

theorem SeatSet.nodup (set : SeatSet selected) : selected.Nodup := List.Nodup.of_map _ set.participants

theorem SeatSet.eq_of_participant (set : SeatSet selected) (inLeft : left ∈ selected) (inRight : right ∈ selected)
    (same : left.participant = right.participant) : left = right :=
  List.inj_on_of_nodup_map set.participants inLeft inRight same

theorem SeatSet.eq_of_ticketHash (set : SeatSet selected) (inLeft : left ∈ selected) (inRight : right ∈ selected)
    (same : left.ticketHash = right.ticketHash) : left = right :=
  List.inj_on_of_nodup_map set.hashes inLeft inRight same

theorem seatAt_idxOf {seat : WorkSeatV1} (member : seat ∈ selected) : seatAt selected (selected.idxOf seat) = seat := by
  have inside := List.idxOf_lt_length_iff.mpr member
  rw [seatAt, List.getD_eq_getElem _ _ inside, List.getElem_idxOf]

theorem seatAt_mem (inside : position < selected.length) : seatAt selected position ∈ selected := by
  rw [seatAt, List.getD_eq_getElem _ _ inside]
  exact List.getElem_mem inside

theorem SeatSet.idxOf_seatAt (set : SeatSet selected) (inside : position < selected.length) :
    selected.idxOf (seatAt selected position) = position := by
  rw [seatAt, List.getD_eq_getElem _ _ inside]
  exact set.nodup.idxOf_getElem position inside

theorem SeatSet.selectedByParticipant_seat (set : SeatSet selected) {seat : WorkSeatV1} (member : seat ∈ selected) :
    selectedByParticipant selected seat.participant = some (selected.idxOf seat) := by
  have inside := List.idxOf_lt_length_iff.mpr member
  rw [selectedByParticipant, List.findIdx?_eq_some_iff_getElem]
  refine ⟨inside, by rw [List.getElem_idxOf]; simp, fun earlier before found => ?_⟩
  have same := set.eq_of_participant (List.getElem_mem (before.trans inside)) member (of_decide_eq_true found)
  have position := set.nodup.idxOf_getElem earlier (before.trans inside)
  rw [same] at position
  omega

theorem selectedByParticipant_mem {participant : Address}
    (found : selectedByParticipant selected participant = some position) :
    position < selected.length ∧ (seatAt selected position).participant = participant := by
  obtain ⟨inside, same, _⟩ := List.findIdx?_eq_some_iff_getElem.mp found
  refine ⟨inside, ?_⟩
  rw [seatAt, List.getD_eq_getElem _ _ inside]
  exact of_decide_eq_true same

theorem SeatSet.lookup_iff (set : SeatSet selected) :
    selectedByParticipant selected proof.participant = some position ∧
        (seatAt selected position).ticketHash = proof.ticketHash ↔
      proof.seat ∈ selected ∧ position = selected.idxOf proof.seat := by
  constructor
  · intro given
    obtain ⟨found, ticket⟩ := given
    obtain ⟨inside, participant⟩ := selectedByParticipant_mem found
    have seat : seatAt selected position = proof.seat := congrArg₂ WorkSeatV1.mk ticket participant
    rw [← seat]
    exact ⟨seatAt_mem inside, (set.idxOf_seatAt inside).symm⟩
  · intro given
    obtain ⟨member, rfl⟩ := given
    refine ⟨set.selectedByParticipant_seat member, ?_⟩
    rw [seatAt_idxOf member]
    rfl

theorem indexSelectedFrom_ok {seen rest : List WorkSeatV1} (set : SeatSet (seen ++ rest)) :
    indexSelectedFrom seen rest = .ok () := by
  induction rest generalizing seen with
  | nil => rfl
  | cons seat rest ih =>
    have moved : SeatSet (seat :: seen ++ rest) := set.perm List.perm_middle
    have nonzero := set.nonzero seat (by simp)
    have hashes := (List.nodup_cons.mp (List.map_cons ▸ moved.hashes)).1
    have participants := (List.nodup_cons.mp (List.map_cons ▸ moved.participants)).1
    simp only [indexSelectedFrom, ensure_bind_ok_iff]
    refine ⟨⟨nonzero.2, nonzero.1⟩, fun earlier member same => participants ?_,
      fun earlier member same => hashes ?_, ih moved⟩
    · exact List.mem_map.mpr ⟨earlier, List.mem_append_left _ member, same⟩
    · exact List.mem_map.mpr ⟨earlier, List.mem_append_left _ member, same⟩

theorem SeatSet.indexProofsFrom_ok_iff (set : SeatSet selected) {context : CommitteeParticipationV1}
    {seen : List CommitteeParticipationV1} {indexed : List (Nat × CommitteeParticipationV1)}
    (seenSeats : ∀ earlier ∈ seen, earlier.seat ∈ selected) :
    indexProofsFrom selected context seen proofs = .ok indexed ↔
      (∀ proof ∈ proofs, proof.SameContext context) ∧ (∀ proof ∈ proofs, proof.seat ∈ selected) ∧
        (proofs.map (·.participant)).Nodup ∧
        (∀ earlier ∈ seen, ∀ proof ∈ proofs, earlier.participant ≠ proof.participant) ∧
        indexed = proofs.map fun proof => (selected.idxOf proof.seat, proof) := by
  induction proofs generalizing seen indexed with
  | nil => simp [indexProofsFrom, eq_comm]
  | cons proof rest ih =>
    -- a ticket seen before belongs to a seat seen before, so that check adds nothing
    have tickets : proof.seat ∈ selected →
        (∀ earlier ∈ seen, earlier.participant ≠ proof.participant) →
        ∀ earlier ∈ seen, earlier.ticketHash ≠ proof.ticketHash := by
      intro member fresh earlier inSeen same
      have seat := set.eq_of_ticketHash (seenSeats earlier inSeen) member same
      exact fresh earlier inSeen (congrArg WorkSeatV1.participant seat)
    simp only [indexProofsFrom, bind_ok_iff, ensure_ok_iff, exists_unit, orFail_ok_iff, Except.ok.injEq,
      List.forall_mem_cons, List.map_cons, List.nodup_cons]
    constructor
    · intro given
      obtain ⟨context, position, found, ticket, fresh, _, indexedRest, run, rfl⟩ := given
      obtain ⟨member, rfl⟩ := set.lookup_iff.mp ⟨found, ticket⟩
      obtain ⟨contexts, seats, distinct, apart, rfl⟩ :=
        (ih (List.forall_mem_cons.mpr ⟨member, seenSeats⟩)).mp run
      obtain ⟨own, others⟩ := List.forall_mem_cons.mp apart
      refine ⟨⟨context, contexts⟩, ⟨member, seats⟩, ⟨fun inRest => ?_, distinct⟩,
        fun earlier inSeen => ⟨fresh earlier inSeen, others earlier inSeen⟩, rfl⟩
      obtain ⟨other, inOthers, same⟩ := List.mem_map.mp inRest
      exact own other inOthers same.symm
    · intro given
      obtain ⟨⟨context, contexts⟩, ⟨member, seats⟩, ⟨notAgain, distinct⟩, apart, rfl⟩ := given
      obtain ⟨found, ticket⟩ := set.lookup_iff.mpr ⟨member, rfl⟩
      have fresh := fun earlier inSeen => (apart earlier inSeen).1
      refine ⟨context, _, found, ticket, fresh, tickets member fresh, _,
        (ih (List.forall_mem_cons.mpr ⟨member, seenSeats⟩)).mpr ⟨contexts, seats, distinct, ?_, rfl⟩, rfl⟩
      refine List.forall_mem_cons.mpr ⟨fun other inRest same => ?_, fun earlier inSeen => (apart earlier inSeen).2⟩
      exact notAgain (List.mem_map.mpr ⟨other, inRest, same.symm⟩)

theorem ParticipationBatch.length_le (batch : ParticipationBatch selected proofs) :
    proofs.length ≤ selected.length := by
  have seats : (proofs.map (·.seat)).Nodup := by
    apply List.Nodup.of_map WorkSeatV1.participant
    rw [List.map_map]
    exact batch.distinct
  have inside : (proofs.map (·.seat)) ⊆ selected := by
    intro seat member
    obtain ⟨proof, inProofs, rfl⟩ := List.mem_map.mp member
    exact batch.seats proof inProofs
  have count := (seats.subperm inside).length_le
  rwa [List.length_map] at count

theorem SeatSet.canonicalize_ok_iff (set : SeatSet selected) (few : selected.length ≤ maxCommitteeParticipationsV1)
    {canonical : List CommitteeParticipationV1} :
    canonicalizeCommitteeParticipationsV1 selected proofs = .ok canonical ↔
      ParticipationBatch selected proofs ∧
        canonical = sortOn (fun proof => selected.idxOf proof.seat) proofs := by
  have indexes : indexSelectedFrom [] selected = .ok () := indexSelectedFrom_ok set
  simp only [canonicalizeCommitteeParticipationsV1, ensure_bind_ok_iff]
  cases proofs with
  | nil =>
    simp only [List.length_nil, Nat.zero_le, and_true, few, true_and, Except.ok.injEq, sortOn_nil]
    constructor
    · intro same
      exact ⟨⟨by simp, by simp, by simp⟩, same.symm⟩
    · intro given
      exact given.2.symm
  | cons context rest =>
    have order : ∀ proofs : List CommitteeParticipationV1,
        (sortOn (·.1) (proofs.map fun proof => (selected.idxOf proof.seat, proof))).map (·.2) =
          sortOn (fun proof => selected.idxOf proof.seat) proofs := by
      intro proofs
      rw [sortOn_map, List.map_map]
      exact List.map_id _
    simp only [bind_ok_iff, indexes, true_and, exists_const, Except.ok.injEq,
      set.indexProofsFrom_ok_iff (show ∀ earlier ∈ ([] : List CommitteeParticipationV1),
        earlier.seat ∈ selected by simp)]
    constructor
    · intro given
      obtain ⟨_, indexed, ⟨contexts, seats, distinct, _, rfl⟩, rfl⟩ := given
      refine ⟨⟨fun proof inProofs other inOthers => ?_, seats, distinct⟩, order _⟩
      obtain ⟨version, block, parent, root⟩ := contexts proof inProofs
      obtain ⟨version', block', parent', root'⟩ := contexts other inOthers
      exact ⟨version.trans version'.symm, block.trans block'.symm, parent.trans parent'.symm, root.trans root'.symm⟩
    · intro given
      obtain ⟨batch, rfl⟩ := given
      have short := batch.length_le
      exact ⟨⟨few, short.trans few, short⟩, _, ⟨fun proof member => batch.context proof member context (by simp),
        batch.seats, batch.distinct, by simp, rfl⟩, order _⟩

def compactForm (selected : List WorkSeatV1) (proof : CommitteeParticipationV1) : CompactCommitteeParticipationV1 :=
  ⟨UInt8.ofNat (selected.idxOf proof.seat), proof.signature⟩

theorem SeatSet.compact_ok_iff (set : SeatSet selected) (few : selected.length ≤ maxCommitteeParticipationsV1) :
    compactCommitteeParticipationsV1 selected proofs = .ok compact ↔
      ParticipationBatch selected proofs ∧ (∀ proof ∈ proofs, proof.signature.length = signatureLength) ∧
        compact = (sortOn (fun proof => selected.idxOf proof.seat) proofs).map (compactForm selected) := by
  have step : ∀ proof : CommitteeParticipationV1, proof.seat ∈ selected → ∀ form,
      compactProof selected proof = .ok form ↔
        proof.signature.length = signatureLength ∧ compactForm selected proof = form := by
    intro proof member form
    have found : selectedByParticipant selected proof.participant = some (selected.idxOf proof.seat) :=
      set.selectedByParticipant_seat member
    simp only [compactProof, ensure_bind_ok_iff, found, Option.getD_some, Except.ok.injEq, compactForm]
  simp only [compactCommitteeParticipationsV1, bind_ok_iff, set.canonicalize_ok_iff few]
  constructor
  · intro given
    obtain ⟨_, ⟨batch, rfl⟩, run⟩ := given
    obtain ⟨lengths, same⟩ := (mapM_ok_map_iff fun proof member =>
      step proof (batch.seats proof (mem_sortOn.mp member))).mp run
    exact ⟨batch, fun proof member => lengths proof (mem_sortOn.mpr member), same.symm⟩
  · intro given
    obtain ⟨batch, lengths, rfl⟩ := given
    exact ⟨_, ⟨batch, rfl⟩, (mapM_ok_map_iff fun proof member =>
      step proof (batch.seats proof (mem_sortOn.mp member))).mpr
        ⟨fun proof member => lengths proof (mem_sortOn.mp member), rfl⟩⟩

/-! ### What expansion accepts -/

/-- Wire entries of the committee in increasing position order. -/
structure CompactBatch (selected : List WorkSeatV1) (compact : List CompactCommitteeParticipationV1) : Prop where
  inside : ∀ item ∈ compact, item.position.toNat < selected.length
  signatures : ∀ item ∈ compact, item.signature.length = signatureLength
  increasing : compact.Pairwise fun before item => before.position.toNat < item.position.toNat

def expandedForm (blockNumber : Nat) (parentHash selectionRoot : Hash) (selected : List WorkSeatV1)
    (item : CompactCommitteeParticipationV1) : CommitteeParticipationV1 :=
  ⟨committeeParticipationVersionV1, blockNumber, parentHash, selectionRoot,
    (seatAt selected item.position.toNat).ticketHash, (seatAt selected item.position.toNat).participant,
    item.signature⟩

variable {blockNumber : Nat} {parentHash selectionRoot : Hash}

theorem SeatSet.expandFrom_ok_iff (set : SeatSet selected) {previous : Option Nat}
    {expanded : List (UInt8 × WorkSeatV1 × CommitteeParticipationV1)} :
    expandFrom blockNumber parentHash selectionRoot selected previous compact = .ok expanded ↔
      CompactBatch selected compact ∧ (∀ position ∈ previous, ∀ item ∈ compact, position < item.position.toNat) ∧
        expanded = compact.map fun item => (item.position, seatAt selected item.position.toNat,
          expandedForm blockNumber parentHash selectionRoot selected item) := by
  induction compact generalizing previous expanded with
  | nil =>
    simp only [expandFrom, Except.ok.injEq, List.map_nil, eq_comm (a := expanded)]
    constructor
    · intro same
      exact ⟨⟨by simp, by simp, .nil⟩, by simp, same⟩
    · intro given
      exact given.2.2
  | cons item rest ih =>
    rw [expandFrom]
    constructor
    · intro run
      split at run
      · cases run
      · rename_i seat found
        obtain ⟨inside, here⟩ := List.getElem?_eq_some_iff.mp found
        have seatHere : seatAt selected item.position.toNat = seat := by
          rw [seatAt, List.getD_eq_getElem _ _ inside, here]
        simp only [bind_ok_iff, ensure_ok_iff, exists_unit, Except.ok.injEq] at run
        obtain ⟨after, signature, _, proofs, more, rfl⟩ := run
        obtain ⟨batch, increasing, rfl⟩ := ih.mp more
        have above := increasing item.position.toNat rfl
        refine ⟨⟨List.forall_mem_cons.mpr ⟨inside, batch.inside⟩,
          List.forall_mem_cons.mpr ⟨signature, batch.signatures⟩,
          List.pairwise_cons.mpr ⟨above, batch.increasing⟩⟩, fun position inPrevious => ?_, ?_⟩
        · exact List.forall_mem_cons.mpr ⟨after position inPrevious, fun other inRest =>
            (after position inPrevious).trans (above other inRest)⟩
        · rw [List.map_cons, expandedForm, seatHere]
    · intro given
      obtain ⟨batch, after, rfl⟩ := given
      obtain ⟨inside, insideRest⟩ := List.forall_mem_cons.mp batch.inside
      obtain ⟨signature, signatures⟩ := List.forall_mem_cons.mp batch.signatures
      obtain ⟨above, increasing⟩ := List.pairwise_cons.mp batch.increasing
      have found : selected[item.position.toNat]? = some (seatAt selected item.position.toNat) := by
        rw [seatAt, List.getD_eq_getElem _ _ inside, List.getElem?_eq_getElem inside]
      have nonzero := set.nonzero _ (seatAt_mem inside)
      rw [found]
      simp only [bind_ok_iff, ensure_ok_iff, exists_unit, Except.ok.injEq]
      refine ⟨fun position inPrevious => after position inPrevious item List.mem_cons_self, signature,
        ⟨nonzero.2, nonzero.1⟩, _, ih.mpr ⟨⟨insideRest, signatures, increasing⟩, ?_, rfl⟩, rfl⟩
      intro position here other inRest
      obtain rfl := Option.mem_some.mp here
      exact above other inRest

theorem CompactBatch.length_le (batch : CompactBatch selected compact) : compact.length ≤ selected.length := by
  have distinct : (compact.map (·.position.toNat)).Nodup := strict_keys_nodup batch.increasing
  have inside : compact.map (·.position.toNat) ⊆ List.range selected.length := by
    intro position member
    obtain ⟨item, inCompact, rfl⟩ := List.mem_map.mp member
    exact List.mem_range.mpr (batch.inside item inCompact)
  have count := (distinct.subperm inside).length_le
  rwa [List.length_map, List.length_range] at count

theorem SeatSet.expandedProofs_ok_iff (set : SeatSet selected) (few : selected.length ≤ maxCommitteeParticipationsV1) :
    expandedProofs blockNumber parentHash selectionRoot selected compact = .ok proofs ↔
      (blockNumber ≠ 0 ∧ parentHash ≠ 0 ∧ selectionRoot ≠ 0) ∧ CompactBatch selected compact ∧
        proofs = compact.map (expandedForm blockNumber parentHash selectionRoot selected) := by
  simp only [expandedProofs, expandCommitteeParticipationsV1, bind_ok_iff, ensure_ok_iff, exists_unit,
    set.expandFrom_ok_iff, Except.ok.injEq]
  constructor
  · intro given
    obtain ⟨_, ⟨⟨block, parent, root, _⟩, batch, _, rfl⟩, rfl⟩ := given
    exact ⟨⟨block, parent, root⟩, batch, by rw [List.map_map]; rfl⟩
  · intro given
    obtain ⟨⟨block, parent, root⟩, batch, rfl⟩ := given
    have short := batch.length_le
    exact ⟨_, ⟨⟨block, parent, root, few, short.trans few, short⟩, batch, by simp, rfl⟩, by rw [List.map_map]; rfl⟩

/-! ### Both ways round -/

theorem expandedForm_seat (item : CompactCommitteeParticipationV1) :
    (expandedForm blockNumber parentHash selectionRoot selected item).seat = seatAt selected item.position.toNat :=
  rfl

theorem SeatSet.compactForm_expandedForm (set : SeatSet selected) {item : CompactCommitteeParticipationV1}
    (inside : item.position.toNat < selected.length) :
    compactForm selected (expandedForm blockNumber parentHash selectionRoot selected item) = item := by
  rw [compactForm, expandedForm_seat, set.idxOf_seatAt inside, UInt8.ofNat_toNat]
  rfl

theorem toNat_idxOf (few : selected.length ≤ maxCommitteeParticipationsV1) {seat : WorkSeatV1}
    (member : seat ∈ selected) :
    (UInt8.ofNat (selected.idxOf seat)).toNat = selected.idxOf seat := by
  have inside := List.idxOf_lt_length_iff.mpr member
  have count : selected.length ≤ 128 := few
  exact UInt8.toNat_ofNat_of_lt' (show selected.idxOf seat < 256 by omega)

theorem expandedForm_compactForm (few : selected.length ≤ maxCommitteeParticipationsV1)
    (member : proof.seat ∈ selected) (version : proof.version = committeeParticipationVersionV1) :
    expandedForm proof.blockNumber proof.parentHash proof.selectionRoot selected (compactForm selected proof) =
      proof := by
  unfold expandedForm compactForm
  rw [toNat_idxOf few member, seatAt_idxOf member, ← version]
  rfl

theorem ParticipationBatch.compactBatch (batch : ParticipationBatch selected proofs)
    (few : selected.length ≤ maxCommitteeParticipationsV1)
    (signatures : ∀ proof ∈ proofs, proof.signature.length = signatureLength) :
    CompactBatch selected
      ((sortOn (fun proof => selected.idxOf proof.seat) proofs).map (compactForm selected)) where
  inside item member := by
    obtain ⟨proof, inProofs, rfl⟩ := List.mem_map.mp member
    have inSelected := batch.seats proof (mem_sortOn.mp inProofs)
    exact (toNat_idxOf few inSelected).trans_lt (List.idxOf_lt_length_iff.mpr inSelected)
  signatures item member := by
    obtain ⟨proof, inProofs, rfl⟩ := List.mem_map.mp member
    exact signatures proof (mem_sortOn.mp inProofs)
  increasing := by
    have distinct : (proofs.map fun proof => selected.idxOf proof.seat).Nodup := by
      refine (List.Nodup.of_map (fun proof : CommitteeParticipationV1 => proof.participant) batch.distinct).map_on ?_
      intro left inLeft right inRight same
      have seat := (List.idxOf_inj (batch.seats left inLeft)).mp same
      exact List.inj_on_of_nodup_map batch.distinct inLeft inRight (congrArg WorkSeatV1.participant seat)
    refine List.pairwise_map.mpr ((sortOn_strict distinct).imp_of_mem fun {left right} inLeft inRight before => ?_)
    change (UInt8.ofNat _).toNat < (UInt8.ofNat _).toNat
    rw [toNat_idxOf few (batch.seats left (mem_sortOn.mp inLeft)),
      toNat_idxOf few (batch.seats right (mem_sortOn.mp inRight))]
    exact before

theorem CompactBatch.batch {compact : List CompactCommitteeParticipationV1} (listed : CompactBatch selected compact)
    (set : SeatSet selected) :
    ParticipationBatch selected (compact.map (expandedForm blockNumber parentHash selectionRoot selected)) ∧
      sortOn (fun proof => selected.idxOf proof.seat)
        (compact.map (expandedForm blockNumber parentHash selectionRoot selected)) =
          compact.map (expandedForm blockNumber parentHash selectionRoot selected) := by
  have order : (compact.map (expandedForm blockNumber parentHash selectionRoot selected)).Pairwise
      fun before proof => selected.idxOf before.seat < selected.idxOf proof.seat := by
    refine List.pairwise_map.mpr (listed.increasing.imp_of_mem fun {before item} inBefore inItem less => ?_)
    rw [expandedForm_seat, expandedForm_seat, set.idxOf_seatAt (listed.inside before inBefore),
      set.idxOf_seatAt (listed.inside item inItem)]
    exact less
  refine ⟨⟨?_, ?_, ?_⟩, sortOn_eq_self order⟩
  · intro proof inProofs other inOthers
    obtain ⟨_, _, rfl⟩ := List.mem_map.mp inProofs
    obtain ⟨_, _, rfl⟩ := List.mem_map.mp inOthers
    exact ⟨rfl, rfl, rfl, rfl⟩
  · intro proof member
    obtain ⟨item, inCompact, rfl⟩ := List.mem_map.mp member
    exact seatAt_mem (listed.inside item inCompact)
  · refine List.pairwise_map.mpr (order.imp_of_mem fun {before proof} inBefore inProof less same => ?_)
    obtain ⟨left, inLeft, rfl⟩ := List.mem_map.mp inBefore
    obtain ⟨right, inRight, rfl⟩ := List.mem_map.mp inProof
    have seat := set.eq_of_participant (seatAt_mem (listed.inside left inLeft))
      (seatAt_mem (listed.inside right inRight)) same
    rw [expandedForm_seat, expandedForm_seat, seat] at less
    exact lt_irrefl _ less

end Committee

/-! ### What is signed -/

theorem signingData_inj {otherID : Nat} {other : CommitteeParticipationV1} {otherHash : Hash} {data : Bytes}
    (fits : data.length < 2 ^ 64) (signed : committeeParticipationSigningDataV1 chainID proof proofHash = .ok data)
    (again : committeeParticipationSigningDataV1 otherID other otherHash = .ok data) :
    otherID = chainID ∧ other.seat = proof.seat ∧ other.SameContext proof := by
  simp only [committeeParticipationSigningDataV1, bind_ok_iff, ensure_ok_iff, exists_unit,
    Except.ok.injEq] at signed again
  obtain ⟨_, _, rfl⟩ := signed
  obtain ⟨_, _, same⟩ := again
  have items := Rlp.encode_inj (same ▸ fits) fits same
  simp only [CommitteeParticipationV1.fields, List.cons_append, List.nil_append, Rlp.Item.list.injEq,
    List.cons.injEq, toItem_inj, natItem_inj, true_and, and_true] at items
  obtain ⟨version, chain, block, parent, root, ticket, participant, _⟩ := items
  exact ⟨chain, congrArg₂ WorkSeatV1.mk ticket participant, version, block, parent, root⟩

/-! ### The round trip -/

/-- Proofs of one block that pass its verification, each for some seat of the committee. -/
structure VerifiedParticipations (crypto : Crypto) (ctx : CommitteeParticipationVerificationContextV1) (target : Nat)
    (proofs : List CommitteeParticipationV1) : Prop where
  context : target ≠ 0 ∧ ctx.parentHash ≠ 0 ∧ ctx.selectionRoot ≠ 0
  block : ∀ proof ∈ proofs, proof.blockNumber = target ∧ proof.parentHash = ctx.parentHash ∧
    proof.selectionRoot = ctx.selectionRoot
  verified : ∀ proof ∈ proofs, ∃ seat ∈ ctx.committee, ∃ input proofHash,
    committeeParticipationInputV1 ctx.chainID proof = .ok input ∧
      crypto.randomX ctx.datasetKey input = some proofHash ∧
      verifyCommitteeParticipationV1 crypto ctx.chainID seat proof proofHash = .ok ()

theorem verifyCommitteeParticipationV1_ok {crypto : Crypto} {seat : WorkSeatV1}
    (verified : verifyCommitteeParticipationV1 crypto chainID seat proof proofHash = .ok ()) :
    seat = proof.seat ∧ proof.signature.length = signatureLength ∧
      proof.version = committeeParticipationVersionV1 := by
  simp only [verifyCommitteeParticipationV1, bind_ok_iff, ensure_ok_iff, exists_unit,
    committeeParticipationSigningHashV1,
    committeeParticipationSigningDataV1, CommitteeParticipationV1.validateContext] at verified
  obtain ⟨⟨participant, ticket⟩, signature, _, ⟨_, ⟨⟨_, version, _⟩, _⟩, _⟩, _⟩ := verified
  exact ⟨congrArg₂ WorkSeatV1.mk ticket participant, signature, version⟩

/-- What verification of an expanded entry accepts: its own seat, and a signature over bytes that name the chain. -/
theorem verifyExpanded_signed {crypto : Crypto} {ctx : CommitteeParticipationVerificationContextV1} {target : Nat}
    {position : UInt8} {seat : WorkSeatV1} {accepted : VerifiedCommitteeParticipationV1}
    (verified : verifyExpanded crypto ctx target (position, seat, proof) = .ok accepted) :
    seat = proof.seat ∧ ∃ data, committeeParticipationSigningDataV1 ctx.chainID proof accepted.proofHash = .ok data ∧
      crypto.recover (crypto.keccak256 data) proof.signature = some proof.participant := by
  obtain ⟨input, _, verified⟩ := bind_ok verified
  split at verified
  · cases verified
  · obtain ⟨_, passed, verified⟩ := bind_ok verified
    obtain rfl := Except.ok.inj verified
    obtain ⟨⟨participant, ticket⟩, _, digest, hashed, recovers⟩ := verifyCommitteeParticipationV1_ok_iff.mp passed
    obtain ⟨data, signed, hashed⟩ := bind_ok hashed
    obtain rfl := Except.ok.inj hashed
    exact ⟨congrArg₂ WorkSeatV1.mk ticket participant, data, signed, recovers⟩

theorem VerifiedParticipations.batch {crypto : Crypto} {ctx : CommitteeParticipationVerificationContextV1}
    {target : Nat} {proofs : List CommitteeParticipationV1}
    (verified : VerifiedParticipations crypto ctx target proofs) (distinct : (proofs.map (·.participant)).Nodup) :
    ParticipationBatch ctx.committee proofs ∧ (∀ proof ∈ proofs, proof.signature.length = signatureLength) ∧
      ∀ proof ∈ proofs, proof.version = committeeParticipationVersionV1 := by
  have each : ∀ proof ∈ proofs, proof.seat ∈ ctx.committee ∧ proof.signature.length = signatureLength ∧
      proof.version = committeeParticipationVersionV1 := by
    intro proof member
    obtain ⟨seat, inCommittee, _, _, _, _, passed⟩ := verified.verified proof member
    obtain ⟨rfl, signature, version⟩ := verifyCommitteeParticipationV1_ok passed
    exact ⟨inCommittee, signature, version⟩
  refine ⟨⟨fun proof member other inOthers => ?_, fun proof member => (each proof member).1, distinct⟩,
    fun proof member => (each proof member).2.1, fun proof member => (each proof member).2.2⟩
  obtain ⟨block, parent, root⟩ := verified.block proof member
  obtain ⟨block', parent', root'⟩ := verified.block other inOthers
  exact ⟨(each proof member).2.2.trans (each other inOthers).2.2.symm, block.trans block'.symm,
    parent.trans parent'.symm, root.trans root'.symm⟩

/-- Against one committee of at most 128 distinct seats, compacting and expanding verified proofs of one
block, one a seat, gives them back in position order. What expansion accepts is compacted to the same
entries, and every entry stands for a proof of its own seat and of this block. A signature that verification
accepts for it is one over bytes of this chain, seat and block only. -/
theorem participationCompaction_roundTrip (crypto : Crypto) (ctx : CommitteeParticipationVerificationContextV1)
    (target : Nat) (set : SeatSet ctx.committee) (few : ctx.committee.length ≤ maxCommitteeParticipationsV1) :
    (∀ proofs, VerifiedParticipations crypto ctx target proofs → (proofs.map (·.participant)).Nodup →
      ∃ compact, compactCommitteeParticipationsV1 ctx.committee proofs = .ok compact ∧
        expandedProofs target ctx.parentHash ctx.selectionRoot ctx.committee compact =
          .ok (sortOn (fun proof => ctx.committee.idxOf proof.seat) proofs)) ∧
    ∀ compact proofs,
      expandedProofs target ctx.parentHash ctx.selectionRoot ctx.committee compact = .ok proofs →
        compactCommitteeParticipationsV1 ctx.committee proofs = .ok compact ∧
        List.Forall₂ (fun item proof => ctx.committee[item.position.toNat]? = some proof.seat ∧
          proof.blockNumber = target ∧ proof.parentHash = ctx.parentHash ∧
          proof.selectionRoot = ctx.selectionRoot ∧ proof.signature = item.signature) compact proofs ∧
        ∀ proof ∈ proofs, ∀ position seat accepted,
          verifyExpanded crypto ctx target (position, seat, proof) = .ok accepted →
            seat = proof.seat ∧
            ∃ data, committeeParticipationSigningDataV1 ctx.chainID proof accepted.proofHash = .ok data ∧
              crypto.recover (crypto.keccak256 data) proof.signature = some proof.participant ∧
              (data.length < 2 ^ 64 → ∀ chainID other otherHash,
                committeeParticipationSigningDataV1 chainID other otherHash = .ok data →
                  chainID = ctx.chainID ∧ other.seat = proof.seat ∧ other.SameContext proof) := by
  refine ⟨fun proofs verified distinct => ?_, fun compact proofs expanded => ?_⟩
  · obtain ⟨batch, signatures, versions⟩ := verified.batch distinct
    refine ⟨_, (set.compact_ok_iff few).mpr ⟨batch, signatures, rfl⟩,
      (set.expandedProofs_ok_iff few).mpr ⟨verified.context, batch.compactBatch few signatures, ?_⟩⟩
    rw [List.map_map]
    refine ((List.map_congr_left fun proof member => ?_).trans (List.map_id _)).symm
    have inProofs := mem_sortOn.mp member
    obtain ⟨block, parent, root⟩ := verified.block proof inProofs
    rw [Function.comp_apply, ← block, ← parent, ← root]
    exact expandedForm_compactForm few (batch.seats proof inProofs) (versions proof inProofs)
  · obtain ⟨_, listed, rfl⟩ := (set.expandedProofs_ok_iff few).mp expanded
    obtain ⟨batch, order⟩ := @CompactBatch.batch _ target ctx.parentHash ctx.selectionRoot _ listed set
    refine ⟨(set.compact_ok_iff few).mpr ⟨batch, ?_, ?_⟩, ?_, fun proof _ position seat accepted verified => ?_⟩
    · intro proof member
      obtain ⟨item, inCompact, rfl⟩ := List.mem_map.mp member
      exact listed.signatures item inCompact
    · rw [order, List.map_map]
      refine ((List.map_congr_left fun item member => ?_).trans (List.map_id _)).symm
      exact set.compactForm_expandedForm (listed.inside item member)
    · rw [List.forall₂_map_right_iff, List.forall₂_same]
      intro item member
      refine ⟨?_, rfl, rfl, rfl, rfl⟩
      have inside := listed.inside item member
      rw [expandedForm_seat, seatAt, List.getD_eq_getElem _ _ inside, List.getElem?_eq_getElem inside]
    · obtain ⟨own, data, signed, recovers⟩ := verifyExpanded_signed verified
      exact ⟨own, data, signed, recovers, fun fits _ _ _ again => signingData_inj fits signed again⟩

def plainProof (ticketHash : Hash) (signer : Nat) : CommitteeParticipationV1 :=
  ⟨1, 1, 1, 1, ticketHash, BitVec.ofNat 160 signer, plainSignature signer⟩

def pairContext : CommitteeParticipationVerificationContextV1 := ⟨1, 1, 1, 1, [⟨10, 1⟩, ⟨11, 2⟩]⟩

theorem pairContext_seats : SeatSet pairContext.committee := ⟨by decide, by decide, by decide⟩

theorem plainProof_verifies {ticketHash : Hash} {signer : Nat}
    (run : (do
      let _ ← committeeParticipationInputV1 1 (plainProof ticketHash signer)
      verifyCommitteeParticipationV1 plainCrypto 1 ⟨ticketHash, BitVec.ofNat 160 signer⟩ (plainProof ticketHash signer)
        1).isOk = true) :
    ∃ input proofHash, committeeParticipationInputV1 1 (plainProof ticketHash signer) = .ok input ∧
      plainCrypto.randomX 1 input = some proofHash ∧
      verifyCommitteeParticipationV1 plainCrypto 1 ⟨ticketHash, BitVec.ofNat 160 signer⟩
        (plainProof ticketHash signer) proofHash = .ok () := by
  obtain ⟨_, run⟩ := exists_ok_of_isOk run
  obtain ⟨input, made, verifies⟩ := bind_ok run
  exact ⟨input, 1, made, rfl, verifies⟩

theorem pairContext_verified {proofs : List CommitteeParticipationV1}
    (each : ∀ proof ∈ proofs, proof = plainProof 10 1 ∨ proof = plainProof 11 2) :
    VerifiedParticipations plainCrypto pairContext 1 proofs where
  context := by decide
  block proof member := by
    rcases each proof member with rfl | rfl <;> exact ⟨rfl, rfl, rfl⟩
  verified proof member := by
    rcases each proof member with rfl | rfl
    · exact ⟨⟨10, 1⟩, by decide, plainProof_verifies (by decide +kernel)⟩
    · exact ⟨⟨11, 2⟩, by decide, plainProof_verifies (by decide +kernel)⟩

theorem participationCompaction_roundTrip_pair :
    SeatSet pairContext.committee ∧ pairContext.committee.length ≤ maxCommitteeParticipationsV1 ∧
      ∃ compact, compactCommitteeParticipationsV1 pairContext.committee [plainProof 11 2, plainProof 10 1] =
          .ok compact ∧
        expandedProofs 1 1 1 pairContext.committee compact = .ok [plainProof 10 1, plainProof 11 2] ∧
        ∃ proofHash data, committeeParticipationSigningDataV1 1 (plainProof 10 1) proofHash = .ok data ∧
          plainCrypto.recover (plainCrypto.keccak256 data) (plainSignature 1) = some 1 := by
  have few : pairContext.committee.length ≤ maxCommitteeParticipationsV1 := by decide
  obtain ⟨roundTrip, accepted⟩ := participationCompaction_roundTrip plainCrypto pairContext 1 pairContext_seats few
  obtain ⟨compact, compacts, expands⟩ := roundTrip [plainProof 11 2, plainProof 10 1]
    (pairContext_verified (by simp)) (by decide)
  obtain ⟨input, proofHash, made, computed, verifies⟩ := @plainProof_verifies 10 1 (by decide +kernel)
  obtain ⟨_, data, signed, recovers, _⟩ := (accepted compact _ expands).2.2 _ List.mem_cons_self 0 ⟨10, 1⟩ _
    (verifyExpanded_eq_ok made computed verifies)
  exact ⟨pairContext_seats, few, compact, compacts, expands, proofHash, data, signed, recovers⟩

/-- Two verified proofs of the same seat are not compacted at all. -/
theorem participationCompaction_twice :
    SeatSet pairContext.committee ∧ pairContext.committee.length ≤ maxCommitteeParticipationsV1 ∧
      VerifiedParticipations plainCrypto pairContext 1 [plainProof 10 1, plainProof 10 1] ∧
      ∀ compact, compactCommitteeParticipationsV1 pairContext.committee [plainProof 10 1, plainProof 10 1] ≠
        .ok compact := by
  have few : pairContext.committee.length ≤ maxCommitteeParticipationsV1 := by decide
  refine ⟨pairContext_seats, few, pairContext_verified (by simp), fun compact given => ?_⟩
  have distinct := ((pairContext_seats.compact_ok_iff few).mp given).1.distinct
  simp at distinct

end RabbitLqc
