import RabbitLqc.Header.RegistryExtra

/-!
# Work tickets

A signed RandomX proof asks for one persistent seat. A header lists tickets of distinct
participants in canonical order.
-/

namespace RabbitLqc
open Lib RlpCodec

def randomXWorkProtocolVersion : UInt8 := 2

def maxWorkTicketsPerBlockV1 : Nat := 8

structure RandomXWorkTicketV1 where
  version : UInt8
  epoch : UInt64
  participant : Address
  nonce : UInt64
  deriving DecidableEq, Repr

structure SignedRandomXWorkTicketV1 where
  ticket : RandomXWorkTicketV1
  signature : Bytes
  deriving DecidableEq, Repr

instance : RlpCodec RandomXWorkTicketV1 where
  toItem ticket := .list [toItem ticket.version, toItem ticket.epoch, toItem ticket.participant,
    toItem ticket.nonce]
  ofItem
    | .list [version, epoch, participant, nonce] => do
      some ⟨← ofItem version, ← ofItem epoch, ← ofItem participant, ← ofItem nonce⟩
    | _ => none
  ofItem_toItem ticket := by simp

instance : RlpCodec SignedRandomXWorkTicketV1 where
  toItem signed := .list [toItem signed.ticket, toItem signed.signature]
  ofItem
    | .list [ticket, signature] => do some ⟨← ofItem ticket, ← ofItem signature⟩
    | _ => none
  ofItem_toItem signed := by simp

def validateRandomXWorkTicketV1 (ticket : RandomXWorkTicketV1) : Except LqcError Unit :=
  ensure (ticket.version = randomXWorkProtocolVersion ∧ ticket.epoch ≠ 0 ∧ ticket.participant ≠ 0)
    .invalidRandomXWorkTicket

def validateWorkTicketHeaderShapeV3 (signed : SignedRandomXWorkTicketV1) : Except LqcError Unit := do
  validateRandomXWorkTicketV1 signed.ticket
  ensure (signatureShapeOk signed.signature) .invalidRandomXWorkSignature

/-- `workTicketSemanticKeyV3`. -/
def RandomXWorkTicketV1.semanticKey (ticket : RandomXWorkTicketV1) : UInt64 × Address × UInt64 :=
  (ticket.epoch, ticket.participant, ticket.nonce)

def SignedRandomXWorkTicketV1.orderKey (signed : SignedRandomXWorkTicketV1) : List Nat :=
  [signed.ticket.epoch.toNat, signed.ticket.participant.toNat, signed.ticket.nonce.toNat] ++
    signed.signature.map UInt8.toNat

/-- Every ticket has its shape and repeats neither the semantic key nor the participant of an earlier one. -/
def checkWorkTicketsAfter (seen : List SignedRandomXWorkTicketV1) :
    List SignedRandomXWorkTicketV1 → Except LqcError Unit
  | [] => .ok ()
  | signed :: rest => do
    validateWorkTicketHeaderShapeV3 signed
    ensure (∀ earlier ∈ seen, earlier.ticket.semanticKey ≠ signed.ticket.semanticKey)
      .duplicateWorkTicketV3
    ensure (∀ earlier ∈ seen, earlier.ticket.participant ≠ signed.ticket.participant)
      .duplicateWorkParticipantV1
    checkWorkTicketsAfter (signed :: seen) rest

def canonicalWorkTicketsV3 (input : List SignedRandomXWorkTicketV1) (maxWorkTickets : Nat) :
    Except LqcError (List SignedRandomXWorkTicketV1) := do
  ensure (maxWorkTickets ≠ 0) .invalidWorkTicketLimitV3
  ensure (input.length ≤ maxWorkTickets) .tooManyWorkTicketsV3
  checkWorkTicketsAfter [] input
  .ok (sortOn SignedRandomXWorkTicketV1.orderKey input)

/-! ### What the checks establish -/

structure TicketShape (signed : SignedRandomXWorkTicketV1) : Prop where
  version : signed.ticket.version = randomXWorkProtocolVersion
  epoch : signed.ticket.epoch ≠ 0
  participant : signed.ticket.participant ≠ 0
  signature : signatureShapeOk signed.signature = true

theorem validateWorkTicketHeaderShapeV3_ok_iff {signed : SignedRandomXWorkTicketV1} {u : Unit} :
    validateWorkTicketHeaderShapeV3 signed = .ok u ↔ TicketShape signed := by
  simp only [validateWorkTicketHeaderShapeV3, validateRandomXWorkTicketV1, bind_ok_iff,
    ensure_ok_iff, exists_unit]
  refine ⟨fun checks => ?_,
    fun shape => ⟨⟨shape.version, shape.epoch, shape.participant⟩, shape.signature⟩⟩
  obtain ⟨⟨version, epoch, participant⟩, signature⟩ := checks
  exact ⟨version, epoch, participant, signature⟩

theorem checkWorkTicketsAfter_ok_iff {seen input : List SignedRandomXWorkTicketV1} {u : Unit} :
    checkWorkTicketsAfter seen input = .ok u ↔
      (∀ signed ∈ input, TicketShape signed) ∧
        (input.map (·.ticket.participant)).Nodup ∧
        ∀ earlier ∈ seen, ∀ signed ∈ input, earlier.ticket.participant ≠ signed.ticket.participant := by
  induction input generalizing seen with
  | nil => simp [checkWorkTicketsAfter]
  | cons signed rest ih =>
    simp only [checkWorkTicketsAfter, bind_ok_iff, ensure_ok_iff, exists_unit,
      validateWorkTicketHeaderShapeV3_ok_iff, ih, List.forall_mem_cons, List.map_cons,
      List.nodup_cons, List.mem_map, not_exists, not_and]
    constructor
    · intro given
      obtain ⟨shape, _, fresh, shapes, distinct, apart, others⟩ := given
      refine ⟨⟨shape, shapes⟩, ⟨fun other member same => apart other member same.symm, distinct⟩, ?_⟩
      exact fun earlier member => ⟨fresh earlier member, others earlier member⟩
    · intro given
      obtain ⟨⟨shape, shapes⟩, ⟨apart, distinct⟩, others⟩ := given
      refine ⟨shape, fun earlier member same => ?_, fun earlier member => (others earlier member).1,
        shapes, distinct, fun other member same => apart other member same.symm,
        fun earlier member => (others earlier member).2⟩
      -- equal semantic keys name one participant, which the second check refuses anyway
      exact (others earlier member).1 (Prod.mk.inj (Prod.mk.inj same).2).1

/-- Tickets as a header carries them. -/
structure TicketList (maxWorkTickets : Nat) (tickets : List SignedRandomXWorkTicketV1) : Prop where
  capacity : tickets.length ≤ maxWorkTickets
  shapes : ∀ signed ∈ tickets, TicketShape signed
  participants : (tickets.map (·.ticket.participant)).Nodup

theorem canonicalWorkTicketsV3_ok_iff {input canonical : List SignedRandomXWorkTicketV1}
    {maxWorkTickets : Nat} :
    canonicalWorkTicketsV3 input maxWorkTickets = .ok canonical ↔
      maxWorkTickets ≠ 0 ∧ TicketList maxWorkTickets input ∧
        canonical = sortOn SignedRandomXWorkTicketV1.orderKey input := by
  simp only [canonicalWorkTicketsV3, bind_ok_iff, ensure_ok_iff, exists_unit,
    checkWorkTicketsAfter_ok_iff, Except.ok.injEq, eq_comm (a := canonical)]
  constructor
  · intro given
    obtain ⟨limit, capacity, ⟨shapes, participants, _⟩, same⟩ := given
    exact ⟨limit, ⟨capacity, shapes, participants⟩, same⟩
  · intro given
    obtain ⟨limit, valid, same⟩ := given
    exact ⟨limit, valid.capacity, ⟨valid.shapes, valid.participants, by simp⟩, same⟩

theorem TicketList.sorted {maxWorkTickets : Nat} {tickets : List SignedRandomXWorkTicketV1}
    (valid : TicketList maxWorkTickets tickets) :
    TicketList maxWorkTickets (sortOn SignedRandomXWorkTicketV1.orderKey tickets) :=
  ⟨by simpa using valid.capacity, by simpa using valid.shapes,
    ((sortOn_perm.map _).nodup_iff).mpr valid.participants⟩

theorem TicketShape.size_le {signed : SignedRandomXWorkTicketV1} (shape : TicketShape signed) :
    Rlp.size (toItem signed) ≤ 110 := by
  have version : Rlp.size (toItem signed.ticket.version) = 1 := by
    rw [shape.version]
    exact Rlp.size_uint8_small (by decide)
  have epoch := Rlp.size_uint64_le signed.ticket.epoch
  have participant := size_address signed.ticket.participant
  have nonce := Rlp.size_uint64_le signed.ticket.nonce
  have signature := size_signature (signatureShapeOk_length shape.signature)
  have ticket : Rlp.size (toItem signed.ticket) ≤ 41 := by
    refine Rlp.size_short_list_le 40 ?_ (by omega)
    simp only [Rlp.sizeAll]
    omega
  refine Rlp.size_list_le 108 1 ?_ (by decide)
  simp only [Rlp.sizeAll]
  omega

theorem TicketList.size_le {tickets : List SignedRandomXWorkTicketV1}
    (valid : TicketList maxWorkTicketsPerBlockV1 tickets) : Rlp.size (toItem tickets) ≤ 3 + 880 := by
  have total := Rlp.sizeAll_map_le fun signed member => (valid.shapes signed member).size_le
  have few : tickets.length ≤ 8 := valid.capacity
  exact Rlp.size_list_le 880 2 (total.trans (by omega)) (by decide)

end RabbitLqc
