import RabbitLqc.Engine.Steps
import RabbitLqc.Header.Versions

/-!
# Reading verified headers

The readers of the pool and of the claims take the content of a block from its header alone. They do not take the
envelope version from the height: they try the decoders in turn.
-/

namespace RabbitLqc
open Lib

/-! ### What the readers find in a verified header -/

variable {lqc : LQC} {header : Header}

theorem WorkEnvelope.readers {envelope : WorkEnvelope}
    (decoded : lqc.decodeWorkEnvelope header = .ok (some envelope)) :
    (replayEnvelope lqc.bls header.extra).map (fun read => (read.blockNumber, read.registryRoot, read.operations)) =
        some (envelope.base.blockNumber, envelope.base.registryRoot, envelope.base.registryOperations) ∧
      workV1EnginePoolHeaderTicketsLab lqc.bls header.extra = some envelope.base.workTickets ∧
      (lqcCommitteeClaimGroupsFromExtraLab lqc.bls header.extra).getD [] = envelope.claims := by
  cases envelope with
  | v3 envelope =>
    obtain ⟨_, run⟩ := LQC.decodeWorkEnvelope_v3_iff.mp decoded
    obtain ⟨replay, tickets, claims⟩ := readers_v3 lqc.bls run
    rw [replay, tickets, claims]
    exact ⟨rfl, rfl, rfl⟩
  | v4 envelope =>
    obtain ⟨_, _, run⟩ := LQC.decodeWorkEnvelope_v4_iff.mp decoded
    obtain ⟨replay, tickets, claims⟩ := readers_v4 lqc.bls run
    rw [replay, tickets, claims]
    exact ⟨rfl, rfl, rfl⟩
  | v5 envelope =>
    obtain ⟨_, _, run⟩ := LQC.decodeWorkEnvelope_v5_iff.mp decoded
    obtain ⟨replay, tickets, claims⟩ := readers_v5 run
    rw [replay, tickets, claims]
    exact ⟨rfl, rfl, rfl⟩

theorem LQC.verifyExtra_rejects {bls : Bls} {limit : Nat} {u : Unit} (legacy : LQC.verifyExtra header = .ok u)
    (version : EnvelopeVersion) : ¬ version.accepts bls header.extra limit := by
  intro accepted
  obtain ⟨⟨payload, mark, length, same, magic⟩, _⟩ := EnvelopeVersion.accepts_framed accepted
  have framed : payload = registryHeaderMagic ++ payload.drop registryHeaderMagic.length := by
    have start : payload.take registryHeaderMagic.length = registryHeaderMagic := of_decide_eq_true magic
    have parts := List.take_append_drop registryHeaderMagic.length payload
    rw [start] at parts
    exact parts.symm
  rw [framed] at same
  exact LQC.verifyExtra_unframed legacy length same

/-- At most one decoder accepts some extra data, whatever the ticket limits. So the readers that try
them in turn find the content that verification reads by the height: the work envelope when there
is one, and nothing in a plain registry header or in the fixed text before the registry. -/
theorem header_versions_unambiguous (lqc : LQC) :
    (∀ extra leftLimit rightLimit (left right : EnvelopeVersion), left.accepts lqc.bls extra leftLimit →
      right.accepts lqc.bls extra rightLimit → left = right) ∧
    ∀ header : Header,
      (∀ envelope, lqc.decodeWorkEnvelope header = .ok (some envelope) →
        (replayEnvelope lqc.bls header.extra).map (fun read => (read.blockNumber, read.registryRoot, read.operations)) =
            some (envelope.base.blockNumber, envelope.base.registryRoot, envelope.base.registryOperations) ∧
          workV1EnginePoolHeaderTicketsLab lqc.bls header.extra = some envelope.base.workTickets ∧
          (lqcCommitteeClaimGroupsFromExtraLab lqc.bls header.extra).getD [] = envelope.claims) ∧
      ((∃ registry, lqc.decodeWorkEnvelope header = .ok none ∧ decodeRegistryHeaderExtra header.extra = .ok registry) ∨
          LQC.verifyExtra header = .ok () →
        replayEnvelope lqc.bls header.extra = none ∧ workV1EnginePoolHeaderTicketsLab lqc.bls header.extra = none ∧
          lqcCommitteeClaimGroupsFromExtraLab lqc.bls header.extra = none) := by
  refine ⟨fun _ _ _ _ _ => EnvelopeVersion.accepts_unique, fun header => ⟨fun _ => WorkEnvelope.readers, ?_⟩⟩
  intro plain
  apply readers_none
  intro version newer
  obtain ⟨registry, _, run⟩ | legacy := plain
  · have accepted : EnvelopeVersion.v2.accepts lqc.bls header.extra maxWorkTicketsPerBlockV1 := ⟨registry, run⟩
    exact accepted.rejects newer.symm
  · exact LQC.verifyExtra_rejects legacy version

end RabbitLqc
