import RabbitLqc.Engine.Turns

/-!
# Branches of accepted headers

The entries of a branch are numbered down to the genesis without a gap, so an ancestor is found by
its number. A header was accepted as one of three kinds: with a work envelope, as a plain registry
header, or below the registry protocol.
-/

namespace RabbitLqc
open Lib

variable {lqc : LQC} {branch rest : Branch} {header : Header} {unixNow : Nat} {entry parent : Entry}

/-! ### Kinds of headers -/

/-- How a header was accepted. -/
inductive AcceptedAs (lqc : LQC) (branch : Branch) (header : Header) : Entry → Prop
  | work {envelope : WorkEnvelope} (decoded : lqc.decodeWorkEnvelope header = .ok (some envelope))
      (enabled : lqc.config.registryProtocolEnabled header.number = true)
      (step : WorkStep lqc branch header envelope) : AcceptedAs lqc branch header step.entry
  | plain {selection : HybridSelection} {snapshot : RegistrySnapshot}
      (decoded : lqc.decodeWorkEnvelope header = .ok none)
      (enabled : lqc.config.registryProtocolEnabled header.number = true)
      (verified : lqc.verifyCanonicalRegistryHeader branch header = .ok (selection, snapshot)) :
      AcceptedAs lqc branch header
        ⟨header, lqc.replayRuntime header (LQC.parentRuntime branch), .ok snapshot, none⟩
  | legacy (early : lqc.config.registryProtocolEnabled header.number = false) (text : LQC.verifyExtra header = .ok ()) :
      AcceptedAs lqc branch header (lqc.legacyEntry branch header)

theorem verifyMaybeWork_cases {selection : HybridSelection}
    (enabled : lqc.config.registryProtocolEnabled header.number = true)
    (h : lqc.verifyCanonicalRegistryHeaderMaybeWorkV1Lab branch header = .ok (selection, entry)) :
    AcceptedAs lqc branch header entry := by
  unfold LQC.verifyCanonicalRegistryHeaderMaybeWorkV1Lab at h
  obtain ⟨decoded, decodes, h⟩ := bind_ok h
  cases decoded with
  | some envelope =>
    obtain ⟨step, _, rfl⟩ := LQC.verifyWorkHeader_ok_iff.mp h
    exact .work decodes enabled step
  | none =>
    obtain ⟨⟨queue, snapshot⟩, verified, h⟩ := bind_ok h
    obtain ⟨_, rfl⟩ := Prod.mk.inj (Except.ok.inj h)
    exact .plain decodes enabled verified

theorem verifyContent_cases {selection : HybridSelection}
    (h : lqc.verifyContent branch header = .ok (selection, entry)) : AcceptedAs lqc branch header entry := by
  unfold LQC.verifyContent at h
  cases enabled : lqc.config.registryProtocolEnabled header.number with
  | true =>
    rw [enabled] at h
    split at h
    · obtain ⟨_, _, h⟩ := bind_ok h
      obtain ⟨⟨queue, made⟩, verified, h⟩ := bind_ok h
      obtain ⟨_, rfl⟩ := Prod.mk.inj (Except.ok.inj h)
      exact verifyMaybeWork_cases enabled verified
    · exact verifyMaybeWork_cases enabled h
  | false =>
    rw [enabled] at h
    split at h
    · obtain ⟨_, _, h⟩ := bind_ok h
      obtain ⟨_, text, h⟩ := bind_ok h
      obtain ⟨_, rfl⟩ := Prod.mk.inj (Except.ok.inj h)
      exact .legacy enabled text
    · obtain ⟨_, text, h⟩ := bind_ok h
      obtain ⟨_, rfl⟩ := Prod.mk.inj (Except.ok.inj h)
      exact .legacy enabled text

theorem AcceptedAs.header_eq (accepted : AcceptedAs lqc branch header entry) : entry.header = header := by
  cases accepted <;> rfl

structure Links (lqc : LQC) (parent header : Header) : Prop where
  number : header.number = parent.number + 1
  bounded : header.number ≤ maxUint64
  hash : header.parentHash = parent.hash lqc.crypto
  later : parent.time < header.time

theorem verifyFields_links {parent : Header} {u : Unit}
    (fields : lqc.verifyFields header unixNow parent = .ok u) : Links lqc parent header := by
  unfold LQC.verifyFields at fields
  obtain ⟨_, bounded, fields⟩ := bind_ok fields
  obtain ⟨_, hash, fields⟩ := bind_ok fields
  obtain ⟨_, number, fields⟩ := bind_ok fields
  obtain ⟨_, _, fields⟩ := bind_ok fields
  obtain ⟨_, later, _⟩ := bind_ok fields
  exact ⟨ensure_ok_iff.mp number, ensure_ok_iff.mp bounded, ensure_ok_iff.mp hash, ensure_ok_iff.mp later⟩

theorem verifyHeaderAt_cases (h : lqc.verifyHeaderAt (parent :: rest) header unixNow = .ok entry) :
    Links lqc parent.header header ∧ AcceptedAs lqc (parent :: rest) header entry := by
  unfold LQC.verifyHeaderAt at h
  obtain ⟨_, fields, h⟩ := bind_ok h
  obtain ⟨⟨selection, made⟩, content, h⟩ := bind_ok h
  obtain ⟨_, _, h⟩ := bind_ok h
  obtain rfl := Except.ok.inj h
  exact ⟨verifyFields_links fields, verifyContent_cases content⟩

theorem verifyHeaderAt_header (verified : lqc.verifyHeaderAt branch header unixNow = .ok entry) :
    entry.header = header := by
  cases branch with
  | nil => cases verified
  | cons parent rest => exact (verifyHeaderAt_cases verified).2.header_eq

theorem Accepted.ne_nil (accepted : Accepted lqc branch) : branch ≠ [] := by
  cases accepted <;> exact List.cons_ne_nil _ _

theorem Accepted.extended (accepted : Accepted lqc (entry :: parent :: rest)) :
    Accepted lqc (parent :: rest) ∧ Links lqc parent.header entry.header ∧
      AcceptedAs lqc (parent :: rest) entry.header entry := by
  cases accepted with
  | extend below verified =>
    obtain ⟨links, as⟩ := verifyHeaderAt_cases verified
    obtain rfl := as.header_eq
    exact ⟨below, links, as⟩

theorem Accepted.suffix {newer : Branch} (accepted : Accepted lqc (newer ++ branch)) (some : branch ≠ []) :
    Accepted lqc branch := by
  induction newer with
  | nil => exact accepted
  | cons entry newer ih =>
    apply ih
    cases below : newer ++ branch with
    | nil => exact absurd (List.append_eq_nil_iff.mp below).2 some
    | cons parent rest =>
      rw [List.cons_append, below] at accepted
      exact accepted.extended.1

/-! ### Numbers -/

theorem Accepted.numbers (accepted : Accepted lqc branch) :
    branch.Pairwise fun newer older => older.header.number < newer.header.number := by
  induction branch with
  | nil => exact List.Pairwise.nil
  | cons entry below ih =>
    cases below with
    | nil => exact List.pairwise_singleton _ _
    | cons parent rest =>
      obtain ⟨below, links, _⟩ := accepted.extended
      have descending := ih below
      refine List.pairwise_cons.mpr ⟨fun older member => ?_, descending⟩
      rcases List.mem_cons.mp member with rfl | further
      · rw [links.number]
        exact Nat.lt_succ_self _
      · have := (List.pairwise_cons.mp descending).1 older further
        rw [links.number]
        omega

end RabbitLqc
