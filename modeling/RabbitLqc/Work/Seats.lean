import RabbitLqc.Work.Steps

/-!
# One seat per wallet

The seats a state holds, open or persistent, are exactly those of the tickets its run brought, one
for each. No participant is among them twice, so a wallet gains at most one seat in a whole run.
-/

namespace RabbitLqc
open Lib

namespace WorkChainSnapshotV1

variable {crypto : Crypto} {chainID blockNumber : Nat} {anchor : Hash} {commitDifficulty : Option Nat}
  {verified : List VerifiedRandomXWorkTicketV1} {snapshot next : WorkChainSnapshotV1}

def commitSeats (snapshot : WorkChainSnapshotV1) : List WorkSeatV1 := (snapshot.commit.map (·.seats)).getD []

theorem Valid.commitSeats (valid : snapshot.Valid crypto chainID) : SeatSet snapshot.commitSeats := by
  have checked := valid.commit
  unfold WorkChainSnapshotV1.commitSeats
  cases present : snapshot.commit with
  | none => exact ⟨by simp, by simp, by simp⟩
  | some commit =>
    rw [present] at checked
    exact (validateWorkEpochState_ok_iff.mp checked).2.1

/-- The seats of `tickets`, of different participants, are the ones held. -/
structure HoldsSeatsOf (tickets : List VerifiedRandomXWorkTicketV1) (snapshot : WorkChainSnapshotV1) :
    Prop where
  seats : (snapshot.selectionSeats ++ snapshot.commitSeats).Perm (tickets.map (·.seat))
  participants : (tickets.map (·.ticket.participant)).Nodup

theorem HoldsSeatsOf.apart {tickets : List VerifiedRandomXWorkTicketV1}
    (holds : snapshot.HoldsSeatsOf tickets) :
    ((snapshot.selectionSeats ++ snapshot.commitSeats).map (·.participant)).Nodup := by
  rw [(holds.seats.map _).nodup_iff, participants_seats]
  exact holds.participants

theorem HoldsSeatsOf.admit {tickets : List VerifiedRandomXWorkTicketV1} {opened commit : WorkCommitV1}
    (holds : snapshot.HoldsSeatsOf tickets) (opens : opened.seats = snapshot.commitSeats)
    (admits : Admits snapshot.selectionSeats opened verified commit) :
    (snapshot.selectionSeats ++ commit.seats).Perm ((tickets ++ verified).map (·.seat)) ∧
      ((tickets ++ verified).map (·.ticket.participant)).Nodup := by
  have joined := admits.seats
  have distinct := admits.distinct
  rw [opens] at joined distinct
  constructor
  · rw [List.map_append]
    refine (joined.append_left _).trans ?_
    rw [← List.append_assoc]
    exact holds.seats.append_right _
  · rw [List.map_append]
    have new := participants_seats verified ▸ distinct.of_append.participants
    refine List.nodup_append.mpr ⟨holds.participants, new, ?_⟩
    intro _ old _ fresh
    obtain ⟨ticket, brought, rfl⟩ := List.mem_map.mp old
    obtain ⟨item, admitted, rfl⟩ := List.mem_map.mp fresh
    have held := holds.seats.mem_iff.mpr (List.mem_map_of_mem brought)
    rcases List.mem_append.mp held with seated | open'
    · exact admits.unseated item admitted _ seated
    · have apart := List.map_append ▸ distinct.participants
      exact (List.nodup_append.mp apart).2.2 _ (List.mem_map_of_mem open') _
        (List.mem_map_of_mem (List.mem_map_of_mem admitted))

theorem Advances.holds {tickets : List VerifiedRandomXWorkTicketV1}
    (advances : Advances crypto chainID blockNumber anchor commitDifficulty verified snapshot next)
    (holds : snapshot.HoldsSeatsOf tickets) : next.HoldsSeatsOf (tickets ++ verified) := by
  cases advances with
  | idle _ empty _ =>
    rw [empty, List.append_nil]
    exact holds
  | commits _ _ _ opens admits _ =>
    obtain ⟨seats, participants⟩ := holds.admit (openCommit_ok opens).2.2.2 admits
    exact ⟨seats, participants⟩
  | closes _ _ _ opens admits _ closed =>
    obtain ⟨seats, participants⟩ := holds.admit (openCommit_ok opens).2.2.2 admits
    obtain ⟨_, rfl⟩ := closeEpoch_ok closed
    refine ⟨?_, participants⟩
    rw [show commitSeats _ = [] from rfl, List.append_nil]
    exact (closedSelection_seats _ _).trans seats

theorem Advances.grows
    (advances : Advances crypto chainID blockNumber anchor commitDifficulty verified snapshot next) :
    snapshot.selectionSeats ⊆ next.selectionSeats := by
  cases advances with
  | idle => exact List.Subset.refl _
  | commits => exact List.Subset.refl _
  | closes _ _ _ _ _ _ closed =>
    obtain ⟨_, rfl⟩ := closeEpoch_ok closed
    intro seat member
    exact (closedSelection_seats _ _).mem_iff.mpr (List.mem_append_left _ member)

end WorkChainSnapshotV1

/-! ### Runs -/

namespace CanonicalWorkRuntimeStateV1

variable {crypto : Crypto} {chainID : Nat} {initial state next : CanonicalWorkRuntimeStateV1}

theorem newCanonicalWorkRuntimeStateV1_ok {number epochLength initialDifficulty : Nat} {hash : Hash}
    (h : newCanonicalWorkRuntimeStateV1 crypto chainID number hash epochLength initialDifficulty =
      .ok state) :
    state = ⟨⟨number, hash, epochLength, none, none⟩, ⟨1, initialDifficulty, 2, initialDifficulty⟩⟩ ∧
      state.Valid crypto chainID := by
  obtain ⟨work, madeWork, h⟩ := bind_ok h
  obtain ⟨difficulty, madeDifficulty, h⟩ := bind_ok h
  obtain ⟨_, rooted, h⟩ := bind_ok h
  obtain rfl := Except.ok.inj h
  obtain ⟨_, _, madeWork⟩ := bind_ok madeWork
  obtain ⟨_, _, madeWork⟩ := bind_ok madeWork
  obtain ⟨_, _, madeDifficulty⟩ := bind_ok madeDifficulty
  obtain ⟨_, _, madeDifficulty⟩ := bind_ok madeDifficulty
  obtain rfl := Except.ok.inj madeWork
  obtain rfl := Except.ok.inj madeDifficulty
  exact ⟨rfl, root_valid rooted⟩

theorem applyBlocks_append {before after : List Block} :
    applyBlocks crypto chainID (before ++ after) state = .ok next ↔
      ∃ middle, applyBlocks crypto chainID before state = .ok middle ∧
        applyBlocks crypto chainID after middle = .ok next := by
  induction before generalizing state with
  | nil => simp [applyBlocks]
  | cons block rest ih =>
    simp only [List.cons_append, applyBlocks, bind_ok_iff, ih]
    constructor
    · intro run
      obtain ⟨first, applied, middle, here, there⟩ := run
      exact ⟨middle, ⟨first, applied, here⟩, there⟩
    · intro run
      obtain ⟨middle, ⟨first, applied, here⟩, there⟩ := run
      exact ⟨first, applied, middle, here, there⟩

theorem applyBlocks_holds {blocks : List Block} {tickets : List VerifiedRandomXWorkTicketV1}
    (run : applyBlocks crypto chainID blocks state = .ok next) (holds : state.work.HoldsSeatsOf tickets) :
    next.work.HoldsSeatsOf (tickets ++ broughtTickets blocks) := by
  induction blocks generalizing state tickets with
  | nil =>
    obtain rfl := Except.ok.inj run
    rw [broughtTickets, List.flatMap_nil, List.append_nil]
    exact holds
  | cons block rest ih =>
    obtain ⟨middle, applied, run⟩ := bind_ok run
    obtain ⟨_, _, advances⟩ := (applyVerifiedBlockV1_step applied).advances
    have held := ih run (advances.holds ⟨holds.seats, holds.participants⟩)
    rw [List.append_assoc] at held
    exact held

theorem applyBlocks_grows {blocks : List Block}
    (run : applyBlocks crypto chainID blocks state = .ok next) :
    state.work.selectionSeats ⊆ next.work.selectionSeats := by
  induction blocks generalizing state with
  | nil =>
    obtain rfl := Except.ok.inj run
    exact List.Subset.refl _
  | cons block rest ih =>
    obtain ⟨middle, applied, run⟩ := bind_ok run
    obtain ⟨_, _, advances⟩ := (applyVerifiedBlockV1_step applied).advances
    exact List.Subset.trans advances.grows (ih run)

theorem applyBlocks_valid {blocks : List Block}
    (run : applyBlocks crypto chainID blocks state = .ok next) (valid : state.Valid crypto chainID) :
    next.Valid crypto chainID := by
  induction blocks generalizing state with
  | nil =>
    obtain rfl := Except.ok.inj run
    exact valid
  | cons block rest ih =>
    obtain ⟨middle, applied, run⟩ := bind_ok run
    exact ih run (applyVerifiedBlockV1_step applied).nextValid

def heldSeats (state : CanonicalWorkRuntimeStateV1) : List WorkSeatV1 :=
  state.work.selectionSeats ++ state.work.commitSeats

/-- From a fresh state on, persistent seats are only added, they never share a participant or a
ticket hash, nobody seated is in the open epoch, and each ticket of the run, of a participant of its
own, holds one seat: a seat held now and one held later by the same participant are the same. -/
theorem one_seat_per_wallet {number epochLength initialDifficulty : Nat} {hash : Hash}
    {before after : List Block}
    (start : newCanonicalWorkRuntimeStateV1 crypto chainID number hash epochLength initialDifficulty =
      .ok initial)
    (reached : applyBlocks crypto chainID before initial = .ok state)
    (run : applyBlocks crypto chainID after state = .ok next) :
    state.work.selectionSeats ⊆ next.work.selectionSeats ∧
      (next.work.selectionSeats.map (·.participant)).Nodup ∧
      (next.work.selectionSeats.map (·.ticketHash)).Nodup ∧
      (∀ seat ∈ next.work.commitSeats, ∀ held ∈ next.work.selectionSeats,
        held.participant ≠ seat.participant) ∧
      next.heldSeats.Perm ((broughtTickets (before ++ after)).map (·.seat)) ∧
      ((broughtTickets (before ++ after)).map (·.ticket.participant)).Nodup ∧
      ∀ seat ∈ state.heldSeats, ∀ later ∈ next.heldSeats,
        later.participant = seat.participant → later = seat := by
  obtain ⟨rfl, valid⟩ := newCanonicalWorkRuntimeStateV1_ok start
  have fresh : WorkChainSnapshotV1.HoldsSeatsOf [] ⟨number, hash, epochLength, none, none⟩ :=
    ⟨List.Perm.nil, List.nodup_nil⟩
  have holdsNow := applyBlocks_holds reached fresh
  have holds := applyBlocks_holds run holdsNow
  have set := (applyBlocks_valid run (applyBlocks_valid reached valid)).work.selectionSeats
  have all : broughtTickets (before ++ after) = [] ++ broughtTickets before ++ broughtTickets after :=
    List.flatMap_append
  rw [← all] at holds
  refine ⟨applyBlocks_grows run, set.participants, set.hashes, ?_, holds.seats, holds.participants, ?_⟩
  · have apart := List.nodup_append.mp (List.map_append ▸ holds.apart)
    intro seat waiting held seated
    exact apart.2.2 _ (List.mem_map_of_mem seated) _ (List.mem_map_of_mem waiting)
  · intro seat now later then' same
    have early : seat ∈ (broughtTickets (before ++ after)).map (·.seat) := by
      rw [all, List.map_append]
      exact List.mem_append_left _ (holdsNow.seats.mem_iff.mp now)
    have distinct := (WorkChainSnapshotV1.participants_seats _).symm ▸ holds.participants
    exact List.inj_on_of_nodup_map distinct (holds.seats.mem_iff.mp then') early same

/-- Two tickets close the first epoch of length one, and a block without tickets follows. -/
def twoTicketBlocks : List Block :=
  [⟨1, 1, 9, 0, []⟩, ⟨2, 2, 1, 5, [⟨⟨2, 1, 7, 0⟩, 11⟩, ⟨⟨2, 1, 8, 0⟩, 12⟩]⟩, ⟨3, 3, 2, 6, []⟩]

theorem one_seat_per_wallet_twoTickets :
    ∃ initial state next,
      newCanonicalWorkRuntimeStateV1 plainCrypto 1 0 9 1 1 = .ok initial ∧
      applyBlocks plainCrypto 1 (twoTicketBlocks.take 2) initial = .ok state ∧
      applyBlocks plainCrypto 1 (twoTicketBlocks.drop 2) state = .ok next ∧
      state.work.selectionSeats ⊆ next.work.selectionSeats ∧
      next.heldSeats.Perm [⟨11, 7⟩, ⟨12, 8⟩] := by
  obtain ⟨next, ran⟩ := exists_ok_of_isOk (x := do
    let initial ← newCanonicalWorkRuntimeStateV1 plainCrypto 1 0 9 1 1
    applyBlocks plainCrypto 1 twoTicketBlocks initial) (by decide +kernel)
  obtain ⟨initial, start, run⟩ := bind_ok ran
  rw [← List.take_append_drop 2 twoTicketBlocks] at run
  obtain ⟨state, reached, run⟩ := applyBlocks_append.mp run
  obtain ⟨grows, _, _, _, seats, _⟩ := one_seat_per_wallet start reached run
  exact ⟨initial, state, next, start, reached, run, grows, seats⟩

end CanonicalWorkRuntimeStateV1

end RabbitLqc
