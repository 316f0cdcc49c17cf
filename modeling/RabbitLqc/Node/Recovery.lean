import RabbitLqc.Basic

/-!
# Local state recovery

After an unclean shutdown the state of the head block may be gone, and the chain is rewound to a lower block whose state
is there. Before that, the old head is written down as a recovery target; before the node takes part in the network
again, the stored blocks up to the target are executed once more. The target is two records in the database, which stay
until the target is back on the canonical chain.

A block is named by its hash; what its header says is a function of the hash.
-/

namespace RabbitLqc
open Lib

structure BlockInfo where
  number : UInt64
  parentHash : Hash
  root : Hash

/-- What the node sees of the chain. The database keeps blocks under their hash and their own number. -/
structure ChainData (content : Hash → BlockInfo) where
  headerNumber : Hash → Option UInt64
  stored : Hash → UInt64 → Bool
  canonical : UInt64 → Hash
  head : Hash
  headBlockHash : Hash
  hasState : Hash → Bool
  /-- the state of the head can be opened -/
  stateOpens : Bool
  headerNumber_eq : ∀ hash number, headerNumber hash = some number → number = (content hash).number
  stored_eq : ∀ hash number, stored hash number = true → number = (content hash).number

inductive RecoveryError where
  | database
  | orphanMetadata
  | invalidV1Length
  | invalidV1Target
  | invalidV2Length
  | targetMismatch
  | invalidV2Number
  | heightMismatch
  | requiresLQC
  | blockUnavailable
  | stateUnavailable
  | targetConflicts
  | noCanonicalAncestor
  | parentUnavailable
  | blockDisappeared
  | validationFailed
  | notRestored
  deriving DecidableEq, Repr

/-! ### The markers -/

structure RecoveryMarkers where
  v1 : Option Bytes := none
  v2 : Option Bytes := none
  deriving DecidableEq

def hashLength : Nat := 32

def hashBytes (hash : Hash) : Bytes := fixedBytes hashLength hash.toNat

def bytesToHash (bytes : Bytes) : Hash := BitVec.ofNat 256 (natOfBytes bytes)

def numberBytes (number : UInt64) : Bytes := fixedBytes 8 number.toNat

section Chain

variable {content : Hash → BlockInfo}

/-- `ReadLQCLocalStateRecoveryV1`; the zero hash says that nothing is pending. -/
def readLQCLocalStateRecoveryV1 (data : ChainData content) (markers : RecoveryMarkers) : Except RecoveryError Hash :=
  match markers.v1 with
  | none => if markers.v2.isSome then .error .orphanMetadata else .ok 0
  | some value => do
    ensure (value.length = hashLength) .invalidV1Length
    ensure (bytesToHash value ≠ 0) .invalidV1Target
    match markers.v2 with
    | none => .ok (bytesToHash value)
    | some metadata =>
      ensure (metadata.length = hashLength + 8) .invalidV2Length
      ensure (bytesToHash (metadata.take hashLength) = bytesToHash value) .targetMismatch
      let number := UInt64.ofNat (natOfBytes (metadata.drop hashLength))
      ensure (number ≠ 0) .invalidV2Number
      ensure ((data.headerNumber (bytesToHash value)).all (· = number)) .heightMismatch
      .ok (bytesToHash value)

def recoveryMarkers (target : Hash) (number : UInt64) : RecoveryMarkers :=
  ⟨some (hashBytes target), some (hashBytes target ++ numberBytes number)⟩

/-- `PrepareLQCLocalStateRecoveryV1`: the target and the markers afterwards; `written` says whether the batch goes
through. -/
def prepareLQCLocalStateRecoveryV1 (data : ChainData content) (markers : RecoveryMarkers) (written : Bool) :
    Except RecoveryError (Hash × RecoveryMarkers) := do
  let pending ← readLQCLocalStateRecoveryV1 data markers
  if pending ≠ 0 then .ok (pending, markers)
  else
    let target := data.headBlockHash
    if target = 0 then .ok (0, markers)
    else match data.headerNumber target with
      | none => .ok (0, markers)
      | some number =>
        if number = 0 then .ok (0, markers)
        else do
          ensure written .database
          .ok (target, recoveryMarkers target number)

/-! ### Finding the gap -/

namespace ChainData

variable (data : ChainData content)

/-- `GetBlockByHash` finds the block. -/
def hasBlock (hash : Hash) : Bool :=
  match data.headerNumber hash with
  | none => false
  | some number => data.stored hash number

def headNumber : UInt64 := (content data.head).number

def Available (hash : Hash) : Prop :=
  data.canonical (content hash).number = hash ∧ data.hasState (content hash).root = true

instance (hash : Hash) : Decidable (data.Available hash) := inferInstanceAs (Decidable (_ ∧ _))

theorem parent_number {data : ChainData content} {hash : Hash} (above : data.headNumber < (content hash).number)
    (found : data.stored (content hash).parentHash ((content hash).number - 1) = true) :
    (content (content hash).parentHash).number.toNat + 1 = (content hash).number.toNat := by
  have positive : 1 ≤ (content hash).number.toNat := Nat.lt_of_le_of_lt (Nat.zero_le _)
    (UInt64.lt_iff_toNat_lt.mp above)
  have one : (1 : UInt64).toNat = 1 := rfl
  rw [← data.stored_eq _ _ found, UInt64.toNat_sub_of_le _ _ (UInt64.le_iff_toNat_le.mpr (one ▸ positive)), one]
  omega

/-- The hashes from a block down to the first available one, which is left out. -/
def collect (block : Hash) : Except RecoveryError (List Hash) :=
  if data.Available block then .ok []
  else if above : (content block).number ≤ data.headNumber then .error .noCanonicalAncestor
  else if _ : data.stored (content block).parentHash ((content block).number - 1) then
    (collect (content block).parentHash).map (block :: ·)
  else .error .parentUnavailable
termination_by (content block).number.toNat
decreasing_by
  have next := parent_number (UInt64.not_le.mp above) ‹data.stored _ _ = true›
  omega

end ChainData

/-- What is to be done about a target. -/
inductive RecoveryPlan where
  | nothing
  | retire
  | replay (reverse : List Hash)

/-- `RecoverLQCLocalStateV1` up to the execution of blocks. -/
def planLQCLocalStateRecoveryV1 (lqc : Bool) (data : ChainData content) (target : Hash) :
    Except RecoveryError RecoveryPlan :=
  if target = 0 then .ok .nothing
  else do
    ensure lqc .requiresLQC
    if data.hasBlock target then
      if (content target).number ≤ data.headNumber then
        ensure (data.canonical (content target).number = target ∧
          data.hasState (content data.head).root) .targetConflicts
        .ok .retire
      else (data.collect target).map .replay
    else match data.headerNumber target with
      | none => .error .blockUnavailable
      | some targetNumber =>
        ensure (targetNumber < data.headNumber ∧ data.canonical targetNumber = target ∧
          data.canonical data.headNumber = data.head ∧ data.headBlockHash = data.head ∧
          data.hasState (content data.head).root) .blockUnavailable
        ensure data.stateOpens .stateUnavailable
        .ok .retire

/-- The next blocks to execute, parents first; what is left is kept with the target first. -/
def nextBatch (left : List Hash) : List Hash := (left.drop (left.length - 32)).reverse

def afterBatch (left : List Hash) : List Hash := left.take (left.length - 32)

/-! ### A node over its starts -/

/-- One replay: the chain it started from, the blocks to execute and those handed to execution so far. -/
structure Replay (content : Hash → BlockInfo) where
  origin : ChainData content
  target : Hash
  path : List Hash
  handed : List Hash := []

inductive NodePhase where
  | down
  /-- from the opening of the database to the recovery -/
  | starting
  /-- `left` is still to be executed, the target first -/
  | replaying (target : Hash) (left : List Hash)
  | running
  | refused (error : RecoveryError)

structure RecoveryNode (content : Hash → BlockInfo) where
  lqc : Bool
  markers : RecoveryMarkers
  data : ChainData content
  phase : NodePhase := .down
  /-- the last replay -/
  replay : Option (Replay content) := none

/-- What happens to a node. The chain data after an event of the rest of the code is whatever that code makes of it; a
fault is a failed read, and `written` says whether a batch goes through. -/
inductive NodeEvent (content : Hash → BlockInfo) where
  | start (data : ChainData content)
  | prepare (fault written : Bool)
  | change (data : ChainData content)
  | recover (fault written : Bool)
  /-- `InsertChain` on the next batch -/
  | insert (data : ChainData content) (failed : Bool)
  | conclude (written : Bool)
  | crash

namespace RecoveryNode

variable (node : RecoveryNode content)

def refuse (error : RecoveryError) : RecoveryNode content := { node with phase := .refused error }

/-- `clearLQCLocalRecoveryV2` as the last act of the recovery. -/
def clear (written : Bool) : RecoveryNode content :=
  if written then { node with markers := ⟨none, none⟩, phase := .running } else node.refuse .database

def prepare (fault written : Bool) : RecoveryNode content :=
  if fault then node.refuse .database
  else match prepareLQCLocalStateRecoveryV1 node.data node.markers written with
    | .error error => node.refuse error
    | .ok (_, markers) => { node with markers := markers }

def recover (fault written : Bool) : RecoveryNode content :=
  let node := { node with replay := none }
  if fault then node.refuse .database
  else match readLQCLocalStateRecoveryV1 node.data node.markers with
    | .error error => node.refuse error
    | .ok target =>
      match planLQCLocalStateRecoveryV1 node.lqc node.data target with
      | .error error => node.refuse error
      | .ok .nothing => { node with phase := .running }
      | .ok .retire => node.clear written
      | .ok (.replay reverse) =>
        { node with phase := .replaying target reverse, replay := some ⟨node.data, target, reverse.reverse, []⟩ }

def insert (target : Hash) (left : List Hash) (data : ChainData content) (failed : Bool) : RecoveryNode content :=
  if (nextBatch left).all node.data.hasBlock then
    { node with
      data := data
      phase := if failed then .refused .validationFailed else .replaying target (afterBatch left)
      replay := node.replay.map fun replay => { replay with handed := replay.handed ++ nextBatch left } }
  else node.refuse .blockDisappeared

def conclude (target : Hash) (written : Bool) : RecoveryNode content :=
  if node.data.head = target ∧ node.data.hasState (content target).root then node.clear written
  else node.refuse .notRestored

def step : NodeEvent content → Option (RecoveryNode content)
  | .start data => match node.phase with
    | .down => some { node with data := data, phase := .starting }
    | _ => none
  | .prepare fault written => match node.phase with
    | .starting => some (node.prepare fault written)
    | _ => none
  | .change data => match node.phase with
    | .starting | .running => some { node with data := data }
    | _ => none
  | .recover fault written => match node.phase with
    | .starting => some (node.recover fault written)
    | _ => none
  | .insert data failed => match node.phase with
    | .replaying target (block :: rest) => some (node.insert target (block :: rest) data failed)
    | _ => none
  | .conclude written => match node.phase with
    | .replaying target [] => some (node.conclude target written)
    | _ => none
  | .crash => some { node with phase := .down }

end RecoveryNode

/-- The nodes that can follow a node. -/
inductive NodeLeads (node : RecoveryNode content) : RecoveryNode content → Prop where
  | refl : NodeLeads node node
  | next {later after : RecoveryNode content} {event : NodeEvent content} : NodeLeads node later →
      later.step event = some after → NodeLeads node after

/-! ### The missing blocks -/

def ChildOf (content : Hash → BlockInfo) (parent block : Hash) : Prop :=
  (content block).parentHash = parent ∧ (content block).number.toNat = (content parent).number.toNat + 1

/-- The path from the nearest available ancestor of the target, which is left out, to the target. -/
def MissingPath (data : ChainData content) (target : Hash) (path : List Hash) : Prop :=
  ∃ ancestor, data.Available ancestor ∧ (ancestor :: path).IsChain (ChildOf content) ∧
    (ancestor :: path).getLast? = some target ∧ ∀ block ∈ path, ¬ data.Available block

theorem MissingPath.of_available {data : ChainData content} {target : Hash} (available : data.Available target) :
    MissingPath data target [] :=
  ⟨target, available, .singleton _, rfl, by simp⟩

theorem MissingPath.append {data : ChainData content} {target : Hash} {path : List Hash}
    (missing : MissingPath data (content target).parentHash path)
    (next : ChildOf content (content target).parentHash target)
    (unavailable : ¬ data.Available target) : MissingPath data target (path ++ [target]) := by
  obtain ⟨ancestor, available, chain, last, others⟩ := missing
  refine ⟨ancestor, available, ?_, by rw [← List.cons_append, List.getLast?_concat], ?_⟩
  · rw [← List.cons_append, List.isChain_append]
    refine ⟨chain, .singleton _, ?_⟩
    intro block isLast other isFirst
    rw [last, Option.mem_some_iff] at isLast
    rw [List.head?_cons, Option.mem_some_iff] at isFirst
    subst isLast isFirst
    exact next
  · intro block listed
    rw [List.mem_append, List.mem_singleton] at listed
    obtain earlier | rfl := listed
    · exact others block earlier
    · exact unavailable

theorem MissingPath.available {data : ChainData content} {target : Hash} (missing : MissingPath data target []) :
    data.Available target := by
  obtain ⟨ancestor, available, _, last, _⟩ := missing
  have here : ancestor = target := by simpa using last
  exact here ▸ available

theorem MissingPath.last {data : ChainData content} {target block : Hash} {path : List Hash}
    (missing : MissingPath data target (path ++ [block])) :
    block = target ∧ ¬ data.Available target ∧ MissingPath data (content target).parentHash path := by
  obtain ⟨ancestor, available, chain, last, others⟩ := missing
  rw [← List.cons_append, List.getLast?_concat, Option.some.injEq] at last
  subst last
  rw [← List.cons_append, List.isChain_append] at chain
  obtain ⟨before, _, joined⟩ := chain
  obtain ⟨parent, found⟩ : ∃ parent, (ancestor :: path).getLast? = some parent :=
    ⟨_, List.getLast?_eq_some_getLast (List.cons_ne_nil ancestor path)⟩
  obtain ⟨link, _⟩ := joined parent (by simp [found]) block (by simp)
  refine ⟨rfl, others block (by simp), ancestor, available, before, by rw [found, link], ?_⟩
  intro other listed
  exact others other (by simp [listed])

theorem MissingPath.unique {data : ChainData content} {target : Hash} {path other : List Hash}
    (missing : MissingPath data target path) (missing' : MissingPath data target other) : path = other := by
  -- from the target downwards, so both paths are taken apart at their ends
  induction path using List.reverseRecOn generalizing target other with
  | nil =>
    cases other using List.reverseRecOn with
    | nil => rfl
    | append_singleton => exact absurd missing.available missing'.last.2.1
  | append_singleton path block ih =>
    obtain ⟨rfl, unavailable, below⟩ := missing.last
    cases other using List.reverseRecOn with
    | nil => exact absurd missing'.available unavailable
    | append_singleton other block' =>
      obtain ⟨rfl, _, below'⟩ := missing'.last
      rw [ih below below']

/-- The collected hashes are the missing path, and they are found when every block of it is above the head and has its
parent stored. -/
theorem ChainData.collect_ok_iff {data : ChainData content} {target : Hash} {reverse : List Hash} :
    data.collect target = .ok reverse ↔ MissingPath data target reverse.reverse ∧ ∀ block ∈ reverse,
      data.headNumber < (content block).number ∧
        data.stored (content block).parentHash ((content block).number - 1) = true := by
  induction target using (ChainData.collect.induct data) generalizing reverse with
  | case1 target available =>
    rw [collect, if_pos available, Except.ok.injEq]
    constructor
    · rintro rfl
      exact ⟨.of_available available, by simp⟩
    · rintro ⟨missing, _⟩
      exact (List.reverse_eq_nil_iff.mp (missing.unique (.of_available available))).symm
  | case2 target unavailable low =>
    rw [collect, if_neg unavailable, dif_pos low]
    refine ⟨fun failed => (by cases failed), ?_⟩
    rintro ⟨missing, above⟩
    cases reverse with
    | nil => exact absurd missing.available unavailable
    | cons block below =>
      rw [List.reverse_cons] at missing
      obtain ⟨rfl, _⟩ := missing.last
      exact absurd low (UInt64.not_le.mpr (above block List.mem_cons_self).1)
  | case3 target unavailable low found ih =>
    rw [collect, if_neg unavailable, dif_neg low, dif_pos found]
    have next := parent_number (UInt64.not_le.mp low) found
    constructor
    · intro collected
      cases rest : data.collect (content target).parentHash with
      | error e =>
        rw [rest] at collected
        cases collected
      | ok below =>
        rw [rest] at collected
        cases collected
        obtain ⟨missing, above⟩ := ih.mp rest
        rw [List.reverse_cons]
        exact ⟨missing.append ⟨rfl, by omega⟩ unavailable,
          List.forall_mem_cons.mpr ⟨⟨UInt64.not_le.mp low, found⟩, above⟩⟩
    · rintro ⟨missing, above⟩
      cases reverse with
      | nil => exact absurd missing.available unavailable
      | cons block below =>
        rw [List.reverse_cons] at missing
        obtain ⟨rfl, _, missing⟩ := missing.last
        rw [ih.mpr ⟨missing, (List.forall_mem_cons.mp above).2⟩]
        rfl
  | case4 target unavailable low unstored =>
    rw [collect, if_neg unavailable, dif_neg low, dif_neg unstored]
    refine ⟨fun failed => (by cases failed), ?_⟩
    rintro ⟨missing, above⟩
    cases reverse with
    | nil => exact absurd missing.available unavailable
    | cons block below =>
      rw [List.reverse_cons] at missing
      obtain ⟨rfl, _⟩ := missing.last
      exact absurd (above block List.mem_cons_self).2 unstored

theorem MissingPath.nodup {data : ChainData content} {target : Hash} {path : List Hash}
    (missing : MissingPath data target path) : path.Nodup := by
  obtain ⟨ancestor, _, chain, _, _⟩ := missing
  have growing : (ancestor :: path).IsChain fun parent block =>
      (content parent).number.toNat < (content block).number.toNat :=
    chain.imp fun parent block next => by rw [next.2]; exact Nat.lt_succ_self _
  have pairwise : (ancestor :: path).Pairwise fun parent block =>
      (content parent).number.toNat < (content block).number.toNat := by
    refine List.isChain_iff_pairwise.mp growing
  exact (List.pairwise_cons.mp pairwise).2.imp fun lower same =>
    Nat.ne_of_lt lower (congrArg (fun hash => (content hash).number.toNat) same)

/-! ### The batches -/

theorem nextBatch_append (left : List Hash) : nextBatch left ++ (afterBatch left).reverse = left.reverse := by
  rw [nextBatch, afterBatch, ← List.reverse_append, List.take_append_drop]

/-- A replay under way: what was handed to execution and what is left make up the path. -/
def RecoveryNode.Replaying (node : RecoveryNode content) : Prop :=
  ∀ replay, node.replay = some replay →
    MissingPath replay.origin replay.target replay.path ∧ replay.handed <+: replay.path ∧
      (∀ target left, node.phase = .replaying target left →
        replay.target = target ∧ replay.handed ++ left.reverse = replay.path) ∧
      (node.phase = .running → replay.handed = replay.path)

/-! ### What the steps do -/

def RecoveryMarkers.pending (markers : RecoveryMarkers) : Option Hash := markers.v1.map bytesToHash

theorem read_pending {data : ChainData content} {markers : RecoveryMarkers} {target : Hash}
    (read : readLQCLocalStateRecoveryV1 data markers = .ok target) :
    markers = ⟨none, none⟩ ∧ target = 0 ∨ markers.pending = some target ∧ target ≠ 0 := by
  obtain ⟨v1, v2⟩ := markers
  cases v1 with
  | none =>
    cases v2 with
    | none =>
      cases read
      exact .inl ⟨rfl, rfl⟩
    | some => cases read
  | some value =>
    refine .inr ?_
    cases v2 with
    | none =>
      simp only [readLQCLocalStateRecoveryV1, ensure_bind_ok_iff, Except.ok.injEq] at read
      obtain ⟨_, nonzero, rfl⟩ := read
      exact ⟨rfl, nonzero⟩
    | some metadata =>
      simp only [readLQCLocalStateRecoveryV1, ensure_bind_ok_iff, Except.ok.injEq] at read
      obtain ⟨_, nonzero, _, _, _, _, rfl⟩ := read
      exact ⟨rfl, nonzero⟩

/-- The target is the head or on the canonical chain below it, and the state of the head is there. -/
def ChainData.Restored (data : ChainData content) (target : Hash) : Prop :=
  (data.head = target ∨ (content target).number ≤ data.headNumber ∧ data.canonical (content target).number = target) ∧
    data.hasState (content data.head).root = true

theorem plan_retire {lqc : Bool} {data : ChainData content} {target : Hash}
    (planned : planLQCLocalStateRecoveryV1 lqc data target = .ok .retire) : data.Restored target := by
  rw [planLQCLocalStateRecoveryV1] at planned
  split at planned
  · cases planned
  obtain ⟨_, _, planned⟩ := bind_ok planned
  split at planned
  · split at planned
    · rename_i low
      simp only [ensure_bind_ok_iff] at planned
      exact ⟨.inr ⟨low, planned.1.1⟩, planned.1.2⟩
    · cases collected : data.collect target <;> rw [collected] at planned <;> cases planned
  · split at planned
    · cases planned
    · rename_i number known
      simp only [ensure_bind_ok_iff] at planned
      obtain ⟨⟨below, canonical, _, _, state⟩, _⟩ := planned
      rw [data.headerNumber_eq target number known] at below canonical
      exact ⟨.inr ⟨UInt64.le_of_lt below, canonical⟩, state⟩

theorem plan_nothing {lqc : Bool} {data : ChainData content} {target : Hash}
    (planned : planLQCLocalStateRecoveryV1 lqc data target = .ok .nothing) : target = 0 := by
  by_contra nonzero
  rw [planLQCLocalStateRecoveryV1, if_neg nonzero] at planned
  obtain ⟨_, _, planned⟩ := bind_ok planned
  split at planned
  · split at planned
    · simp only [ensure_bind_ok_iff, Except.ok.injEq, reduceCtorEq, and_false] at planned
    · cases collected : data.collect target <;> rw [collected] at planned <;> cases planned
  · split at planned
    · cases planned
    · simp only [ensure_bind_ok_iff, Except.ok.injEq, reduceCtorEq, and_false] at planned

/-- A target above the head whose missing blocks are all stored. -/
structure ChainData.Replayable (data : ChainData content) (target : Hash) (path : List Hash) : Prop where
  found : data.hasBlock target = true
  above : data.headNumber < (content target).number
  missing : MissingPath data target path
  blocks : ∀ block ∈ path, data.headNumber < (content block).number ∧
    data.stored (content block).parentHash ((content block).number - 1) = true

theorem plan_replay_iff {lqc : Bool} {data : ChainData content} {target : Hash} {reverse : List Hash} :
    planLQCLocalStateRecoveryV1 lqc data target = .ok (.replay reverse) ↔
      target ≠ 0 ∧ lqc = true ∧ data.Replayable target reverse.reverse := by
  constructor
  · intro planned
    rw [planLQCLocalStateRecoveryV1] at planned
    split at planned
    · cases planned
    rename_i nonzero
    obtain ⟨_, active, planned⟩ := bind_ok planned
    split at planned
    · rename_i found
      split at planned
      · simp only [ensure_bind_ok_iff, Except.ok.injEq, reduceCtorEq, and_false] at planned
      rename_i above
      cases collected : data.collect target <;> rw [collected] at planned <;> cases planned
      obtain ⟨missing, blocks⟩ := ChainData.collect_ok_iff.mp collected
      exact ⟨nonzero, (ensure_ok_iff.mp active), found, UInt64.not_le.mp above, missing, by simpa using blocks⟩
    · split at planned
      · cases planned
      · simp only [ensure_bind_ok_iff, Except.ok.injEq, reduceCtorEq, and_false] at planned
  · rintro ⟨nonzero, rfl, replayable⟩
    have collected := ChainData.collect_ok_iff.mpr ⟨replayable.missing, by simpa using replayable.blocks⟩
    rw [planLQCLocalStateRecoveryV1, if_neg nonzero, if_pos replayable.found,
      if_neg (UInt64.not_le.mpr replayable.above), collected]
    rfl

theorem plan_retire_canonical {data : ChainData content} {target : Hash} (nonzero : target ≠ 0)
    (found : data.hasBlock target = true) (low : (content target).number ≤ data.headNumber)
    (canonical : data.canonical (content target).number = target)
    (state : data.hasState (content data.head).root = true) :
    planLQCLocalStateRecoveryV1 true data target = .ok .retire := by
  rw [planLQCLocalStateRecoveryV1, if_neg nonzero, if_pos found, if_pos low]
  simp only [ensure_bind_ok_iff, true_and]
  exact ⟨⟨canonical, state⟩, trivial⟩

theorem prepare_markers {data : ChainData content} {markers markers' : RecoveryMarkers} {written : Bool} {target : Hash}
    (prepared : prepareLQCLocalStateRecoveryV1 data markers written = .ok (target, markers')) :
    markers' = markers ∨ markers = ⟨none, none⟩ ∧ target ≠ 0 ∧ (content target).number ≠ 0 ∧
      markers' = recoveryMarkers target (content target).number := by
  obtain ⟨pending, read, prepared⟩ := bind_ok prepared
  split at prepared
  · cases prepared
    exact .inl rfl
  rename_i none
  dsimp only at prepared
  split at prepared
  · cases prepared
    exact .inl rfl
  rename_i nonzero
  split at prepared
  · cases prepared
    exact .inl rfl
  rename_i number known
  split at prepared
  · cases prepared
    exact .inl rfl
  rename_i positive
  simp only [ensure_bind_ok_iff, Except.ok.injEq, Prod.mk.injEq] at prepared
  obtain ⟨_, rfl, rfl⟩ := prepared
  have same := data.headerNumber_eq _ _ known
  subst same
  obtain ⟨empty, _⟩ | ⟨_, some⟩ := read_pending read
  · exact .inr ⟨empty, nonzero, positive, rfl⟩
  · exact absurd some (by simpa using none)

namespace RecoveryNode

/-- While blocks are executed the markers hold the target. -/
structure Tracking (node : RecoveryNode content) : Prop where
  replaying : node.Replaying
  target : ∀ target left, node.phase = .replaying target left →
    node.replay.isSome ∧ node.markers.pending = some target

variable {node node' : RecoveryNode content}

theorem Tracking.of_idle (tracking : node.Tracking) (replay : node'.replay = none ∨ node'.replay = node.replay)
    (idle : ∀ target left, node'.phase ≠ .replaying target left)
    (running : node'.phase = .running → node'.replay = none ∨ node.phase = .running) : node'.Tracking where
  replaying := by
    intro last found
    obtain none | same := replay
    · rw [none] at found
      cases found
    rw [same] at found
    obtain ⟨missing, handed, _, done⟩ := tracking.replaying last found
    refine ⟨missing, handed, fun target left phase => absurd phase (idle target left), ?_⟩
    intro phase
    obtain none | before := running phase
    · rw [same, found] at none
      cases none
    · exact done before
  target := by
    intro target left phase
    exact absurd phase (idle target left)

/-- The node at the start of a replay. -/
def replayed (node : RecoveryNode content) (target : Hash) (path : List Hash) : RecoveryNode content :=
  { node with phase := .replaying target path.reverse, replay := some ⟨node.data, target, path, []⟩ }

theorem recover_cases (node : RecoveryNode content) (fault written : Bool) :
    (∃ error, node.recover fault written = { node with replay := none, phase := .refused error }) ∨
      (node.markers = ⟨none, none⟩ ∧ node.recover fault written = { node with replay := none, phase := .running }) ∨
      (∃ target, node.markers.pending = some target ∧ node.data.Restored target ∧
        node.recover fault written = { node with replay := none, markers := ⟨none, none⟩, phase := .running }) ∨
      ∃ target path, node.markers.pending = some target ∧ node.data.Replayable target path ∧
        node.recover fault written = node.replayed target path := by
  cases fault with
  | true => exact .inl ⟨.database, rfl⟩
  | false =>
    cases read : readLQCLocalStateRecoveryV1 node.data node.markers with
    | error error => exact .inl ⟨error, by simp [recover, read, refuse]⟩
    | ok target =>
      cases planned : planLQCLocalStateRecoveryV1 node.lqc node.data target with
      | error error => exact .inl ⟨error, by simp [recover, read, planned, refuse]⟩
      | ok plan =>
        cases plan with
        | nothing =>
          obtain ⟨empty, _⟩ | ⟨_, nonzero⟩ := read_pending read
          · exact .inr (.inl ⟨empty, by simp [recover, read, planned]⟩)
          · exact absurd (plan_nothing planned) nonzero
        | retire =>
          have nonzero : target ≠ 0 := by
            rintro rfl
            rw [planLQCLocalStateRecoveryV1, if_pos rfl] at planned
            cases planned
          have pending := (read_pending read).resolve_left fun none => nonzero none.2
          cases written with
          | false => exact .inl ⟨.database, by simp [recover, read, planned, clear, refuse]⟩
          | true =>
            exact .inr (.inr (.inl ⟨target, pending.1, plan_retire planned, by simp [recover, read, planned, clear]⟩))
        | replay reverse =>
          obtain ⟨nonzero, _, replayable⟩ := plan_replay_iff.mp planned
          have pending := (read_pending read).resolve_left fun none => nonzero none.2
          exact .inr (.inr (.inr ⟨target, _, pending.1, replayable, by simp [recover, read, planned, replayed]⟩))

/-- What a start makes of a target it can read. -/
theorem recover_pending {target : Hash} (read : readLQCLocalStateRecoveryV1 node.data node.markers = .ok target)
    (nonzero : target ≠ 0) (fault written : Bool) :
    (∃ error, node.recover fault written = { node with replay := none, phase := .refused error }) ∨
      (node.data.Restored target ∧
        node.recover fault written = { node with replay := none, markers := ⟨none, none⟩, phase := .running }) ∨
      ∃ path, node.data.Replayable target path ∧ node.recover fault written = node.replayed target path := by
  have pending := ((read_pending read).resolve_left fun none => nonzero none.2).1
  obtain refused | ⟨empty, _⟩ | ⟨other, isOther, restored, after⟩ | ⟨other, path, isOther, replayable, after⟩ :=
    node.recover_cases fault written
  · exact .inl refused
  · rw [empty] at pending
    cases pending
  · obtain rfl := Option.some.inj (pending.symm.trans isOther)
    exact .inr (.inl ⟨restored, after⟩)
  · obtain rfl := Option.some.inj (pending.symm.trans isOther)
    exact .inr (.inr ⟨path, replayable, after⟩)

theorem conclude_cases (node : RecoveryNode content) (target : Hash) (written : Bool) :
    (∃ error, node.conclude target written = { node with phase := .refused error }) ∨
      (node.data.Restored target ∧
        node.conclude target written = { node with markers := ⟨none, none⟩, phase := .running }) := by
  rw [conclude]
  split
  · rename_i restored
    cases written with
    | false => exact .inl ⟨.database, rfl⟩
    | true =>
      refine .inr ⟨⟨.inl restored.1, ?_⟩, rfl⟩
      rw [restored.1]
      exact restored.2
  · exact .inl ⟨.notRestored, rfl⟩

theorem prepare_cases (node : RecoveryNode content) (fault written : Bool) :
    (∃ error, node.prepare fault written = { node with phase := .refused error }) ∨
      node.prepare fault written = node ∨
      (node.markers = ⟨none, none⟩ ∧ ∃ target, target ≠ 0 ∧ (content target).number ≠ 0 ∧
        node.prepare fault written = { node with markers := recoveryMarkers target (content target).number }) := by
  cases fault with
  | true => exact .inl ⟨.database, rfl⟩
  | false =>
    cases prepared : prepareLQCLocalStateRecoveryV1 node.data node.markers written with
    | error error => exact .inl ⟨error, by simp [prepare, prepared, refuse]⟩
    | ok result =>
      obtain ⟨target, markers⟩ := result
      have after : node.prepare false written = { node with markers := markers } := by simp [prepare, prepared]
      obtain rfl | ⟨empty, nonzero, positive, rfl⟩ := prepare_markers prepared
      · exact .inr (.inl after)
      · exact .inr (.inr ⟨empty, target, nonzero, positive, after⟩)

theorem Tracking.recover (tracking : node.Tracking) (fault written : Bool) : (node.recover fault written).Tracking := by
  obtain ⟨error, after⟩ | ⟨_, after⟩ | ⟨target, _, _, after⟩ | ⟨target, path, pending, replayable, after⟩ :=
    node.recover_cases fault written <;> rw [after]
  · exact tracking.of_idle (.inl rfl) (by simp) (by simp)
  · exact tracking.of_idle (.inl rfl) (by simp) (by simp)
  · exact tracking.of_idle (.inl rfl) (by simp) (by simp)
  · constructor
    · intro replay found
      cases found
      refine ⟨replayable.missing, List.nil_prefix, ?_, fun running => by cases running⟩
      intro target' left phase
      cases phase
      exact ⟨rfl, List.reverse_reverse path⟩
    · intro target' left phase
      cases phase
      exact ⟨rfl, pending⟩

theorem Tracking.insert (tracking : node.Tracking) {target : Hash} {left : List Hash} (data : ChainData content)
    (failed : Bool) (phase : node.phase = .replaying target left) : (node.insert target left data failed).Tracking := by
  rw [RecoveryNode.insert]
  split
  · constructor
    · intro replay found
      obtain ⟨before, last, rfl⟩ := Option.map_eq_some_iff.mp found
      obtain ⟨missing, _, executing, _⟩ := tracking.replaying before last
      obtain ⟨same, whole⟩ := executing target left phase
      have split' : before.handed ++ nextBatch left ++ (afterBatch left).reverse = before.path := by
        rw [List.append_assoc, nextBatch_append, whole]
      refine ⟨missing, ⟨_, split'⟩, ?_, ?_⟩
      · intro target' left' phase'
        cases failed <;> cases phase'
        exact ⟨same, split'⟩
      · intro phase'
        cases failed <;> cases phase'
    · intro target' left' phase'
      obtain ⟨some, pending⟩ := tracking.target target left phase
      cases failed <;> cases phase'
      exact ⟨by simpa using some, pending⟩
  · exact tracking.of_idle (.inr rfl) (by simp [refuse]) (by simp [refuse])

theorem Tracking.conclude (tracking : node.Tracking) {target : Hash} (written : Bool)
    (phase : node.phase = .replaying target []) : (node.conclude target written).Tracking := by
  obtain ⟨error, after⟩ | ⟨_, after⟩ := node.conclude_cases target written <;> rw [after]
  · exact tracking.of_idle (.inr rfl) (by simp) (by simp)
  · constructor
    · intro replay found
      obtain ⟨missing, handed, executing, _⟩ := tracking.replaying replay found
      refine ⟨missing, handed, by simp, ?_⟩
      intro _
      simpa using (executing target [] phase).2
    · simp

/-- What an event does, and in which phase. -/
inductive Move (node : RecoveryNode content) : NodeEvent content → RecoveryNode content → Prop where
  | start {data} (phase : node.phase = .down) : Move node (.start data) { node with data := data, phase := .starting }
  | prepare {fault written} (phase : node.phase = .starting) :
      Move node (.prepare fault written) (node.prepare fault written)
  | change {data} (phase : node.phase = .starting ∨ node.phase = .running) :
      Move node (.change data) { node with data := data }
  | recover {fault written} (phase : node.phase = .starting) :
      Move node (.recover fault written) (node.recover fault written)
  | insert {target left data failed} (phase : node.phase = .replaying target left) :
      Move node (.insert data failed) (node.insert target left data failed)
  | conclude {target written} (phase : node.phase = .replaying target []) :
      Move node (.conclude written) (node.conclude target written)
  | crash : Move node .crash { node with phase := .down }

theorem step_move {event : NodeEvent content} (stepped : node.step event = some node') : node.Move event node' := by
  cases event <;> simp only [RecoveryNode.step] at stepped
  case crash =>
    cases stepped
    exact .crash
  case start data =>
    split at stepped
    · rename_i phase
      cases stepped
      exact .start phase
    · cases stepped
  case prepare fault written =>
    split at stepped
    · rename_i phase
      cases stepped
      exact .prepare phase
    · cases stepped
  case change data =>
    split at stepped
    · rename_i phase
      cases stepped
      exact .change (.inl phase)
    · rename_i phase
      cases stepped
      exact .change (.inr phase)
    · cases stepped
  case recover fault written =>
    split at stepped
    · rename_i phase
      cases stepped
      exact .recover phase
    · cases stepped
  case insert data failed =>
    split at stepped
    · rename_i phase
      cases stepped
      exact .insert phase
    · cases stepped
  case conclude written =>
    split at stepped
    · rename_i phase
      cases stepped
      exact .conclude phase
    · cases stepped

theorem Tracking.move {event : NodeEvent content} (tracking : node.Tracking) (moved : node.Move event node') :
    node'.Tracking := by
  cases moved with
  | start => exact tracking.of_idle (.inr rfl) (by simp) (by simp)
  | crash => exact tracking.of_idle (.inr rfl) (by simp) (by simp)
  | @prepare fault written phase =>
    obtain ⟨error, after⟩ | after | ⟨_, target, _, _, after⟩ := node.prepare_cases fault written <;> rw [after]
    · exact tracking.of_idle (.inr rfl) (by simp) (by simp)
    · exact tracking
    · exact tracking.of_idle (.inr rfl) (by simp [phase]) (by simp [phase])
  | change phase =>
    refine tracking.of_idle (.inr rfl) ?_ (fun running => .inr running)
    obtain phase | phase := phase <;> simp [phase]
  | recover => exact tracking.recover _ _
  | insert phase => exact tracking.insert _ _ phase
  | conclude phase => exact tracking.conclude _ phase

theorem Tracking.markers {event : NodeEvent content} (tracking : node.Tracking) (moved : node.Move event node') :
    node'.markers = node.markers ∨
      (node.markers = ⟨none, none⟩ ∧ node'.phase = .starting ∧ ∃ target, target ≠ 0 ∧ (content target).number ≠ 0 ∧
        node'.markers = recoveryMarkers target (content target).number) ∨
      (node'.markers = ⟨none, none⟩ ∧ node'.phase = .running ∧
        ∃ target, node.markers.pending = some target ∧ node.data.Restored target) := by
  cases moved with
  | start | change | crash => exact .inl rfl
  | @prepare fault written phase =>
    obtain ⟨error, after⟩ | after | ⟨empty, target, nonzero, positive, after⟩ := node.prepare_cases fault written <;>
      rw [after]
    · exact .inl rfl
    · exact .inl rfl
    · exact .inr (.inl ⟨empty, phase, target, nonzero, positive, rfl⟩)
  | @recover fault written =>
    obtain ⟨error, after⟩ | ⟨_, after⟩ | ⟨target, pending, restored, after⟩ | ⟨target, path, _, _, after⟩ :=
      node.recover_cases fault written <;> rw [after]
    · exact .inl rfl
    · exact .inl rfl
    · exact .inr (.inr ⟨rfl, rfl, target, pending, restored⟩)
    · exact .inl rfl
  | insert =>
    rw [RecoveryNode.insert]
    split <;> exact .inl rfl
  | @conclude target written phase =>
    obtain ⟨error, after⟩ | ⟨restored, after⟩ := node.conclude_cases target written <;> rw [after]
    · exact .inl rfl
    · exact .inr (.inr ⟨rfl, rfl, target, (tracking.target target [] phase).2, restored⟩)

end RecoveryNode

theorem NodeLeads.tracking {node later : RecoveryNode content} (leads : NodeLeads node later)
    (tracking : node.Tracking) :
    later.Tracking := by
  induction leads with
  | refl => exact tracking
  | next _ stepped ih => exact ih.move (RecoveryNode.step_move stepped)

theorem NodeLeads.trans {node middle later : RecoveryNode content} (first : NodeLeads node middle)
    (second : NodeLeads middle later) : NodeLeads node later := by
  induction second with
  | refl => exact first
  | next _ stepped ih => exact .next ih stepped

/-- A replay whose blocks are all there comes to its end when the chain makes the target its head. -/
theorem RecoveryNode.replays {node : RecoveryNode content} {target : Hash} {left : List Hash}
    (phase : node.phase = .replaying target left) (data : ChainData content)
    (before : ∀ block ∈ left, node.data.hasBlock block = true) (after : ∀ block ∈ left, data.hasBlock block = true)
    (last : left = [] → node.data = data) (head : data.head = target)
    (state : data.hasState (content target).root = true) :
    ∃ later, NodeLeads node later ∧ later.phase = .running ∧ later.markers = ⟨none, none⟩ ∧ later.data = data ∧
      later.replay = node.replay.map fun replay => { replay with handed := replay.handed ++ left.reverse } := by
  -- the batches left, each of them shorter by up to 32 blocks
  induction count : left.length using Nat.strong_induction_on generalizing node left with
  | _ count ih =>
    subst count
    cases left with
    | nil =>
      have done : node.step (.conclude true) = some { node with markers := ⟨none, none⟩, phase := .running } := by
        obtain rfl := last rfl
        simp only [step, phase, conclude, clear, if_pos (And.intro head state), if_true]
      refine ⟨_, .next .refl done, rfl, rfl, last rfl, ?_⟩
      simp
    | cons block rest =>
      have batch : (nextBatch (block :: rest)).all node.data.hasBlock = true :=
        List.all_eq_true.mpr fun other listed =>
          before other (List.mem_of_mem_drop (List.mem_reverse.mp listed))
      have stepped : node.step (.insert data false) = some (node.insert target (block :: rest) data false) := by
        simp only [step, phase]
      have shorter : (afterBatch (block :: rest)).length < (block :: rest).length := by
        rw [afterBatch, List.length_take, List.length_cons]
        omega
      have part : ∀ other ∈ afterBatch (block :: rest), data.hasBlock other = true := fun other listed =>
        after other (List.mem_of_mem_take listed)
      rw [RecoveryNode.insert, if_pos batch] at stepped
      obtain ⟨later, leads, running, markers, same, replay⟩ := @ih _ shorter
        { node with
          data := data
          phase := .replaying target (afterBatch (block :: rest))
          replay := node.replay.map fun replay =>
            { replay with handed := replay.handed ++ nextBatch (block :: rest) } }
        _ rfl part part (fun _ => rfl) rfl
      refine ⟨later, NodeLeads.trans (.next .refl stepped) leads, running, markers, same, ?_⟩
      rw [replay, Option.map_map]
      congr 1
      funext value
      simp only [Function.comp_apply, List.append_assoc, nextBatch_append]

/-! ### The next start -/

@[simp] theorem bytesToHash_hashBytes (hash : Hash) : bytesToHash (hashBytes hash) = hash := by
  simp [bytesToHash, hashBytes]

@[simp] theorem length_hashBytes (hash : Hash) : (hashBytes hash).length = hashLength :=
  length_fixedBytes hash.isLt

@[simp] theorem length_numberBytes (number : UInt64) : (numberBytes number).length = 8 :=
  length_fixedBytes number.toNat_lt

/-- Markers as they are written, or those of the first version, which have no number. -/
def RecoveryMarkers.Sound (content : Hash → BlockInfo) (markers : RecoveryMarkers) : Prop :=
  markers = ⟨none, none⟩ ∨ ∃ target, target ≠ 0 ∧ markers.v1 = some (hashBytes target) ∧
    (markers.v2 = none ∨ (content target).number ≠ 0 ∧
      markers.v2 = some (hashBytes target ++ numberBytes (content target).number))

theorem RecoveryMarkers.Sound.read {markers : RecoveryMarkers} (sound : markers.Sound content) {target : Hash}
    (pending : markers.pending = some target) (data : ChainData content) :
    readLQCLocalStateRecoveryV1 data markers = .ok target := by
  obtain ⟨v1, v2⟩ := markers
  obtain empty | ⟨other, nonzero, rfl, metadata⟩ := sound
  · cases empty
    cases pending
  have same : other = target := by simpa [RecoveryMarkers.pending] using pending
  subst same
  obtain rfl | ⟨positive, rfl⟩ := metadata
  · simp only [readLQCLocalStateRecoveryV1, ensure_bind_ok_iff, bytesToHash_hashBytes, length_hashBytes, true_and,
    and_true]
    exact nonzero
  · have known : (data.headerNumber other).all (· = (content other).number) = true := by
      cases found : data.headerNumber other with
      | none => rfl
      | some number => simp [data.headerNumber_eq other number found]
    have number : UInt64.ofNat (natOfBytes (numberBytes (content other).number)) = (content other).number := by
      simp [numberBytes]
    have cut : (hashBytes other ++ numberBytes (content other).number).take hashLength = hashBytes other :=
      List.take_left' (length_hashBytes other)
    have rest : (hashBytes other ++ numberBytes (content other).number).drop hashLength =
        numberBytes (content other).number := List.drop_left' (length_hashBytes other)
    simp only [readLQCLocalStateRecoveryV1, ensure_bind_ok_iff, bytesToHash_hashBytes, cut, rest, number,
      List.length_append, length_hashBytes, length_numberBytes, true_and, and_true]
    exact ⟨nonzero, positive, known⟩

theorem NodeLeads.sound {node later : RecoveryNode content} (leads : NodeLeads node later) (tracking : node.Tracking)
    (sound : node.markers.Sound content) : later.markers.Sound content := by
  induction leads with
  | refl => exact sound
  | next before stepped ih =>
    have moved := RecoveryNode.step_move stepped
    obtain same | ⟨_, _, target, nonzero, positive, written⟩ | ⟨gone, _⟩ := (before.tracking tracking).markers moved
    · rw [same]
      exact ih
    · rw [written]
      exact .inr ⟨target, nonzero, rfl, .inr ⟨positive, rfl⟩⟩
    · rw [gone]
      exact .inl rfl

end Chain

/-- Over all starts of a node, whatever the rest of the code does to the chain: the blocks handed to execution are the
path from the nearest canonical ancestor of the target with a state to the target, parents first, as far as the replay
comes, and all of it when it succeeds. The markers are written and removed together; removed only when the target is
the head or canonical below it and the state of the head is there. A crash or an error changes no marker, and the
markers that a node writes read back as their target at every later start. A start that reads a target runs only after
it retired the target or replayed the path; it does the one for a canonical target below a head with its state and the
other for every target above the head whose missing blocks are stored, and a replay comes to its end with the target
as the head. -/
theorem local_state_recovery (content : Hash → BlockInfo) :
    ∀ first node : RecoveryNode content, first.phase = .down → first.replay = none → NodeLeads first node →
      (∀ replay, node.replay = some replay →
        MissingPath replay.origin replay.target replay.path ∧
        (∀ other, MissingPath replay.origin replay.target other → other = replay.path) ∧ replay.path.Nodup ∧
        replay.handed <+: replay.path ∧ (node.phase = .running → replay.handed = replay.path)) ∧
      (∀ event node', node.step event = some node' →
        (node'.markers = node.markers ∨
          (node.markers = ⟨none, none⟩ ∧ ∃ target, node'.markers = recoveryMarkers target (content target).number) ∨
          (node'.markers = ⟨none, none⟩ ∧ ∃ target, node.markers.pending = some target ∧ node.data.Restored target)) ∧
        (node'.phase = .down ∨ (∃ error, node'.phase = .refused error) → node'.markers = node.markers)) ∧
      (first.markers.Sound content → ∀ target, node.markers.pending = some target →
        ∀ data : ChainData content, readLQCLocalStateRecoveryV1 data node.markers = .ok target) ∧
      (∀ target, node.phase = .starting → readLQCLocalStateRecoveryV1 node.data node.markers = .ok target → target ≠ 0 →
        (∀ fault written node', node.step (.recover fault written) = some node' →
          (∃ error, node' = { node with replay := none, phase := .refused error }) ∨
          (node.data.Restored target ∧ node' =
            { node with replay := none, markers := ⟨none, none⟩, phase := .running }) ∨
          ∃ path, node.data.Replayable target path ∧ node' = node.replayed target path) ∧
        (node.lqc = true →
          (node.data.hasBlock target = true → (content target).number ≤ node.data.headNumber →
            node.data.canonical (content target).number = target →
            node.data.hasState (content node.data.head).root = true →
            node.step (.recover false true) =
              some { node with replay := none, markers := ⟨none, none⟩, phase := .running }) ∧
          ∀ path written, node.data.Replayable target path →
            node.step (.recover false written) = some (node.replayed target path))) ∧
      ∀ target left, node.phase = .replaying target left → ∀ data : ChainData content,
        (∀ block ∈ left, node.data.hasBlock block = true ∧ data.hasBlock block = true) →
          (left = [] → node.data = data) →
        data.head = target → data.hasState (content target).root = true →
        ∃ later replay, NodeLeads node later ∧ later.phase = .running ∧ later.markers = ⟨none, none⟩ ∧
          node.replay = some replay ∧ replay.target = target ∧
          later.replay = some { replay with handed := replay.path } := by
  intro first node down fresh leads
  have start : first.Tracking := by
    constructor
    · intro replay found
      rw [fresh] at found
      cases found
    · intro target left phase
      rw [down] at phase
      cases phase
  have tracking := leads.tracking start
  refine ⟨?_, ?_, ?_, ?_, ?_⟩
  · intro replay found
    obtain ⟨missing, handed, _, done⟩ := tracking.replaying replay found
    exact ⟨missing, fun other missing' => missing'.unique missing, missing.nodup, handed, done⟩
  · intro event node' stepped
    obtain same | ⟨empty, phase, target, _, _, written⟩ | ⟨gone, phase, restored⟩ :=
      tracking.markers (RecoveryNode.step_move stepped)
    · exact ⟨.inl same, fun _ => same⟩
    · refine ⟨.inr (.inl ⟨empty, target, written⟩), ?_⟩
      rw [phase]
      rintro (stopped | ⟨error, failed⟩)
      · cases stopped
      · cases failed
    · refine ⟨.inr (.inr ⟨gone, restored⟩), ?_⟩
      rw [phase]
      rintro (stopped | ⟨error, failed⟩)
      · cases stopped
      · cases failed
  · intro sound target pending data
    exact (leads.sound start sound).read pending data
  · intro target phase read nonzero
    refine ⟨?_, fun active => ⟨?_, ?_⟩⟩
    · intro fault written node' stepped
      simp only [RecoveryNode.step, phase, Option.some.injEq] at stepped
      subst stepped
      exact RecoveryNode.recover_pending read nonzero fault written
    · intro found low canonical state
      have planned := plan_retire_canonical nonzero found low canonical state
      simp [RecoveryNode.step, phase, RecoveryNode.recover, read, active, planned, RecoveryNode.clear]
    · intro path written replayable
      have planned := (@plan_replay_iff content node.lqc node.data target path.reverse).mpr
        ⟨nonzero, active, by rwa [List.reverse_reverse]⟩
      simp [RecoveryNode.step, phase, RecoveryNode.recover, read, planned, RecoveryNode.replayed]
  · intro target left phase data stored last head state
    obtain ⟨later, onwards, running, markers, _, replay⟩ := RecoveryNode.replays phase data
      (fun block listed => (stored block listed).1) (fun block listed => (stored block listed).2) last head state
    obtain ⟨under, found⟩ := Option.isSome_iff_exists.mp (tracking.target target left phase).1
    obtain ⟨_, _, executing, _⟩ := tracking.replaying under found
    obtain ⟨same, whole⟩ := executing target left phase
    rw [found, Option.map_some, whole] at replay
    exact ⟨later, under, onwards, running, markers, found, same, replay⟩

/-- A chain whose blocks are numbered by their hashes, with the head at the first one and the states of some. -/
def numberedContent (hash : Hash) : BlockInfo := ⟨UInt64.ofNat hash.toNat, hash - 1, hash⟩

def numberedChain (head : Hash) (states : List Hash) : ChainData numberedContent where
  headerNumber hash := some (numberedContent hash).number
  stored hash number := number = (numberedContent hash).number
  canonical number := BitVec.ofNat 256 number.toNat
  head := head
  headBlockHash := 3
  hasState root := root ∈ states
  stateOpens := true
  headerNumber_eq := by
    intro hash number found
    exact (Option.some.inj found).symm
  stored_eq := by
    intro hash number found
    exact of_decide_eq_true found

def markedNode : RecoveryNode numberedContent :=
  { lqc := true, markers := recoveryMarkers 3 3, data := numberedChain 1 [1] }

/-- A node that crashes during its start reads its target again at the next one, executes the two blocks above its head
and removes the markers. -/
theorem local_state_recovery_replayed : markedNode.phase = .down ∧ markedNode.replay = none ∧
    ∃ later replay, NodeLeads markedNode later ∧ later.phase = .running ∧ later.markers = ⟨none, none⟩ ∧
      later.replay = some replay ∧ replay.target = 3 ∧ replay.path = [2, 3] ∧ replay.handed = [2, 3] := by
  refine ⟨rfl, rfl, ?_⟩
  obtain ⟨starting, isStarting⟩ : ∃ node : RecoveryNode numberedContent,
      node = { markedNode with phase := .starting } :=
    ⟨_, rfl⟩
  have started : markedNode.step (.start (numberedChain 1 [1])) = some starting := by
    rw [isStarting]
    rfl
  have crashed : starting.step .crash = some markedNode := by
    rw [isStarting]
    rfl
  have again : NodeLeads markedNode starting := .next (.next (.next .refl started) crashed) started
  obtain ⟨_, _, kept, starts, _⟩ := local_state_recovery numberedContent markedNode starting rfl rfl again
  have sound : markedNode.markers.Sound numberedContent := .inr ⟨3, by decide, rfl, .inr ⟨by decide, rfl⟩⟩
  have pending : starting.markers.pending = some 3 := by
    rw [isStarting]
    simp [markedNode, recoveryMarkers, RecoveryMarkers.pending]
  have replayable : starting.data.Replayable 3 [2, 3] := by
    rw [isStarting]
    refine ⟨by decide, by decide, ⟨1, by decide, ?_, rfl, ?_⟩, ?_⟩
    · simp only [List.isChain_cons_cons, List.isChain_singleton, and_true]
      exact ⟨⟨by decide, by decide⟩, ⟨by decide, by decide⟩⟩
    all_goals exact List.forall_mem_cons.mpr ⟨by decide, List.forall_mem_singleton.mpr (by decide)⟩
  have replaying := ((starts 3 (by rw [isStarting]) (kept sound 3 pending starting.data) (by decide)).2
    (by rw [isStarting]; rfl)).2 [2, 3] true replayable
  have middle := NodeLeads.next again replaying
  obtain ⟨_, _, _, _, ends⟩ := local_state_recovery numberedContent markedNode _ rfl rfl middle
  have blocks : ∀ block : Hash, starting.data.hasBlock block = true ∧ (numberedChain 3 [1, 2, 3]).hasBlock block =
      true := by
    intro block
    rw [isStarting]
    simp [ChainData.hasBlock, markedNode, numberedChain]
  obtain ⟨later, replay, onwards, running, markers, before, _, after⟩ :=
    ends 3 _ rfl (numberedChain 3 [1, 2, 3]) (fun block _ => blocks block) (by simp) rfl (by decide)
  obtain rfl := Option.some.inj before
  exact ⟨later, _, middle.trans onwards, running, markers, after, rfl, rfl, rfl⟩

end RabbitLqc
