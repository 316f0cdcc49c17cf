import RabbitLqc.Basic

/-!
# Fork choice

The block database and its head. An executed block becomes the head when it is higher than the head,
or as high with a smaller hash; otherwise it is kept as a side block. A new head that does not extend
the old one is reached by a reorganisation down to their common ancestor.
-/

namespace RabbitLqc
open Lib

structure Block where
  number : Nat
  hash : Hash
  parentHash : Hash
  deriving DecidableEq, Repr

inductive ChainError where
  | unknownAncestor
  | invalidOldChain
  | invalidNewChain
  deriving DecidableEq, Repr

inductive WriteStatus where
  | canon
  | side
  deriving DecidableEq, Repr

/-- Every block written, newest first, and the current one. -/
structure BlockChain where
  blocks : List Block
  head : Block
  deriving DecidableEq, Repr

/-! ### Preference -/

def rabbitLQCPreferCanonicalHeaderV1 (current candidate : Block) : Bool :=
  if candidate.number ≠ current.number then candidate.number > current.number
  else candidate.hash.toNat < current.hash.toNat

def lqcRejectSameHeightHead (block current : Block) : Bool :=
  block.number = current.number && block.hash ≠ current.hash && block.hash.toNat > current.hash.toNat

namespace BlockChain

variable (chain : BlockChain)

def getHeader (hash : Hash) (number : Nat) : Option Block :=
  chain.blocks.find? fun block => block.hash = hash && block.number = number

/-- The parent of a block; below zero the number wraps around to one without a block. -/
def parent? (block : Block) : Option Block :=
  if block.number = 0 then none else chain.getHeader block.parentHash (block.number - 1)

/-! ### Reorganisation -/

/-- The blocks passed on the way `steps` down, and the one arrived at. -/
def walkDown : Nat → Block → Option (List Block × Block)
  | 0, block => some ([], block)
  | steps + 1, block => do
    let parent ← chain.parent? block
    let (passed, last) ← walkDown steps parent
    some (block :: passed, last)

/-- Two blocks of one height, stepped back until they meet: the blocks passed on both sides. -/
def commonAncestor : Nat → Block → Block → Except ChainError (List Block × List Block)
  | height, oldHead, newHead =>
    if oldHead.hash = newHead.hash then .ok ([], [])
    else match height with
      | 0 => .error .invalidOldChain
      | below + 1 => match chain.parent? oldHead with
        | none => .error .invalidOldChain
        | some oldParent => match chain.parent? newHead with
          | none => .error .invalidNewChain
          | some newParent => do
            let (oldChain, newChain) ← commonAncestor below oldParent newParent
            .ok (oldHead :: oldChain, newHead :: newChain)

def reorgChains (oldHead newHead : Block) : Except ChainError (List Block × List Block) :=
  if oldHead.number > newHead.number then
    match chain.walkDown (oldHead.number - newHead.number) oldHead with
    | none => .error .invalidOldChain
    | some (passed, reached) => do
      let (oldChain, newChain) ← chain.commonAncestor newHead.number reached newHead
      .ok (passed ++ oldChain, newChain)
  else match chain.walkDown (newHead.number - oldHead.number) newHead with
    | none => .error .invalidNewChain
    | some (passed, reached) => do
      let (oldChain, newChain) ← chain.commonAncestor oldHead.number oldHead reached
      .ok (oldChain, passed ++ newChain)

def writeHeadBlock (block : Block) : BlockChain := { chain with head := block }

/-- The adopted blocks become the head one after the other, the new head itself apart. -/
def reorg (oldHead newHead : Block) : Except ChainError BlockChain := do
  let (_, newChain) ← chain.reorgChains oldHead newHead
  .ok ((newChain.drop 1).reverse.foldl writeHeadBlock chain)

/-! ### Writing blocks -/

def writeBlock (block : Block) : BlockChain := { chain with blocks := block :: chain.blocks }

def refusesHead (block : Block) : Bool :=
  lqcRejectSameHeightHead block chain.head || !rabbitLQCPreferCanonicalHeaderV1 chain.head block

/-- The block becomes the head, after a reorganisation when it does not extend the old one. -/
def setHead (block : Block) : Except ChainError BlockChain :=
  if block.parentHash ≠ chain.head.hash then do
    let reorganised ← chain.reorg chain.head block
    .ok (reorganised.writeHeadBlock block)
  else .ok (chain.writeHeadBlock block)

def writeBlockAndSetHead (block : Block) : Except ChainError (WriteStatus × BlockChain) := do
  ensure (chain.parent? block ≠ none) .unknownAncestor
  let written := chain.writeBlock block
  if written.refusesHead block then .ok (.side, written)
  else do
    let moved ← written.setHead block
    .ok (.canon, moved)

def writeKnownBlock (block : Block) : Except ChainError BlockChain :=
  if chain.refusesHead block then .ok chain else chain.setHead block

end BlockChain

/-! ### Rank -/

def Block.rank (block : Block) : Nat := block.number * 2 ^ 256 + (2 ^ 256 - 1 - block.hash.toNat)

theorem Block.rank_lt_iff {current candidate : Block} :
    current.rank < candidate.rank ↔ current.number < candidate.number ∨
      (current.number = candidate.number ∧ candidate.hash.toNat < current.hash.toNat) := by
  have left := current.hash.isLt
  have right := candidate.hash.isLt
  unfold Block.rank
  rcases Nat.lt_trichotomy current.number candidate.number with less | same | greater
  · have := Nat.mul_le_mul_right (2 ^ 256) less
    omega
  · rw [same]
    omega
  · have := Nat.mul_le_mul_right (2 ^ 256) greater
    omega

theorem Block.eq_of_rank {known : List Block} {block other : Block}
    (hashes : ∀ block ∈ known, ∀ other ∈ known, block.hash = other.hash → block = other)
    (member : block ∈ known) (also : other ∈ known) (same : block.rank = other.rank) : block = other := by
  have notBelow := mt Block.rank_lt_iff.mpr same.not_lt
  have notAbove := mt Block.rank_lt_iff.mpr same.not_gt
  refine hashes block member other also (BitVec.eq_of_toNat_eq ?_)
  omega

theorem prefer_iff {current candidate : Block} :
    rabbitLQCPreferCanonicalHeaderV1 current candidate = true ↔ current.rank < candidate.rank := by
  rw [Block.rank_lt_iff]
  unfold rabbitLQCPreferCanonicalHeaderV1
  by_cases same : candidate.number = current.number
  · simp [same]
  · simp [same, Ne.symm same]

theorem refusesHead_iff {chain : BlockChain} {block : Block} :
    chain.refusesHead block = true ↔ block.rank ≤ chain.head.rank := by
  unfold BlockChain.refusesHead
  rw [Bool.or_eq_true, Bool.not_eq_true', ← Bool.not_eq_true, prefer_iff, Nat.not_lt]
  refine or_iff_right_of_imp fun rejected => ?_
  unfold lqcRejectSameHeightHead at rejected
  simp only [Bool.and_eq_true, decide_eq_true_eq] at rejected
  exact Nat.le_of_lt (Block.rank_lt_iff.mpr (.inr ⟨rejected.1.1, rejected.2⟩))

/-! ### Reorganisations succeed -/

/-- The database holds the ancestors of its blocks down to the genesis, and a hash names one block. -/
structure BlockChain.Rooted (genesis : Block) (chain : BlockChain) : Prop where
  start : genesis ∈ chain.blocks ∧ genesis.number = 0
  parents : ∀ block ∈ chain.blocks, block = genesis ∨
    ∃ parent ∈ chain.blocks, parent.hash = block.parentHash ∧ block.number = parent.number + 1
  identified : ∀ block ∈ chain.blocks, ∀ other ∈ chain.blocks, block.hash = other.hash → block = other
  head : chain.head ∈ chain.blocks

namespace BlockChain

variable {genesis block : Block} {chain : BlockChain}

theorem parent?_of_mem {parent : Block} (member : parent ∈ chain.blocks)
    (hash : parent.hash = block.parentHash) (number : block.number = parent.number + 1) :
    ∃ found ∈ chain.blocks, chain.parent? block = some found ∧ found.number + 1 = block.number := by
  have positive : ¬ block.number = 0 := by omega
  have lower : block.number - 1 = parent.number := by omega
  unfold parent? getHeader
  rw [if_neg positive, lower]
  cases found : chain.blocks.find? fun other =>
      other.hash = block.parentHash && other.number = parent.number with
  | none =>
    have missing := List.find?_eq_none.mp found parent member
    simp [hash] at missing
  | some other =>
    have fits := List.find?_some found
    simp only [Bool.and_eq_true, decide_eq_true_eq] at fits
    exact ⟨other, List.mem_of_find?_eq_some found, rfl, by omega⟩

namespace Rooted

theorem parent?_exists (rooted : chain.Rooted genesis) (member : block ∈ chain.blocks)
    (positive : block.number ≠ 0) :
    ∃ parent ∈ chain.blocks, chain.parent? block = some parent ∧ parent.number + 1 = block.number := by
  rcases rooted.parents block member with rfl | ⟨parent, known, hash, number⟩
  · exact absurd rooted.start.2 positive
  · exact parent?_of_mem known hash number

theorem walkDown_exists (rooted : chain.Rooted genesis) {steps : Nat} (member : block ∈ chain.blocks)
    (room : steps ≤ block.number) :
    ∃ passed last, chain.walkDown steps block = some (passed, last) ∧ last ∈ chain.blocks ∧
      last.number + steps = block.number := by
  induction steps generalizing block with
  | zero => exact ⟨[], block, rfl, member, rfl⟩
  | succ steps ih =>
    obtain ⟨parent, known, found, number⟩ := rooted.parent?_exists member (by omega)
    obtain ⟨passed, last, walked, arrived, height⟩ := ih known (by omega)
    refine ⟨block :: passed, last, ?_, arrived, by omega⟩
    simp only [walkDown, found, Option.bind_eq_bind, Option.bind_some, walked]

theorem number_zero (rooted : chain.Rooted genesis) (member : block ∈ chain.blocks)
    (bottom : block.number = 0) : block = genesis := by
  rcases rooted.parents block member with same | ⟨_, _, _, number⟩
  · exact same
  · omega

theorem commonAncestor_exists (rooted : chain.Rooted genesis) {height : Nat} {left right : Block}
    (leftKnown : left ∈ chain.blocks) (rightKnown : right ∈ chain.blocks) (leftHeight : left.number = height)
    (rightHeight : right.number = height) :
    ∃ oldChain newChain, chain.commonAncestor height left right = .ok (oldChain, newChain) := by
  induction height generalizing left right with
  | zero =>
    obtain rfl := rooted.number_zero leftKnown leftHeight
    obtain rfl := rooted.number_zero rightKnown rightHeight
    exact ⟨[], [], by simp [commonAncestor]⟩
  | succ height ih =>
    unfold commonAncestor
    by_cases met : left.hash = right.hash
    · exact ⟨[], [], if_pos met⟩
    · obtain ⟨leftParent, known, leftFound, leftNumber⟩ := rooted.parent?_exists leftKnown (by omega)
      obtain ⟨rightParent, alsoKnown, rightFound, rightNumber⟩ :=
        rooted.parent?_exists rightKnown (by omega)
      obtain ⟨oldChain, newChain, meets⟩ := ih known alsoKnown (by omega) (by omega)
      rw [if_neg met]
      simp only [leftFound, rightFound, meets]
      exact ⟨_, _, rfl⟩

theorem reorgChains_exists (rooted : chain.Rooted genesis) {left right : Block}
    (leftKnown : left ∈ chain.blocks) (rightKnown : right ∈ chain.blocks) :
    ∃ chains, chain.reorgChains left right = .ok chains := by
  unfold reorgChains
  by_cases longer : left.number > right.number
  · obtain ⟨passed, reached, walked, known, height⟩ :=
      rooted.walkDown_exists leftKnown (Nat.sub_le left.number right.number)
    obtain ⟨oldChain, newChain, meets⟩ := rooted.commonAncestor_exists known rightKnown (by omega) rfl
    rw [if_pos longer]
    simp only [walked, meets]
    exact ⟨_, rfl⟩
  · obtain ⟨passed, reached, walked, known, height⟩ :=
      rooted.walkDown_exists rightKnown (Nat.sub_le right.number left.number)
    obtain ⟨oldChain, newChain, meets⟩ := rooted.commonAncestor_exists leftKnown known rfl (by omega)
    rw [if_neg longer]
    simp only [walked, meets]
    exact ⟨_, rfl⟩

theorem foldl_writeHeadBlock_blocks (blocks : List Block) (chain : BlockChain) :
    (blocks.foldl writeHeadBlock chain).blocks = chain.blocks := by
  induction blocks generalizing chain with
  | nil => rfl
  | cons block rest ih => exact ih _

theorem setHead_eq (rooted : chain.Rooted genesis) (known : block ∈ chain.blocks) :
    chain.setHead block = .ok ⟨chain.blocks, block⟩ := by
  unfold setHead
  split
  · obtain ⟨chains, found⟩ := rooted.reorgChains_exists rooted.head known
    unfold reorg
    rw [found]
    show Except.ok (BlockChain.mk (List.foldl writeHeadBlock chain _).blocks block) = _
    rw [foldl_writeHeadBlock_blocks]
  · rfl

end Rooted

end BlockChain

/-! ### Runs -/

/-- A block executed for the first time or again, or a known block presented again. -/
inductive ChainEvent where
  | execute (block : Block)
  | known (block : Block)

def BlockChain.step (chain : BlockChain) : ChainEvent → Except ChainError BlockChain
  | .execute block => do
    let written ← chain.writeBlockAndSetHead block
    .ok written.2
  | .known block => chain.writeKnownBlock block

def BlockChain.run (chain : BlockChain) (events : List ChainEvent) : Except ChainError BlockChain :=
  events.foldlM BlockChain.step chain

def knownAfter (known : List Block) : List ChainEvent → List Block
  | [] => known
  | .execute block :: rest => knownAfter (block :: known) rest
  | .known _ :: rest => knownAfter known rest

/-- Blocks are executed after their parents, and only executed blocks are presented as known. -/
def ParentFirst (known : List Block) : List ChainEvent → Prop
  | [] => True
  | .execute block :: rest =>
    (∃ parent ∈ known, parent.hash = block.parentHash ∧ block.number = parent.number + 1) ∧
      ParentFirst (block :: known) rest
  | .known block :: rest => block ∈ known ∧ ParentFirst known rest

theorem subset_knownAfter (known : List Block) (events : List ChainEvent) :
    known ⊆ knownAfter known events := by
  induction events generalizing known with
  | nil => exact List.Subset.refl _
  | cons event rest ih =>
    cases event with
    | execute block => exact List.Subset.trans (List.subset_cons_self block known) (ih _)
    | known block => exact ih known

theorem ParentFirst.tail {known : List Block} {event : ChainEvent} {rest : List ChainEvent}
    (order : ParentFirst known (event :: rest)) : ParentFirst (knownAfter known [event]) rest := by
  cases event with
  | execute block => exact order.2
  | known block => exact order.2

theorem knownAfter_cons (known : List Block) (event : ChainEvent) (rest : List ChainEvent) :
    knownAfter known (event :: rest) = knownAfter (knownAfter known [event]) rest := by
  cases event <;> rfl

namespace BlockChain

variable {genesis block : Block} {chain : BlockChain}

def BestHead (chain : BlockChain) : Prop := ∀ block ∈ chain.blocks, block.rank ≤ chain.head.rank

def better (head block : Block) : Block := if block.rank ≤ head.rank then head else block

theorem rank_le_better (head block : Block) :
    head.rank ≤ (better head block).rank ∧ block.rank ≤ (better head block).rank := by
  unfold better
  split
  · rename_i worse
    exact ⟨le_rfl, worse⟩
  · rename_i preferred
    exact ⟨(Nat.lt_of_not_le preferred).le, le_rfl⟩

theorem writeKnownBlock_eq (rooted : chain.Rooted genesis) (known : block ∈ chain.blocks) :
    chain.writeKnownBlock block = .ok ⟨chain.blocks, better chain.head block⟩ := by
  unfold writeKnownBlock better
  by_cases worse : block.rank ≤ chain.head.rank
  · rw [if_pos (refusesHead_iff.mpr worse), if_pos worse]
  · rw [if_neg (mt refusesHead_iff.mp worse), if_neg worse]
    exact rooted.setHead_eq known

theorem Rooted.writeBlock (rooted : chain.Rooted genesis)
    (parent : ∃ parent ∈ chain.blocks, parent.hash = block.parentHash ∧ block.number = parent.number + 1)
    (fresh : ∀ other ∈ chain.blocks, block.hash = other.hash → block = other) :
    (chain.writeBlock block).Rooted genesis := by
  refine ⟨⟨List.mem_cons_of_mem _ rooted.start.1, rooted.start.2⟩, ?_, ?_, List.mem_cons_of_mem _ rooted.head⟩
  · intro other member
    have keep {child : Block} (found : ∃ parent ∈ chain.blocks, parent.hash = child.parentHash ∧
        child.number = parent.number + 1) : ∃ parent ∈ block :: chain.blocks,
          parent.hash = child.parentHash ∧ child.number = parent.number + 1 := by
      obtain ⟨parent, known, linked⟩ := found
      exact ⟨parent, List.mem_cons_of_mem _ known, linked⟩
    rcases List.mem_cons.mp member with rfl | old
    · exact .inr (keep parent)
    · exact (rooted.parents other old).imp_right keep
  · intro first member second other same
    rcases List.mem_cons.mp member with rfl | old
    · rcases List.mem_cons.mp other with rfl | older
      · rfl
      · exact fresh second older same
    · rcases List.mem_cons.mp other with rfl | older
      · exact (fresh first old same.symm).symm
      · exact rooted.identified first old second older same

theorem writeBlockAndSetHead_eq (rooted : chain.Rooted genesis)
    (parent : ∃ parent ∈ chain.blocks, parent.hash = block.parentHash ∧ block.number = parent.number + 1)
    (fresh : ∀ other ∈ chain.blocks, block.hash = other.hash → block = other) :
    ∃ status, chain.writeBlockAndSetHead block =
      .ok (status, ⟨block :: chain.blocks, better chain.head block⟩) := by
  obtain ⟨above, known, hash, number⟩ := parent
  obtain ⟨found, _, lookup, _⟩ := parent?_of_mem known hash number
  have present : ensure (chain.parent? block ≠ none) ChainError.unknownAncestor = .ok () :=
    ensure_ok_iff.mpr (lookup ▸ Option.some_ne_none found)
  have written := rooted.writeBlock ⟨above, known, hash, number⟩ fresh
  unfold writeBlockAndSetHead better
  simp only [present]
  by_cases worse : block.rank ≤ chain.head.rank
  · refine ⟨.side, ?_⟩
    rw [if_pos worse]
    exact if_pos (refusesHead_iff.mpr worse)
  · refine ⟨.canon, ?_⟩
    rw [if_neg worse]
    refine (if_neg (mt refusesHead_iff.mp worse)).trans ?_
    rw [written.setHead_eq List.mem_cons_self]
    rfl

structure Settled (genesis : Block) (known : List Block) (chain : BlockChain) : Prop where
  rooted : chain.Rooted genesis
  blocks : chain.blocks = known
  best : chain.BestHead

theorem Settled.step {known : List Block} {event : ChainEvent} {rest : List ChainEvent}
    (settled : chain.Settled genesis known) (order : ParentFirst known (event :: rest))
    (hashes : ∀ block ∈ knownAfter known [event], ∀ other ∈ knownAfter known [event],
      block.hash = other.hash → block = other) :
    ∃ next, chain.step event = .ok next ∧ next.Settled genesis (knownAfter known [event]) ∧
      (next.head = chain.head ∨ chain.head.rank < next.head.rank) := by
  obtain ⟨rooted, rfl, best⟩ := settled
  have moves (block : Block) : better chain.head block = chain.head ∨
      chain.head.rank < (better chain.head block).rank := by
    unfold better
    split
    · exact .inl rfl
    · rename_i preferred
      exact .inr (Nat.lt_of_not_le preferred)
  cases event with
  | execute block =>
    obtain ⟨parent, _⟩ := order
    have fresh := fun other member => hashes block List.mem_cons_self other (List.mem_cons_of_mem _ member)
    obtain ⟨status, written⟩ := writeBlockAndSetHead_eq rooted parent fresh
    have wider := rooted.writeBlock parent fresh
    refine ⟨⟨block :: chain.blocks, better chain.head block⟩, ?_, ⟨⟨wider.start, wider.parents,
      wider.identified, ?_⟩, rfl, ?_⟩, moves block⟩
    · exact bind_ok_iff.mpr ⟨_, written, rfl⟩
    · unfold better
      split
      · exact wider.head
      · exact List.mem_cons_self
    · intro other member
      obtain ⟨aboveHead, aboveBlock⟩ := rank_le_better chain.head block
      rcases List.mem_cons.mp member with rfl | old
      · exact aboveBlock
      · exact (best other old).trans aboveHead
  | known block =>
    obtain ⟨member, _⟩ := order
    -- the head is the best of all known blocks, so nothing moves
    have same : better chain.head block = chain.head := if_pos (best block member)
    refine ⟨chain, ?_, ⟨rooted, rfl, best⟩, .inl rfl⟩
    show chain.writeKnownBlock block = .ok chain
    rw [writeKnownBlock_eq rooted member, same]

theorem Settled.run {known : List Block} {events : List ChainEvent}
    (settled : chain.Settled genesis known) (order : ParentFirst known events)
    (hashes : ∀ block ∈ knownAfter known events, ∀ other ∈ knownAfter known events,
      block.hash = other.hash → block = other) :
    (∃ last, chain.run events = .ok last ∧ last.Settled genesis (knownAfter known events)) ∧
      ∀ before event after, events = before ++ event :: after →
        ∃ earlier later, chain.run before = .ok earlier ∧ earlier.step event = .ok later ∧
          (later.head = earlier.head ∨ earlier.head.rank < later.head.rank) := by
  induction events generalizing chain known with
  | nil =>
    refine ⟨⟨chain, rfl, settled⟩, fun before event after split => ?_⟩
    simp at split
  | cons event rest ih =>
    rw [knownAfter_cons] at hashes ⊢
    have sub := subset_knownAfter (knownAfter known [event]) rest
    obtain ⟨next, first, nextSettled, moves⟩ := settled.step order fun block member other otherMember =>
      hashes block (sub member) other (sub otherMember)
    obtain ⟨⟨last, ran, lastSettled⟩, steps⟩ := ih nextSettled order.tail hashes
    have run_cons {later : List ChainEvent} {result : BlockChain} (onward : next.run later = .ok result) :
        chain.run (event :: later) = .ok result := by
      unfold BlockChain.run at onward ⊢
      rw [List.foldlM_cons, first]
      exact onward
    refine ⟨⟨last, run_cons ran, lastSettled⟩, fun before called after split => ?_⟩
    cases before with
    | nil =>
      obtain ⟨rfl, _⟩ := List.cons.inj split
      exact ⟨chain, next, rfl, first, moves⟩
    | cons earlierEvent before =>
      obtain ⟨rfl, further⟩ := List.cons.inj split
      obtain ⟨earlier, later, ranBefore, stepped, moved⟩ := steps before called after further
      exact ⟨earlier, later, run_cons ranBefore, stepped, moved⟩

end BlockChain

/-- A block is better than another: higher, or as high with a smaller hash. -/
def Block.Better (block other : Block) : Prop :=
  other.number < block.number ∨ (other.number = block.number ∧ block.hash.toNat < other.hash.toNat)

/-- Whatever the order in which blocks are executed after their parents and presented again, every
call succeeds, the head never moves to a worse block, and it ends at the one block better than all
the others, the same for every order. -/
theorem fork_choice_order_independent {genesis : Block} {events : List ChainEvent}
    (first : genesis.number = 0) (order : ParentFirst [genesis] events)
    (hashes : ∀ block ∈ knownAfter [genesis] events, ∀ other ∈ knownAfter [genesis] events,
      block.hash = other.hash → block = other) :
    ∃ chain, BlockChain.run ⟨[genesis], genesis⟩ events = .ok chain ∧
      chain.head ∈ knownAfter [genesis] events ∧
      (∀ block ∈ knownAfter [genesis] events, block ≠ chain.head → chain.head.Better block) ∧
      (∀ before event after, events = before ++ event :: after →
        ∃ earlier later, BlockChain.run ⟨[genesis], genesis⟩ before = .ok earlier ∧
          earlier.step event = .ok later ∧
          (later.head = earlier.head ∨ later.head.Better earlier.head)) ∧
      ∀ events', ParentFirst [genesis] events' →
        (∀ block, block ∈ knownAfter [genesis] events' ↔ block ∈ knownAfter [genesis] events) →
        ∃ chain', BlockChain.run ⟨[genesis], genesis⟩ events' = .ok chain' ∧ chain'.head = chain.head := by
  have start : BlockChain.Settled genesis [genesis] ⟨[genesis], genesis⟩ := by
    refine ⟨⟨⟨List.mem_singleton_self _, first⟩, fun block member => .inl (List.mem_singleton.mp member), ?_,
      List.mem_singleton_self _⟩, rfl, ?_⟩
    · intro block member other also _
      exact (List.mem_singleton.mp member).trans (List.mem_singleton.mp also).symm
    · intro block member
      exact (congrArg Block.rank (List.mem_singleton.mp member)).le
  obtain ⟨⟨chain, ran, rooted, blocks, best⟩, steps⟩ := start.run order hashes
  have headKnown : chain.head ∈ knownAfter [genesis] events := blocks ▸ rooted.head
  refine ⟨chain, ran, headKnown, ?_, ?_, ?_⟩
  · intro block member different
    have bound := best block (blocks.symm ▸ member)
    refine Block.rank_lt_iff.mp (lt_of_le_of_ne bound fun same => different ?_)
    exact Block.eq_of_rank hashes member headKnown same
  · intro before event after split
    obtain ⟨earlier, later, ranBefore, stepped, moved⟩ := steps before event after split
    exact ⟨earlier, later, ranBefore, stepped, moved.imp_right Block.rank_lt_iff.mp⟩
  · intro events' order' members
    have hashes' : ∀ block ∈ knownAfter [genesis] events', ∀ other ∈ knownAfter [genesis] events',
        block.hash = other.hash → block = other := fun block member other also =>
      hashes block ((members block).mp member) other ((members other).mp also)
    obtain ⟨⟨chain', ran', rooted', blocks', best'⟩, _⟩ := start.run order' hashes'
    have headKnown' : chain'.head ∈ knownAfter [genesis] events :=
      (members _).mp (blocks' ▸ rooted'.head)
    have below := best chain'.head (blocks.symm ▸ headKnown')
    have above := best' chain.head (blocks'.symm ▸ (members _).mpr headKnown)
    exact ⟨chain', ran', Block.eq_of_rank hashes headKnown' headKnown (le_antisymm below above)⟩

/-- Two blocks of height one, then a block on the one that lost, then the other again. -/
def forkEvents : List ChainEvent :=
  [.execute ⟨1, 5, 9⟩, .execute ⟨1, 3, 9⟩, .execute ⟨2, 7, 5⟩, .known ⟨1, 3, 9⟩]

theorem fork_choice_order_independent_fork :
    ∃ chain, BlockChain.run ⟨[⟨0, 9, 0⟩], ⟨0, 9, 0⟩⟩ forkEvents = .ok chain ∧ chain.head = ⟨2, 7, 5⟩ ∧
      chain.head.Better ⟨1, 3, 9⟩ := by
  have order : ParentFirst [⟨0, 9, 0⟩] forkEvents := by
    refine ⟨⟨⟨0, 9, 0⟩, by decide⟩, ⟨⟨0, 9, 0⟩, by decide⟩, ⟨⟨1, 5, 9⟩, by decide⟩, by decide, trivial⟩
  obtain ⟨chain, ran, _, better, _⟩ := fork_choice_order_independent rfl order (by decide)
  have head : chain.head = ⟨2, 7, 5⟩ := by
    have computed : BlockChain.run ⟨[⟨0, 9, 0⟩], ⟨0, 9, 0⟩⟩ forkEvents =
        .ok ⟨[⟨2, 7, 5⟩, ⟨1, 3, 9⟩, ⟨1, 5, 9⟩, ⟨0, 9, 0⟩], ⟨2, 7, 5⟩⟩ := by decide +kernel
    exact congrArg BlockChain.head (Except.ok.inj (ran.symm.trans computed))
  exact ⟨chain, ran, head, better _ (by decide) (head ▸ by decide)⟩

end RabbitLqc
