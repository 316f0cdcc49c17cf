import RabbitLqc.Engine.Rebuild
import RabbitLqc.Engine.Sample

/-!
# Batches of headers

Header sync checks a whole batch before it inserts any of it. Headers that passed are laid over the
chain, so that a later one finds its parent and its ancestors among them, and the block of a height.
On a chain of verified headers the outcome is that of checking the headers one at a time, each added
to the chain once it passed, unless the batch brings another genesis: nothing is checked about it,
and the states of the chain can then no longer be rebuilt.
-/

namespace RabbitLqc
open Lib

/-! ### What the engine sees of a chain -/

/-- The headers a chain finds by hash and number, each with the states that follow from it, the hash
marked canonical at each height, zero where none is, and the header it finds by number alone. -/
structure ChainView (crypto : Crypto) where
  entry : Hash → Nat → Option Entry
  canonical : Nat → Hash
  byNumber : Nat → Option Header
  found : ∀ {hash number known}, entry hash number = some known →
    known.header.hash crypto = hash ∧ known.header.number = number

namespace ChainView

variable {crypto : Crypto} (view : ChainView crypto)

def getHeader (hash : Hash) (number : Nat) : Option Header :=
  (view.entry hash number).map (·.header)

/-- The branch below a block, as far down as the chain has headers for it. -/
def branchAt : Nat → Hash → Branch
  | 0, hash => (view.entry hash 0).toList
  | number + 1, hash =>
    match view.entry hash (number + 1) with
    | none => []
    | some known => known :: branchAt number known.header.parentHash

def Knows (header : Header) : Prop := ∃ hash number, view.getHeader hash number = some header

/-! ### Ancestors -/

/-- Canonical blocks form one chain, and only the genesis has no parent. -/
structure Linked : Prop where
  marked : ∀ {number}, view.canonical number ≠ 0 →
    ∃ header, view.getHeader (view.canonical number) number = some header ∧
      (number ≠ 0 → view.canonical (number - 1) = header.parentHash)
  rooted : ∀ {hash number header}, view.getHeader hash number = some header → number ≠ 0 → header.parentHash ≠ 0

section Ancestors

variable {view : ChainView crypto} {targetNumber number : Nat} {hash : Hash} {header : Header}

end Ancestors

def addEntry (known : Entry) (hash : Hash) (number : Nat) : Option Entry :=
  if hash = known.header.hash crypto ∧ number = known.header.number then some known else view.entry hash number

/-- The chain with one more block, and the canonical marks it then has. -/
def add (known : Entry) (canonical : Nat → Hash) : ChainView crypto where
  entry := view.addEntry known
  canonical
  byNumber number := (view.addEntry known (canonical number) number).map (·.header)
  found := by
    intro hash number other find
    unfold addEntry at find
    split at find
    · next here =>
      obtain rfl := Option.some.inj find
      exact ⟨here.1.symm, here.2.symm⟩
    · exact view.found find

end ChainView

/-! ### The overlay -/

/-- The headers of a batch that passed, over the chain. The index of the chain does not show through
it. -/
structure VerifiedHeaderChain (crypto : Crypto) where
  chain : ChainView crypto
  byHash : Hash → Option Entry
  byNumber : Nat → Option Header
  hashed : ∀ {hash known}, byHash hash = some known → known.header.hash crypto = hash

namespace VerifiedHeaderChain

variable {crypto : Crypto}

def newVerifiedHeaderChain (chain : ChainView crypto) : VerifiedHeaderChain crypto where
  chain
  byHash _ := none
  byNumber _ := none
  hashed := by simp

variable (batch : VerifiedHeaderChain crypto)

def remember (known : Entry) : VerifiedHeaderChain crypto where
  chain := batch.chain
  byHash := Function.update batch.byHash (known.header.hash crypto) (some known)
  byNumber := Function.update batch.byNumber known.header.number (some known.header)
  hashed := by
    intro hash other find
    by_cases same : hash = known.header.hash crypto
    · subst same
      rw [Function.update_self] at find
      rw [Option.some.inj find]
    · rw [Function.update_of_ne same] at find
      exact batch.hashed find

def entry (hash : Hash) (number : Nat) : Option Entry :=
  match batch.byHash hash with
  | none => batch.chain.entry hash number
  | some known => if known.header.number = number then some known else batch.chain.entry hash number

def getHeaderByNumber (number : Nat) : Option Header := (batch.byNumber number).or (batch.chain.byNumber number)

def view : ChainView crypto where
  entry := batch.entry
  canonical := batch.chain.canonical
  byNumber := batch.getHeaderByNumber
  found := by
    intro hash number known find
    unfold entry at find
    split at find
    · exact batch.chain.found find
    · next other kept =>
      split at find
      · next level =>
        obtain rfl := Option.some.inj find
        exact ⟨batch.hashed kept, level⟩
      · exact batch.chain.found find

variable {batch} {known : Entry} {hash : Hash} {number : Nat}

theorem byHash_remember :
    (batch.remember known).byHash = Function.update batch.byHash (known.header.hash crypto) (some known) := rfl

theorem entry_remember_self : (batch.remember known).entry (known.header.hash crypto) number =
    if known.header.number = number then some known
    else batch.chain.entry (known.header.hash crypto) number := by
  rw [entry, byHash_remember, Function.update_self]
  rfl

theorem entry_remember_of_ne (other : hash ≠ known.header.hash crypto) :
    (batch.remember known).entry hash number = batch.entry hash number := by
  rw [entry, byHash_remember, Function.update_of_ne other]
  rfl

end VerifiedHeaderChain

/-! ### Verification -/

namespace LQC

variable (lqc : LQC)

/-- The engine after it accepted some headers, newest first: those below the registry protocol entered
the participant table of the process. -/
def after (participants : List Header → Branch → Header → HybridSelection) (accepted : List Header) : LQC :=
  { lqc with legacySelection := participants accepted }

/-- A header against a chain, by an engine that holds the states of some blocks. The parent of a batch is
known before the chain is asked. -/
def verifyHeaderOn (view : ChainView lqc.crypto) (holds : Hash → Bool) (batchParent : Option Header) (header : Header)
    (unixNow : Nat) : Except LqcError Entry :=
  if maxUint64 < header.number then .error .invalidBlockNumber
  else if header.number = 0 then .ok (lqc.genesisEntry header)
  else match batchParent.or (view.getHeader header.parentHash (header.number - 1)) with
    | none => .error .unknownAncestor
    | some parent =>
      if header.number ≠ parent.number + 1 then .error .invalidBlockNumber
      else
        let states := lqc.workV1EngineLabRuntimeAt view.byNumber holds
          (view.branchAt (header.number - 1) header.parentHash)
        lqc.verifyHeaderAt states header unixNow

variable (participants : List Header → Branch → Header → HybridSelection) (holds : List Header → Hash → Bool)
  (unixNow : Nat)

def verifyHeadersFrom (batch : VerifiedHeaderChain lqc.crypto) (verified : Hash → Option Header)
    (accepted : List Header) : List Header → List (Except LqcError Unit)
  | [] => []
  | header :: headers =>
    match (lqc.after participants accepted).verifyHeaderOn batch.view (holds accepted) (verified header.parentHash)
        header unixNow with
    | .error error => .error error :: verifyHeadersFrom batch verified accepted headers
    | .ok known =>
      .ok () :: verifyHeadersFrom (batch.remember known)
        (Function.update verified (header.hash lqc.crypto) (some header)) (header :: accepted) headers

/-- One header at a time: each that passed is added to the chain, which marks what it then holds
canonical. -/
def verifyEach (marks : List Header → Nat → Hash) (chain : ChainView lqc.crypto) (accepted : List Header) :
    List Header → List (Except LqcError Unit)
  | [] => []
  | header :: headers =>
    match (lqc.after participants accepted).verifyHeaderOn chain (holds accepted) none header unixNow with
    | .error error => .error error :: verifyEach marks chain accepted headers
    | .ok known =>
      .ok () :: verifyEach marks (chain.add known (marks (header :: accepted))) (header :: accepted) headers

end LQC

section Agreement

variable {lqc : LQC} {view origin chain : ChainView lqc.crypto} {header genesis : Header} {unixNow : Nat}
    {known : Entry} {holds : Hash → Bool} {hash : Hash} {number : Nat} {table : Branch → Header → HybridSelection}

theorem ChainView.branchAt_congr {crypto : Crypto} {left right : ChainView crypto}
    (same : left.entry = right.entry) (number : Nat) (hash : Hash) :
    left.branchAt number hash = right.branchAt number hash := by
  induction number generalizing hash with
  | zero =>
    unfold ChainView.branchAt
    rw [same]
  | succ number ih =>
    unfold ChainView.branchAt
    rw [same]
    split
    · rfl
    · rw [ih]

/-! ### Chains of verified headers -/

/-- Everything a chain finds was verified over its genesis. -/
structure ChainView.Verified (lqc : LQC) (genesis : Header) (view : ChainView lqc.crypto) : Prop where
  numbered : view.byNumber 0 = some genesis
  rooted : view.entry (genesis.hash lqc.crypto) 0 = some (lqc.genesisEntry genesis)
  grown : ∀ {hash number known}, view.entry hash number = some known → Grown lqc genesis (view.branchAt number hash)

theorem ChainView.exists_entry (some : view.branchAt number hash ≠ []) :
    ∃ known, view.entry hash number = .some known := by
  cases find : view.entry hash number with
  | some known => exact ⟨known, rfl⟩
  | none =>
    cases number with
    | zero => exact absurd (by unfold ChainView.branchAt; rw [find]; rfl) some
    | succ number => exact absurd (by unfold ChainView.branchAt; rw [find]) some

theorem ChainView.Verified.runtimeAt_eq (sound : chain.Verified lqc genesis) {byNumber : Nat → Option Header}
    (numbered : byNumber 0 = some genesis) (holds : Hash → Bool) (table : Branch → Header → HybridSelection)
    (number : Nat) (hash : Hash) :
    LQC.workV1EngineLabRuntimeAt { lqc with legacySelection := table } byNumber holds (chain.branchAt number hash) =
      chain.branchAt number hash := by
  by_cases empty : chain.branchAt number hash = []
  · rw [empty]
    rfl
  · obtain ⟨known, find⟩ := ChainView.exists_entry empty
    exact (sound.grown find).runtimeAt_eq numbered holds table

/-- A header that passed on such a chain is its genesis, or extends the branch of its parent. -/
theorem ChainView.Verified.accepts (sound : chain.Verified lqc genesis)
    (own : header.number = 0 → header = genesis)
    (verified : LQC.verifyHeaderOn { lqc with legacySelection := table } chain holds none header unixNow = .ok known) :
    known.header = header ∧ (known = lqc.genesisEntry genesis ∧ header.number = 0 ∨
      ∃ below, header.number = below + 1 ∧ LQC.verifyHeaderAt { lqc with legacySelection := table }
        (chain.branchAt below header.parentHash) header unixNow = .ok known) := by
  unfold LQC.verifyHeaderOn at verified
  split at verified
  · cases verified
  · split at verified
    · next first =>
      obtain rfl := Except.ok.inj verified
      exact ⟨rfl, .inl ⟨by rw [own first]; rfl, first⟩⟩
    · next above =>
      split at verified
      · cases verified
      · split at verified
        · cases verified
        · dsimp only at verified
          rw [sound.runtimeAt_eq sound.numbered holds table] at verified
          exact ⟨verifyHeaderAt_header verified, .inr ⟨header.number - 1, by omega, verified⟩⟩

theorem ChainView.entry_add (canonical : Nat → Hash)
    (same : ∀ other, chain.entry (known.header.hash lqc.crypto) known.header.number = some other → other = known)
    {other : Entry} (find : chain.entry hash number = some other) :
    (chain.add known canonical).entry hash number = some other := by
  show (if _ then _ else _) = _
  split
  · next here =>
    rw [here.1, here.2] at find
    rw [same other find]
  · exact find

theorem ChainView.branchAt_add (canonical : Nat → Hash)
    (same : ∀ other, chain.entry (known.header.hash lqc.crypto) known.header.number = some other → other = known)
    (grown : Grown lqc genesis (chain.branchAt number hash)) :
    (chain.add known canonical).branchAt number hash = chain.branchAt number hash := by
  obtain ⟨other, find⟩ := ChainView.exists_entry grown.ne_nil
  have added := ChainView.entry_add canonical same find
  induction number generalizing hash other with
  | zero =>
    unfold ChainView.branchAt
    rw [find, added]
  | succ number ih =>
    unfold ChainView.branchAt at grown ⊢
    rw [find] at grown ⊢
    rw [added]
    dsimp only at grown ⊢
    have below := grown.tail (by rw [(chain.found find).2]; exact Nat.succ_ne_zero number)
    obtain ⟨older, find⟩ := ChainView.exists_entry below.ne_nil
    rw [ih below older find (ChainView.entry_add canonical same find)]

/-- A header that is verified again has the entry the chain knows it with. -/
theorem ChainView.Verified.unique (sound : chain.Verified lqc genesis) (own : header.number = 0 → header = genesis)
    (verified : LQC.verifyHeaderOn { lqc with legacySelection := table } chain holds none header unixNow = .ok known)
    {other : Entry} (find : chain.entry hash number = some other) (alike : other.header = header) : other = known := by
  have level : other.header.number = number := (chain.found find).2
  have grown := sound.grown find
  obtain ⟨_, ⟨rfl, first⟩ | ⟨below, above, again⟩⟩ := sound.accepts own verified
  · obtain rfl : number = 0 := by rw [← level, alike, first]
    unfold ChainView.branchAt at grown
    rw [find] at grown
    cases grown with
    | genesis _ => rfl
    | extend _ below _ => exact absurd rfl below.ne_nil
  · obtain rfl : number = below + 1 := by rw [← level, alike, above]
    unfold ChainView.branchAt at grown
    rw [find] at grown
    dsimp only at grown
    rw [alike] at grown
    generalize chain.branchAt below header.parentHash = branch at grown again
    cases grown with
    | genesis first =>
      rw [show genesis.number = below + 1 from level] at first
      cases first
    | extend _ _ before =>
      obtain rfl := (verifyHeaderAt_header before).symm.trans alike
      exact verifyHeaderAt_entry before again

theorem ChainView.Verified.add (sound : chain.Verified lqc genesis) (own : header.number = 0 → header = genesis)
    (verified : LQC.verifyHeaderOn { lqc with legacySelection := table } chain holds none header unixNow = .ok known)
    (fresh : ∀ other, chain.Knows other → header.hash lqc.crypto = other.hash lqc.crypto → header = other)
    {canonical : Nat → Hash} (marked : canonical 0 = genesis.hash lqc.crypto) :
    (chain.add known canonical).Verified lqc genesis := by
  obtain ⟨written, passed⟩ := sound.accepts own verified
  have same : ∀ other, chain.entry (known.header.hash lqc.crypto) known.header.number = some other → other = known := by
    intro other find
    have knows : chain.Knows other.header := ⟨_, _, by rw [ChainView.getHeader, find]; rfl⟩
    refine sound.unique own verified find (fresh other.header knows ?_).symm
    rw [(chain.found find).1, written]
  have rooted := ChainView.entry_add canonical same sound.rooted
  refine ⟨?_, rooted, ?_⟩
  · show ((chain.add known canonical).entry (canonical 0) 0).map _ = _
    rw [marked, rooted]
    rfl
  · intro hash number other find
    cases kept : chain.entry hash number with
    | some older =>
      have grown := sound.grown kept
      rw [ChainView.branchAt_add canonical same grown]
      exact grown
    | none =>
      have here : hash = known.header.hash lqc.crypto ∧ number = known.header.number := by
        by_contra elsewhere
        have : (chain.add known canonical).entry hash number = chain.entry hash number := if_neg elsewhere
        rw [this, kept] at find
        cases find
      have added : (chain.add known canonical).entry hash number = some known := if_pos here
      obtain ⟨rfl, first⟩ | ⟨below, above, again⟩ := passed
      · rw [here.1, here.2] at kept
        have known := sound.rooted
        rw [show (lqc.genesisEntry genesis).header.number = 0 from (congrArg Header.number written).trans first] at kept
        cases kept.symm.trans known
      · obtain rfl : number = below + 1 := by rw [here.2, written, above]
        have grown : Grown lqc genesis (chain.branchAt below header.parentHash) := by
          have some : chain.branchAt below header.parentHash ≠ [] := by
            intro empty
            rw [empty] at again
            cases again
          obtain ⟨parent, find⟩ := ChainView.exists_entry some
          exact sound.grown find
        unfold ChainView.branchAt
        rw [added]
        dsimp only
        rw [written, ChainView.branchAt_add canonical same grown]
        exact .extend table grown again

/-! ### The batch and the chain -/

/-- Headers of a batch share their hash with no other header of the batch or the chain. -/
def Apart (view : ChainView lqc.crypto) (headers : List Header) : Prop :=
  ∀ left ∈ headers, ∀ right, right ∈ headers ∨ view.Knows right →
    left.hash lqc.crypto = right.hash lqc.crypto → left = right

/-- The overlay over the chain it began with, and the chain grown by the same headers. -/
structure Agrees (genesis : Header) (origin : ChainView lqc.crypto) (headers : List Header)
    (batch : VerifiedHeaderChain lqc.crypto) (verified : Hash → Option Header) (chain : ChainView lqc.crypto) :
    Prop where
  base : batch.chain = origin
  entries : batch.entry = chain.entry
  parents : ∀ hash, verified hash = (batch.byHash hash).map (·.header)
  within : ∀ {hash known}, batch.byHash hash = some known → known.header ∈ headers
  numbered : batch.getHeaderByNumber 0 = some genesis
  sound : chain.Verified lqc genesis

variable {headers : List Header} {batch : VerifiedHeaderChain lqc.crypto} {verified : Hash → Option Header}

theorem Agrees.start (sound : origin.Verified lqc genesis) :
    Agrees genesis origin headers (.newVerifiedHeaderChain origin) (fun _ => none) origin where
  base := rfl
  entries := rfl
  parents _ := rfl
  within := by
    intro hash known find
    cases find
  numbered := sound.numbered
  sound := sound

theorem Agrees.knows (agrees : Agrees genesis origin headers batch verified chain) {other : Header}
    (knows : chain.Knows other) : other ∈ headers ∨ origin.Knows other := by
  obtain ⟨hash, number, find⟩ := knows
  obtain ⟨known, entry, rfl⟩ := Option.map_eq_some_iff.mp find
  have find : batch.entry hash number = some known := by
    rw [agrees.entries]
    exact entry
  have below : batch.chain.entry hash number = some known → origin.Knows known.header := by
    intro found
    rw [agrees.base] at found
    exact ⟨hash, number, by rw [ChainView.getHeader, found]; rfl⟩
  unfold VerifiedHeaderChain.entry at find
  split at find
  · exact .inr (below find)
  · next kept =>
    split at find
    · obtain rfl := Option.some.inj find
      exact .inl (agrees.within kept)
    · exact .inr (below find)

theorem Agrees.entry_of_level (agrees : Agrees genesis origin headers batch verified chain)
    (apart : Apart origin headers)
    (kept : batch.byHash hash = some known) (off : known.header.number ≠ number) : batch.entry hash number = none := by
  cases find : batch.entry hash number with
  | none => rfl
  | some other =>
    obtain ⟨hashed, level⟩ := batch.view.found find
    have knows : chain.Knows other.header := ⟨hash, number, by rw [ChainView.getHeader, ← agrees.entries, find]; rfl⟩
    have same := apart _ (agrees.within kept) _ (agrees.knows knows) ((batch.hashed kept).trans hashed.symm)
    rw [same] at off
    exact absurd level off

theorem Agrees.entry_chain (agrees : Agrees genesis origin headers batch verified chain) (apart : Apart origin headers)
    (member : known.header ∈ headers) (off : known.header.number ≠ number) :
    batch.entry (known.header.hash lqc.crypto) number = batch.chain.entry (known.header.hash lqc.crypto) number := by
  unfold VerifiedHeaderChain.entry
  split
  · rfl
  · next other kept =>
    have same := apart _ (agrees.within kept) _ (.inl member) (batch.hashed kept)
    exact if_neg (by rw [same]; exact off)

theorem Agrees.verifyHeaderOn_iff (agrees : Agrees genesis origin headers batch verified chain)
    (apart : Apart origin headers) (table : Branch → Header → HybridSelection) (holds others : Hash → Bool) :
    LQC.verifyHeaderOn { lqc with legacySelection := table } batch.view holds
      (verified header.parentHash) header unixNow =
        .ok known ↔
      LQC.verifyHeaderOn { lqc with legacySelection := table } chain others none header unixNow = .ok known := by
  have lookups : ∀ number, batch.view.getHeader header.parentHash number =
      chain.getHeader header.parentHash number := by
    intro number
    exact congrArg (·.map Entry.header) (congrFun (congrFun agrees.entries header.parentHash) number)
  have branches := ChainView.branchAt_congr (show batch.view.entry = chain.entry from agrees.entries)
    (header.number - 1) header.parentHash
  unfold LQC.verifyHeaderOn
  dsimp only
  rw [branches, lookups, agrees.parents, Option.none_or, agrees.sound.runtimeAt_eq agrees.sound.numbered others table,
    agrees.sound.runtimeAt_eq (show batch.view.byNumber 0 = some genesis from agrees.numbered) holds table]
  cases kept : batch.byHash header.parentHash with
  | none => rfl
  | some parent =>
    by_cases level : parent.header.number = header.number - 1
    · -- the overlay answers for the parent as well
      have find : chain.getHeader header.parentHash (header.number - 1) = some parent.header := by
        rw [← lookups]
        show (batch.entry header.parentHash (header.number - 1)).map Entry.header = _
        rw [VerifiedHeaderChain.entry, kept]
        show (if parent.header.number = header.number - 1 then some parent else _).map Entry.header = _
        rw [if_pos level]
        rfl
      rw [find]
      rfl
    · have missing : chain.getHeader header.parentHash (header.number - 1) = none := by
        rw [← lookups]
        show (batch.entry header.parentHash (header.number - 1)).map Entry.header = none
        rw [agrees.entry_of_level apart kept level]
        rfl
      rw [missing]
      split
      · rfl
      · split
        · rfl
        · next positive =>
          have off : header.number ≠ parent.header.number + 1 := by omega
          show (if header.number ≠ parent.header.number + 1 then _ else _) = _ ↔ _
          rw [if_pos off]
          simp

theorem Agrees.add (agrees : Agrees genesis origin headers batch verified chain) (apart : Apart origin headers)
    (member : header ∈ headers) (own : header.number = 0 → header = genesis)
    (passed : LQC.verifyHeaderOn { lqc with legacySelection := table } chain holds none header unixNow = .ok known)
    {canonical : Nat → Hash} (marked : canonical 0 = genesis.hash lqc.crypto) :
    Agrees genesis origin headers (batch.remember known)
      (Function.update verified (header.hash lqc.crypto) (some header)) (chain.add known canonical) := by
  obtain ⟨rfl, _⟩ := agrees.sound.accepts own passed
  refine ⟨agrees.base, ?_, ?_, ?_, ?_, agrees.sound.add own passed ?_ marked⟩
  · funext hash number
    show (batch.remember known).entry hash number =
      if hash = known.header.hash lqc.crypto ∧ number = known.header.number then some known else chain.entry hash number
    rw [← agrees.entries]
    by_cases same : hash = known.header.hash lqc.crypto
    · subst same
      rw [VerifiedHeaderChain.entry_remember_self]
      by_cases level : known.header.number = number
      · rw [if_pos level, if_pos ⟨rfl, level.symm⟩]
      · rw [if_neg level, if_neg fun both => level both.2.symm]
        exact (agrees.entry_chain apart member level).symm
    · rw [VerifiedHeaderChain.entry_remember_of_ne same, if_neg fun both => same both.1]
  · intro hash
    by_cases same : hash = known.header.hash lqc.crypto
    · rw [VerifiedHeaderChain.byHash_remember, same, Function.update_self, Function.update_self]
      rfl
    · rw [VerifiedHeaderChain.byHash_remember, Function.update_of_ne same, Function.update_of_ne same]
      exact agrees.parents hash
  · intro hash other find
    rw [VerifiedHeaderChain.byHash_remember] at find
    by_cases same : hash = known.header.hash lqc.crypto
    · subst same
      rw [Function.update_self] at find
      rw [← Option.some.inj find]
      exact member
    · rw [Function.update_of_ne same] at find
      exact agrees.within find
  · show (Function.update batch.byNumber known.header.number (some known.header) 0).or (batch.chain.byNumber 0) = _
    by_cases first : known.header.number = 0
    · rw [first, Function.update_self, own first]
      rfl
    · rw [Function.update_of_ne (Ne.symm first)]
      exact agrees.numbered
  · intro other knows
    exact apart _ member _ (agrees.knows knows)

theorem Agrees.verifyHeadersFrom (participants : List Header → Branch → Header → HybridSelection)
    (holds others : List Header → Hash → Bool) {marks : List Header → Nat → Hash} (apart : Apart origin headers)
    (own : ∀ header ∈ headers, header.number = 0 → header = genesis)
    (marked : ∀ accepted, marks accepted 0 = genesis.hash lqc.crypto)
    (agrees : Agrees genesis origin headers batch verified chain) (accepted rest : List Header)
    (part : rest ⊆ headers) :
    (lqc.verifyHeadersFrom participants holds unixNow batch verified accepted rest).map Except.isOk =
      (lqc.verifyEach participants others unixNow marks chain accepted rest).map Except.isOk := by
  induction rest generalizing batch verified chain accepted with
  | nil => rfl
  | cons header rest ih =>
    obtain ⟨member, part⟩ := List.cons_subset.mp part
    have alike {known : Entry} : (lqc.after participants accepted).verifyHeaderOn batch.view (holds accepted)
          (verified header.parentHash) header unixNow = .ok known ↔
        (lqc.after participants accepted).verifyHeaderOn chain (others accepted) none header unixNow = .ok known :=
      agrees.verifyHeaderOn_iff apart (participants accepted) (holds accepted) (others accepted)
    unfold LQC.verifyHeadersFrom LQC.verifyEach
    cases outcome : (lqc.after participants accepted).verifyHeaderOn chain (others accepted) none header unixNow with
    | error error =>
      have refused : ∃ other, (lqc.after participants accepted).verifyHeaderOn batch.view (holds accepted)
          (verified header.parentHash) header unixNow = .error other := by
        refine exists_error_iff.mpr fun passed => ?_
        obtain ⟨known, passed⟩ := passed
        rw [alike.mp passed] at outcome
        cases outcome
      obtain ⟨other, refused⟩ := refused
      rw [refused]
      exact congrArg (false :: ·) (ih agrees accepted part)
    | ok known =>
      rw [alike.mpr outcome]
      have next := agrees.add apart member (own header member) outcome (marked (header :: accepted))
      exact congrArg (true :: ·) (ih next (header :: accepted) part)

end Agreement

end RabbitLqc
