import FPayNode.BlockRounds
import FPayNode.CerealJson
import FPayNode.LinkedRecords

/-!
The chain of blocks from the genesis block on. `createBlock` links the new
block to the one stored under `lastBlockKey`, and nothing ever writes that
key: either no block is linked at all, or every block is linked to genesis and
the next one takes its place.
-/

namespace FPayNode.BlockChain

open CommandProgram DecimalText RedisServer RedisCache Messages NodeService
open RootTransaction BlockCreation BlockRounds LinkedRecords CerealJson

section Chain
variable (config : Config) (cereal : Cereal) (rand : UInt32 → Nat → Nat)
variable (throws : Bytes → Bool) (memory : Uninitialized)

/-- Following `_next` from genesis meets the blocks in the order of their
creation, each naming the one before it. What is stored of a block differs
from what `createBlock` returned by the `_next` written since. -/
def Linked (servers : Servers) (blocks : List Block) : Prop :=
  ∃ first visited,
    Walk (readBlock config cereal throws memory servers) Block._next config.initBlockId
      (first :: visited) ∧
    visited.map (fun block => { block with _next := [] }) = blocks ∧
    (first :: visited).IsChain fun before block => block._prev = before._id

/-- The block service as the genesis block is stored in it, with a copy or
nothing where the last block is looked for. -/
structure RootStart (genesis : Block) (start : Servers) : Prop where
  clean : genesis.Clean
  id : genesis._id = config.initBlockId
  unlinked : genesis._next = []
  stored : Holds config cereal start config.initBlockId genesis
  last : (start config.dbService).lookup config.lastBlockKey = none ∨
    Holds config cereal start config.lastBlockKey genesis

/-- The id is that of no other record of the chain. -/
def Fresh (round : Round) : Prop :=
  round.id rand ≠ config.initBlockId ∧ round.id rand ≠ config.lastBlockKey

/-- The call finds transactions and all its commands succeed. -/
def Creates (servers : Servers) (round : Round) : Prop :=
  Filled config servers round ∧ Succeeds throws servers (playRound config cereal rand round)

instance (servers : Servers) (round : Round) :
    Decidable (Creates config cereal rand throws servers round) :=
  inferInstanceAs (Decidable (_ ∧ _))

/-- No last block is known: genesis stays as it is. -/
structure Unrecorded (genesis : Block) (servers : Servers) : Prop where
  absent : (servers config.dbService).lookup config.lastBlockKey = none
  first : Holds config cereal servers config.initBlockId genesis

/-- Genesis is taken for the last block, whatever was linked to it. -/
structure Recorded (genesis : Block) (servers : Servers) : Prop where
  last : ∃ next, CString next ∧
    Holds config cereal servers config.lastBlockKey { genesis with _next := next }
  first : ∃ next, CString next ∧
    Holds config cereal servers config.initBlockId { genesis with _next := next }

theorem relinked_clean (genesis : Block) (clean : genesis.Clean) (next : Bytes)
    (plain : CString next) : ({ genesis with _next := next } : Block).Clean :=
  ⟨clean.1, clean.2.1, plain, clean.2.2.2⟩

section Runs
variable (lawful : cereal.Lawful) (named : config.txPoolKey ≠ []) (genesis : Block)

include lawful

theorem unrecorded_lastRead (servers : Servers) (round : Round)
    (state : Unrecorded config cereal genesis servers) :
    lastRead config cereal servers round = Block.fresh (round.moment.memory 1) := by
  have text : storedText config servers config.lastBlockKey = [] := by
    simp [storedText, state.absent]
  simp only [lastRead, text, lawful.block.nothing]

theorem recorded_lastRead (clean : genesis.Clean) (servers : Servers) (round : Round)
    (state : Recorded config cereal genesis servers) :
    ∃ next, lastRead config cereal servers round = { genesis with _next := next } := by
  obtain ⟨next, plain, held⟩ := state.last
  refine ⟨next, ?_⟩
  simp only [lastRead, storedText_of_holds config cereal servers _ _ held,
    lawful.block.round _ _ (relinked_clean genesis clean next plain)]

include named

/-- Without a last block the new block is stored and linked to nothing. -/
theorem unrecorded_step (servers : Servers) (round : Round)
    (fresh : Fresh config rand round)
    (creates : Creates config cereal rand throws servers round)
    (state : Unrecorded config cereal genesis servers) :
    Unrecorded config cereal genesis
      (after (serve throws) (playRound config cereal rand) servers round) := by
  have read := unrecorded_lastRead config cereal lawful genesis servers round state
  have nowhere : (lastRead config cereal servers round)._id = [] := by rw [read]; rfl
  constructor
  · rw [(run_filled config cereal rand throws lawful named servers round creates.1
      creates.2).2, nowhere, if_neg (by simp), if_neg fresh.2.symm, state.absent]
    exact ite_self none
  · refine ⟨state.first.1, ?_⟩
    exact round_keeps_text config cereal rand throws lawful named servers round creates.2 _ _
      state.first.2 (fun _ => fresh.1.symm) (by rw [nowhere]; exact state.first.1)

/-- Genesis is linked to the new block and is still what the next call takes
for the last one. -/
theorem recorded_step (clean : genesis.Clean) (isFirst : genesis._id = config.initBlockId)
    (servers : Servers) (round : Round) (fresh : Fresh config rand round)
    (creates : Creates config cereal rand throws servers round)
    (state : Recorded config cereal genesis servers) :
    (newBlock config cereal rand servers round)._prev = config.initBlockId ∧
    Holds config cereal (after (serve throws) (playRound config cereal rand) servers round)
      (round.id rand) (newBlock config cereal rand servers round) ∧
    Holds config cereal (after (serve throws) (playRound config cereal rand) servers round)
      config.initBlockId { genesis with _next := round.id rand } ∧
    Recorded config cereal genesis
      (after (serve throws) (playRound config cereal rand) servers round) := by
  obtain ⟨next, read⟩ := recorded_lastRead config cereal lawful genesis clean servers round state
  have lastId : (lastRead config cereal servers round)._id = config.initBlockId := by
    rw [read]
    exact isFirst
  obtain ⟨_, _, first⟩ := state.first
  obtain ⟨lastNext, lastPlain, last⟩ := state.last
  have linked : Holds config cereal
      (after (serve throws) (playRound config cereal rand) servers round) config.initBlockId
      { genesis with _next := round.id rand } := by
    refine ⟨first.1, ?_⟩
    rw [(run_filled config cereal rand throws lawful named servers round creates.1 creates.2).2,
      lastId, if_pos ⟨first.1, rfl⟩, read]
    rfl
  refine ⟨lastId, ?_, linked, ?_, ⟨round.id rand, genBlockId_clean rand _, linked⟩⟩
  · exact round_stores_new config cereal rand throws lawful named servers round creates.2
      creates.1 (by rw [lastId]; exact fresh.1)
  · -- Where both keys are one, the linked genesis is what is read next.
    by_cases same : config.lastBlockKey = config.initBlockId
    · exact ⟨round.id rand, genBlockId_clean rand _, by rw [same]; exact linked⟩
    · refine ⟨lastNext, lastPlain, last.1, ?_⟩
      exact round_keeps_text config cereal rand throws lawful named servers round creates.2 _ _
        last.2 (fun _ => fresh.2.symm) (by rw [lastId]; exact same)

theorem unrecorded_run (rounds : List Round) (servers : Servers)
    (fresh : ∀ round ∈ rounds, Fresh config rand round)
    (creates : Throughout (serve throws) (playRound config cereal rand)
      (Creates config cereal rand throws) servers rounds)
    (state : Unrecorded config cereal genesis servers) :
    Unrecorded config cereal genesis
      (runAll (serve throws) (playRound config cereal rand) servers rounds) := by
  induction rounds generalizing servers with
  | nil => exact state
  | cons round rounds ih =>
      rw [List.forall_mem_cons] at fresh
      exact ih _ fresh.2 creates.2 (unrecorded_step config cereal rand throws lawful named genesis
        servers round fresh.1 creates.1 state)

theorem recorded_run (clean : genesis.Clean) (isFirst : genesis._id = config.initBlockId)
    (rounds : List Round) (servers : Servers)
    (fresh : ∀ round ∈ rounds, Fresh config rand round)
    (creates : Throughout (serve throws) (playRound config cereal rand)
      (Creates config cereal rand throws) servers rounds)
    (state : Recorded config cereal genesis servers) :
    Recorded config cereal genesis
      (runAll (serve throws) (playRound config cereal rand) servers rounds) := by
  induction rounds generalizing servers with
  | nil => exact state
  | cons round rounds ih =>
      rw [List.forall_mem_cons] at fresh
      exact ih _ fresh.2 creates.2 (recorded_step config cereal rand throws lawful named genesis
        clean isFirst servers round fresh.1 creates.1 state).2.2.2

theorem created_length (rounds : List Round) (servers : Servers)
    (creates : Throughout (serve throws) (playRound config cereal rand)
      (Creates config cereal rand throws) servers rounds) :
    (created config cereal rand throws servers rounds).length = rounds.length := by
  induction rounds generalizing servers with
  | nil => rfl
  | cons round rounds ih =>
      rw [created_filled config cereal rand throws lawful named servers round creates.1.2
        creates.1.1, List.length_cons, List.length_cons, ih _ creates.2]

end Runs

section Walks
variable (lawful : cereal.Lawful) (genesis : Block) (clean : genesis.Clean)

theorem linked_iff (servers : Servers) (first : Block) (visited blocks : List Block)
    (walk : Walk (readBlock config cereal throws memory servers) Block._next config.initBlockId
      (first :: visited)) :
    Linked config cereal throws memory servers blocks ↔
      visited.map (fun block => { block with _next := [] }) = blocks ∧
        (first :: visited).IsChain fun before block => block._prev = before._id := by
  constructor
  · rintro ⟨other, met, again, same, chained⟩
    cases Walk.unique _ _ _ _ _ walk again
    exact ⟨same, chained⟩
  · rintro ⟨same, chained⟩
    exact ⟨first, visited, walk, same, chained⟩

include lawful clean

theorem genesis_walk (servers : Servers) (unlinked : genesis._next = [])
    (held : Holds config cereal servers config.initBlockId genesis) :
    Walk (readBlock config cereal throws memory servers) Block._next config.initBlockId
      [genesis] := by
  apply Walk.step
  · exact readBlock_of_holds config cereal throws lawful memory servers _ _ clean held
  · rw [unlinked]
    exact Walk.stop (readBlock_nil config cereal throws lawful memory servers)

theorem single_walk (servers : Servers) (next : Bytes) (plain : CString next) (block : Block)
    (blockClean : block.Clean) (ends : block._next = [])
    (held : Holds config cereal servers config.initBlockId { genesis with _next := next })
    (stored : Holds config cereal servers next block) :
    Walk (readBlock config cereal throws memory servers) Block._next config.initBlockId
      [{ genesis with _next := next }, block] := by
  apply Walk.step
  · exact readBlock_of_holds config cereal throws lawful memory servers _ _
      (relinked_clean genesis clean next plain) held
  · apply Walk.step
    · exact readBlock_of_holds config cereal throws lawful memory servers _ _ blockClean stored
    · rw [ends]
      exact Walk.stop (readBlock_nil config cereal throws lawful memory servers)

end Walks

section Runs
variable (lawful : cereal.Lawful) (named : config.txPoolKey ≠ []) (genesis : Block)
  (clean : genesis.Clean)
include lawful named clean

theorem unrecorded_linked_iff (unlinked : genesis._next = []) (rounds : List Round)
    (servers : Servers) (fresh : ∀ round ∈ rounds, Fresh config rand round)
    (creates : Throughout (serve throws) (playRound config cereal rand)
      (Creates config cereal rand throws) servers rounds)
    (state : Unrecorded config cereal genesis servers) :
    Linked config cereal throws memory
        (runAll (serve throws) (playRound config cereal rand) servers rounds)
        (created config cereal rand throws servers rounds) ↔ rounds = [] := by
  have length := created_length config cereal rand throws lawful named rounds servers creates
  have final := unrecorded_run config cereal rand throws lawful named genesis rounds servers
    fresh creates state
  rw [linked_iff config cereal throws memory _ genesis [] _
    (genesis_walk config cereal throws memory lawful genesis clean _ unlinked final.first)]
  constructor
  · rintro ⟨nothing, -⟩
    rw [← nothing] at length
    exact List.length_eq_zero_iff.mp length.symm
  · rintro rfl
    exact ⟨rfl, List.isChain_singleton _⟩

/-- Only the last block is met, so it has to be the only one. -/
theorem recorded_linked_iff (isFirst : genesis._id = config.initBlockId) (earlier : List Round)
    (round : Round) (servers : Servers)
    (fresh : ∀ other ∈ earlier ++ [round], Fresh config rand other)
    (creates : Throughout (serve throws) (playRound config cereal rand)
      (Creates config cereal rand throws) servers (earlier ++ [round]))
    (state : Recorded config cereal genesis servers) :
    Linked config cereal throws memory
        (runAll (serve throws) (playRound config cereal rand) servers (earlier ++ [round]))
        (created config cereal rand throws servers (earlier ++ [round])) ↔ earlier = [] := by
  rw [throughout_append] at creates
  have length := created_length config cereal rand throws lawful named earlier servers creates.1
  have before := recorded_run config cereal rand throws lawful named genesis clean isFirst
    earlier servers (fun other member => fresh other (List.mem_append_left _ member)) creates.1
    state
  have last : Creates config cereal rand throws
      (runAll (serve throws) (playRound config cereal rand) servers earlier) round :=
    creates.2.1
  obtain ⟨prev, stored, linked, -⟩ := recorded_step config cereal rand throws lawful named genesis
    clean isFirst _ round (fresh round (by simp)) last before
  have blocks : created config cereal rand throws servers (earlier ++ [round]) =
      created config cereal rand throws servers earlier ++
        [newBlock config cereal rand
          (runAll (serve throws) (playRound config cereal rand) servers earlier) round] := by
    rw [created_append, created_filled config cereal rand throws lawful named _ round last.2
      last.1]
    rfl
  rw [runAll_append, runAll_cons, runAll_nil, blocks,
    linked_iff config cereal throws memory _ _ _ _
      (single_walk config cereal throws memory lawful genesis clean _ _
        (genBlockId_clean rand round.moment.seconds) _
        (newBlock_clean config cereal rand lawful _ round) rfl linked stored)]
  constructor
  · rintro ⟨same, -⟩
    have count := congrArg List.length same
    simp only [List.map_cons, List.map_nil, List.length_append, List.length_cons, List.length_nil,
      length] at count
    exact List.length_eq_zero_iff.mp (by omega)
  · rintro rfl
    refine ⟨rfl, ?_⟩
    simpa [isFirst] using prev

end Runs

/-- The chain is linked when there is no block yet, or one block whose call
found genesis recorded as the last block, and in no other run. -/
theorem chain_linked_iff (lawful : cereal.Lawful) (named : config.txPoolKey ≠ [])
    (genesis : Block) (start : Servers) (begins : RootStart config cereal genesis start)
    (rounds : List Round) (fresh : ∀ round ∈ rounds, Fresh config rand round)
    (creates : Throughout (serve throws) (playRound config cereal rand)
      (Creates config cereal rand throws) start rounds) :
    Linked config cereal throws memory
        (runAll (serve throws) (playRound config cereal rand) start rounds)
        (created config cereal rand throws start rounds) ↔
      rounds = [] ∨
        rounds.length = 1 ∧ Holds config cereal start config.lastBlockKey genesis := by
  rcases begins.last with absent | recorded
  · rw [unrecorded_linked_iff config cereal rand throws memory lawful named genesis begins.clean
      begins.unlinked rounds start fresh creates ⟨absent, begins.stored⟩]
    have nothing : ¬ Holds config cereal start config.lastBlockKey genesis := by
      rintro ⟨-, found⟩
      rw [absent] at found
      cases found
    simp [nothing]
  · have plain : CString genesis._next := begins.clean.2.2.1
    have state : Recorded config cereal genesis start :=
      ⟨⟨genesis._next, plain, recorded⟩, ⟨genesis._next, plain, begins.stored⟩⟩
    -- Only the last round decides what is met from genesis.
    rcases List.eq_nil_or_concat' rounds with rfl | ⟨earlier, round, rfl⟩
    · have walk := genesis_walk config cereal throws memory lawful genesis begins.clean start
        begins.unlinked begins.stored
      have linked := (linked_iff config cereal throws memory start genesis [] [] walk).mpr
        ⟨rfl, List.isChain_singleton _⟩
      simpa [created] using linked
    · rw [recorded_linked_iff config cereal rand throws memory lawful named genesis begins.clean
        begins.id earlier round start fresh creates state]
      simp [recorded]

end Chain

/-- The block of `test/initSuperWallet.cpp`. -/
def genesisBlock : Block :=
  ⟨rootServerConf.initBlockId, [], [], 0,
    [⟨ascii "tx00000000000000000000000000000000000000000000000000000000000000", [],
      ascii "0000000000000000000000000000000000000000000000000000000000000000", 1000000000000, 0⟩]⟩

/-- A server with genesis stored under the key. -/
def withGenesis (key : Bytes) (db : Db) : Db :=
  db.insert key (.string (cerealJson.block.toString genesisBlock))

/-- One server for blocks and cache, as `initSuperWallet` leaves it. -/
def shippedStart : Servers := fun _ => withGenesis rootServerConf.initBlockId ∅

def recordedStart : Servers := fun _ =>
  withGenesis rootServerConf.lastBlockKey (withGenesis rootServerConf.initBlockId ∅)

/-- A payment `id` of `value` in the pool, then a block at the given second. -/
def paymentRound (id : String) (value : Int64) (seconds : Nat) : Round :=
  ⟨⟨0, seconds, fun _ => ⟨0, 0⟩⟩,
    [cerealJson.transaction.toString ⟨ascii id, alice, bob, value, 0⟩]⟩

theorem shipped_fresh (round : Round) : Fresh rootServerConf glibcRand round := by
  have length := genBlockId_length glibcRand round.moment.seconds
  constructor
  · intro same
    rw [Round.id] at same
    rw [same] at length
    revert length
    decide +kernel
  · intro same
    rw [Round.id] at same
    rw [same] at length
    revert length
    decide +kernel

theorem genesisBlock_clean : genesisBlock.Clean := by decide +kernel

theorem shippedStart_root :
    RootStart rootServerConf cerealJson genesisBlock shippedStart where
  clean := genesisBlock_clean
  id := rfl
  unlinked := rfl
  stored := ⟨by decide +kernel, Finmap.lookup_insert _⟩
  last := Or.inl (Finmap.lookup_insert_of_ne _ (by decide +kernel))

theorem recordedStart_recorded :
    Holds rootServerConf cerealJson recordedStart rootServerConf.lastBlockKey genesisBlock :=
  ⟨by decide +kernel, Finmap.lookup_insert _⟩

theorem recordedStart_root :
    RootStart rootServerConf cerealJson genesisBlock recordedStart where
  clean := genesisBlock_clean
  id := rfl
  unlinked := rfl
  stored := ⟨by decide +kernel,
    (Finmap.lookup_insert_of_ne _ (by decide +kernel)).trans (Finmap.lookup_insert _)⟩
  last := Or.inr recordedStart_recorded

theorem chain_linked_iff_first_block :
    Linked rootServerConf cerealJson (fun _ => false) ⟨0, 0⟩
      (runAll (serve fun _ => false) (playRound rootServerConf cerealJson glibcRand)
        recordedStart [paymentRound "t1" 4 1530000000])
      (created rootServerConf cerealJson glibcRand (fun _ => false) recordedStart
        [paymentRound "t1" 4 1530000000]) :=
  (chain_linked_iff rootServerConf cerealJson glibcRand (fun _ => false) ⟨0, 0⟩
    cerealJson_lawful (by decide +kernel) genesisBlock recordedStart recordedStart_root
    [paymentRound "t1" 4 1530000000] (fun round _ => shipped_fresh round)
    ⟨by decide +kernel, trivial⟩).mpr (Or.inr ⟨rfl, recordedStart_recorded⟩)

/-- On the node as `initSuperWallet` leaves it, the first block is not met
from genesis. -/
theorem created_block_unreachable :
    RootStart rootServerConf cerealJson genesisBlock shippedStart ∧
    Creates rootServerConf cerealJson glibcRand (fun _ => false) shippedStart
      (paymentRound "t1" 4 1530000000) ∧
    ¬ Linked rootServerConf cerealJson (fun _ => false) ⟨0, 0⟩
      (runAll (serve fun _ => false) (playRound rootServerConf cerealJson glibcRand)
        shippedStart [paymentRound "t1" 4 1530000000])
      (created rootServerConf cerealJson glibcRand (fun _ => false) shippedStart
        [paymentRound "t1" 4 1530000000]) := by
  have creates : Creates rootServerConf cerealJson glibcRand (fun _ => false) shippedStart
      (paymentRound "t1" 4 1530000000) := by
    decide +kernel
  have state : Unrecorded rootServerConf cerealJson genesisBlock shippedStart :=
    ⟨Finmap.lookup_insert_of_ne _ (by decide +kernel), shippedStart_root.stored⟩
  refine ⟨shippedStart_root, creates, ?_⟩
  rw [unrecorded_linked_iff rootServerConf cerealJson glibcRand (fun _ => false) ⟨0, 0⟩
    cerealJson_lawful (by decide +kernel) genesisBlock shippedStart_root.clean rfl
    [paymentRound "t1" 4 1530000000] shippedStart (fun round _ => shipped_fresh round)
    ⟨creates, trivial⟩ state]
  simp

end FPayNode.BlockChain
